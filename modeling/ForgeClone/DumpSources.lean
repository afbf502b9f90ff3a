import ForgeClone.Metadata

/-!
# `dump_sources`

The materializer of `forge clone`: it writes the fetched sources under `raw_sources/<contract>`,
decides whether to reorganise them into the project's `src`/`lib` layout, moves every top-level
entry (or, for `contracts`, `src`, `lib` and `node_modules`, every entry of it) to its place,
removes the staging directory, and returns the remappings: the project's existing ones, one per
move, then the metadata's, each made relative to the root.

Each definition below is one part of the Rust function, in its order, with the same checks.
The environment's choices are inputs: `existing` is what `Remapping::find_many(root)` found
before the dump, and `en` is the order in which `read_dir` yields entries.

## Main definitions

* `ForgeClone.writeTo` — `SourceTree::write_to`
* `ForgeClone.moveEntry` — one iteration of the move loop, `moveChildren` its inner loop
* `ForgeClone.reorgRemappingPath` — the rewrite of a metadata remapping's path
* `ForgeClone.dumpSources` — the whole function
-/

namespace ForgeClone

/-- Modelled from the spec: `path_config.sources`, the project's canonical source directory,
`root/src`. `ProjectPathsConfig` belongs to foundry-compilers, which resolves it from the
project's layout; the model fixes the layout `forge init` creates, and leaves out that
resolution. -/
def srcDir (root : Path) : Path := root ++ ["src"]

/-- Modelled from the spec: `path_config.libraries[0]`, the canonical library directory,
`root/lib`, under the same fixed layout. -/
def libDir (root : Path) : Path := root ++ ["lib"]

/-- The `node_modules` directory, created when the sources have one. -/
def nodeModulesDir (root : Path) : Path := root ++ ["node_modules"]

/-- The staging directory. -/
def rawSourcesDir (root : Path) : Path := root ++ ["raw_sources"]

/-- An `io::Result` under `?` in a function returning `eyre::Result`. -/
def liftIo {α : Type} (r : Except IoError α) : Except CloneError α := r.mapError .io

@[simp] theorem liftIo_eq_ok {α : Type} {r : Except IoError α} {a : α} :
    liftIo r = .ok a ↔ r = .ok a :=
  mapError_eq_ok

/-! ## Staging the sources

`SourceTree::write_to` belongs to foundry-block-explorers. It sanitises each entry's path
(`sanitize_path` drops its `..` components and its root), gives a file name without extension
the extension `sol`, creates the parent directories and writes the file. The file system then
reads a leading `.` as the directory it stands in. -/

/-- `Path::extension` of a file name: the text after its last `.`; none for a name without one,
for a name whose only `.` leads it, and for `..`. -/
def fileExtension (name : Name) : Option String :=
  if name = ".." then none
  else
    match name.toList.reverse.span (· ≠ '.') with
    | (_, []) => none
    | (after, _ :: before) => if before = [] then none else some (String.mk after.reverse)

/-- `if path.extension().is_none() { path = path.with_extension("sol") }`, on the components of
a path: a file name without an extension gets `.sol`. -/
def withSolExtension : Path → Path
  | [] => []
  | [n] => [if (fileExtension n).isNone then n ++ ".sol" else n]
  | n :: m :: rest => n :: withSolExtension (m :: rest)

/-- Modelled from the spec: `sanitize_path` of foundry-block-explorers, the path's components
without `..`, made relative (`strip_prefix("/")`, which `pathComponents` does by leaving out the
root). -/
def sanitizePath (s : String) : List Name := (pathComponents s).filter (· ≠ "..")

/-- Where `write_to` writes the entry at `s`, below its target: the sanitised path, a leading `.`
resolved, with `.sol` added to a file name without extension. -/
def entryPath (s : String) : Path := withSolExtension ((sanitizePath s).filter (· ≠ "."))

theorem mem_withSolExtension {n : Name} :
    ∀ {p : Path}, n ∈ withSolExtension p → n ∈ p ∨ ∃ m ∈ p, n = m ++ ".sol"
  | [], h => absurd h (List.not_mem_nil _)
  | [m], h => by
    simp only [withSolExtension, List.mem_singleton] at h
    split_ifs at h <;> simp [h]
  | m :: m' :: rest, h => by
    rcases List.mem_cons.mp h with rfl | h
    · exact .inl (List.mem_cons_self _ _)
    · rcases mem_withSolExtension h with h | ⟨k, hk, rfl⟩
      · exact .inl (List.mem_cons_of_mem _ h)
      · exact .inr ⟨k, List.mem_cons_of_mem _ hk, rfl⟩

theorem ne_empty_of_mem_pathComponents {s : String} {n : Name} (h : n ∈ pathComponents s) :
    n ≠ "" := by
  simp only [pathComponents, List.mem_append, List.mem_filter, List.mem_map] at h
  rcases h with h | ⟨⟨seg, hseg, rfl⟩, -⟩
  · split_ifs at h <;> simp_all
  · intro he
    have hne : seg ≠ [] := by simpa using hseg.2
    exact hne (by simpa using congrArg String.data he)

/-- **Every component `write_to` writes through names an entry**: none is `..`, `.` or empty.
So the write stays below its target, and the file-system model may read each component as a
name. -/
theorem mem_entryPath {s : String} {n : Name} (h : n ∈ entryPath s) :
    n ≠ ".." ∧ n ≠ "." ∧ n ≠ "" := by
  rcases mem_withSolExtension h with h | ⟨m, -, rfl⟩
  · obtain ⟨h₁, h₂⟩ := List.mem_filter.mp h
    obtain ⟨h₃, h₄⟩ := List.mem_filter.mp h₁
    exact ⟨by simpa using h₄, by simpa using h₂, ne_empty_of_mem_pathComponents h₃⟩
  · -- a name with `.sol` appended is at least four characters long
    have hlen : ∀ t : String, t.length < 4 → m ++ ".sol" ≠ t := fun t ht he => by
      have := congrArg String.length he
      simp only [String.length_append] at this
      have : ".sol".length = 4 := rfl
      omega
    exact ⟨hlen _ (by decide), hlen _ (by decide), hlen _ (by decide)⟩

/-- Modelled from the spec: the loop of `SourceTree::write_to`. For each entry, create the
parent directories of its path, then write the file. -/
def writeEntries (dir : Path) : List (String × String) → FileSystem → Except IoError FileSystem
  | [], fs => .ok fs
  | (path, contents) :: rest, fs => do
    let joined := dir ++ entryPath path
    let fs ← fs.createDirAll joined.dropLast
    let fs ← fs.writeFile joined contents
    writeEntries dir rest fs

/-- Modelled from the spec: `SourceTree::write_to`. -/
def writeTo (fs : FileSystem) (dir : Path) (entries : List (String × String)) :
    Except IoError FileSystem := do
  let fs ← fs.createDirAll dir
  writeEntries dir entries fs

/-- Where the source at `s` is staged, below `raw_sources`. -/
def Metadata.stagedPath (meta : Metadata) (s : String) : Path :=
  entryPath (joinPath meta.contractName s)

/-! ## The reorganisation decision -/

/-- A top-level name that keeps the fetched layout reorganisable. -/
def reorgName (folder : Name) : Bool :=
  folder == "src" || folder == "lib" || folder == "node_modules" || folder == "contracts" ||
    folder == "hardhat" || folder == "forge-std" || startsWith folder "@"

/-- The directories whose entries are moved one by one when reorganising. -/
def flattenedName (folder : Name) : Bool :=
  folder == "contracts" || folder == "src" || folder == "lib" || folder == "node_modules"

/-- The directories moved whole into `lib` when reorganising. -/
def libUnitName (folder : Name) : Bool :=
  folder == "hardhat" || folder == "forge-std" || startsWith folder "@"

/-- `to_reorg`: not opted out, and every top-level entry of the staged contract directory has a
recognised name. -/
def reorgDecision (fs : FileSystem) (en : Enumeration) (staged : Path) (noReorg : Bool) :
    Except CloneError Bool :=
  if noReorg then .ok false else (liftIo (fs.readDir en staged)).map (·.all reorgName)

/-! ## The move loop -/

/-- `ensure!(!Path::exists(&dest), "destination already exists: ...")` followed by
`rename(src, &dest)?`, which every move of the loop makes. -/
def guardedRename (fs : FileSystem) (src dest : Path) : Except CloneError FileSystem :=
  if fs.pathExists dest then .error (.destinationExists dest) else liftIo (fs.rename src dest)

/-- The inner loop for a flattened directory `folder` at `entry`: each of its entries `c` goes
to `newDir/c` and gets the remapping `folder/c`. -/
def moveChildren (folder : Name) (entry newDir : Path) :
    List Name → FileSystem → List Remapping → Except CloneError (FileSystem × List Remapping)
  | [], fs, rs => .ok (fs, rs)
  | c :: cs, fs, rs => do
    let dest := newDir ++ [c]
    let fs ← guardedRename fs (entry ++ [c]) dest
    moveChildren folder entry newDir cs fs (rs ++ [⟨none, folder ++ "/" ++ c, pathString dest⟩])

/-- The destination of a flattened directory's entries; for `node_modules` the directory is
created first. -/
def flattenTarget (root : Path) (folder : Name) (fs : FileSystem) :
    Except CloneError (Path × FileSystem) :=
  if folder = "lib" then .ok (libDir root, fs)
  else if folder = "node_modules" then
    (liftIo (fs.createDir (nodeModulesDir root))).map (nodeModulesDir root, ·)
  else .ok (srcDir root, fs)

/-- One iteration of the move loop, on the top-level entry `folder` of the staged directory. -/
def moveEntry (root staged : Path) (toReorg : Bool) (en : Enumeration) (folder : Name)
    (fs : FileSystem) (rs : List Remapping) : Except CloneError (FileSystem × List Remapping) :=
  let entry := staged ++ [folder]
  if toReorg then
    if flattenedName folder then do
      let (newDir, fs) ← flattenTarget root folder fs
      let names ← liftIo (fs.readDir en entry)
      moveChildren folder entry newDir names fs rs
    else if !libUnitName folder then .error (.panic "assertion failed")
    else do
      let dest := libDir root ++ [folder]
      let fs ← if folder = "forge-std" then liftIo (fs.removeDirAll dest) else .ok fs
      let fs ← guardedRename fs entry dest
      .ok (fs, rs ++ [⟨none, folder, pathString dest⟩])
  else do
    let dest := srcDir root ++ [folder]
    let fs ← guardedRename fs entry dest
    .ok (fs, if folder ≠ "src" then rs ++ [⟨none, folder, pathString dest⟩] else rs)

/-- The move loop, over the top-level entries in the order `read_dir` yields them. -/
def moveEntries (root staged : Path) (toReorg : Bool) (en : Enumeration) :
    List Name → FileSystem → List Remapping → Except CloneError (FileSystem × List Remapping)
  | [], fs, rs => .ok (fs, rs)
  | folder :: rest, fs, rs => do
    let (fs, rs) ← moveEntry root staged toReorg en folder fs rs
    moveEntries root staged toReorg en rest fs rs

/-! ## The metadata's remappings -/

/-- The path a metadata remapping gets when the layout is reorganised: a path starting with
`contracts` (as a string) has that component replaced by `src`, and a path starting with `@`,
`hardhat/` or `forge-std/` is put under `lib`. -/
def reorgRemappingPath (path : String) : Except CloneError String :=
  if startsWith path "contracts" then
    match stripPrefix path "contracts" with
    | some rest => .ok (joinPath "src" rest)
    | none => .error .stripPrefix
  else if startsWith path "@" || startsWith path "hardhat/" || startsWith path "forge-std/" then
    .ok (joinPath "lib" path)
  else .ok path

/-- The loop appending the metadata's remappings, rewritten when reorganising. -/
def addMetadataRemappings (toReorg : Bool) :
    List Remapping → List Remapping → Except CloneError (List Remapping)
  | [], rs => .ok rs
  | r :: ms, rs =>
    if toReorg then
      match reorgRemappingPath r.path with
      | .ok path => addMetadataRemappings toReorg ms (rs ++ [{ r with path := path }])
      | .error e => .error e
    else addMetadataRemappings toReorg ms (rs ++ [r])

/-! ## The whole function -/

/-- `dump_sources(meta, root, no_reorg)`, from the state `fs`, with the project's existing
remappings `existing` and the enumeration order `en`. Returns the remappings and the state. -/
def dumpSources (meta : Metadata) (root : Path) (noReorg : Bool) (existing : List Remapping)
    (en : Enumeration) (fs : FileSystem) :
    Except CloneError (List RelativeRemapping × FileSystem) := do
  let raw := rawSourcesDir root
  let staged := raw ++ [meta.contractName]
  let fs ← (writeTo fs raw meta.sourceTree).mapError .dumpFailed
  let toReorg ← reorgDecision fs en staged noReorg
  if !fs.pathExists (srcDir root) then throw .srcMissing
  if !fs.pathExists (libDir root) then throw .libMissing
  let names ← liftIo (fs.readDir en staged)
  let (fs, rs) ← moveEntries root staged toReorg en names fs existing
  let fs ← liftIo (fs.removeDirAll raw)
  let settings ← meta.settings.mapError .settings
  let rs ← addMetadataRemappings toReorg settings.remappings rs
  return (rs.map (Remapping.intoRelative root), fs)

/-- A project with empty `src` and `lib`. -/
def sampleProject : FileSystem := FileSystem.build [(["src"], .dir), (["lib"], .dir)]

end ForgeClone
