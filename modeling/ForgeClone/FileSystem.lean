import Mathlib.Data.List.Dedup

/-!
# The filesystem `forge clone` works on

`dump_sources` is a sequence of `std::fs` calls: `create_dir`, `create_dir_all`, `write`,
`rename`, `remove_dir_all`, `read_dir` and `Path::exists`. This file gives each of them a total
semantics over an explicit state, failing exactly when its precondition fails.

A state is a map from absolute paths (lists of components below `/`) to nodes. It carries its
well-formedness as fields: the root is a directory, and the parent of anything that exists is a
directory. A finite `listing` of paths, which may contain stale entries, makes `read_dir`
computable.

## Enumeration order

`read_dir` yields a directory's entries in an order the operating system chooses. That order is
an input here, an `Enumeration`, which may permute any list of names but has to keep every
name exactly once. Nothing in this file fixes it, so a theorem quantified over every
`Enumeration` holds for every order the operating system can produce.

## Main definitions

* `ForgeClone.FileSystem` — the state, with its invariants as fields
* `FileSystem.createDir`, `createDirAll`, `writeFile`, `rename`, `removeDirAll`, `readDir`
* `ForgeClone.renameNode` — what `rename` does to the node map, used by every later proof
-/

namespace ForgeClone

/-- A path component. -/
abbrev Name := String

/-- An absolute path, as its components below `/`. -/
abbrev Path := List Name

/-- What a path holds. -/
inductive Node
  | file (content : String)
  | dir
  deriving DecidableEq, Repr

/-- The `io::ErrorKind`s the modelled primitives can fail with. -/
inductive IoError
  | notFound
  | alreadyExists
  | notADirectory
  | isADirectory
  | invalidInput
  deriving DecidableEq, Repr

/-- A filesystem state. `listing` over-approximates the paths that exist, so that directory
entries can be enumerated. -/
structure FileSystem where
  /-- What each path holds, `none` when it does not exist. -/
  node : Path → Option Node
  /-- Every existing path, and possibly some that no longer exist. -/
  listing : List Path
  mem_listing : ∀ p, node p ≠ none → p ∈ listing
  root_dir : node [] = some .dir
  parent_dir : ∀ p n, node (p ++ [n]) ≠ none → node p = some .dir

/-- The name of `q` as an entry of the directory `p`, when `q` is one. -/
def childName (p q : Path) : Option Name :=
  match q.drop p.length with
  | [n] => if p <+: q then some n else none
  | _ => none

theorem childName_eq_some {p q : Path} {n : Name} : childName p q = some n ↔ q = p ++ [n] := by
  constructor
  · intro h
    unfold childName at h
    split at h
    · next heq =>
      split at h <;> cases h
      rw [← heq]
      exact (List.prefix_iff_eq_append.mp ‹_›).symm
    · cases h
  · rintro rfl
    simp [childName]

/-- The effect of `rename s d` on the node map: the subtree at `s` now sits at `d`. -/
def renameNode (node : Path → Option Node) (s d : Path) (q : Path) : Option Node :=
  if d <+: q then node (s ++ q.drop d.length) else if s <+: q then none else node q

/-- The effect of `remove_dir_all p` on the node map. -/
def removeNode (node : Path → Option Node) (p : Path) (q : Path) : Option Node :=
  if p <+: q then none else node q

/-- The node map with `p` set to `v`. -/
def setNode (node : Path → Option Node) (p : Path) (v : Node) (q : Path) : Option Node :=
  if q = p then some v else node q

theorem ne_nil_of_node_eq_none {fs : FileSystem} {p : Path} (h : fs.node p = none) : p ≠ [] := by
  rintro rfl
  simp [fs.root_dir] at h

namespace FileSystem

variable (fs : FileSystem)

/-- `Path::exists`. -/
def pathExists (p : Path) : Bool := (fs.node p).isSome

@[simp] theorem pathExists_eq_false {p : Path} : fs.pathExists p = false ↔ fs.node p = none := by
  simp [pathExists]

@[simp] theorem pathExists_eq_true {p : Path} : fs.pathExists p = true ↔ fs.node p ≠ none := by
  simp [pathExists, Option.isSome_iff_ne_none]

/-- The names of the existing entries of `p`, each once. -/
def children (p : Path) : List Name :=
  ((fs.listing.filterMap (childName p)).dedup).filter fun n => (fs.node (p ++ [n])).isSome

theorem mem_children {p : Path} {n : Name} : n ∈ fs.children p ↔ fs.node (p ++ [n]) ≠ none := by
  simp only [children, List.mem_filter, List.mem_dedup, List.mem_filterMap, childName_eq_some,
    Option.isSome_iff_ne_none, and_iff_right_iff_imp]
  exact fun h => ⟨_, fs.mem_listing _ h, rfl⟩

theorem nodup_children (p : Path) : (fs.children p).Nodup :=
  (List.nodup_dedup _).filter _

theorem node_of_prefix {p q : Path} (hpq : p <+: q) (hq : fs.node q ≠ none) : fs.node p ≠ none := by
  obtain ⟨r, rfl⟩ := hpq
  induction r using List.reverseRecOn with
  | nil => simpa using hq
  | append_singleton r n ih =>
    rw [← List.append_assoc] at hq
    exact ih (by simp [fs.parent_dir _ _ hq])

/-! ## `create_dir` and `write` -/

/-- `std::fs::create_dir`: fails when `p` exists or its parent is not a directory. -/
def createDir (p : Path) : Except IoError FileSystem :=
  if hp : fs.node p = none then
    if hd : fs.node p.dropLast = some .dir then
      .ok
        { node := setNode fs.node p .dir
          listing := p :: fs.listing
          mem_listing := fun q hq => by
            unfold setNode at hq
            split at hq
            · simp_all
            · exact List.mem_cons_of_mem _ (fs.mem_listing q hq)
          root_dir := by simp [setNode, (ne_nil_of_node_eq_none hp).symm, fs.root_dir]
          parent_dir := fun q n hq => by
            unfold setNode at hq ⊢
            have hne : q ≠ p := by
              rintro rfl
              simpa [hp] using fs.parent_dir q n (by simpa using hq)
            by_cases hqn : q ++ [n] = p
            · subst hqn; simpa [hne] using hd
            · simpa [hne] using fs.parent_dir q n (by simpa [hqn] using hq) }
    else .error .notFound
  else .error .alreadyExists

/-- `std::fs::write`: creates or truncates a file; fails when the parent is not a directory or
`p` is a directory. -/
def writeFile (p : Path) (content : String) : Except IoError FileSystem :=
  if hd : fs.node p.dropLast = some .dir then
    if hp : fs.node p = some .dir then .error .isADirectory
    else
      .ok
        { node := setNode fs.node p (.file content)
          listing := p :: fs.listing
          mem_listing := fun q hq => by
            unfold setNode at hq
            split at hq
            · simp_all
            · exact List.mem_cons_of_mem _ (fs.mem_listing q hq)
          root_dir := by
            have : p ≠ [] := by rintro rfl; exact hp fs.root_dir
            simp [setNode, this.symm, fs.root_dir]
          parent_dir := fun q n hq => by
            unfold setNode at hq ⊢
            by_cases hqn : q ++ [n] = p
            · subst hqn; simpa using hd
            · have hq' := fs.parent_dir q n (by simpa [hqn] using hq)
              have hne : q ≠ p := by rintro rfl; exact hp hq'
              simpa [hne] using hq' }
  else .error .notFound

theorem createDir_ok {p : Path} {fs' : FileSystem} (h : fs.createDir p = .ok fs') :
    fs.node p = none ∧ fs.node p.dropLast = some .dir ∧ fs'.node = setNode fs.node p .dir := by
  unfold createDir at h
  repeat' split at h
  all_goals cases h
  exact ⟨‹_›, ‹_›, rfl⟩

theorem createDir_of {p : Path} (hp : fs.node p = none) (hd : fs.node p.dropLast = some .dir) :
    ∃ fs', fs.createDir p = .ok fs' ∧ fs'.node = setNode fs.node p .dir := by
  simp only [createDir, hp, hd, dite_true]
  exact ⟨_, rfl, rfl⟩

theorem writeFile_ok {p : Path} {c : String} {fs' : FileSystem} (h : fs.writeFile p c = .ok fs') :
    fs.node p.dropLast = some .dir ∧ fs.node p ≠ some .dir ∧
      fs'.node = setNode fs.node p (.file c) := by
  unfold writeFile at h
  repeat' split at h
  all_goals cases h
  exact ⟨‹_›, ‹_›, rfl⟩

/-- Where `rename s d` sends a listed path. -/
def rebase (s d q : Path) : Option Path := if s <+: q then some (d ++ q.drop s.length) else none

theorem renameNode_parent_dir {s d : Path} (hd : fs.node d = none)
    (hp : fs.node d.dropLast = some .dir) (hsd : ¬ s <+: d) (q : Path) (n : Name)
    (hq : renameNode fs.node s d (q ++ [n]) ≠ none) : renameNode fs.node s d q = some .dir := by
  unfold renameNode at hq ⊢
  have hsq : s <+: q → s <+: q ++ [n] := fun h => h.trans (List.prefix_append _ _)
  by_cases hdq : d <+: q
  · have hdqn : d <+: q ++ [n] := hdq.trans (List.prefix_append _ _)
    simp only [hdqn, if_true, List.drop_append_of_le_length hdq.length_le,
      ← List.append_assoc] at hq
    simpa [hdq] using fs.parent_dir _ _ hq
  · by_cases hdqn : d <+: q ++ [n]
    · obtain rfl : d = q ++ [n] := (List.prefix_concat_iff.mp hdqn).resolve_right hdq
      have hs : ¬ s <+: q := fun h => hsd (hsq h)
      simpa [hdq, hs] using hp
    · have hs : ¬ s <+: q ++ [n] := by intro h; simp [hdqn, h] at hq
      simp only [hdqn, hs, if_false] at hq
      have hs' : ¬ s <+: q := fun h => hs (hsq h)
      simpa [hdq, hs'] using fs.parent_dir _ _ hq

/-- `std::fs::rename`. Renaming onto an existing path fails here; every call in `dump_sources` is
guarded by `Path::exists` on the destination, so the difference from POSIX (which may replace the
destination) never shows. -/
def rename (s d : Path) : Except IoError FileSystem :=
  if fs.node s = none then .error .notFound
  else if hd : fs.node d = none then
    if hp : fs.node d.dropLast = some .dir then
      if hsd : s <+: d then .error .invalidInput
      else
        .ok
          { node := renameNode fs.node s d
            listing := fs.listing ++ fs.listing.filterMap (rebase s d)
            mem_listing := fun q hq => by
              unfold renameNode at hq
              split at hq
              · next hdq =>
                refine List.mem_append_right _ (List.mem_filterMap.mpr ⟨_, fs.mem_listing _ hq, ?_⟩)
                simp [rebase, (List.prefix_iff_eq_append.mp hdq)]
              · split at hq
                · exact absurd rfl hq
                · exact List.mem_append_left _ (fs.mem_listing _ hq)
            root_dir := by
              have hd' : ¬ d <+: [] := by
                rw [List.prefix_nil]; rintro rfl; simp [fs.root_dir] at hd
              have hs' : ¬ s <+: [] := by
                rw [List.prefix_nil]; rintro rfl; exact hsd (List.nil_prefix)
              simp [renameNode, hd', hs', fs.root_dir]
            parent_dir := fs.renameNode_parent_dir hd hp hsd }
    else .error .notFound
  else .error .alreadyExists

theorem rename_ok {s d : Path} {fs' : FileSystem} (h : fs.rename s d = .ok fs') :
    fs.node s ≠ none ∧ fs.node d = none ∧ fs.node d.dropLast = some .dir ∧ ¬ s <+: d ∧
      fs'.node = renameNode fs.node s d := by
  unfold rename at h
  repeat' split at h
  all_goals cases h
  exact ⟨‹_›, ‹_›, ‹_›, ‹_›, rfl⟩

theorem rename_of {s d : Path} (hs : fs.node s ≠ none) (hd : fs.node d = none)
    (hp : fs.node d.dropLast = some .dir) (hsd : ¬ s <+: d) :
    ∃ fs', fs.rename s d = .ok fs' ∧ fs'.node = renameNode fs.node s d := by
  simp only [rename, hs, hd, hp, hsd, if_false, dite_true, dite_false]
  exact ⟨_, rfl, rfl⟩

/-! ## `remove_dir_all` -/

/-- `std::fs::remove_dir_all`: fails on a missing path and on a file. -/
def removeDirAll (p : Path) : Except IoError FileSystem :=
  if hp : fs.node p = some .dir ∧ p ≠ [] then
    .ok
      { node := removeNode fs.node p
        listing := fs.listing
        mem_listing := fun q hq => by
          unfold removeNode at hq
          split at hq
          · exact absurd rfl hq
          · exact fs.mem_listing _ hq
        root_dir := by simp [removeNode, List.prefix_nil, hp.2, fs.root_dir]
        parent_dir := fun q n hq => by
          unfold removeNode at hq ⊢
          have hpq : ¬ p <+: q ++ [n] := by intro h; simp [h] at hq
          simp only [hpq, if_false] at hq
          have hpq' : ¬ p <+: q := fun h => hpq (h.trans (List.prefix_append _ _))
          simpa [hpq'] using fs.parent_dir _ _ hq }
  else if fs.node p = none then .error .notFound else .error .notADirectory

theorem removeDirAll_ok {p : Path} {fs' : FileSystem} (h : fs.removeDirAll p = .ok fs') :
    fs.node p = some .dir ∧ p ≠ [] ∧ fs'.node = removeNode fs.node p := by
  unfold removeDirAll at h
  split at h
  · cases h; exact ⟨‹_ ∧ _›.1, ‹_ ∧ _›.2, rfl⟩
  · split at h <;> cases h

theorem removeDirAll_of {p : Path} (hp : fs.node p = some .dir) (hne : p ≠ []) :
    ∃ fs', fs.removeDirAll p = .ok fs' ∧ fs'.node = removeNode fs.node p := by
  simp only [removeDirAll, hp, ne_eq, hne, not_false_eq_true, and_self, dite_true]
  exact ⟨_, rfl, rfl⟩

/-! ## What each primitive leaves in place -/

variable {fs' : FileSystem} {q : Path}

/-- `create_dir` only fills an empty path. -/
theorem createDir_keeps {p : Path} (h : fs.createDir p = .ok fs') (hq : fs.node q ≠ none) :
    fs'.node q = fs.node q := by
  obtain ⟨hp, -, hn⟩ := fs.createDir_ok h
  rw [hn, setNode, if_neg fun e : q = p => hq (e ▸ hp)]

/-- `rename` never overwrites, and takes away only what lies below its source. -/
theorem rename_keeps {s d : Path} (h : fs.rename s d = .ok fs') (hs : ¬ s <+: q)
    (hq : fs.node q ≠ none) : fs'.node q = fs.node q := by
  obtain ⟨-, hd, -, -, hn⟩ := fs.rename_ok h
  rw [hn, renameNode, if_neg fun hdq => fs.node_of_prefix hdq hq hd, if_neg hs]

theorem removeDirAll_keeps {p : Path} (h : fs.removeDirAll p = .ok fs') (hp : ¬ p <+: q) :
    fs'.node q = fs.node q := by
  rw [(fs.removeDirAll_ok h).2.2, removeNode, if_neg hp]

end FileSystem

/-! ## `create_dir_all` -/

/-- `std::fs::create_dir_all` of `base ++ rest`, where `base` is already a directory: creates the
missing components from the top down and fails on a component that is a file. -/
def createDirAllFrom (base : Path) : List Name → FileSystem → Except IoError FileSystem
  | [], fs => .ok fs
  | n :: rest, fs =>
    match fs.node (base ++ [n]) with
    | some .dir => createDirAllFrom (base ++ [n]) rest fs
    | some (.file _) => .error .alreadyExists
    | none => fs.createDir (base ++ [n]) >>= createDirAllFrom (base ++ [n]) rest

/-- `std::fs::create_dir_all`. -/
def FileSystem.createDirAll (fs : FileSystem) (p : Path) : Except IoError FileSystem :=
  createDirAllFrom [] p fs

/-! ## Building a state -/

/-- The state with nothing but the root directory. -/
def FileSystem.empty : FileSystem where
  node p := if p = [] then some .dir else none
  listing := [[]]
  mem_listing p h := by by_cases hp : p = [] <;> simp_all
  root_dir := rfl
  parent_dir p n h := by simp at h

/-- The state made by creating each directory or file of `entries` in turn, from the empty one;
an entry that cannot be created is skipped. -/
def FileSystem.build (entries : List (Path × Node)) : FileSystem :=
  entries.foldl (fun fs e =>
    match e.2 with
    | .dir => (fs.createDir e.1).toOption.getD fs
    | .file c => (fs.writeFile e.1 c).toOption.getD fs) empty

/-! ## `read_dir` -/

/-- The order in which `read_dir` yields the entries of each directory: any permutation of them. -/
structure Enumeration where
  /-- The entries of the directory at the path, in the order they are yielded. -/
  order : Path → List Name → List Name
  perm : ∀ p names, List.Perm (order p names) names

/-- Entries in the order the state lists them. -/
def Enumeration.listed : Enumeration := ⟨fun _ names => names, fun _ _ => List.Perm.refl _⟩

/-- Entries in the reverse of the order the state lists them. -/
def Enumeration.reversed : Enumeration := ⟨fun _ names => names.reverse, fun _ _ => List.reverse_perm _⟩

/-- `std::fs::read_dir`, collected: the names of the entries, in the order `en` chooses. -/
def FileSystem.readDir (fs : FileSystem) (en : Enumeration) (p : Path) :
    Except IoError (List Name) :=
  match fs.node p with
  | some .dir => .ok (en.order p (fs.children p))
  | some (.file _) => .error .notADirectory
  | none => .error .notFound

theorem FileSystem.readDir_ok {fs : FileSystem} {en : Enumeration} {p : Path} {names : List Name}
    (h : fs.readDir en p = .ok names) :
    fs.node p = some .dir ∧ names.Nodup ∧ ∀ n, n ∈ names ↔ fs.node (p ++ [n]) ≠ none := by
  unfold readDir at h
  split at h <;> cases h
  exact ⟨‹_›, ((en.perm _ _).nodup_iff).mpr (fs.nodup_children p),
    fun n => ((en.perm _ _).mem_iff).trans fs.mem_children⟩

/-- What `read_dir` yields is the directory's entries in some order. -/
theorem FileSystem.readDir_perm {fs : FileSystem} {en : Enumeration} {p : Path} {names : List Name}
    (h : fs.readDir en p = .ok names) : List.Perm names (fs.children p) := by
  unfold readDir at h
  split at h <;> cases h
  exact en.perm _ _

theorem FileSystem.readDir_of {fs : FileSystem} {en : Enumeration} {p : Path}
    (h : fs.node p = some .dir) : ∃ names, fs.readDir en p = .ok names :=
  ⟨en.order p (fs.children p), by simp [readDir, h]⟩

end ForgeClone
