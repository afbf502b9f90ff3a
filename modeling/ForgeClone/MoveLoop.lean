import ForgeClone.DumpSources
import ForgeClone.Relocation

/-!
# The move loop of `dump_sources`

Every move of the loop is a guarded rename from the staging directory to a child of `src`, `lib`
or `node_modules`. Starting from the staged snapshot, the state after any part of the loop is the
snapshot relocated by the moves made so far, with `node_modules` created and `lib/forge-std`
removed when their entries have been handled. A step succeeds exactly when what it needs of the
snapshot holds and its destinations are new, which does not depend on what came before: this is
what makes the loop's outcome independent of the order in which `read_dir` yields entries.

## Main results

* `guardedRename_ok`, `guardedRename_of` — one guarded rename on a relocated state
* `moveChildren_ok`, `moveChildren_of` — the inner loop over a flattened directory
-/

namespace ForgeClone

open List

/-! ## One guarded rename -/

/-- Where a rename `s → d` sits among the moves `M` made from the base `P`: its source is apart
from their sources and destinations, its destination is a sibling of theirs apart from their
sources, and every source is present. -/
structure Fits (P : Path → Option Node) (M : List (Path × Path)) (s d : Path) : Prop where
  apart : ∀ m ∈ M, Apart m.1 s ∧ Apart m.2 s ∧ Apart m.1 d
  sibling : ∀ m ∈ M, m.2.length = d.length
  present : ∀ m ∈ M, P m.1 ≠ none
  source_present : P s ≠ none
  not_prefix : ¬ s <+: d
  ne_nil : d ≠ []

section Guarded

variable {fs fs' : FileSystem} {P : Path → Option Node} {M : List (Path × Path)} {s d : Path}

theorem Fits.parent (hf : Fits P M s d) :
    ∀ m ∈ M, ¬ m.2 <+: d.dropLast ∧ ¬ m.1 <+: d.dropLast := fun m hm => by
  refine ⟨fun h => ?_, fun h => (hf.apart m hm).2.2.1 (h.trans <| dropLast_prefix d)⟩
  have hle := h.length_le
  have hpos := length_pos.mpr hf.ne_nil
  rw [length_dropLast, hf.sibling m hm] at hle
  omega

theorem Fits.source_node (hfs : fs.node = relocate P M) (hf : Fits P M s d) : fs.node s = P s := by
  rw [hfs, relocate_of_apart fun m hm => ⟨(hf.apart m hm).2.1.1, (hf.apart m hm).1.1⟩]

theorem Fits.dest_eq_none (hfs : fs.node = relocate P M) (hf : Fits P M s d) :
    fs.node d = none ↔ P d = none ∧ ∀ m ∈ M, m.2 ≠ d := by
  rw [hfs, relocate_sibling_eq_none hf.sibling (fun m hm => (hf.apart m hm).2.2.1) hf.present]

theorem Fits.parent_node (hfs : fs.node = relocate P M) (hf : Fits P M s d) :
    fs.node d.dropLast = P d.dropLast := by
  rw [hfs, relocate_of_apart hf.parent]

/-- **A guarded rename on a relocated state** succeeds only when its destination was empty in the
base, is no earlier destination, and has a directory for parent; it then adds its move. -/
theorem guardedRename_ok (hfs : fs.node = relocate P M) (hf : Fits P M s d)
    (h : guardedRename fs s d = .ok fs') :
    (P d = none ∧ (∀ m ∈ M, m.2 ≠ d) ∧ P d.dropLast = some .dir) ∧
      fs'.node = relocate P (M ++ [(s, d)]) := by
  unfold guardedRename at h
  split at h
  · cases h
  · obtain ⟨-, hd, hp, -, hnode⟩ := fs.rename_ok (liftIo_eq_ok.mp h)
    rw [hf.dest_eq_none hfs] at hd
    rw [hf.parent_node hfs] at hp
    refine ⟨⟨hd.1, hd.2, hp⟩, ?_⟩
    rw [hnode, hfs, renameNode_relocate
      (fun m hm => apart_of_length_eq (hf.sibling m hm) (hd.2 m hm))
      (fun m hm => ⟨(hf.apart m hm).1, (hf.apart m hm).2.1⟩)]

theorem guardedRename_of (hfs : fs.node = relocate P M) (hf : Fits P M s d) (hd : P d = none)
    (hM : ∀ m ∈ M, m.2 ≠ d) (hp : P d.dropLast = some .dir) :
    ∃ fs', guardedRename fs s d = .ok fs' := by
  have hd' : fs.node d = none := (hf.dest_eq_none hfs).mpr ⟨hd, hM⟩
  obtain ⟨fs', hr, -⟩ := fs.rename_of (by rw [hf.source_node hfs]; exact hf.source_present)
    hd' (by rw [hf.parent_node hfs]; exact hp) hf.not_prefix
  exact ⟨fs', by simp [guardedRename, FileSystem.pathExists, hd', hr]⟩

end Guarded

/-! ## The inner loop -/

/-- The moves of the inner loop for the entries `cs` of `entry`. -/
def childMoves (entry newDir : Path) (cs : List Name) : List (Path × Path) :=
  cs.map fun c => (entry ++ [c], newDir ++ [c])

/-- The remappings the inner loop pushes for the entries `cs` of `folder`. -/
def childRemappings (folder : Name) (newDir : Path) (cs : List Name) : List Remapping :=
  cs.map fun c => ⟨none, folder ++ "/" ++ c, pathString (newDir ++ [c])⟩

/-- What the inner loop over `cs` needs of the moves `M` made before it: their sources are
present, their destinations are siblings of its own, and each remaining entry and its
destination are apart from them. -/
def ChildrenFit (P : Path → Option Node) (M : List (Path × Path)) (entry newDir : Path)
    (cs : List Name) : Prop :=
  ∀ m ∈ M, P m.1 ≠ none ∧ m.2.length = newDir.length + 1 ∧
    ∀ c ∈ cs, Apart m.1 (entry ++ [c]) ∧ Apart m.2 (entry ++ [c]) ∧ Apart m.1 (newDir ++ [c])

section Children

variable {folder : Name} {entry newDir : Path} {P : Path → Option Node}

/-- After moving `c`, the move joins the earlier ones for the entries still to come. -/
theorem ChildrenFit.cons {M : List (Path × Path)} {c : Name} {cs : List Name}
    (h : ChildrenFit P M entry newDir (c :: cs)) (hED : Apart entry newDir) (hc : c ∉ cs)
    (hP : P (entry ++ [c]) ≠ none) :
    ChildrenFit P (M ++ [(entry ++ [c], newDir ++ [c])]) entry newDir cs := by
  intro m hm
  rcases mem_append.mp hm with hm | hm
  · obtain ⟨h₁, h₂, h₃⟩ := h m hm
    exact ⟨h₁, h₂, fun c' hc' => h₃ c' (mem_cons_of_mem c hc')⟩
  · obtain rfl := mem_singleton.mp hm
    refine ⟨hP, by simp, fun c' hc' => ⟨?_, hED.symm.append_append _ _, hED.append_append _ _⟩⟩
    exact apart_append_cons (fun h => hc (by rw [h]; exact hc')) [] []

theorem ChildrenFit.fits {M : List (Path × Path)} {c : Name} {cs : List Name}
    (h : ChildrenFit P M entry newDir (c :: cs)) (hED : Apart entry newDir)
    (hP : P (entry ++ [c]) ≠ none) : Fits P M (entry ++ [c]) (newDir ++ [c]) :=
  ⟨fun m hm => (h m hm).2.2 c (mem_cons_self c cs), fun m hm => by simp [(h m hm).2.1],
    fun m hm => (h m hm).1, hP, (hED.append_append _ _).1, by simp⟩

/-- **The inner loop** succeeds only when every destination was empty in the base and is no
earlier destination, under a directory; it then adds one move and one remapping per entry. -/
theorem moveChildren_ok (hED : Apart entry newDir) {fs' : FileSystem} {rs' : List Remapping} :
    ∀ {M : List (Path × Path)} {cs : List Name} {fs : FileSystem} {rs : List Remapping},
      fs.node = relocate P M → cs.Nodup → (∀ c ∈ cs, P (entry ++ [c]) ≠ none) →
      ChildrenFit P M entry newDir cs → moveChildren folder entry newDir cs fs rs = .ok (fs', rs') →
      (∀ c ∈ cs, P (newDir ++ [c]) = none ∧ (∀ m ∈ M, m.2 ≠ newDir ++ [c]) ∧
          P newDir = some .dir) ∧
        fs'.node = relocate P (M ++ childMoves entry newDir cs) ∧
        rs' = rs ++ childRemappings folder newDir cs
  | M, [], fs, rs, hfs, _, _, _, h => by
    cases h
    simp [hfs, childMoves, childRemappings]
  | M, c :: cs, fs, rs, hfs, hnd, hP, hfit, h => by
    rw [moveChildren] at h
    obtain ⟨fs₁, h₁, h₂⟩ := bind_eq_ok.mp h
    have hc := nodup_cons.mp hnd
    have hPc := hP c (mem_cons_self c cs)
    obtain ⟨⟨hd, hM, hp⟩, hfs₁⟩ := guardedRename_ok hfs (hfit.fits hED hPc) h₁
    obtain ⟨hall, hnode, hrs⟩ := moveChildren_ok hED hfs₁ hc.2
      (fun c' hc' => hP c' (mem_cons_of_mem c hc')) (hfit.cons hED hc.1 hPc) h₂
    refine ⟨?_, by simpa [childMoves] using hnode, by simpa [childRemappings] using hrs⟩
    rintro c' (_ | ⟨_, hc'⟩)
    · exact ⟨hd, hM, by simpa using hp⟩
    · obtain ⟨h₁, h₂, h₃⟩ := hall c' hc'
      exact ⟨h₁, fun m hm => h₂ m (mem_append_left _ hm), h₃⟩

theorem moveChildren_of (hED : Apart entry newDir) :
    ∀ {M : List (Path × Path)} {cs : List Name} {fs : FileSystem} {rs : List Remapping},
      fs.node = relocate P M → cs.Nodup → (∀ c ∈ cs, P (entry ++ [c]) ≠ none) →
      ChildrenFit P M entry newDir cs →
      (∀ c ∈ cs, P (newDir ++ [c]) = none ∧ (∀ m ∈ M, m.2 ≠ newDir ++ [c]) ∧
        P newDir = some .dir) →
      ∃ r, moveChildren folder entry newDir cs fs rs = .ok r
  | _, [], fs, rs, _, _, _, _, _ => ⟨(fs, rs), rfl⟩
  | M, c :: cs, fs, rs, hfs, hnd, hP, hfit, hready => by
    have hc := nodup_cons.mp hnd
    have hPc := hP c (mem_cons_self c cs)
    have hf := hfit.fits hED hPc
    obtain ⟨hd, hM, hp⟩ := hready c (mem_cons_self c cs)
    obtain ⟨fs₁, h₁⟩ := guardedRename_of hfs hf hd hM (by simpa using hp)
    obtain ⟨r, hr⟩ : ∃ r, moveChildren folder entry newDir cs fs₁
        (rs ++ [⟨none, folder ++ "/" ++ c, pathString (newDir ++ [c])⟩]) = .ok r :=
      moveChildren_of hED (guardedRename_ok hfs hf h₁).2 hc.2
      (fun c' hc' => hP c' (mem_cons_of_mem c hc')) (hfit.cons hED hc.1 hPc) fun c' hc' => by
        obtain ⟨h₁, h₂, h₃⟩ := hready c' (mem_cons_of_mem c hc')
        refine ⟨h₁, fun m hm => ?_, h₃⟩
        rcases mem_append.mp hm with hm | hm
        · exact h₂ m hm
        · obtain rfl := mem_singleton.mp hm
          simpa using fun h : c = c' => hc.1 (by rwa [h])
    exact ⟨r, by rw [moveChildren, h₁]; exact hr⟩

end Children

/-! ## The entries of the staging directory -/

/-- The staging directory of `contract`. -/
def stagedDir (root : Path) (contract : Name) : Path := rawSourcesDir root ++ [contract]

@[simp] theorem stagedDir_append (root : Path) (contract : Name) (x : Path) :
    stagedDir root contract ++ x = root ++ "raw_sources" :: contract :: x := by
  simp [stagedDir, rawSourcesDir]

/-- `new_dir`: where the entries of a flattened directory go. -/
def flattenDir (root : Path) (folder : Name) : Path :=
  if folder = "lib" then libDir root
  else if folder = "node_modules" then nodeModulesDir root else srcDir root

theorem flattenTarget_eq (root : Path) (folder : Name) (fs : FileSystem) :
    flattenTarget root folder fs =
      if folder = "node_modules" then
        (liftIo (fs.createDir (nodeModulesDir root))).map (nodeModulesDir root, ·)
      else .ok (flattenDir root folder, fs) := by
  unfold flattenTarget flattenDir
  split_ifs <;> simp_all

/-- The project directories moves go into are children of the root other than the staging
directory. -/
theorem flattenDir_eq (root : Path) (folder : Name) :
    ∃ n, flattenDir root folder = root ++ [n] ∧ n ≠ "raw_sources" := by
  unfold flattenDir srcDir libDir nodeModulesDir
  split_ifs <;> exact ⟨_, rfl, by decide⟩

/-- The moves the loop makes for the top-level entry `folder` of `staged`, whose own entries are
`cs`. -/
def entryMoves (root staged : Path) (toReorg : Bool) (folder : Name) (cs : List Name) :
    List (Path × Path) :=
  if toReorg then
    if flattenedName folder then childMoves (staged ++ [folder]) (flattenDir root folder) cs
    else [(staged ++ [folder], libDir root ++ [folder])]
  else [(staged ++ [folder], srcDir root ++ [folder])]

/-- The remappings the loop pushes for `folder`. -/
def entryRemappings (root : Path) (toReorg : Bool) (folder : Name) (cs : List Name) :
    List Remapping :=
  if toReorg then
    if flattenedName folder then childRemappings folder (flattenDir root folder) cs
    else [⟨none, folder, pathString (libDir root ++ [folder])⟩]
  else if folder ≠ "src" then [⟨none, folder, pathString (srcDir root ++ [folder])⟩] else []

/-- The destination the move rules give the staged path `folder/rest`: when reorganising, the
entries of a flattened directory go into `src`, `lib` or `node_modules` and every other entry
into `lib`; otherwise everything goes into `src`. -/
def movedPath (root : Path) (toReorg : Bool) (folder : Name) (rest : Path) : Path :=
  if toReorg then
    if flattenedName folder then flattenDir root folder ++ rest else libDir root ++ [folder] ++ rest
  else srcDir root ++ [folder] ++ rest

/-- The node map `node` with the loop's changes besides its moves, once the entries `done` are
handled: `node_modules` created, `lib/forge-std` removed. -/
def prepared (node : Path → Option Node) (root : Path) (toReorg : Bool) (done : List Name)
    (q : Path) : Option Node :=
  if toReorg ∧ "node_modules" ∈ done ∧ q = nodeModulesDir root then some .dir
  else if toReorg ∧ "forge-std" ∈ done ∧ libDir root ++ ["forge-std"] <+: q then none
  else node q

/-- What the loop needs of the snapshot `node` to move the entry `folder`, by itself. -/
def EntryReady (node : Path → Option Node) (root staged : Path) (toReorg : Bool) (folder : Name) :
    Prop :=
  if toReorg then
    if flattenedName folder then
      node (staged ++ [folder]) = some .dir ∧
        if folder = "node_modules" then node (nodeModulesDir root) = none
        else ∀ c, node (staged ++ [folder] ++ [c]) ≠ none →
          node (flattenDir root folder) = some .dir ∧ node (flattenDir root folder ++ [c]) = none
    else libUnitName folder ∧ node (libDir root) = some .dir ∧
      node (libDir root ++ [folder]) = if folder = "forge-std" then some .dir else none
  else node (srcDir root) = some .dir ∧ node (srcDir root ++ [folder]) = none

/-- The moves the loop makes for the entries `names` of the snapshot `fs₀`, in their order. -/
def loopMoves (fs₀ : FileSystem) (root staged : Path) (toReorg : Bool) (names : List Name) :
    List (Path × Path) :=
  names.flatMap fun f => entryMoves root staged toReorg f (fs₀.children (staged ++ [f]))

/-- The remappings the loop pushes for the entries `names` of the snapshot `fs₀`. -/
def loopRemappings (fs₀ : FileSystem) (root staged : Path) (toReorg : Bool) (names : List Name) :
    List Remapping :=
  names.flatMap fun f => entryRemappings root toReorg f (fs₀.children (staged ++ [f]))

/-- **When the loop succeeds**: every entry is ready by itself, and no two moves share a
destination. -/
def LoopReady (fs₀ : FileSystem) (root staged : Path) (toReorg : Bool) (names : List Name) :
    Prop :=
  (∀ f ∈ names, EntryReady fs₀.node root staged toReorg f) ∧
    ((loopMoves fs₀ root staged toReorg names).map Prod.snd).Nodup

/-- A top-level `forge-std` and a `lib/forge-std` are not staged together when reorganising: the
removal of `lib/forge-std` for the first would otherwise take what the second moved there. -/
def NoForgeStdClash (fs₀ : FileSystem) (staged : Path) (toReorg : Bool) : Prop :=
  toReorg → fs₀.node (staged ++ ["forge-std"]) ≠ none → fs₀.node (staged ++ ["lib", "forge-std"]) = none

instance (fs₀ : FileSystem) (staged : Path) (toReorg : Bool) :
    Decidable (NoForgeStdClash fs₀ staged toReorg) :=
  inferInstanceAs (Decidable (toReorg = true → fs₀.node (staged ++ ["forge-std"]) ≠ none →
    fs₀.node (staged ++ ["lib", "forge-std"]) = none))

/-! ## Where the moves are -/

section Geometry

variable {fs₀ : FileSystem} {root : Path} {contract : Name} {toReorg : Bool}

/-- The staging directory is apart from every other child of the root. -/
theorem apart_staged_project {n : Name} (hn : n ≠ "raw_sources") (x y : Path) :
    Apart (stagedDir root contract ++ x) (root ++ n :: y) := by
  rw [stagedDir_append]
  exact apart_append_cons (Ne.symm hn) _ _

@[simp] theorem srcDir_append (root x : Path) : srcDir root ++ x = root ++ "src" :: x := by
  simp [srcDir]

@[simp] theorem libDir_append (root x : Path) : libDir root ++ x = root ++ "lib" :: x := by
  simp [libDir]

@[simp] theorem nodeModulesDir_append (root x : Path) :
    nodeModulesDir root ++ x = root ++ "node_modules" :: x := by
  simp [nodeModulesDir]

theorem prepared_staged (done : List Name) (x : Path) :
    prepared fs₀.node root toReorg done (stagedDir root contract ++ x) =
      fs₀.node (stagedDir root contract ++ x) := by
  have h₁ : Apart (stagedDir root contract ++ x) (root ++ ["node_modules"]) :=
    apart_staged_project (by decide) x []
  have h₂ : Apart (stagedDir root contract ++ x) (root ++ ["lib", "forge-std"]) :=
    apart_staged_project (by decide) x ["forge-std"]
  have hne : stagedDir root contract ++ x ≠ nodeModulesDir root := fun h =>
    h₁.1 (by rw [h]; exact prefix_refl _)
  simp only [prepared, hne, libDir_append, h₂.2, and_false, if_false]

/-- `flattenDir` is `lib` only for `lib`. -/
theorem flattenDir_eq_libDir {root : Path} {folder : Name} (h : flattenDir root folder = libDir root) :
    folder = "lib" := by
  unfold flattenDir at h
  split_ifs at h with h₁ h₂
  · exact h₁
  · simp [nodeModulesDir, libDir] at h
  · simp [srcDir, libDir] at h

theorem flattenDir_ne_nodeModulesDir {root : Path} {folder : Name} (h : folder ≠ "node_modules") :
    flattenDir root folder ≠ nodeModulesDir root := by
  unfold flattenDir
  split_ifs <;> simp_all [libDir, nodeModulesDir, srcDir]

/-- A staged entry is apart from the directory its entries are flattened into. -/
theorem apart_staged_flattenDir (f : Name) :
    Apart (stagedDir root contract ++ [f]) (flattenDir root f) := by
  obtain ⟨n, hD, hn⟩ := flattenDir_eq root f
  rw [hD]
  simpa using apart_staged_project hn [f] []

/-- **The shape of every move.** It takes a present entry below a handled top-level entry `g`
to a child of a project directory; only `forge-std` itself, or the `forge-std` of a staged `lib`,
goes to `lib/forge-std`. -/
theorem mem_loopMoves {done : List Name} {m : Path × Path}
    (hdone : ∀ g ∈ done, fs₀.node (stagedDir root contract ++ [g]) ≠ none)
    (hm : m ∈ loopMoves fs₀ root (stagedDir root contract) toReorg done) :
    (∃ g ∈ done, ∃ x, m.1 = stagedDir root contract ++ g :: x ∧
      (m.2 = libDir root ++ ["forge-std"] → g = "forge-std" ∨ x = ["forge-std"] ∧ g = "lib")) ∧
    fs₀.node m.1 ≠ none ∧ ∃ n c, m.2 = root ++ [n, c] ∧ n ≠ "raw_sources" := by
  obtain ⟨g, hg, hm⟩ := mem_flatMap.mp hm
  unfold entryMoves at hm
  split_ifs at hm with hr hfl
  · obtain ⟨c, hc, rfl⟩ := mem_map.mp hm
    obtain ⟨n, hn, hraw⟩ := flattenDir_eq root g
    refine ⟨⟨g, hg, [c], by simp, fun h => .inr ?_⟩, fs₀.mem_children.mp hc,
      n, c, by simp [hn], hraw⟩
    rw [hn, libDir_append] at h
    simp only [append_assoc, singleton_append, append_cancel_left_eq, cons.injEq] at h
    exact ⟨h.2.1 ▸ rfl, flattenDir_eq_libDir (by rw [hn, h.1]; rfl)⟩
  · obtain rfl := mem_singleton.mp hm
    exact ⟨⟨g, hg, [], rfl, by simp⟩, hdone g hg, "lib", g, by simp, by decide⟩
  · obtain rfl := mem_singleton.mp hm
    exact ⟨⟨g, hg, [], rfl, by simp⟩, hdone g hg, "src", g, by simp, by decide⟩

/-- The move rules put every staged path into a child of the root other than `raw_sources`. -/
theorem movedPath_eq (root : Path) (toReorg : Bool) (folder : Name) (rest : Path) :
    ∃ n x, movedPath root toReorg folder rest = root ++ n :: x ∧ n ≠ "raw_sources" := by
  unfold movedPath
  split_ifs
  · obtain ⟨n, hn, hraw⟩ := flattenDir_eq root folder
    exact ⟨n, rest, by simp [hn], hraw⟩
  · exact ⟨"lib", folder :: rest, by simp, by decide⟩
  · exact ⟨"src", folder :: rest, by simp, by decide⟩

theorem rawSourcesDir_not_prefix_child {n : Name} (hn : n ≠ "raw_sources") (x : Path) :
    ¬ rawSourcesDir root <+: root ++ n :: x := by
  simp [rawSourcesDir, prefix_append_right_inj, cons_prefix_cons, Ne.symm hn]

/-- The moves of the handled entries fit the moves of a new entry `f` into a project
directory. -/
theorem childrenFit_of_loopMoves {done : List Name} {M : List (Path × Path)} {f n : Name}
    {P : Path → Option Node} {entry newDir : Path} {cs : List Name}
    (hdone : ∀ g ∈ done, fs₀.node (stagedDir root contract ++ [g]) ≠ none)
    (hM : ∀ m ∈ M, m ∈ loopMoves fs₀ root (stagedDir root contract) toReorg done)
    (hf : f ∉ done)
    (hP : ∀ x, P (stagedDir root contract ++ x) = fs₀.node (stagedDir root contract ++ x))
    (hD : newDir = root ++ [n]) (hn : n ≠ "raw_sources")
    (hentry : ∀ c ∈ cs, ∃ x, entry ++ [c] = stagedDir root contract ++ f :: x) :
    ChildrenFit P M entry newDir cs := by
  intro m hm
  obtain ⟨⟨g, hg, x, h₁, -⟩, hpres, n', c', h₂, hn'⟩ := mem_loopMoves hdone (hM m hm)
  have hgf : g ≠ f := fun h => hf (h ▸ hg)
  refine ⟨by rw [h₁, hP, ← h₁]; exact hpres, by simp [h₂, hD], fun c hc => ?_⟩
  obtain ⟨y, hy⟩ := hentry c hc
  rw [hy, h₁, h₂, hD]
  refine ⟨apart_append_cons hgf _ _, (apart_staged_project hn' _ _).symm, ?_⟩
  simpa using apart_staged_project hn (g :: x) [c]

end Geometry

/-! ## The loop's other changes -/

section Prepared

variable {node : Path → Option Node} {root : Path} {toReorg : Bool} {done : List Name}

theorem prepared_eq {q : Path} (h₁ : "node_modules" ∈ done → q ≠ nodeModulesDir root)
    (h₂ : "forge-std" ∈ done → ¬ libDir root ++ ["forge-std"] <+: q) :
    prepared node root toReorg done q = node q := by
  unfold prepared
  split_ifs with ha hb
  · exact absurd ha.2.2 (h₁ ha.2.1)
  · exact absurd hb.2.2 (h₂ hb.2.1)
  · rfl

/-- `prepared` reads only which entries were handled, not their order. -/
theorem prepared_congr {done' : List Name} (h : ∀ f, f ∈ done ↔ f ∈ done') :
    prepared node root toReorg done = prepared node root toReorg done' := by
  funext q; simp only [prepared, h]

theorem prepared_flattenDir {f : Name} (hnm : f ≠ "node_modules") :
    prepared node root toReorg done (flattenDir root f) = node (flattenDir root f) := by
  obtain ⟨n, hD, -⟩ := flattenDir_eq root f
  exact prepared_eq (fun _ => flattenDir_ne_nodeModulesDir hnm)
    fun _ h => by simpa [hD] using h.length_le

theorem prepared_libDir : prepared node root toReorg done (libDir root) = node (libDir root) :=
  prepared_eq (fun _ => by simp [libDir, nodeModulesDir])
    fun _ h => by simpa [libDir] using h.length_le

/-- Only `lib/forge-std` among the children of `lib` is changed. -/
theorem prepared_libDir_child {f : Name} (hstd : f ≠ "forge-std") :
    prepared node root toReorg done (libDir root ++ [f]) = node (libDir root ++ [f]) := by
  refine prepared_eq (fun _ => by simp [nodeModulesDir]) fun _ h => hstd ?_
  have := h.eq_of_length (by simp)
  simp only [libDir_append, append_cancel_left_eq, cons.injEq, and_true, true_and] at this
  exact this.symm

@[simp] theorem prepared_false : prepared node root false done = node := by
  funext q; simp [prepared]

theorem prepared_append_of_ne {f : Name} (h₁ : f ≠ "node_modules") (h₂ : f ≠ "forge-std") :
    prepared node root toReorg (done ++ [f]) = prepared node root toReorg done := by
  funext q; simp [prepared, Ne.symm h₁, Ne.symm h₂]

theorem prepared_append_nodeModules (hr : toReorg = true) :
    prepared node root toReorg (done ++ ["node_modules"]) =
      setNode (prepared node root toReorg done) (nodeModulesDir root) .dir := by
  funext q
  by_cases hq : q = nodeModulesDir root
  · simp [prepared, setNode, hq, hr]
  · simp [prepared, setNode, hq]

theorem prepared_append_forgeStd (hr : toReorg = true) :
    prepared node root toReorg (done ++ ["forge-std"]) =
      removeNode (prepared node root toReorg done) (libDir root ++ ["forge-std"]) := by
  funext q
  by_cases hlf : root ++ ["lib", "forge-std"] <+: q
  · have hq : q ≠ nodeModulesDir root := by
      rintro rfl
      have := hlf.length_le
      simp [nodeModulesDir] at this
    simp [prepared, removeNode, hlf, hq, hr]
  · simp [prepared, removeNode, hlf]

end Prepared

/-! ## One step of the loop -/

section Step

variable {fs₀ : FileSystem} {root : Path} {contract : Name} {toReorg : Bool} {en : Enumeration}
  {done : List Name} {M : List (Path × Path)} {f : Name} {fs fs' : FileSystem}
  {rs rs' : List Remapping}
  (hdone : ∀ g ∈ done, fs₀.node (stagedDir root contract ++ [g]) ≠ none)
  (hM : ∀ m ∈ M, m ∈ loopMoves fs₀ root (stagedDir root contract) toReorg done)
  (hf : f ∉ done)

include hdone hM hf

/-- No earlier move touches the entry `f` of the staging directory. -/
theorem apart_staged_of_loop (x : Path) :
    ∀ m ∈ M, ¬ m.2 <+: stagedDir root contract ++ f :: x ∧
      ¬ m.1 <+: stagedDir root contract ++ f :: x := fun m hm => by
  obtain ⟨⟨g, hg, y, h₁, -⟩, -, n, c, h₂, hn⟩ := mem_loopMoves hdone (hM m hm)
  rw [h₁, h₂]
  exact ⟨(apart_staged_project hn _ _).symm.1,
    (apart_append_cons (fun h : g = f => hf (h ▸ hg)) y x).1⟩

omit hf in
/-- No earlier move touches a project directory. -/
theorem apart_dir_of_loop {n : Name} (hn : n ≠ "raw_sources") :
    ∀ m ∈ M, ¬ m.2 <+: root ++ [n] ∧ ¬ m.1 <+: root ++ [n] := fun m hm => by
  obtain ⟨⟨g, -, y, h₁, -⟩, -, n', c, h₂, -⟩ := mem_loopMoves hdone (hM m hm)
  rw [h₁, h₂]
  exact ⟨fun h => by simpa using h.length_le, (apart_staged_project hn _ []).1⟩

/-- The single move of `f` into the project directory `root/n` fits the earlier ones. -/
theorem fits_of_loop {P : Path → Option Node} {n : Name} (hn : n ≠ "raw_sources")
    (hP : ∀ x, P (stagedDir root contract ++ x) = fs₀.node (stagedDir root contract ++ x))
    (hpres : fs₀.node (stagedDir root contract ++ [f]) ≠ none) :
    Fits P M (stagedDir root contract ++ [f]) (root ++ [n] ++ [f]) := by
  have hfit : ChildrenFit P M (stagedDir root contract) (root ++ [n]) [f] :=
    childrenFit_of_loopMoves hdone hM hf hP rfl hn fun c hc => ⟨[], by rw [mem_singleton.mp hc]⟩
  exact hfit.fits (by simpa using apart_staged_project hn [] []) (by rw [hP]; exact hpres)

/-- **The step without reorganising**: `f` goes to `src/f`. -/
theorem moveEntry_src_ok (hr : toReorg = false)
    (hpres : fs₀.node (stagedDir root contract ++ [f]) ≠ none)
    (hfs : fs.node = relocate (prepared fs₀.node root toReorg done) M)
    (h : moveEntry root (stagedDir root contract) toReorg en f fs rs = .ok (fs', rs')) :
    (fs₀.node (srcDir root) = some .dir ∧ fs₀.node (srcDir root ++ [f]) = none ∧
      ∀ m ∈ M, m.2 ≠ srcDir root ++ [f]) ∧
    fs'.node = relocate fs₀.node (M ++ [(stagedDir root contract ++ [f], srcDir root ++ [f])]) ∧
    rs' = rs ++ entryRemappings root toReorg f [] := by
  subst hr
  simp only [moveEntry, Bool.false_eq_true, if_false, prepared_false] at h hfs
  obtain ⟨fs₁, h₁, h₂⟩ := bind_eq_ok.mp h
  cases h₂
  obtain ⟨⟨hd, hM', hp⟩, hnode⟩ :=
    guardedRename_ok hfs
      (fits_of_loop hdone hM hf (by decide : "src" ≠ "raw_sources") (fun _ => rfl) hpres) h₁
  exact ⟨⟨by simpa using hp, hd, hM'⟩, hnode, by by_cases hs : f = "src" <;> simp [entryRemappings, hs]⟩

/-- Once `forge-std` is to be handled, no earlier move touches `lib/forge-std`: a staged
`lib/forge-std` would have gone there, and `NoForgeStdClash` rules it out. -/
theorem apart_libForgeStd_of_loop (hclash : NoForgeStdClash fs₀ (stagedDir root contract) toReorg)
    (hr : toReorg = true) (hpres : fs₀.node (stagedDir root contract ++ ["forge-std"]) ≠ none)
    (hstd : f = "forge-std") :
    ∀ m ∈ M, Apart m.2 (libDir root ++ ["forge-std"]) ∧ Apart m.1 (libDir root ++ ["forge-std"]) :=
  fun m hm => by
  subst hstd
  obtain ⟨⟨g, hg, x, h₁, hlf⟩, hm₁, n, c, h₂, -⟩ := mem_loopMoves hdone (hM m hm)
  refine ⟨apart_of_length_eq (by simp [h₂]) fun h => ?_, ?_⟩
  · rcases hlf h with rfl | ⟨rfl, rfl⟩
    · exact hf hg
    · exact hm₁ (by rw [h₁]; exact hclash hr hpres)
  · rw [h₁, libDir_append]
    exact apart_staged_project (by decide) _ _

/-- **The step moving a library directory into `lib`**; `forge-std` first removes
`lib/forge-std`. -/
theorem moveEntry_lib_ok (hr : toReorg = true) (hfl : flattenedName f = false)
    (hclash : NoForgeStdClash fs₀ (stagedDir root contract) toReorg)
    (hpres : fs₀.node (stagedDir root contract ++ [f]) ≠ none)
    (hfs : fs.node = relocate (prepared fs₀.node root toReorg done) M)
    (h : moveEntry root (stagedDir root contract) toReorg en f fs rs = .ok (fs', rs')) :
    (libUnitName f = true ∧ fs₀.node (libDir root) = some .dir ∧
      fs₀.node (libDir root ++ [f]) = (if f = "forge-std" then some .dir else none) ∧
      ∀ m ∈ M, m.2 ≠ libDir root ++ [f]) ∧
    fs'.node = relocate (prepared fs₀.node root toReorg (done ++ [f]))
      (M ++ [(stagedDir root contract ++ [f], libDir root ++ [f])]) ∧
    rs' = rs ++ [⟨none, f, pathString (libDir root ++ [f])⟩] := by
  subst hr
  cases hlu : libUnitName f
  · simp [moveEntry, hfl, hlu] at h
  simp only [moveEntry, if_true, hfl, hlu, Bool.not_true, Bool.false_eq_true, if_false] at h
  have hnm : f ≠ "node_modules" := by rintro rfl; simp [flattenedName] at hfl
  -- the state before the rename, and what the removal of `lib/forge-std` needed
  obtain ⟨fs₁, hbase, hstd₁, h₂⟩ : ∃ fs₁,
      fs₁.node = relocate (prepared fs₀.node root true (done ++ [f])) M ∧
      (f = "forge-std" → fs₀.node (libDir root ++ [f]) = some .dir) ∧
      (guardedRename fs₁ (stagedDir root contract ++ [f]) (libDir root ++ [f]) >>= fun fs =>
        Except.ok (fs, rs ++ [⟨none, f, pathString (libDir root ++ [f])⟩])) = .ok (fs', rs') := by
    by_cases hstd : f = "forge-std"
    · rw [if_pos hstd] at h
      obtain ⟨fs₁, h₁, h₂⟩ := bind_eq_ok.mp h
      subst hstd
      obtain ⟨hdir, -, hnode⟩ := fs.removeDirAll_ok (liftIo_eq_ok.mp h₁)
      have hap := apart_libForgeStd_of_loop hdone hM hf hclash rfl hpres rfl
      refine ⟨fs₁, by rw [hnode, hfs, removeNode_relocate hap, prepared_append_forgeStd rfl],
        fun _ => ?_, h₂⟩
      rwa [hfs, relocate_of_apart fun m hm => ⟨(hap m hm).1.1, (hap m hm).2.1⟩,
        prepared_eq (fun _ => by simp [nodeModulesDir]) fun h => absurd h hf] at hdir
    · rw [if_neg hstd] at h
      obtain ⟨fs₁, h₁, h₂⟩ := bind_eq_ok.mp h
      cases h₁
      exact ⟨fs, by rw [hfs, prepared_append_of_ne hnm hstd], fun h => absurd h hstd, h₂⟩
  obtain ⟨fs₂, h₃, h₄⟩ := bind_eq_ok.mp h₂
  cases h₄
  obtain ⟨⟨hd, hM', hp⟩, hnode⟩ := guardedRename_ok hbase
    (fits_of_loop hdone hM hf (by decide : "lib" ≠ "raw_sources") (prepared_staged _) hpres) h₃
  have hlib : prepared fs₀.node root true (done ++ [f]) (libDir root) = fs₀.node (libDir root) :=
    prepared_libDir
  refine ⟨⟨rfl, by rw [← hlib]; simpa using hp, ?_, hM'⟩, hnode, rfl⟩
  by_cases hstd : f = "forge-std"
  · rw [if_pos hstd]; exact hstd₁ hstd
  · rw [if_neg hstd, ← hd]; exact (prepared_libDir_child hstd).symm

omit hM in
/-- When `forge-std` is handled too, no entry of a flattened directory goes to
`lib/forge-std`. -/
theorem flatDest_not_below_libForgeStd (hclash : NoForgeStdClash fs₀ (stagedDir root contract) toReorg)
    (hr : toReorg = true) (hstd : f ≠ "forge-std") {c : Name}
    (hc : fs₀.node (stagedDir root contract ++ [f] ++ [c]) ≠ none)
    (hin : "forge-std" ∈ done ++ [f]) : ¬ libDir root ++ ["forge-std"] <+: flattenDir root f ++ [c] := by
  intro h
  obtain ⟨n, hD, -⟩ := flattenDir_eq root f
  have heq := h.eq_of_length (by simp [hD])
  rw [libDir_append, hD] at heq
  simp only [append_assoc, singleton_append, append_cancel_left_eq, cons.injEq, and_true] at heq
  have hlib : f = "lib" := flattenDir_eq_libDir (by rw [hD, ← heq.1]; rfl)
  have hstd' : "forge-std" ∈ done := by simpa [Ne.symm hstd] using hin
  subst hlib
  exact hc (by rw [← heq.2]; simpa using hclash hr (hdone _ hstd'))

omit hM in
/-- A flattened entry's children go where the loop's other changes have not reached. -/
theorem prepared_flatDest (hclash : NoForgeStdClash fs₀ (stagedDir root contract) true)
    (hstd : f ≠ "forge-std") {c : Name}
    (hc : fs₀.node (stagedDir root contract ++ [f] ++ [c]) ≠ none) :
    prepared fs₀.node root true (done ++ [f]) (flattenDir root f ++ [c]) =
      fs₀.node (flattenDir root f ++ [c]) := by
  obtain ⟨n, hD, -⟩ := flattenDir_eq root f
  exact prepared_eq (fun _ h => by simpa [hD, nodeModulesDir] using congrArg length h)
    (flatDest_not_below_libForgeStd hdone hf hclash rfl hstd hc)

/-- No earlier move has touched the staged entry `f`: below it, the state is the snapshot. -/
theorem node_staged_of_loop {t : Bool} {done' : List Name} {fs₁ : FileSystem}
    (hfs₁ : fs₁.node = relocate (prepared fs₀.node root t done') M) (x : Path) :
    fs₁.node (stagedDir root contract ++ [f] ++ x) = fs₀.node (stagedDir root contract ++ [f] ++ x) := by
  rw [append_assoc, singleton_append, hfs₁,
    relocate_of_apart (apart_staged_of_loop hdone hM hf x), prepared_staged]

/-- What `read_dir` of a flattened entry yields in the loop: the snapshot's entries, each once,
present, and fitting the earlier moves. -/
theorem readDir_flat_of_loop {fs₁ : FileSystem} {cs : List Name}
    (hfs₁ : fs₁.node = relocate (prepared fs₀.node root true (done ++ [f])) M)
    (h : fs₁.readDir en (stagedDir root contract ++ [f]) = .ok cs) :
    cs.Nodup ∧ (∀ c, c ∈ cs ↔ c ∈ fs₀.children (stagedDir root contract ++ [f])) ∧
    (∀ c ∈ cs,
      prepared fs₀.node root true (done ++ [f]) (stagedDir root contract ++ [f] ++ [c]) ≠ none) ∧
    ChildrenFit (prepared fs₀.node root true (done ++ [f])) M (stagedDir root contract ++ [f])
      (flattenDir root f) cs := by
  obtain ⟨-, hnd, hmem⟩ := FileSystem.readDir_ok h
  obtain ⟨n, hD, hn⟩ := flattenDir_eq root f
  refine ⟨hnd, fun c => by rw [hmem, fs₀.mem_children, node_staged_of_loop hdone hM hf hfs₁],
    fun c hc => ?_, childrenFit_of_loopMoves hdone hM hf (prepared_staged _) hD hn
      fun c _ => ⟨[c], by simp⟩⟩
  rw [append_assoc, prepared_staged, ← append_assoc, ← node_staged_of_loop hdone hM hf hfs₁]
  exact (hmem c).mp hc

/-- **The step flattening `contracts`, `src`, `lib` or `node_modules`**: each entry `c` of it
goes to `new_dir/c`, and `node_modules` is created first. -/
theorem moveEntry_flat_ok (hr : toReorg = true) (hfl : flattenedName f = true)
    (hclash : NoForgeStdClash fs₀ (stagedDir root contract) toReorg)
    (hfs : fs.node = relocate (prepared fs₀.node root toReorg done) M)
    (h : moveEntry root (stagedDir root contract) toReorg en f fs rs = .ok (fs', rs')) :
    EntryReady fs₀.node root (stagedDir root contract) toReorg f ∧
    (∀ c ∈ fs₀.children (stagedDir root contract ++ [f]), ∀ m ∈ M,
      m.2 ≠ flattenDir root f ++ [c]) ∧
    ∃ cs, cs ~ fs₀.children (stagedDir root contract ++ [f]) ∧
      fs'.node = relocate (prepared fs₀.node root toReorg (done ++ [f]))
        (M ++ childMoves (stagedDir root contract ++ [f]) (flattenDir root f) cs) ∧
      rs' = rs ++ childRemappings f (flattenDir root f) cs := by
  subst hr
  simp only [moveEntry, if_true, hfl] at h
  obtain ⟨⟨D, fs₁⟩, h₁, h₂⟩ := bind_eq_ok.mp h
  obtain ⟨cs, h₃, h₄⟩ := bind_eq_ok.mp h₂
  have hstd : f ≠ "forge-std" := by rintro rfl; simp [flattenedName] at hfl
  -- `flattenTarget`: the state after it, and what creating `node_modules` needed
  obtain ⟨rfl, hfs₁, hnm⟩ : D = flattenDir root f ∧
      fs₁.node = relocate (prepared fs₀.node root true (done ++ [f])) M ∧
      (f = "node_modules" → fs₀.node (nodeModulesDir root) = none) := by
    rw [flattenTarget_eq] at h₁
    split_ifs at h₁ with hnm
    · subst hnm
      obtain ⟨fs₂, hc, he⟩ := map_eq_ok.mp h₁
      cases he
      obtain ⟨hnone, -, hnode⟩ := fs.createDir_ok (liftIo_eq_ok.mp hc)
      have hap : ∀ m ∈ M, ¬ m.2 <+: nodeModulesDir root ∧ ¬ m.1 <+: nodeModulesDir root :=
        apart_dir_of_loop hdone hM (by decide)
      refine ⟨by simp [flattenDir], by rw [hnode, hfs, setNode_relocate hap,
        prepared_append_nodeModules rfl], fun _ => ?_⟩
      rwa [hfs, relocate_of_apart hap, prepared_eq (fun h => absurd h hf)
        fun _ h => by simpa [nodeModulesDir] using h.length_le] at hnone
    · cases h₁
      exact ⟨rfl, by rw [hfs, prepared_append_of_ne hnm hstd], fun h => absurd h hnm⟩
  have hdir := (FileSystem.readDir_ok (liftIo_eq_ok.mp h₃)).1
  obtain ⟨hnd, hmem₀, hpresc, hfit⟩ := readDir_flat_of_loop hdone hM hf hfs₁ (liftIo_eq_ok.mp h₃)
  obtain ⟨hall, hnode, hrs⟩ := moveChildren_ok (apart_staged_flattenDir f) hfs₁ hnd hpresc hfit h₄
  refine ⟨?_, fun c hc => (hall c ((hmem₀ c).mpr hc)).2.1,
    cs, (perm_ext_iff_of_nodup hnd (fs₀.nodup_children _)).mpr hmem₀, hnode, hrs⟩
  have hdir₀ : fs₀.node (stagedDir root contract ++ [f]) = some .dir := by
    rw [← append_nil (stagedDir root contract ++ [f]), ← node_staged_of_loop hdone hM hf hfs₁]
    simpa using hdir
  simp only [EntryReady, if_true, hfl]
  refine ⟨hdir₀, ?_⟩
  split_ifs with hnm'
  · exact hnm hnm'
  intro c hc
  obtain ⟨hDc, -, hDdir⟩ := hall c ((hmem₀ c).mpr (fs₀.mem_children.mpr hc))
  exact ⟨by rwa [prepared_flattenDir hnm'] at hDdir,
    by rwa [prepared_flatDest hdone hf hclash hstd hc] at hDc⟩

/-- **One step of the loop** succeeds only when its entry is ready by itself and its
destinations are new; it then adds its moves and remappings, for the entries of a flattened
directory in the order `read_dir` yields them. -/
theorem moveEntry_ok (hclash : NoForgeStdClash fs₀ (stagedDir root contract) toReorg)
    (hpres : fs₀.node (stagedDir root contract ++ [f]) ≠ none)
    (hfs : fs.node = relocate (prepared fs₀.node root toReorg done) M)
    (h : moveEntry root (stagedDir root contract) toReorg en f fs rs = .ok (fs', rs')) :
    EntryReady fs₀.node root (stagedDir root contract) toReorg f ∧
    (∀ m ∈ M, ∀ m' ∈ entryMoves root (stagedDir root contract) toReorg f
      (fs₀.children (stagedDir root contract ++ [f])), m.2 ≠ m'.2) ∧
    ∃ cs, cs ~ fs₀.children (stagedDir root contract ++ [f]) ∧
      fs'.node = relocate (prepared fs₀.node root toReorg (done ++ [f]))
        (M ++ entryMoves root (stagedDir root contract) toReorg f cs) ∧
      rs' = rs ++ entryRemappings root toReorg f cs := by
  cases toReorg
  · obtain ⟨⟨hsrc, hdest, hfresh⟩, hnode, hrs⟩ := moveEntry_src_ok hdone hM hf rfl hpres hfs h
    refine ⟨by simp only [EntryReady, Bool.false_eq_true, if_false]; exact ⟨hsrc, hdest⟩,
      fun m hm m' hm' => ?_, _, Perm.refl _, by simpa [entryMoves] using hnode,
      by simpa [entryRemappings] using hrs⟩
    simp only [entryMoves, Bool.false_eq_true, if_false, mem_singleton] at hm'
    rw [hm']
    exact hfresh m hm
  · cases hfl : flattenedName f
    · obtain ⟨⟨hlu, hlib, hlf, hfresh⟩, hnode, hrs⟩ :=
        moveEntry_lib_ok hdone hM hf rfl hfl hclash hpres hfs h
      refine ⟨by simp only [EntryReady, if_true, hfl, Bool.false_eq_true, if_false]
                 exact ⟨hlu, hlib, hlf⟩, fun m hm m' hm' => ?_, _,
        Perm.refl _, by simpa [entryMoves, hfl] using hnode, by simpa [entryRemappings, hfl] using hrs⟩
      simp only [entryMoves, if_true, hfl, Bool.false_eq_true, if_false, mem_singleton] at hm'
      rw [hm']
      exact hfresh m hm
    · obtain ⟨hready, hfresh, cs, hperm, hnode, hrs⟩ := moveEntry_flat_ok hdone hM hf rfl hfl hclash hfs h
      refine ⟨hready, fun m hm m' hm' => ?_, cs, hperm, by simpa [entryMoves, hfl] using hnode,
        by simpa [entryRemappings, hfl] using hrs⟩
      simp only [entryMoves, if_true, hfl, childMoves, mem_map] at hm'
      obtain ⟨c, hc, rfl⟩ := hm'
      exact hfresh c hc m hm

/-! ## A ready step succeeds -/

theorem moveEntry_src_of (hr : toReorg = false)
    (hpres : fs₀.node (stagedDir root contract ++ [f]) ≠ none)
    (hfs : fs.node = relocate (prepared fs₀.node root toReorg done) M)
    (hsrc : fs₀.node (srcDir root) = some .dir) (hdest : fs₀.node (srcDir root ++ [f]) = none)
    (hfresh : ∀ m ∈ M, m.2 ≠ srcDir root ++ [f]) :
    ∃ r, moveEntry root (stagedDir root contract) toReorg en f fs rs = .ok r := by
  subst hr
  rw [prepared_false] at hfs
  obtain ⟨fs₁, h₁⟩ := guardedRename_of hfs
    (fits_of_loop hdone hM hf (by decide : "src" ≠ "raw_sources") (fun _ => rfl) hpres) hdest hfresh
    (by simpa [srcDir] using hsrc)
  have h₁' : guardedRename fs (stagedDir root contract ++ [f]) (srcDir root ++ [f]) = .ok fs₁ := h₁
  exact ⟨_, by simp only [moveEntry, Bool.false_eq_true, if_false]; rw [h₁']; rfl⟩

theorem moveEntry_lib_of (hr : toReorg = true) (hfl : flattenedName f = false)
    (hclash : NoForgeStdClash fs₀ (stagedDir root contract) toReorg)
    (hpres : fs₀.node (stagedDir root contract ++ [f]) ≠ none)
    (hfs : fs.node = relocate (prepared fs₀.node root toReorg done) M)
    (hlu : libUnitName f = true) (hlib : fs₀.node (libDir root) = some .dir)
    (hdest : fs₀.node (libDir root ++ [f]) = if f = "forge-std" then some .dir else none)
    (hfresh : ∀ m ∈ M, m.2 ≠ libDir root ++ [f]) :
    ∃ r, moveEntry root (stagedDir root contract) toReorg en f fs rs = .ok r := by
  subst hr
  have hnm : f ≠ "node_modules" := by rintro rfl; simp [flattenedName] at hfl
  -- the state before the rename
  obtain ⟨fs₁, h₁, hfs₁⟩ : ∃ fs₁, (if f = "forge-std" then liftIo (fs.removeDirAll (libDir root ++ [f]))
      else .ok fs) = .ok fs₁ ∧ fs₁.node = relocate (prepared fs₀.node root true (done ++ [f])) M := by
    by_cases hstd : f = "forge-std"
    · subst hstd
      have hap := apart_libForgeStd_of_loop hdone hM hf hclash rfl hpres rfl
      have hdir : fs.node (libDir root ++ ["forge-std"]) = some .dir := by
        rw [hfs, relocate_of_apart fun m hm => ⟨(hap m hm).1.1, (hap m hm).2.1⟩,
          prepared_eq (fun _ => by simp [nodeModulesDir]) fun h => absurd h hf, hdest, if_pos rfl]
      obtain ⟨fs₁, h₁, hnode⟩ := fs.removeDirAll_of hdir (by simp)
      exact ⟨fs₁, by rw [if_pos rfl, liftIo_eq_ok]; exact h₁, by rw [hnode, hfs, removeNode_relocate hap,
        prepared_append_forgeStd rfl]⟩
    · exact ⟨fs, by simp [hstd], by rw [hfs, prepared_append_of_ne hnm hstd]⟩
  have hd : prepared fs₀.node root true (done ++ [f]) (libDir root ++ [f]) = none := by
    by_cases hstd : f = "forge-std"
    · subst hstd
      simp [prepared, nodeModulesDir]
    · rw [prepared_libDir_child hstd]
      simpa [hstd] using hdest
  obtain ⟨fs₂, h₂⟩ := guardedRename_of hfs₁
    (fits_of_loop hdone hM hf (by decide : "lib" ≠ "raw_sources") (prepared_staged _) hpres) hd
    hfresh (by rw [dropLast_concat]; exact prepared_libDir.trans hlib)
  have h₂' : guardedRename fs₁ (stagedDir root contract ++ [f]) (libDir root ++ [f]) = .ok fs₂ := h₂
  refine ⟨(fs₂, rs ++ [⟨none, f, pathString (libDir root ++ [f])⟩]), ?_⟩
  simp only [moveEntry, if_true, hfl, hlu, Bool.not_true, Bool.false_eq_true, if_false]
  by_cases hstd : f = "forge-std"
  · rw [if_pos hstd] at h₁ ⊢
    rw [bind_eq_ok]
    exact ⟨fs₁, h₁, by rw [h₂']; rfl⟩
  · rw [if_neg hstd] at h₁ ⊢
    cases h₁
    rw [bind_eq_ok]
    exact ⟨fs, rfl, by rw [h₂']; rfl⟩

theorem moveEntry_flat_of (hr : toReorg = true) (hfl : flattenedName f = true)
    (hclash : NoForgeStdClash fs₀ (stagedDir root contract) toReorg)
    (hroot : fs₀.node root = some .dir)
    (hfs : fs.node = relocate (prepared fs₀.node root toReorg done) M)
    (hready : EntryReady fs₀.node root (stagedDir root contract) toReorg f)
    (hfresh : ∀ c ∈ fs₀.children (stagedDir root contract ++ [f]), ∀ m ∈ M,
      m.2 ≠ flattenDir root f ++ [c]) :
    ∃ r, moveEntry root (stagedDir root contract) toReorg en f fs rs = .ok r := by
  subst hr
  simp only [EntryReady, if_true, hfl] at hready
  obtain ⟨hdir, hready⟩ := hready
  have hstd : f ≠ "forge-std" := by rintro rfl; simp [flattenedName] at hfl
  have hap : ∀ m ∈ M, ¬ m.2 <+: nodeModulesDir root ∧ ¬ m.1 <+: nodeModulesDir root :=
    apart_dir_of_loop hdone hM (by decide)
  -- `flattenTarget` succeeds
  obtain ⟨fs₁, h₁, hfs₁⟩ : ∃ fs₁, flattenTarget root f fs = .ok (flattenDir root f, fs₁) ∧
      fs₁.node = relocate (prepared fs₀.node root true (done ++ [f])) M := by
    rw [flattenTarget_eq]
    split_ifs with hnm
    · subst hnm
      rw [if_pos rfl] at hready
      have hnone : fs.node (nodeModulesDir root) = none := by
        rw [hfs, relocate_of_apart hap, prepared_eq (fun h => absurd h hf)
          fun _ h => by simpa [nodeModulesDir] using h.length_le]
        exact hready
      have hpar : fs.node (nodeModulesDir root).dropLast = some .dir := by
        rw [show (nodeModulesDir root).dropLast = root by simp [nodeModulesDir], hfs,
          relocate_of_apart fun m hm => ⟨fun h => (hap m hm).1 (h.trans (prefix_append _ _)),
            fun h => (hap m hm).2 (h.trans (prefix_append _ _))⟩,
          prepared_eq (fun _ h => by simpa [nodeModulesDir] using congrArg length h)
            fun _ h => by have := h.length_le; simp only [libDir_append, length_append,
              length_cons, length_nil] at this; omega]
        exact hroot
      obtain ⟨fs₁, hc, hnode⟩ := fs.createDir_of hnone hpar
      exact ⟨fs₁, by simp [flattenDir, hc, liftIo, Except.mapError, Except.map],
        by rw [hnode, hfs, setNode_relocate hap, prepared_append_nodeModules rfl]⟩
    · exact ⟨fs, rfl, by rw [hfs, prepared_append_of_ne hnm hstd]⟩
  -- `read_dir` of the entry succeeds and sees the snapshot's entries
  obtain ⟨cs, h₃⟩ : ∃ cs, fs₁.readDir en (stagedDir root contract ++ [f]) = .ok cs :=
    FileSystem.readDir_of (by
      rw [← append_nil (stagedDir root contract ++ [f]), node_staged_of_loop hdone hM hf hfs₁]
      simpa using hdir)
  obtain ⟨hnd, hmem₀, hpresc, hfit⟩ := readDir_flat_of_loop hdone hM hf hfs₁ h₃
  -- every destination is free, under a directory
  have hcond : ∀ c ∈ cs,
      prepared fs₀.node root true (done ++ [f]) (flattenDir root f ++ [c]) = none ∧
      (∀ m ∈ M, m.2 ≠ flattenDir root f ++ [c]) ∧
      prepared fs₀.node root true (done ++ [f]) (flattenDir root f) = some .dir := by
    intro c hc
    have hc₀ := fs₀.mem_children.mp ((hmem₀ c).mp hc)
    refine ⟨?_, fun m hm => hfresh c ((hmem₀ c).mp hc) m hm, ?_⟩ <;> split_ifs at hready with hnm
    · subst hnm
      rw [prepared_flatDest hdone hf hclash hstd hc₀]
      by_contra hne
      simpa [flattenDir, hready] using fs₀.parent_dir _ c hne
    · rw [prepared_flatDest hdone hf hclash hstd hc₀]; exact (hready c hc₀).2
    · subst hnm; simp [prepared, flattenDir]
    · rw [prepared_flattenDir hnm]; exact (hready c hc₀).1
  obtain ⟨r, hr⟩ : ∃ r, moveChildren f (stagedDir root contract ++ [f]) (flattenDir root f) cs fs₁ rs
      = .ok r :=
    moveChildren_of (apart_staged_flattenDir f) hfs₁ hnd hpresc hfit hcond
  simp only [moveEntry, if_true, hfl]
  exact ⟨r, bind_eq_ok.mpr ⟨_, h₁, bind_eq_ok.mpr ⟨cs, liftIo_eq_ok.mpr h₃, hr⟩⟩⟩

/-- **A ready step succeeds**: an entry ready by itself whose destinations are new is moved. -/
theorem moveEntry_of (hclash : NoForgeStdClash fs₀ (stagedDir root contract) toReorg)
    (hroot : fs₀.node root = some .dir)
    (hpres : fs₀.node (stagedDir root contract ++ [f]) ≠ none)
    (hfs : fs.node = relocate (prepared fs₀.node root toReorg done) M)
    (hready : EntryReady fs₀.node root (stagedDir root contract) toReorg f)
    (hfresh : ∀ m ∈ M, ∀ m' ∈ entryMoves root (stagedDir root contract) toReorg f
      (fs₀.children (stagedDir root contract ++ [f])), m.2 ≠ m'.2) :
    ∃ r, moveEntry root (stagedDir root contract) toReorg en f fs rs = .ok r := by
  cases toReorg
  · simp only [EntryReady, Bool.false_eq_true, if_false] at hready
    exact moveEntry_src_of hdone hM hf rfl hpres hfs hready.1 hready.2
      fun m hm => hfresh m hm (stagedDir root contract ++ [f], srcDir root ++ [f]) (by simp [entryMoves])
  · cases hfl : flattenedName f
    · simp only [EntryReady, if_true, hfl, Bool.false_eq_true, if_false] at hready
      exact moveEntry_lib_of hdone hM hf rfl hfl hclash hpres hfs hready.1 hready.2.1 hready.2.2
        fun m hm => hfresh m hm (stagedDir root contract ++ [f], libDir root ++ [f])
          (by simp [entryMoves, hfl])
    · refine moveEntry_flat_of hdone hM hf rfl hfl hclash hroot hfs hready fun c hc m hm => ?_
      have hmem : (stagedDir root contract ++ [f] ++ [c], flattenDir root f ++ [c]) ∈
          entryMoves root (stagedDir root contract) true f
            (fs₀.children (stagedDir root contract ++ [f])) := by
        simp only [entryMoves, if_true, hfl, childMoves, mem_map]
        exact ⟨c, hc, rfl⟩
      exact hfresh m hm _ hmem

end Step

/-! ## The whole loop -/

section Loop

variable {fs₀ : FileSystem} {root : Path} {contract : Name} {toReorg : Bool} {en : Enumeration}

theorem entryMoves_perm {f : Name} {cs cs' : List Name} (h : cs ~ cs') :
    entryMoves root (stagedDir root contract) toReorg f cs ~
      entryMoves root (stagedDir root contract) toReorg f cs' := by
  unfold entryMoves childMoves
  split_ifs
  · exact h.map _
  all_goals rfl

theorem entryRemappings_perm {f : Name} {cs cs' : List Name} (h : cs ~ cs') :
    entryRemappings root toReorg f cs ~ entryRemappings root toReorg f cs' := by
  unfold entryRemappings childRemappings
  split_ifs
  · exact h.map _
  all_goals rfl

/-- The destinations of one entry's moves are distinct. -/
theorem nodup_dests_entryMoves (f : Name) :
    ((entryMoves root (stagedDir root contract) toReorg f
      (fs₀.children (stagedDir root contract ++ [f]))).map Prod.snd).Nodup := by
  unfold entryMoves childMoves
  split_ifs
  · simpa [map_map, Function.comp_def] using (fs₀.nodup_children _).map
      fun a b h => by simpa using h
  all_goals exact nodup_singleton _

/-- The loop's state after handling `done`, from the snapshot `fs₀` and the existing
remappings `rs₀`: the snapshot relocated by the moves made, and the remappings pushed after
`rs₀`, both up to the order `read_dir` chose. -/
structure LoopState (fs₀ : FileSystem) (root : Path) (contract : Name) (toReorg : Bool)
    (rs₀ : List Remapping) (done : List Name) (fs : FileSystem) (rs : List Remapping) : Prop where
  ready : LoopReady fs₀ root (stagedDir root contract) toReorg done
  moves : ∃ M, M ~ loopMoves fs₀ root (stagedDir root contract) toReorg done ∧
    fs.node = relocate (prepared fs₀.node root toReorg done) M
  remappings : ∃ R, R ~ loopRemappings fs₀ root (stagedDir root contract) toReorg done ∧
    rs = rs₀ ++ R

theorem loopState_nil (rs₀ : List Remapping) : LoopState fs₀ root contract toReorg rs₀ [] fs₀ rs₀ :=
  ⟨⟨by simp, by simp [loopMoves]⟩, ⟨[], by simp [loopMoves], by funext q; simp [prepared]⟩,
    ⟨[], by simp [loopRemappings], by simp⟩⟩

/-- **The step lemma of the loop**: a successful step extends the state by its entry. -/
theorem LoopState.step {rs₀ : List Remapping} {done : List Name} {f : Name}
    {fs fs' : FileSystem} {rs rs' : List Remapping}
    (hst : LoopState fs₀ root contract toReorg rs₀ done fs rs)
    (hclash : NoForgeStdClash fs₀ (stagedDir root contract) toReorg)
    (hdone : ∀ g ∈ done, fs₀.node (stagedDir root contract ++ [g]) ≠ none) (hf : f ∉ done)
    (hpres : fs₀.node (stagedDir root contract ++ [f]) ≠ none)
    (h : moveEntry root (stagedDir root contract) toReorg en f fs rs = .ok (fs', rs')) :
    LoopState fs₀ root contract toReorg rs₀ (done ++ [f]) fs' rs' := by
  obtain ⟨⟨hready, hnd⟩, ⟨M, hM, hfs⟩, ⟨R, hR, rfl⟩⟩ := hst
  obtain ⟨hreadyf, hfresh, cs, hcs, hnode, hrs⟩ :=
    moveEntry_ok hdone (fun m hm => hM.mem_iff.mp hm) hf hclash hpres hfs h
  refine ⟨⟨fun g hg => ?_, ?_⟩, ⟨_, ?_, hnode⟩, ⟨_, ?_, by rw [hrs, append_assoc]⟩⟩
  · rcases mem_append.mp hg with hg | hg
    · exact hready g hg
    · rw [mem_singleton.mp hg]; exact hreadyf
  · simp only [loopMoves, flatMap_append, flatMap_singleton, map_append] at hnd ⊢
    refine nodup_append.mpr ⟨hnd, nodup_dests_entryMoves f, fun d hd hd' => ?_⟩
    obtain ⟨m, hm, rfl⟩ := mem_map.mp hd
    obtain ⟨m', hm', heq⟩ := mem_map.mp hd'
    exact hfresh m (hM.mem_iff.mpr hm) m' hm' heq.symm
  · simpa [loopMoves] using hM.append (entryMoves_perm hcs)
  · simpa [loopRemappings] using hR.append (entryRemappings_perm hcs)

/-- In a ready loop, the moves of an entry share no destination with those of the entries
before it. -/
theorem LoopReady.fresh {done todo : List Name} {f : Name} {M : List (Path × Path)}
    (h : LoopReady fs₀ root (stagedDir root contract) toReorg (done ++ f :: todo))
    (hM : M ~ loopMoves fs₀ root (stagedDir root contract) toReorg done) :
    ∀ m ∈ M, ∀ m' ∈ entryMoves root (stagedDir root contract) toReorg f
      (fs₀.children (stagedDir root contract ++ [f])), m.2 ≠ m'.2 := by
  intro m hm m' hm' heq
  have hnd := h.2
  simp only [loopMoves, flatMap_append, flatMap_cons, map_append] at hnd
  exact (nodup_append.mp hnd).2.2 (mem_map_of_mem _ (hM.mem_iff.mp hm))
    (mem_append_left _ (heq ▸ mem_map_of_mem _ hm'))

/-- **The run lemma**: a successful run over the entries `todo` extends the state by all of
them. -/
theorem moveEntries_ok {rs₀ : List Remapping}
    (hclash : NoForgeStdClash fs₀ (stagedDir root contract) toReorg) :
    ∀ {todo done : List Name} {fs fs' : FileSystem} {rs rs' : List Remapping},
      (done ++ todo).Nodup → (∀ g ∈ done ++ todo, fs₀.node (stagedDir root contract ++ [g]) ≠ none) →
      LoopState fs₀ root contract toReorg rs₀ done fs rs →
      moveEntries root (stagedDir root contract) toReorg en todo fs rs = .ok (fs', rs') →
      LoopState fs₀ root contract toReorg rs₀ (done ++ todo) fs' rs'
  | [], _, _, _, _, _, _, _, hst, h => by cases h; simpa using hst
  | f :: todo, done, fs, fs', rs, rs', hnd, hpres, hst, h => by
    obtain ⟨⟨fs₁, rs₁⟩, h₁, h₂⟩ := bind_eq_ok.mp h
    have hf : f ∉ done := fun hf => (nodup_append.mp hnd).2.2 hf (mem_cons_self f todo)
    have hst₁ := hst.step hclash (fun g hg => hpres g (mem_append_left _ hg)) hf
      (hpres f (by simp)) h₁
    simpa using moveEntries_ok hclash (by simpa using hnd) (by simpa using hpres) hst₁ h₂

/-- **A ready run succeeds.** -/
theorem moveEntries_of {rs₀ : List Remapping}
    (hclash : NoForgeStdClash fs₀ (stagedDir root contract) toReorg)
    (hroot : fs₀.node root = some .dir) :
    ∀ {todo done : List Name} {fs : FileSystem} {rs : List Remapping},
      (done ++ todo).Nodup → (∀ g ∈ done ++ todo, fs₀.node (stagedDir root contract ++ [g]) ≠ none) →
      LoopState fs₀ root contract toReorg rs₀ done fs rs →
      LoopReady fs₀ root (stagedDir root contract) toReorg (done ++ todo) →
      ∃ r, moveEntries root (stagedDir root contract) toReorg en todo fs rs = .ok r
  | [], _, fs, rs, _, _, _, _ => ⟨(fs, rs), rfl⟩
  | f :: todo, done, fs, rs, hnd, hpres, hst, hready => by
    obtain ⟨M, hM, hfs⟩ := hst.moves
    have hf : f ∉ done := fun hf => (nodup_append.mp hnd).2.2 hf (mem_cons_self f todo)
    have hdone : ∀ g ∈ done, fs₀.node (stagedDir root contract ++ [g]) ≠ none :=
      fun g hg => hpres g (mem_append_left _ hg)
    have hpf : fs₀.node (stagedDir root contract ++ [f]) ≠ none := hpres f (by simp)
    obtain ⟨⟨fs₁, rs₁⟩, h₁⟩ : ∃ r, moveEntry root (stagedDir root contract) toReorg en f fs rs = .ok r :=
      moveEntry_of hdone (fun m hm => hM.mem_iff.mp hm) hf hclash hroot hpf hfs
      (hready.1 f (by simp)) (hready.fresh hM)
    obtain ⟨r, hr⟩ := moveEntries_of hclash hroot (by simpa using hnd) (by simpa using hpres)
      (hst.step hclash hdone hf hpf h₁) (by simpa using hready)
    exact ⟨r, bind_eq_ok.mpr ⟨_, h₁, hr⟩⟩

/-- A successful loop over distinct present entries ends in the state of all of them. -/
theorem LoopState.of_run {rs₀ : List Remapping} {names : List Name} {fs : FileSystem}
    {rs : List Remapping} (hclash : NoForgeStdClash fs₀ (stagedDir root contract) toReorg)
    (hnd : names.Nodup) (hpres : ∀ g ∈ names, fs₀.node (stagedDir root contract ++ [g]) ≠ none)
    (h : moveEntries root (stagedDir root contract) toReorg en names fs₀ rs₀ = .ok (fs, rs)) :
    LoopState fs₀ root contract toReorg rs₀ names fs rs :=
  moveEntries_ok hclash (show ([] ++ names).Nodup from hnd) hpres (loopState_nil rs₀) h

/-- **The loop succeeds exactly when it is ready.** -/
theorem moveEntries_ok_iff {rs₀ : List Remapping} {names : List Name}
    (hclash : NoForgeStdClash fs₀ (stagedDir root contract) toReorg)
    (hroot : fs₀.node root = some .dir) (hnd : names.Nodup)
    (hpres : ∀ g ∈ names, fs₀.node (stagedDir root contract ++ [g]) ≠ none) :
    (∃ r, moveEntries root (stagedDir root contract) toReorg en names fs₀ rs₀ = .ok r) ↔
      LoopReady fs₀ root (stagedDir root contract) toReorg names :=
  ⟨fun ⟨_, h⟩ => (LoopState.of_run hclash hnd hpres h).ready,
    moveEntries_of hclash hroot (show ([] ++ names).Nodup from hnd) hpres (loopState_nil rs₀)⟩

/-- The moves of ready entries go to distinct children of project directories, so their
destinations are apart. -/
theorem LoopReady.pairwise_apart {names : List Name}
    (hpres : ∀ g ∈ names, fs₀.node (stagedDir root contract ++ [g]) ≠ none)
    (h : LoopReady fs₀ root (stagedDir root contract) toReorg names) :
    (loopMoves fs₀ root (stagedDir root contract) toReorg names).Pairwise
      fun a b => Apart a.2 b.2 := by
  have hl : ∀ m ∈ loopMoves fs₀ root (stagedDir root contract) toReorg names,
      m.2.length = root.length + 2 := fun m hm => by
    obtain ⟨-, -, n, c, h, -⟩ := mem_loopMoves hpres hm
    simp [h]
  exact (pairwise_map.mp h.2).imp_of_mem fun ha hb hne =>
    apart_of_length_eq ((hl _ ha).trans (hl _ hb).symm) hne

theorem LoopReady.perm {staged : Path} {names names' : List Name} (hp : names ~ names')
    (h : LoopReady fs₀ root staged toReorg names) : LoopReady fs₀ root staged toReorg names' :=
  ⟨fun f hf => h.1 f (hp.mem_iff.mpr hf), ((hp.flatMap_right _).map _).nodup_iff.mp h.2⟩

/-- **Two orders of the same entries end in the same state**, with the same remappings in
another order. -/
theorem LoopState.perm {rs₀ : List Remapping} {done done' : List Name} {fs fs' : FileSystem}
    {rs rs' : List Remapping}
    (hpres : ∀ g ∈ done, fs₀.node (stagedDir root contract ++ [g]) ≠ none) (hp : done ~ done')
    (h : LoopState fs₀ root contract toReorg rs₀ done fs rs)
    (h' : LoopState fs₀ root contract toReorg rs₀ done' fs' rs') :
    fs.node = fs'.node ∧ rs ~ rs' := by
  obtain ⟨M, hM, hfs⟩ := h.moves
  obtain ⟨M', hM', hfs'⟩ := h'.moves
  obtain ⟨R, hR, rfl⟩ := h.remappings
  obtain ⟨R', hR', rfl⟩ := h'.remappings
  have hapart : M.Pairwise fun a b => Apart a.2 b.2 :=
    (hM.pairwise_iff Apart.symm).mpr (h.ready.pairwise_apart hpres)
  refine ⟨?_, (hR.trans ((hp.flatMap_right _).trans hR'.symm)).append_left rs₀⟩
  rw [hfs, hfs', prepared_congr fun _ => hp.mem_iff]
  exact relocate_perm (hM.trans ((hp.flatMap_right _).trans hM'.symm)) hapart

/-! ## Where the files end up -/

/-- In a ready loop every destination was free in the snapshot, but for `lib/forge-std`, which
the `forge-std` entry replaces. -/
theorem LoopReady.dest_free {names : List Name} {m : Path × Path}
    (h : LoopReady fs₀ root (stagedDir root contract) toReorg names)
    (hm : m ∈ loopMoves fs₀ root (stagedDir root contract) toReorg names) :
    fs₀.node m.2 = none ∨
      toReorg = true ∧ "forge-std" ∈ names ∧ m.2 = libDir root ++ ["forge-std"] := by
  obtain ⟨g, hg, hm⟩ := mem_flatMap.mp hm
  have hr := h.1 g hg
  cases toReorg
  · simp only [entryMoves, EntryReady, Bool.false_eq_true, if_false, mem_singleton] at hm hr
    subst hm
    exact .inl hr.2
  cases hfl : flattenedName g
  · simp only [entryMoves, EntryReady, if_true, hfl, Bool.false_eq_true, if_false,
      mem_singleton] at hm hr
    subst hm
    by_cases hfs : g = "forge-std"
    · exact .inr ⟨rfl, hfs ▸ hg, by simp [hfs]⟩
    · exact .inl (by simpa [hfs] using hr.2.2)
  · simp only [entryMoves, EntryReady, if_true, hfl, childMoves, mem_map] at hm hr
    obtain ⟨c, hc, rfl⟩ := hm
    by_cases hnm : g = "node_modules"
    · subst hnm
      have hfd : flattenDir root "node_modules" = nodeModulesDir root := by simp [flattenDir]
      simp only [if_true] at hr
      exact .inl (by_contra fun hne =>
        fs₀.node_of_prefix (prefix_append _ [c]) (by rwa [← hfd]) hr.2)
    · simp only [hnm, if_false] at hr
      exact .inl (hr.2 c (fs₀.mem_children.mp hc)).2

/-- The move of a ready loop that carries the staged file at `f/rest`. -/
theorem LoopReady.move_of_staged {names : List Name} {f : Name} {rest : Path} {c : String}
    (h : LoopReady fs₀ root (stagedDir root contract) toReorg names) (hf : f ∈ names)
    (hq : fs₀.node (stagedDir root contract ++ f :: rest) = some (.file c)) :
    ∃ m ∈ loopMoves fs₀ root (stagedDir root contract) toReorg names,
      m.2 <+: movedPath root toReorg f rest ∧
      m.1 ++ (movedPath root toReorg f rest).drop m.2.length = stagedDir root contract ++ f :: rest := by
  have hr := h.1 f hf
  have hmem : ∀ m ∈ entryMoves root (stagedDir root contract) toReorg f
      (fs₀.children (stagedDir root contract ++ [f])),
      m ∈ loopMoves fs₀ root (stagedDir root contract) toReorg names :=
    fun m hm => mem_flatMap.mpr ⟨f, hf, hm⟩
  cases toReorg
  · refine ⟨(stagedDir root contract ++ [f], srcDir root ++ [f]), hmem _ (by simp [entryMoves]),
      ?_, ?_⟩ <;> simp [movedPath]
  cases hfl : flattenedName f
  · refine ⟨(stagedDir root contract ++ [f], libDir root ++ [f]),
      hmem _ (by simp [entryMoves, hfl]), ?_, ?_⟩ <;> simp [movedPath, hfl]
  · simp only [EntryReady, if_true, hfl] at hr
    cases rest with
    | nil => cases hr.1.symm.trans hq
    | cons c' r =>
      have hc : c' ∈ fs₀.children (stagedDir root contract ++ [f]) :=
        fs₀.mem_children.mpr (fs₀.node_of_prefix
          (show stagedDir root contract ++ [f] ++ [c'] <+: stagedDir root contract ++ f :: c' :: r
            from ⟨r, by simp⟩) (by rw [hq]; exact Option.some_ne_none _))
      have hm : (stagedDir root contract ++ [f] ++ [c'], flattenDir root f ++ [c']) ∈
          entryMoves root (stagedDir root contract) true f
            (fs₀.children (stagedDir root contract ++ [f])) := by
        simp only [entryMoves, if_true, hfl, childMoves]
        exact mem_map_of_mem _ hc
      refine ⟨_, hmem _ hm, ?_, ?_⟩
      · exact ⟨r, by simp [movedPath, hfl]⟩
      · simp [movedPath, hfl]

/-- **Every staged file arrives.** After the loop, a file of the staged snapshot is where the move
rules put it. -/
theorem LoopState.file_moved {rs₀ : List Remapping} {names : List Name} {fs : FileSystem}
    {rs : List Remapping} {f : Name} {rest : Path} {c : String}
    (hst : LoopState fs₀ root contract toReorg rs₀ names fs rs)
    (hmem : ∀ g, g ∈ names ↔ fs₀.node (stagedDir root contract ++ [g]) ≠ none)
    (hq : fs₀.node (stagedDir root contract ++ f :: rest) = some (.file c)) :
    fs.node (movedPath root toReorg f rest) = some (.file c) := by
  have hpres : ∀ g ∈ names, fs₀.node (stagedDir root contract ++ [g]) ≠ none := fun g => (hmem g).mp
  have hf : f ∈ names := (hmem f).mpr (fs₀.node_of_prefix
    (show stagedDir root contract ++ [f] <+: stagedDir root contract ++ f :: rest from ⟨rest, by simp⟩)
    (by rw [hq]; exact Option.some_ne_none _))
  obtain ⟨M, hM, hfs⟩ := hst.moves
  have hapart : M.Pairwise fun a b => Apart a.2 b.2 :=
    (hM.pairwise_iff Apart.symm).mpr (hst.ready.pairwise_apart hpres)
  obtain ⟨⟨s, d⟩, hm, hd, hs⟩ := hst.ready.move_of_staged hf hq
  rw [hfs, relocate_of_dest (hM.mem_iff.mpr hm) hapart hd, hs, prepared_staged, hq]

/-- **The loop's frame.** A file of the snapshot outside the staging area is still there after
the loop, unless it lies in a `lib/forge-std` that a staged `forge-std` replaced. -/
theorem LoopState.file_kept {rs₀ : List Remapping} {names : List Name} {fs : FileSystem}
    {rs : List Remapping} {q : Path} {c : String}
    (hst : LoopState fs₀ root contract toReorg rs₀ names fs rs)
    (hpres : ∀ g ∈ names, fs₀.node (stagedDir root contract ++ [g]) ≠ none)
    (hq : fs₀.node q = some (.file c)) (hraw : ¬ rawSourcesDir root <+: q) :
    fs.node q = some (.file c) ∨
      toReorg = true ∧ "forge-std" ∈ names ∧ libDir root ++ ["forge-std"] <+: q := by
  by_cases hx : toReorg = true ∧ "forge-std" ∈ names ∧ libDir root ++ ["forge-std"] <+: q
  · exact .inr hx
  left
  obtain ⟨M, hM, hfs⟩ := hst.moves
  have hqn : fs₀.node q ≠ none := by simp [hq]
  have hapart : ∀ m ∈ M, ¬ m.2 <+: q ∧ ¬ m.1 <+: q := fun m hm => by
    have hm' := hM.mem_iff.mp hm
    obtain ⟨⟨g, -, x, hs, -⟩, -⟩ := mem_loopMoves hpres hm'
    have hrs : rawSourcesDir root <+: stagedDir root contract ++ g :: x :=
      ⟨contract :: g :: x, by simp [stagedDir]⟩
    refine ⟨fun hd => ?_, fun hs' => hraw (hrs.trans (hs ▸ hs'))⟩
    rcases hst.ready.dest_free hm' with hfree | ⟨ht, hg, he⟩
    · exact fs₀.node_of_prefix hd hqn hfree
    · exact hx ⟨ht, hg, he ▸ hd⟩
  rw [hfs, relocate_of_apart hapart]
  cases toReorg
  · simpa using hq
  · refine (prepared_eq (fun hnm he => ?_) fun hg hp => hx ⟨rfl, hg, hp⟩).trans hq
    have hr := hst.ready.1 _ hnm
    simp only [EntryReady, if_true, flattenedName] at hr
    simp [he, hr.2] at hq

/-- The loop leaves `raw_sources` itself as it was: every move is below it or beside it. -/
theorem LoopState.node_rawSources {rs₀ : List Remapping} {names : List Name} {fs : FileSystem}
    {rs : List Remapping} (hst : LoopState fs₀ root contract toReorg rs₀ names fs rs)
    (hpres : ∀ g ∈ names, fs₀.node (stagedDir root contract ++ [g]) ≠ none) :
    fs.node (rawSourcesDir root) = fs₀.node (rawSourcesDir root) := by
  obtain ⟨M, hM, hfs⟩ := hst.moves
  have hap : ∀ m ∈ M, ¬ m.2 <+: rawSourcesDir root ∧ ¬ m.1 <+: rawSourcesDir root := fun m hm => by
    obtain ⟨⟨g, -, x, h₁, -⟩, -, n, c, h₂, -⟩ := mem_loopMoves hpres (hM.mem_iff.mp hm)
    rw [h₁, h₂]
    constructor <;> intro h <;> simpa [rawSourcesDir] using h.length_le
  rw [hfs, relocate_of_apart hap, prepared_eq (fun _ h => by simp [rawSourcesDir, nodeModulesDir] at h)
    fun _ h => by simpa [rawSourcesDir] using h.length_le]

/-! ## What the pushed remappings say -/

/-- **Every remapping the loop pushes comes from one of its moves**: its name is the moved path
below the staging directory, joined by `/`, and its path is the move's destination. -/
theorem mem_loopRemappings {names : List Name} {r : Remapping}
    (hr : r ∈ loopRemappings fs₀ root (stagedDir root contract) toReorg names) :
    ∃ e d, (stagedDir root contract ++ e, d) ∈ loopMoves fs₀ root (stagedDir root contract) toReorg names ∧
      r = ⟨none, "/".intercalate e, pathString d⟩ := by
  obtain ⟨g, hg, hr⟩ := mem_flatMap.mp hr
  have hmem : ∀ m ∈ entryMoves root (stagedDir root contract) toReorg g
      (fs₀.children (stagedDir root contract ++ [g])),
      m ∈ loopMoves fs₀ root (stagedDir root contract) toReorg names :=
    fun m hm => mem_flatMap.mpr ⟨g, hg, hm⟩
  unfold entryRemappings at hr
  split_ifs at hr with ht hfl
  · obtain ⟨c, hc, rfl⟩ := mem_map.mp hr
    refine ⟨[g, c], flattenDir root g ++ [c], hmem _ ?_, rfl⟩
    simp only [entryMoves, ht, hfl, if_true, childMoves, mem_map]
    exact ⟨c, hc, by simp⟩
  · obtain rfl := mem_singleton.mp hr
    exact ⟨[g], libDir root ++ [g], hmem _ (by simp [entryMoves, ht, hfl]), rfl⟩
  · obtain rfl := mem_singleton.mp hr
    exact ⟨[g], srcDir root ++ [g], hmem _ (by simp [entryMoves, ht]), rfl⟩
  · cases hr

/-- **A destination holds its source's subtree.** After a ready loop, whatever lies below a
move's destination is what lay below its source in the snapshot. -/
theorem LoopState.node_dest {rs₀ : List Remapping} {names : List Name} {fs : FileSystem}
    {rs : List Remapping} (hst : LoopState fs₀ root contract toReorg rs₀ names fs rs)
    (hpres : ∀ g ∈ names, fs₀.node (stagedDir root contract ++ [g]) ≠ none) {s d : Path}
    (hm : (s, d) ∈ loopMoves fs₀ root (stagedDir root contract) toReorg names) (x : Path) :
    fs.node (d ++ x) = fs₀.node (s ++ x) := by
  obtain ⟨M, hM, hfs⟩ := hst.moves
  have hapart : M.Pairwise fun a b => Apart a.2 b.2 :=
    (hM.pairwise_iff Apart.symm).mpr (hst.ready.pairwise_apart hpres)
  obtain ⟨⟨g, -, y, hs, -⟩, -⟩ := mem_loopMoves hpres hm
  rw [hfs, relocate_of_dest (hM.mem_iff.mpr hm) hapart (prefix_append d x), drop_left]
  simp only at hs
  rw [hs, append_assoc, prepared_staged]

end Loop

end ForgeClone
