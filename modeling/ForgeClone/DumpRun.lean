import ForgeClone.MoveLoop

/-!
# `dump_sources` as a whole

Around the move loop, `dump_sources` writes the fetched tree into `raw_sources/<contract>`,
decides whether to reorganise it, checks that `src` and `lib` exist, and afterwards removes
`raw_sources` and appends the metadata's remappings. None of these depends on the order in which
`read_dir` yields entries: the decision reads every entry, and the metadata's remappings are
appended after whatever the loop pushed. With the move loop's own order independence, this
makes the whole run independent of the order, except for the order of the remappings it returns.

Two things break this, and the placement of files. With a top-level `forge-std` and a
`lib/forge-std` both staged, the removal of `lib/forge-std` for the first takes what the second
moved there, or fails, depending on the order; `ForgeStdClear` excludes that case. And a file
left in `raw_sources` before the run is removed with it.

## Main results

* `dumpSources_eq_ok` — what a successful run did, step by step
* `writeTo_grows` — staging only adds directories outside `raw_sources`
* `dumpSources_enumeration` — a run that succeeds with one order of `read_dir` succeeds with
  every other, leaves the same tree and returns the same remappings in another order
* `dumpSources_keeps_files` — every staged file arrives where the move rules put it, and every
  file outside `raw_sources` stays, but for a replaced `lib/forge-std`
* `dumpSources_ok_iff` — a run clear of the slip succeeds exactly when staging works, every
  entry is ready to move, no two moves collide, and the metadata's remappings can be rewritten
* `dumpSources_noPanic` — every failure is an `Err`: the `assert!` of the move loop holds
* `writeTo_last`, `dumpSources_sources_arrive` — staging writes each fetched source, the last
  entry for its path winning, and the run puts it where the move rules say
* `dumpSources_remappings` — each remapping the loop pushes names a staged entry and points at
  a destination holding exactly what was staged there
* `dumpSources_frame` — outside `raw_sources` and `lib/forge-std`, whatever existed keeps its
  node
-/

namespace ForgeClone

open List

/-! ## The steps around the loop -/

/-- `to_reorg` as a function of the staged snapshot: not opted out, and every top-level entry
has a recognised name. -/
def reorganises (fs : FileSystem) (staged : Path) (noReorg : Bool) : Bool :=
  !noReorg && (fs.children staged).all reorgName

section Decision

variable {fs : FileSystem} {en : Enumeration} {staged : Path} {noReorg : Bool}

/-- The decision reads the staged directory, whatever the order of its entries. -/
theorem reorgDecision_ok {b : Bool} (h : reorgDecision fs en staged noReorg = .ok b) :
    (noReorg = false → fs.node staged = some .dir) ∧ b = reorganises fs staged noReorg := by
  cases noReorg
  · obtain ⟨names, hn, rfl⟩ := map_eq_ok.mp h
    exact ⟨fun _ => (FileSystem.readDir_ok (liftIo_eq_ok.mp hn)).1,
      by rw [reorganises, all_perm (FileSystem.readDir_perm (liftIo_eq_ok.mp hn))]; rfl⟩
  · cases h
    exact ⟨nofun, rfl⟩

theorem reorgDecision_of (h : noReorg = false → fs.node staged = some .dir) :
    reorgDecision fs en staged noReorg = .ok (reorganises fs staged noReorg) := by
  cases noReorg
  · simp [reorgDecision, FileSystem.readDir, h rfl, liftIo, Except.mapError, Except.map,
      reorganises, all_perm (en.perm _ _)]
  · rfl

end Decision

/-- The metadata's remappings are appended after the ones the loop pushed, whatever those
are. -/
theorem addMetadataRemappings_append (toReorg : Bool) (ms : List Remapping) :
    ∀ rs, addMetadataRemappings toReorg ms rs = (addMetadataRemappings toReorg ms []).map (rs ++ ·) := by
  induction ms with
  | nil => intro rs; simp [addMetadataRemappings, Except.map]
  | cons r ms ih =>
    intro rs
    cases toReorg
    · simp only [addMetadataRemappings, Bool.false_eq_true, if_false]
      rw [ih (rs ++ _), ih ([] ++ _)]
      cases addMetadataRemappings false ms [] <;> simp [Except.map]
    · simp only [addMetadataRemappings, if_true]
      cases reorgRemappingPath r.path with
      | error e => rfl
      | ok path =>
        simp only
        rw [ih (rs ++ _), ih ([] ++ _)]
        cases addMetadataRemappings true ms [] <;> simp [Except.map]

/-- The body of the loop over the metadata's remappings: the path rewritten when reorganising. -/
def metadataRemapping (toReorg : Bool) (r : Remapping) : Except CloneError Remapping :=
  if toReorg then (reorgRemappingPath r.path).map fun path => { r with path := path } else .ok r

/-- The loop over the metadata's remappings is `mapM` of its body: it stops at the first path it
cannot rewrite, and otherwise appends every remapping, in order. -/
theorem addMetadataRemappings_eq_mapM (toReorg : Bool) :
    ∀ ms rs, addMetadataRemappings toReorg ms rs = (ms.mapM (metadataRemapping toReorg)).map (rs ++ ·)
  | [], rs => congrArg Except.ok (append_nil rs).symm
  | r :: ms, rs => by
    have ih := addMetadataRemappings_eq_mapM toReorg ms
    cases toReorg
    · simp only [addMetadataRemappings, Bool.false_eq_true, if_false, ih, mapM_cons,
        metadataRemapping]
      cases ms.mapM (metadataRemapping false) <;> simp [Except.map, Bind.bind, Except.bind, pure, Except.pure]
    · simp only [addMetadataRemappings, if_true, mapM_cons, metadataRemapping]
      cases reorgRemappingPath r.path with
      | error e => rfl
      | ok path =>
        simp only [ih]
        cases ms.mapM (metadataRemapping true) <;> simp [Except.map, Bind.bind, Except.bind, pure, Except.pure]

/-! ## What staging changes -/

/-- Outside `dir`, `fs'` differs from `fs` only by directories created where nothing was. -/
def Grows (dir : Path) (fs fs' : FileSystem) : Prop :=
  ∀ q, ¬ dir <+: q → fs'.node q = fs.node q ∨ fs.node q = none ∧ fs'.node q = some .dir

namespace Grows

variable {dir : Path} {fs fs' fs'' : FileSystem}

theorem refl (dir : Path) (fs : FileSystem) : Grows dir fs fs := fun _ _ => .inl rfl

theorem trans (h₁ : Grows dir fs fs') (h₂ : Grows dir fs' fs'') : Grows dir fs fs'' :=
  fun q hq => by
    rcases h₁ q hq with h | ⟨h, h'⟩ <;> rcases h₂ q hq with h₂ | ⟨h₂, h₂'⟩
    · exact .inl (h₂.trans h)
    · exact .inr ⟨h ▸ h₂, h₂'⟩
    · exact .inr ⟨h, h₂.trans h'⟩
    · simp [h'] at h₂

/-- A file outside `dir` is still there. -/
theorem file_eq (h : Grows dir fs fs') {q : Path} {c : String} (hq : ¬ dir <+: q)
    (hf : fs.node q = some (.file c)) : fs'.node q = some (.file c) := by
  rcases h q hq with h | ⟨h, -⟩
  · rw [h, hf]
  · simp [hf] at h

theorem of_createDir {p : Path} (h : fs.createDir p = .ok fs') : Grows dir fs fs' := fun q _ => by
  obtain ⟨hp, -, hn⟩ := fs.createDir_ok h
  rw [hn]
  by_cases hq : q = p
  · exact .inr ⟨hq ▸ hp, by simp [setNode, hq]⟩
  · exact .inl (by simp [setNode, hq])

theorem of_writeFile {p : Path} {c : String} (h : fs.writeFile p c = .ok fs') (hp : dir <+: p) :
    Grows dir fs fs' := fun q hq => by
  obtain ⟨-, -, hn⟩ := fs.writeFile_ok h
  have hqp : q ≠ p := fun e => hq (e ▸ hp)
  exact .inl (by simp [hn, setNode, hqp])

theorem of_createDirAllFrom : ∀ {base : Path} {rest : List Name} {fs fs' : FileSystem},
    createDirAllFrom base rest fs = .ok fs' → Grows dir fs fs'
  | _, [], _, _, h => by cases h; exact refl _ _
  | base, n :: rest, fs, fs', h => by
    unfold createDirAllFrom at h
    split at h
    · exact of_createDirAllFrom h
    · cases h
    · obtain ⟨fs₁, h₁, h₂⟩ := bind_eq_ok.mp h
      exact (of_createDir h₁).trans (of_createDirAllFrom h₂)

end Grows

theorem writeEntries_grows {dir : Path} :
    ∀ {es : List (String × String)} {fs fs' : FileSystem},
      writeEntries dir es fs = .ok fs' → Grows dir fs fs'
  | [], _, _, h => by cases h; exact .refl _ _
  | (_, _) :: _, _, _, h => by
    obtain ⟨fs₁, h₁, h⟩ := bind_eq_ok.mp h
    obtain ⟨fs₂, h₂, h₃⟩ := bind_eq_ok.mp h
    exact (Grows.of_createDirAllFrom h₁).trans
      ((Grows.of_writeFile h₂ (prefix_append _ _)).trans (writeEntries_grows h₃))

/-- **Staging only adds directories outside its target.** -/
theorem writeTo_grows {dir : Path} {es : List (String × String)} {fs fs' : FileSystem}
    (h : writeTo fs dir es = .ok fs') : Grows dir fs fs' := by
  obtain ⟨fs₁, h₁, h₂⟩ := bind_eq_ok.mp h
  exact (Grows.of_createDirAllFrom h₁).trans (writeEntries_grows h₂)

/-- Creating the missing directories down to `base ++ rest` makes it a directory. -/
theorem createDirAllFrom_dir : ∀ {base : Path} {rest : List Name} {fs fs' : FileSystem},
    fs.node base = some .dir → createDirAllFrom base rest fs = .ok fs' →
      fs'.node (base ++ rest) = some .dir
  | _, [], _, _, hb, h => by cases h; simpa using hb
  | base, n :: rest, fs, fs', _, h => by
    unfold createDirAllFrom at h
    split at h
    · next hn => simpa using createDirAllFrom_dir hn h
    · cases h
    · obtain ⟨fs₁, h₁, h₂⟩ := bind_eq_ok.mp h
      obtain ⟨-, -, hn⟩ := fs.createDir_ok h₁
      simpa using createDirAllFrom_dir (by rw [hn]; simp [setNode]) h₂

/-- Creating directories keeps every directory. -/
theorem createDirAllFrom_keeps_dir {q : Path} : ∀ {base : Path} {rest : List Name}
    {fs fs' : FileSystem}, createDirAllFrom base rest fs = .ok fs' →
      fs.node q = some .dir → fs'.node q = some .dir
  | _, [], _, _, h, hq => by cases h; exact hq
  | base, n :: rest, fs, fs', h, hq => by
    unfold createDirAllFrom at h
    split at h
    · exact createDirAllFrom_keeps_dir h hq
    · cases h
    · obtain ⟨fs₁, h₁, h₂⟩ := bind_eq_ok.mp h
      obtain ⟨-, -, hn⟩ := fs.createDir_ok h₁
      exact createDirAllFrom_keeps_dir h₂ (by rw [hn]; unfold setNode; split_ifs <;> simp [hq])

/-- Staging keeps every directory: it only creates directories and writes files. -/
theorem writeEntries_keeps_dir {dir q : Path} :
    ∀ {es : List (String × String)} {fs fs' : FileSystem}, writeEntries dir es fs = .ok fs' →
      fs.node q = some .dir → fs'.node q = some .dir
  | [], _, _, h, hq => by cases h; exact hq
  | (path, _) :: _, _, _, h, hq => by
    obtain ⟨fs₁, h₁, h⟩ := bind_eq_ok.mp h
    obtain ⟨fs₂, h₂, h₃⟩ := bind_eq_ok.mp h
    have hq₁ := createDirAllFrom_keeps_dir h₁ hq
    obtain ⟨-, hp, hn⟩ := fs₁.writeFile_ok h₂
    refine writeEntries_keeps_dir h₃ ?_
    rw [hn, setNode, if_neg fun he : q = dir ++ entryPath path => hp (he ▸ hq₁)]
    exact hq₁

/-- After staging, the staging directory is a directory. -/
theorem writeTo_dir {dir : Path} {es : List (String × String)} {fs fs' : FileSystem}
    (h : writeTo fs dir es = .ok fs') : fs'.node dir = some .dir := by
  obtain ⟨fs₁, h₁, h₂⟩ := bind_eq_ok.mp h
  exact writeEntries_keeps_dir h₂ (by simpa using createDirAllFrom_dir fs.root_dir h₁)

/-- `create_dir_all` creates directories only where nothing was. -/
theorem createDirAllFrom_keeps {q : Path} : ∀ {base : Path} {rest : List Name}
    {fs fs' : FileSystem}, createDirAllFrom base rest fs = .ok fs' →
      fs.node q ≠ none → fs'.node q = fs.node q
  | _, [], _, _, h, _ => by cases h; rfl
  | base, n :: rest, fs, fs', h, hq => by
    unfold createDirAllFrom at h
    split at h
    · exact createDirAllFrom_keeps h hq
    · cases h
    · obtain ⟨fs₁, h₁, h₂⟩ := bind_eq_ok.mp h
      have he := fs.createDir_keeps h₁ hq
      rw [createDirAllFrom_keeps h₂ (he ▸ hq), he]

/-- A path that exists, and that none of the entries writes, keeps its node through staging. -/
theorem writeEntries_keeps {dir q : Path} :
    ∀ {es : List (String × String)} {fs fs' : FileSystem}, writeEntries dir es fs = .ok fs' →
      (∀ e ∈ es, dir ++ entryPath e.1 ≠ q) → fs.node q ≠ none → fs'.node q = fs.node q
  | [], _, _, h, _, _ => by cases h; rfl
  | (path, _) :: _, _, _, h, hes, hq => by
    obtain ⟨fs₁, h₁, h⟩ := bind_eq_ok.mp h
    obtain ⟨fs₂, h₂, h₃⟩ := bind_eq_ok.mp h
    have he₁ := createDirAllFrom_keeps h₁ hq
    have he₂ : fs₂.node q = fs₁.node q := by
      rw [(fs₁.writeFile_ok h₂).2.2, setNode, if_neg (hes _ (mem_cons_self _ _)).symm]
    rw [writeEntries_keeps h₃ (fun e he => hes e (mem_cons_of_mem _ he)) (by rwa [he₂, he₁]), he₂,
      he₁]

/-- **Staging is faithful**: the path an entry is written at holds the contents of the last entry
written there. -/
theorem writeEntries_last {dir : Path} {s c : String} {post : List (String × String)}
    (hp : entryPath s ∉ post.map (entryPath ·.1)) : ∀ {pre : List (String × String)}
      {fs fs' : FileSystem}, writeEntries dir (pre ++ (s, c) :: post) fs = .ok fs' →
        fs'.node (dir ++ entryPath s) = some (.file c)
  | [], fs, fs', h => by
    obtain ⟨fs₁, -, h⟩ := bind_eq_ok.mp h
    obtain ⟨fs₂, h₂, h₃⟩ := bind_eq_ok.mp h
    have hw : fs₂.node (dir ++ entryPath s) = some (.file c) := by
      rw [(fs₁.writeFile_ok h₂).2.2, setNode, if_pos rfl]
    -- the entries after it write elsewhere
    have hne : ∀ e ∈ post, dir ++ entryPath e.1 ≠ dir ++ entryPath s := fun e he heq =>
      hp (mem_map.mpr ⟨e, he, append_cancel_left heq⟩)
    rw [writeEntries_keeps h₃ hne (by simp [hw]), hw]
  | _ :: pre, _, _, h => by
    obtain ⟨fs₁, -, h⟩ := bind_eq_ok.mp h
    obtain ⟨fs₂, -, h₃⟩ := bind_eq_ok.mp h
    exact writeEntries_last hp h₃

theorem writeTo_last {dir : Path} {s c : String} {pre post : List (String × String)}
    {fs fs' : FileSystem} (h : writeTo fs dir (pre ++ (s, c) :: post) = .ok fs')
    (hp : entryPath s ∉ post.map (entryPath ·.1)) : fs'.node (dir ++ entryPath s) = some (.file c) := by
  obtain ⟨fs₁, -, h₂⟩ := bind_eq_ok.mp h
  exact writeEntries_last hp h₂

/-! ## What the loop leaves in place -/

section Keeps

variable {q : Path}

theorem guardedRename_keeps {fs fs' : FileSystem} {s d : Path} (h : guardedRename fs s d = .ok fs')
    (hs : ¬ s <+: q) (hq : fs.node q ≠ none) : fs'.node q = fs.node q := by
  unfold guardedRename at h
  split at h
  · cases h
  · exact fs.rename_keeps (liftIo_eq_ok.mp h) hs hq

theorem moveChildren_keeps {folder : Name} {entry newDir : Path} (hs : ¬ entry <+: q) :
    ∀ {cs : List Name} {fs fs' : FileSystem} {rs rs' : List Remapping},
      moveChildren folder entry newDir cs fs rs = .ok (fs', rs') → fs.node q ≠ none →
      fs'.node q = fs.node q
  | [], _, _, _, _, h, _ => by cases h; rfl
  | c :: cs, fs, fs', rs, rs', h, hq => by
    obtain ⟨fs₁, h₁, h₂⟩ := bind_eq_ok.mp h
    have he₁ := guardedRename_keeps h₁ (fun h => hs ((prefix_append _ _).trans h)) hq
    rw [moveChildren_keeps hs h₂ (by rwa [he₁]), he₁]

/-- The target of a flattened folder is made by at most one `create_dir`, of an empty path. -/
theorem flattenTarget_keeps {root D : Path} {folder : Name} {fs fs' : FileSystem}
    (h : flattenTarget root folder fs = .ok (D, fs')) (hq : fs.node q ≠ none) :
    fs'.node q = fs.node q := by
  rw [flattenTarget_eq] at h
  split_ifs at h
  · obtain ⟨fs₂, hc, he⟩ := map_eq_ok.mp h
    cases he
    exact fs.createDir_keeps (liftIo_eq_ok.mp hc) hq
  · cases h; rfl

/-- One step of the loop takes away only what lies below the staging directory, or below
`lib/forge-std` when it moves a top-level `forge-std` of a reorganised tree, and overwrites
nothing. -/
theorem moveEntry_keeps {root staged : Path} {toReorg : Bool} {en : Enumeration} {folder : Name}
    {fs fs' : FileSystem} {rs rs' : List Remapping}
    (h : moveEntry root staged toReorg en folder fs rs = .ok (fs', rs'))
    (hs : ¬ staged <+: q)
    (hl : toReorg = true → folder = "forge-std" → ¬ libDir root ++ ["forge-std"] <+: q)
    (hq : fs.node q ≠ none) : fs'.node q = fs.node q := by
  have hentry : ¬ staged ++ [folder] <+: q := fun h => hs ((prefix_append _ _).trans h)
  unfold moveEntry at h
  -- the failing `assert!` branch is closed by the split
  split_ifs at h with hr hfl hlu hstd
  · -- a flattened folder: its target, then its entries one by one
    obtain ⟨⟨D, fs₁⟩, h₁, h₂⟩ := bind_eq_ok.mp h
    obtain ⟨cs, -, h₄⟩ := bind_eq_ok.mp h₂
    have he₁ := flattenTarget_keeps h₁ hq
    rw [moveChildren_keeps hentry h₄ (by rwa [he₁]), he₁]
  · -- `forge-std`: `lib/forge-std` goes, then the rename
    obtain ⟨fs₁, h₁, h₂⟩ := bind_eq_ok.mp h
    obtain ⟨fs₂, h₃, h₄⟩ := bind_eq_ok.mp h₂
    cases h₄
    have he₁ : fs₁.node q = fs.node q :=
      fs.removeDirAll_keeps (liftIo_eq_ok.mp h₁) (by rw [hstd]; exact hl hr hstd)
    rw [guardedRename_keeps h₃ hentry (by rwa [he₁]), he₁]
  · -- another library unit: the rename alone
    obtain ⟨fs₁, h₁, h₂⟩ := bind_eq_ok.mp h
    cases h₁
    obtain ⟨fs₂, h₃, h₄⟩ := bind_eq_ok.mp h₂
    cases h₄
    exact guardedRename_keeps h₃ hentry hq
  -- keeping the layout, with or without a remapping: one rename into `src`
  all_goals
    obtain ⟨fs₁, h₁, h₂⟩ := bind_eq_ok.mp h
    cases h₂
    exact guardedRename_keeps h₁ hentry hq

theorem moveEntries_keeps {root staged : Path} {toReorg : Bool} {en : Enumeration}
    (hs : ¬ staged <+: q) :
    ∀ {names : List Name} {fs fs' : FileSystem} {rs rs' : List Remapping},
      (toReorg = true → "forge-std" ∈ names → ¬ libDir root ++ ["forge-std"] <+: q) →
      moveEntries root staged toReorg en names fs rs = .ok (fs', rs') → fs.node q ≠ none →
      fs'.node q = fs.node q
  | [], _, _, _, _, _, h, _ => by cases h; rfl
  | f :: names, fs, fs', rs, rs', hl, h, hq => by
    obtain ⟨⟨fs₁, rs₁⟩, h₁, h₂⟩ := bind_eq_ok.mp h
    have he₁ := moveEntry_keeps h₁ hs (fun ht hf => hl ht (by simp [hf])) hq
    rw [moveEntries_keeps hs (fun ht hm => hl ht (mem_cons_of_mem _ hm)) h₂ (by rwa [he₁]), he₁]

end Keeps

/-! ## A successful run, step by step -/

section Run

variable {meta : Metadata} {root : Path} {noReorg : Bool} {existing : List Remapping}
  {en : Enumeration} {fs fs' : FileSystem} {out : List RelativeRemapping}

/-- **What a successful run did.** -/
theorem dumpSources_eq_ok :
    dumpSources meta root noReorg existing en fs = .ok (out, fs') ↔
      ∃ fs₁, writeTo fs (rawSourcesDir root) meta.sourceTree = .ok fs₁ ∧
      ∃ toReorg, reorgDecision fs₁ en (stagedDir root meta.contractName) noReorg = .ok toReorg ∧
      fs₁.pathExists (srcDir root) ∧ fs₁.pathExists (libDir root) ∧
      ∃ names, fs₁.readDir en (stagedDir root meta.contractName) = .ok names ∧
      ∃ fs₂ rs₂, moveEntries root (stagedDir root meta.contractName) toReorg en names fs₁ existing =
        .ok (fs₂, rs₂) ∧
      fs₂.removeDirAll (rawSourcesDir root) = .ok fs' ∧
      ∃ settings, meta.settings = .ok settings ∧
      ∃ rs₃, addMetadataRemappings toReorg settings.remappings rs₂ = .ok rs₃ ∧
        rs₃.map (Remapping.intoRelative root) = out := by
  unfold dumpSources
  simp only [bind_eq_ok, mapError_eq_ok]
  refine exists_congr fun fs₁ => and_congr_right fun _ =>
    exists_congr fun toReorg => and_congr_right fun _ => ?_
  cases hs : fs₁.pathExists (srcDir root)
  · simp [hs, throw, throwThe, MonadExceptOf.throw, bind_eq_ok]
  cases hl : fs₁.pathExists (libDir root)
  · simp [hl, throw, throwThe, MonadExceptOf.throw, bind_eq_ok]
  simp only [hs, hl, Bool.not_true, Bool.false_eq_true, if_false, true_and, pure_bind, bind_eq_ok,
    liftIo_eq_ok, mapError_eq_ok, pure, Except.pure, Except.ok.injEq, Prod.mk.injEq, exists_const,
    Prod.exists]
  constructor
  · rintro ⟨names, hn, fs₂, rs₂, hm, _, hr, st, hst, rs₃, ha, hout, rfl⟩
    exact ⟨names, hn, fs₂, rs₂, hm, hr, st, hst, rs₃, ha, hout⟩
  · rintro ⟨names, hn, fs₂, rs₂, hm, hr, st, hst, rs₃, ha, hout⟩
    exact ⟨names, hn, fs₂, rs₂, hm, _, hr, st, hst, rs₃, ha, hout, rfl⟩

/-- The run is clear of the `forge-std` slip: when it reorganises a staged snapshot with a
top-level `forge-std`, the snapshot has no `lib/forge-std`. -/
def ForgeStdClear (meta : Metadata) (root : Path) (noReorg : Bool) (fs : FileSystem) : Prop :=
  match writeTo fs (rawSourcesDir root) meta.sourceTree with
  | .ok fs₁ => NoForgeStdClash fs₁ (stagedDir root meta.contractName)
      (reorganises fs₁ (stagedDir root meta.contractName) noReorg)
  | .error _ => True

instance (meta : Metadata) (root : Path) (noReorg : Bool) (fs : FileSystem) :
    Decidable (ForgeStdClear meta root noReorg fs) :=
  match h : writeTo fs (rawSourcesDir root) meta.sourceTree with
  | .ok fs₁ => decidable_of_iff (NoForgeStdClash fs₁ (stagedDir root meta.contractName)
      (reorganises fs₁ (stagedDir root meta.contractName) noReorg)) (by simp only [ForgeStdClear, h])
  | .error _ => isTrue (by simp only [ForgeStdClear, h])

/-- What the run being clear of the slip says of the staged snapshot. -/
theorem ForgeStdClear.clash (hclear : ForgeStdClear meta root noReorg fs) {fs₁ : FileSystem}
    (hw : writeTo fs (rawSourcesDir root) meta.sourceTree = .ok fs₁) :
    NoForgeStdClash fs₁ (stagedDir root meta.contractName)
      (reorganises fs₁ (stagedDir root meta.contractName) noReorg) := by
  simpa only [ForgeStdClear, hw] using hclear

/-- Keeping the fetched structure is clear of the slip. -/
theorem forgeStdClear_of_noReorg (meta : Metadata) (root : Path) (fs : FileSystem) :
    ForgeStdClear meta root true fs := by
  unfold ForgeStdClear
  split
  · intro h; simp [reorganises] at h
  · trivial

/-! ## Order independence -/

/-- A contract whose sources are two files under `contracts`. -/
def twoContracts : Metadata :=
  ⟨"C", [("contracts/A.sol", "a"), ("contracts/B.sol", "b")], .ok ⟨0, 8, 19⟩,
    .ok bareSettings⟩

/-- A contract whose sources hold both a top-level `forge-std` and a `lib/forge-std`. -/
def forgeStdTwice : Metadata :=
  ⟨"C", [("forge-std/Test.sol", "t"), ("lib/forge-std/Vm.sol", "v")], .ok ⟨0, 8, 19⟩,
    .ok bareSettings⟩

/-- **Order independence.** A run that succeeds with one order of `read_dir` succeeds with every
other, leaves the same tree, and returns the same remappings in another order. -/
theorem dumpSources_enumeration (hclear : ForgeStdClear meta root noReorg fs) (en' : Enumeration)
    (h : dumpSources meta root noReorg existing en fs = .ok (out, fs')) :
    ∃ out' fs'', dumpSources meta root noReorg existing en' fs = .ok (out', fs'') ∧
      fs''.node = fs'.node ∧ out' ~ out := by
  obtain ⟨fs₁, hw, toReorg, hd, hsrc, hlib, names, hn, fs₂, rs₂, hm, hr, st, hst, rs₃, ha, rfl⟩ :=
    dumpSources_eq_ok.mp h
  obtain ⟨hdir₀, rfl⟩ := reorgDecision_ok hd
  have hclash := hclear.clash hw
  have hroot : fs₁.node root = some .dir :=
    fs₁.parent_dir root "src" (by simpa [srcDir] using hsrc)
  obtain ⟨hdir, hnd, hmem⟩ := FileSystem.readDir_ok hn
  obtain ⟨names', hn'⟩ : ∃ names', fs₁.readDir en' (stagedDir root meta.contractName) = .ok names' :=
    FileSystem.readDir_of hdir
  obtain ⟨-, hnd', hmem'⟩ := FileSystem.readDir_ok hn'
  have hpres : ∀ g ∈ names, fs₁.node (stagedDir root meta.contractName ++ [g]) ≠ none :=
    fun g => (hmem g).mp
  have hpres' : ∀ g ∈ names', fs₁.node (stagedDir root meta.contractName ++ [g]) ≠ none :=
    fun g => (hmem' g).mp
  have hp : names ~ names' := (FileSystem.readDir_perm hn).trans (FileSystem.readDir_perm hn').symm
  -- the loop over the other order succeeds, and ends where the first did
  have hloop := LoopState.of_run hclash hnd hpres hm
  obtain ⟨⟨fs₃, rs₄⟩, hm'⟩ : ∃ r, moveEntries root (stagedDir root meta.contractName)
      (reorganises fs₁ (stagedDir root meta.contractName) noReorg) en' names' fs₁ existing = .ok r :=
    (moveEntries_ok_iff hclash hroot hnd' hpres').mpr (hloop.ready.perm hp)
  obtain ⟨hnode, hrs⟩ := hloop.perm hpres hp (LoopState.of_run hclash hnd' hpres' hm')
  -- so do the removal of `raw_sources` and the metadata's remappings
  obtain ⟨hraw, hne, hfs'⟩ := fs₂.removeDirAll_ok hr
  obtain ⟨fs'', hr', hfs''⟩ := fs₃.removeDirAll_of (by rw [← hnode]; exact hraw) hne
  rw [addMetadataRemappings_append] at ha
  obtain ⟨T, hT, rfl⟩ := map_eq_ok.mp ha
  refine ⟨_, fs'', dumpSources_eq_ok.mpr ⟨fs₁, hw, _, reorgDecision_of hdir₀, hsrc, hlib, names',
    hn', fs₃, rs₄, hm', hr', st, hst, rs₄ ++ T, ?_, rfl⟩, by rw [hfs'', hfs', hnode],
    ((hrs.append_right T).map _).symm⟩
  rw [addMetadataRemappings_append, hT]
  rfl

theorem dumpSources_enumeration_reversed :
    ∃ fs', dumpSources twoContracts [] false [] .listed sampleProject =
        .ok ([⟨none, "contracts/B.sol", "src/B.sol"⟩, ⟨none, "contracts/A.sol", "src/A.sol"⟩], fs') ∧
      ∃ out' fs'', dumpSources twoContracts [] false [] .reversed sampleProject = .ok (out', fs'') ∧
        fs''.node = fs'.node ∧
        out' ~ [⟨none, "contracts/B.sol", "src/B.sol"⟩, ⟨none, "contracts/A.sol", "src/A.sol"⟩] := by
  obtain ⟨fs', h⟩ : ∃ fs', dumpSources twoContracts [] false [] .listed sampleProject =
      .ok ([⟨none, "contracts/B.sol", "src/B.sol"⟩, ⟨none, "contracts/A.sol", "src/A.sol"⟩], fs') :=
    ⟨_, rfl⟩
  exact ⟨fs', h, dumpSources_enumeration (by decide) .reversed h⟩

/-- The order of `read_dir` is visible: the two orders of a flattened `contracts` return its
remappings in two orders, and with a top-level `forge-std` next to a staged `lib/forge-std` one
order succeeds where the other fails. -/
theorem dumpSources_read_dir_order :
    (dumpSources twoContracts [] false [] .listed sampleProject).map Prod.fst =
        .ok [⟨none, "contracts/B.sol", "src/B.sol"⟩, ⟨none, "contracts/A.sol", "src/A.sol"⟩] ∧
      (dumpSources twoContracts [] false [] .reversed sampleProject).map Prod.fst =
        .ok [⟨none, "contracts/A.sol", "src/A.sol"⟩, ⟨none, "contracts/B.sol", "src/B.sol"⟩] ∧
      (dumpSources forgeStdTwice [] false [] .listed sampleProject).map Prod.fst =
        .ok [⟨none, "lib/forge-std", "lib/forge-std"⟩, ⟨none, "forge-std", "lib/forge-std"⟩] ∧
      (dumpSources forgeStdTwice [] false [] .reversed sampleProject).map Prod.fst =
        .error (.io .notFound) :=
  ⟨rfl, rfl, rfl, rfl⟩

/-! ## Where the files end up -/

/-- A project as `init_an_empty_project` leaves it, cut down: `src` and `lib`, the configuration
file, and the installed `forge-std`. -/
def initProject : FileSystem :=
  FileSystem.build [(["src"], .dir), (["lib"], .dir), (["foundry.toml"], .file "[profile.default]"),
    (["lib", "forge-std"], .dir), (["lib", "forge-std", "src"], .dir),
    (["lib", "forge-std", "src", "Test.sol"], .file "t")]

/-- **No loss and no overwrite.** After a successful run, every file outside `raw_sources` is
still there, unless it lies in a `lib/forge-std` that a staged top-level `forge-std` replaced, and
`raw_sources` is gone. Clear of the `forge-std` slip, every file of the staged snapshot is also
where the move rules put it. -/
theorem dumpSources_keeps_files
    (h : dumpSources meta root noReorg existing en fs = .ok (out, fs')) :
    ∃ fs₁, writeTo fs (rawSourcesDir root) meta.sourceTree = .ok fs₁ ∧
      (ForgeStdClear meta root noReorg fs →
        ∀ f rest c, fs₁.node (stagedDir root meta.contractName ++ f :: rest) = some (.file c) →
          fs'.node (movedPath root (reorganises fs₁ (stagedDir root meta.contractName) noReorg)
            f rest) = some (.file c)) ∧
      (∀ q c, fs.node q = some (.file c) → ¬ rawSourcesDir root <+: q →
        fs'.node q = some (.file c) ∨
          reorganises fs₁ (stagedDir root meta.contractName) noReorg = true ∧
            fs₁.node (stagedDir root meta.contractName ++ ["forge-std"]) ≠ none ∧
            libDir root ++ ["forge-std"] <+: q) ∧
      fs'.node (rawSourcesDir root) = none := by
  obtain ⟨fs₁, hw, toReorg, hd, -, -, names, hn, fs₂, rs₂, hm, hr, -⟩ := dumpSources_eq_ok.mp h
  obtain ⟨-, rfl⟩ := reorgDecision_ok hd
  obtain ⟨-, hnd, hmem⟩ := FileSystem.readDir_ok hn
  obtain ⟨-, -, hfs'⟩ := fs₂.removeDirAll_ok hr
  refine ⟨fs₁, hw, fun hclear f rest c hq => ?_, fun q c hq hraw => ?_, by simp [hfs', removeNode]⟩
  · -- the loop, clear of the slip, moved the staged file
    have hloop := LoopState.of_run (hclear.clash hw) hnd (fun g => (hmem g).mp) hm
    obtain ⟨n, x, hx, hn⟩ := movedPath_eq root
      (reorganises fs₁ (stagedDir root meta.contractName) noReorg) f rest
    rw [hfs', removeNode, hx, if_neg (rawSourcesDir_not_prefix_child hn x), ← hx]
    exact hloop.file_moved hmem hq
  · -- staging, the loop and the removal keep the file, unless the loop removed `lib/forge-std`
    refine or_iff_not_imp_right.mpr fun hx => ?_
    have hstaged : ¬ stagedDir root meta.contractName <+: q := fun h =>
      hraw ((prefix_append (rawSourcesDir root) [meta.contractName]).trans h)
    have he₁ := (writeTo_grows hw).file_eq hraw hq
    rw [fs₂.removeDirAll_keeps hr hraw, moveEntries_keeps hstaged
      (fun ht hf hp => hx ⟨ht, (hmem _).mp hf, hp⟩) hm (by simp [he₁]), he₁]

theorem dumpSources_keeps_files_initProject :
    ForgeStdClear twoContracts [] false initProject ∧
    ∃ out fs', dumpSources twoContracts [] false [] .listed initProject = .ok (out, fs') ∧
    ∃ fs₁, writeTo initProject (rawSourcesDir []) twoContracts.sourceTree = .ok fs₁ ∧
      (ForgeStdClear twoContracts [] false initProject →
        ∀ f rest c, fs₁.node (stagedDir [] twoContracts.contractName ++ f :: rest) = some (.file c) →
          fs'.node (movedPath [] (reorganises fs₁ (stagedDir [] twoContracts.contractName) false)
            f rest) = some (.file c)) ∧
      (∀ q c, initProject.node q = some (.file c) → ¬ rawSourcesDir [] <+: q →
        fs'.node q = some (.file c) ∨
          reorganises fs₁ (stagedDir [] twoContracts.contractName) false = true ∧
            fs₁.node (stagedDir [] twoContracts.contractName ++ ["forge-std"]) ≠ none ∧
            libDir [] ++ ["forge-std"] <+: q) ∧
      fs'.node (rawSourcesDir []) = none := by
  obtain ⟨out, fs', h⟩ : ∃ out fs', dumpSources twoContracts [] false [] .listed initProject =
      .ok (out, fs') := ⟨_, _, rfl⟩
  exact ⟨by decide, out, fs', h, dumpSources_keeps_files h⟩

/-- The project of `sampleProject` with a file left over in `raw_sources`. -/
def leftoverProject : FileSystem :=
  FileSystem.build [(["src"], .dir), (["lib"], .dir), (["raw_sources"], .dir),
    (["raw_sources", "notes.txt"], .file "n")]

/-- Files are lost: one left in `raw_sources` goes with it, and a staged `lib/forge-std/Vm.sol`
is removed with the `lib/forge-std` it was moved into, for the top-level `forge-std`. -/
theorem dumpSources_loses_files :
    leftoverProject.node ["raw_sources", "notes.txt"] = some (.file "n") ∧
      (dumpSources twoContracts [] false [] .listed leftoverProject).map
        (fun r => r.2.node ["raw_sources", "notes.txt"]) = .ok none ∧
      (dumpSources forgeStdTwice [] false [] .listed sampleProject).map
        (fun r => (r.2.node ["lib", "forge-std", "Vm.sol"], r.2.node ["lib", "forge-std", "Test.sol"])) =
        .ok (none, some (.file "t")) :=
  ⟨rfl, rfl, rfl⟩

/-- **Every fetched source arrives.** After a successful run clear of the `forge-std` slip, each
source the explorer returned that `write_to` stages inside the contract's directory is in the
project where the move rules put its staged path, with the contents of the last source staged at
that path. -/
theorem dumpSources_sources_arrive (hclear : ForgeStdClear meta root noReorg fs)
    (h : dumpSources meta root noReorg existing en fs = .ok (out, fs')) :
    ∃ fs₁, writeTo fs (rawSourcesDir root) meta.sourceTree = .ok fs₁ ∧
      ∀ pre s c post f rest, meta.sources = pre ++ (s, c) :: post →
        meta.stagedPath s = meta.contractName :: f :: rest →
        meta.stagedPath s ∉ post.map (meta.stagedPath ·.1) →
        fs'.node (movedPath root (reorganises fs₁ (stagedDir root meta.contractName) noReorg)
          f rest) = some (.file c) := by
  obtain ⟨fs₁, hw, toReorg, hd, -, -, names, hn, fs₂, rs₂, hm, hr, -⟩ := dumpSources_eq_ok.mp h
  obtain ⟨-, rfl⟩ := reorgDecision_ok hd
  obtain ⟨-, hnd, hmem⟩ := FileSystem.readDir_ok hn
  have hloop := LoopState.of_run (hclear.clash hw) hnd (fun g => (hmem g).mp) hm
  obtain ⟨-, -, hfs'⟩ := fs₂.removeDirAll_ok hr
  refine ⟨fs₁, hw, fun pre s c post f rest hs hsp hp => ?_⟩
  -- staging wrote the last source for the path into the contract's directory
  have hstaged : fs₁.node (stagedDir root meta.contractName ++ f :: rest) = some (.file c) := by
    rw [Metadata.sourceTree, hs, map_append, map_cons] at hw
    rw [stagedDir, append_assoc, singleton_append, ← hsp]
    exact writeTo_last hw (by simpa [Function.comp_def, Metadata.stagedPath] using hp)
  -- the loop moved it, and the removal of `raw_sources` leaves it
  obtain ⟨n, x, hx, hn⟩ := movedPath_eq root
    (reorganises fs₁ (stagedDir root meta.contractName) noReorg) f rest
  rw [hfs', removeNode, hx, if_neg (rawSourcesDir_not_prefix_child hn x), ← hx]
  exact hloop.file_moved hmem hstaged

theorem dumpSources_sources_arrive_twoContracts :
    ∃ out fs', dumpSources twoContracts [] false [] .listed sampleProject = .ok (out, fs') ∧
    ∃ fs₁, writeTo sampleProject (rawSourcesDir []) twoContracts.sourceTree = .ok fs₁ ∧
      ∀ pre s c post f rest, twoContracts.sources = pre ++ (s, c) :: post →
        twoContracts.stagedPath s = twoContracts.contractName :: f :: rest →
        twoContracts.stagedPath s ∉ post.map (twoContracts.stagedPath ·.1) →
        fs'.node (movedPath [] (reorganises fs₁ (stagedDir [] twoContracts.contractName) false)
          f rest) = some (.file c) := by
  obtain ⟨out, fs', h⟩ : ∃ out fs', dumpSources twoContracts [] false [] .listed sampleProject =
      .ok (out, fs') := ⟨_, _, rfl⟩
  exact ⟨out, fs', h, dumpSources_sources_arrive (by decide) h⟩

/-! ## The remapping table -/

/-- **The remapping table.** After a successful run clear of the `forge-std` slip, the returned
remappings are, made relative to the root, the project's existing ones in their order, then one
per move of the loop in some order, then the metadata's in their order, each the loop body's
result. Each remapping of the loop names a present staged path below the contract directory,
joined by `/`, and points at a path below which the project now holds exactly what was below the
staged one. -/
theorem dumpSources_remappings (hclear : ForgeStdClear meta root noReorg fs)
    (h : dumpSources meta root noReorg existing en fs = .ok (out, fs')) :
    ∃ fs₁, writeTo fs (rawSourcesDir root) meta.sourceTree = .ok fs₁ ∧
    ∃ R Ms st, meta.settings = .ok st ∧
      out = (existing ++ R ++ Ms).map (Remapping.intoRelative root) ∧
      R ~ loopRemappings fs₁ root (stagedDir root meta.contractName)
        (reorganises fs₁ (stagedDir root meta.contractName) noReorg)
        (fs₁.children (stagedDir root meta.contractName)) ∧
      (∀ r ∈ R, ∃ e d, r = ⟨none, "/".intercalate e, pathString d⟩ ∧
        fs₁.node (stagedDir root meta.contractName ++ e) ≠ none ∧
        ∀ x, fs'.node (d ++ x) = fs₁.node (stagedDir root meta.contractName ++ e ++ x)) ∧
      st.remappings.mapM
        (metadataRemapping (reorganises fs₁ (stagedDir root meta.contractName) noReorg)) = .ok Ms := by
  obtain ⟨fs₁, hw, toReorg, hd, -, -, names, hn, fs₂, rs₂, hm, hr, st, hst, rs₃, ha, rfl⟩ :=
    dumpSources_eq_ok.mp h
  obtain ⟨-, rfl⟩ := reorgDecision_ok hd
  obtain ⟨-, hnd, hmem⟩ := FileSystem.readDir_ok hn
  have hpres : ∀ g ∈ names, fs₁.node (stagedDir root meta.contractName ++ [g]) ≠ none :=
    fun g => (hmem g).mp
  have hloop := LoopState.of_run (hclear.clash hw) hnd hpres hm
  obtain ⟨R, hR, rfl⟩ := hloop.remappings
  obtain ⟨-, -, hfs'⟩ := fs₂.removeDirAll_ok hr
  rw [addMetadataRemappings_eq_mapM] at ha
  obtain ⟨Ms, hMs, rfl⟩ := map_eq_ok.mp ha
  refine ⟨fs₁, hw, R, Ms, st, hst, rfl, hR.trans ((FileSystem.readDir_perm hn).flatMap_right _),
    fun r hr => ?_, hMs⟩
  obtain ⟨e, d, hmv, rfl⟩ := mem_loopRemappings (hR.mem_iff.mp hr)
  obtain ⟨-, hsrc, n, c, hdn, hraw⟩ := mem_loopMoves hpres hmv
  refine ⟨e, d, rfl, hsrc, fun x => ?_⟩
  have hout : ¬ rawSourcesDir root <+: d ++ x := by
    simp only at hdn
    rw [hdn, append_assoc]
    exact rawSourcesDir_not_prefix_child hraw (c :: x)
  rw [hfs', removeNode, if_neg hout, hloop.node_dest hpres hmv x]

theorem dumpSources_remappings_twoContracts :
    ∃ out fs', dumpSources twoContracts [] false [] .listed sampleProject = .ok (out, fs') ∧
    ∃ fs₁, writeTo sampleProject (rawSourcesDir []) twoContracts.sourceTree = .ok fs₁ ∧
    ∃ R Ms st, twoContracts.settings = .ok st ∧
      out = ([] ++ R ++ Ms).map (Remapping.intoRelative []) ∧
      R ~ loopRemappings fs₁ [] (stagedDir [] twoContracts.contractName)
        (reorganises fs₁ (stagedDir [] twoContracts.contractName) false)
        (fs₁.children (stagedDir [] twoContracts.contractName)) ∧
      (∀ r ∈ R, ∃ e d, r = ⟨none, "/".intercalate e, pathString d⟩ ∧
        fs₁.node (stagedDir [] twoContracts.contractName ++ e) ≠ none ∧
        ∀ x, fs'.node (d ++ x) = fs₁.node (stagedDir [] twoContracts.contractName ++ e ++ x)) ∧
      st.remappings.mapM
        (metadataRemapping (reorganises fs₁ (stagedDir [] twoContracts.contractName) false)) =
          .ok Ms := by
  obtain ⟨out, fs', h⟩ : ∃ out fs', dumpSources twoContracts [] false [] .listed sampleProject =
      .ok (out, fs') := ⟨_, _, rfl⟩
  exact ⟨out, fs', h, dumpSources_remappings (by decide) h⟩

/-- A `hardhat` tree with the metadata remapping `hardhat=hardhat`. -/
def hardhatIdentity : Metadata :=
  ⟨"C", [("hardhat/console.sol", "c")], .ok ⟨0, 8, 19⟩,
    .ok { bareSettings with remappings := [⟨none, "hardhat", "hardhat"⟩] }⟩

/-- The import `hardhat/console.sol` resolves to the fetched file, but through the returned
remappings to a path where the project has nothing: the tree moved to `lib/hardhat`, and the
metadata's `hardhat=hardhat`, not rewritten since its path lacks the trailing slash, wins the tie
with the loop's `hardhat=lib/hardhat`. -/
theorem dumpSources_hardhat_unresolved :
    resolveImport [("hardhat", "hardhat")] "hardhat/console.sol" = "hardhat/console.sol" ∧
      (dumpSources hardhatIdentity [] false [] .listed sampleProject).map (fun r =>
        (resolveImport (r.1.map fun x => (x.name, x.path)) "hardhat/console.sol",
          r.2.node (pathComponents "hardhat/console.sol"),
          r.2.node ["lib", "hardhat", "console.sol"])) =
        .ok ("hardhat/console.sol", none, some (.file "c")) :=
  ⟨rfl, rfl⟩

/-! ## What a run leaves in place -/

/-- After staging, the loop and the removal of `raw_sources` keep every existing path outside
`raw_sources` and `lib/forge-std`. -/
theorem dumpSources_keeps_of_staged
    (h : dumpSources meta root noReorg existing en fs = .ok (out, fs')) :
    ∃ fs₁, writeTo fs (rawSourcesDir root) meta.sourceTree = .ok fs₁ ∧
      fs₁.pathExists (srcDir root) ∧ ∀ q, ¬ rawSourcesDir root <+: q →
        ¬ libDir root ++ ["forge-std"] <+: q → fs₁.node q ≠ none → fs'.node q = fs₁.node q := by
  obtain ⟨fs₁, hw, toReorg, -, hsrc, -, names, -, fs₂, rs₂, hm, hr, -⟩ := dumpSources_eq_ok.mp h
  refine ⟨fs₁, hw, hsrc, fun q hraw hlib hq => ?_⟩
  have hstaged : ¬ stagedDir root meta.contractName <+: q := fun h =>
    hraw ((prefix_append (rawSourcesDir root) [meta.contractName]).trans h)
  rw [fs₂.removeDirAll_keeps hr hraw, moveEntries_keeps hstaged (fun _ _ => hlib) hm hq]

/-- **The frame of a run.** Whatever existed outside `raw_sources` and `lib/forge-std` before a
successful run is there afterwards, unchanged: staging only writes below `raw_sources`, no rename
overwrites, `create_dir` only fills empty paths, and the only removals are of `raw_sources` and
of `lib/forge-std`. This holds of every run, the `forge-std` slip included. -/
theorem dumpSources_frame (h : dumpSources meta root noReorg existing en fs = .ok (out, fs'))
    {q : Path} (hraw : ¬ rawSourcesDir root <+: q) (hlib : ¬ libDir root ++ ["forge-std"] <+: q)
    (hq : fs.node q ≠ none) : fs'.node q = fs.node q := by
  obtain ⟨fs₁, hw, -, hkeep⟩ := dumpSources_keeps_of_staged h
  have he₁ : fs₁.node q = fs.node q := ((writeTo_grows hw) q hraw).resolve_right fun h => hq h.1
  rw [hkeep q hraw hlib (by rwa [he₁]), he₁]

theorem dumpSources_frame_initProject :
    ∃ out fs', dumpSources twoContracts [] false [] .listed initProject = .ok (out, fs') ∧
      ¬ rawSourcesDir [] <+: ["foundry.toml"] ∧ ¬ libDir [] ++ ["forge-std"] <+: ["foundry.toml"] ∧
      initProject.node ["foundry.toml"] ≠ none ∧
      fs'.node ["foundry.toml"] = initProject.node ["foundry.toml"] := by
  obtain ⟨out, fs', h⟩ : ∃ out fs', dumpSources twoContracts [] false [] .listed initProject =
      .ok (out, fs') := ⟨_, _, rfl⟩
  have hraw : ¬ rawSourcesDir [] <+: ["foundry.toml"] := by decide
  have hlib : ¬ libDir [] ++ ["forge-std"] <+: ["foundry.toml"] := by decide
  have hq : initProject.node ["foundry.toml"] ≠ none := by decide
  exact ⟨out, fs', h, hraw, hlib, hq, dumpSources_frame h hraw hlib hq⟩

/-- **When a run succeeds.** Clear of the `forge-std` slip, `dump_sources` returns `Ok` exactly
when staging succeeds, the staged directory, `src` and `lib` exist, every top-level entry is
ready to move and no two moves share a destination, the settings parse, and the metadata's
remapping paths can be rewritten. -/
theorem dumpSources_ok_iff (hclear : ForgeStdClear meta root noReorg fs) :
    (∃ r, dumpSources meta root noReorg existing en fs = .ok r) ↔
      ∃ fs₁, writeTo fs (rawSourcesDir root) meta.sourceTree = .ok fs₁ ∧
        fs₁.node (stagedDir root meta.contractName) = some .dir ∧
        fs₁.pathExists (srcDir root) ∧ fs₁.pathExists (libDir root) ∧
        LoopReady fs₁ root (stagedDir root meta.contractName)
          (reorganises fs₁ (stagedDir root meta.contractName) noReorg)
          (fs₁.children (stagedDir root meta.contractName)) ∧
        ∃ st, meta.settings = .ok st ∧
          ∃ T, addMetadataRemappings (reorganises fs₁ (stagedDir root meta.contractName) noReorg)
            st.remappings [] = .ok T := by
  constructor
  · rintro ⟨⟨out, fs'⟩, h⟩
    obtain ⟨fs₁, hw, toReorg, hd, hsrc, hlib, names, hn, fs₂, rs₂, hm, -, st, hst, rs₃, ha, -⟩ :=
      dumpSources_eq_ok.mp h
    obtain ⟨-, rfl⟩ := reorgDecision_ok hd
    have hclash := hclear.clash hw
    obtain ⟨hdir, hnd, hmem⟩ := FileSystem.readDir_ok hn
    rw [addMetadataRemappings_append] at ha
    obtain ⟨T, hT, -⟩ := map_eq_ok.mp ha
    exact ⟨fs₁, hw, hdir, hsrc, hlib, (LoopState.of_run hclash hnd (fun g => (hmem g).mp) hm).ready.perm
      (FileSystem.readDir_perm hn), st, hst, T, hT⟩
  · rintro ⟨fs₁, hw, hdir, hsrc, hlib, hready, st, hst, T, hT⟩
    have hclash := hclear.clash hw
    have hroot : fs₁.node root = some .dir :=
      fs₁.parent_dir root "src" (by simpa [srcDir] using hsrc)
    obtain ⟨names, hn⟩ : ∃ names, fs₁.readDir en (stagedDir root meta.contractName) = .ok names :=
      FileSystem.readDir_of hdir
    obtain ⟨-, hnd, hmem⟩ := FileSystem.readDir_ok hn
    have hpres : ∀ g ∈ names, fs₁.node (stagedDir root meta.contractName ++ [g]) ≠ none :=
      fun g => (hmem g).mp
    obtain ⟨⟨fs₂, rs₂⟩, hm⟩ : ∃ r, moveEntries root (stagedDir root meta.contractName)
        (reorganises fs₁ (stagedDir root meta.contractName) noReorg) en names fs₁ existing = .ok r :=
      (moveEntries_ok_iff hclash hroot hnd hpres).mpr (hready.perm (FileSystem.readDir_perm hn).symm)
    have hraw : fs₂.node (rawSourcesDir root) = some .dir := by
      rw [(LoopState.of_run hclash hnd hpres hm).node_rawSources hpres]
      exact writeTo_dir hw
    obtain ⟨fs', hr, -⟩ := fs₂.removeDirAll_of hraw (by simp [rawSourcesDir])
    refine ⟨_, dumpSources_eq_ok.mpr ⟨fs₁, hw, _, reorgDecision_of fun _ => hdir, hsrc, hlib, names,
      hn, fs₂, rs₂, hm, hr, st, hst, rs₂ ++ T, ?_, rfl⟩⟩
    rw [addMetadataRemappings_append, hT]
    rfl

theorem dumpSources_ok_iff_twoContracts :
    (∃ r, dumpSources twoContracts [] false [] .listed sampleProject = .ok r) ↔
      ∃ fs₁, writeTo sampleProject (rawSourcesDir []) twoContracts.sourceTree = .ok fs₁ ∧
        fs₁.node (stagedDir [] twoContracts.contractName) = some .dir ∧
        fs₁.pathExists (srcDir []) ∧ fs₁.pathExists (libDir []) ∧
        LoopReady fs₁ [] (stagedDir [] twoContracts.contractName)
          (reorganises fs₁ (stagedDir [] twoContracts.contractName) false)
          (fs₁.children (stagedDir [] twoContracts.contractName)) ∧
        ∃ st, twoContracts.settings = .ok st ∧
          ∃ T, addMetadataRemappings (reorganises fs₁ (stagedDir [] twoContracts.contractName) false)
            st.remappings [] = .ok T :=
  dumpSources_ok_iff (by decide)

/-- Metadata whose remapping path starts with the string `contracts` but not with the path
component. -/
def contractsLike : Metadata :=
  ⟨"C", [("contracts/A.sol", "a")], .ok ⟨0, 8, 19⟩,
    .ok { bareSettings with remappings := [⟨none, "x/", "contractsX/"⟩] }⟩

/-- A contract with a top-level `forge-std` only. -/
def forgeStdOnly : Metadata :=
  ⟨"C", [("forge-std/Test.sol", "t")], .ok ⟨0, 8, 19⟩, .ok bareSettings⟩

/-- Two reorganised runs on a project with `src` and `lib` in which nothing the run creates is
occupied fail: one on the remapping path `contractsX/`, which `starts_with("contracts")` accepts
and `strip_prefix("contracts")` rejects, the other on removing a `lib/forge-std` that is not
there. -/
theorem dumpSources_fails_unoccupied :
    dumpSources contractsLike [] false [] .listed sampleProject = .error .stripPrefix ∧
      dumpSources forgeStdOnly [] false [] .listed sampleProject = .error (.io .notFound) :=
  ⟨rfl, rfl⟩

/-! ## No panic -/

/-- Every error of `x` is reported as an `Err`; none is a panic. -/
def NoPanic {α : Type} (x : Except CloneError α) : Prop :=
  ∀ e, x = .error e → e.isPanic = false

namespace NoPanic

variable {α β : Type}

theorem ok (a : α) : NoPanic (.ok a : Except CloneError α) := nofun

theorem error {e : CloneError} (he : e.isPanic = false) : NoPanic (.error e : Except CloneError α) :=
  fun _ h => by cases h; exact he

theorem bind {x : Except CloneError α} {f : α → Except CloneError β} (hx : NoPanic x)
    (hf : ∀ a, x = .ok a → NoPanic (f a)) : NoPanic (x >>= f) := fun e h => by
  cases x with
  | error _ => cases h; exact hx _ rfl
  | ok a => exact hf a rfl e h

theorem map {x : Except CloneError α} {f : α → β} (hx : NoPanic x) : NoPanic (x.map f) :=
  fun e h => by
  cases x with
  | error _ => cases h; exact hx _ rfl
  | ok a => cases h

theorem mapError {ε : Type} {x : Except ε α} {g : ε → CloneError} (hg : ∀ e, (g e).isPanic = false) :
    NoPanic (x.mapError g) := fun e h => by
  cases x with
  | error _ => cases h; exact hg _
  | ok a => cases h

end NoPanic

theorem noPanic_guardedRename (fs : FileSystem) (s d : Path) : NoPanic (guardedRename fs s d) := by
  unfold guardedRename
  split
  · exact .error rfl
  · exact .mapError fun _ => rfl

theorem noPanic_moveChildren (folder : Name) (entry newDir : Path) :
    ∀ cs fs rs, NoPanic (moveChildren folder entry newDir cs fs rs)
  | [], _, _ => .ok _
  | _ :: cs, _, _ => .bind (noPanic_guardedRename _ _ _) fun _ _ =>
    noPanic_moveChildren folder entry newDir cs _ _

/-- A recognised name that is not flattened is a library unit: the `assert!` of the move loop. -/
theorem libUnitName_of_reorgName {f : Name} (h : reorgName f = true) (hfl : flattenedName f = false) :
    libUnitName f = true := by
  simp only [reorgName, flattenedName, libUnitName, Bool.or_eq_true, beq_iff_eq, Bool.or_eq_false_iff, beq_eq_false_iff_ne] at *
  tauto

theorem noPanic_moveEntry (root staged : Path) (toReorg : Bool) (en : Enumeration) (folder : Name)
    (fs : FileSystem) (rs : List Remapping) (h : toReorg = true → reorgName folder = true) :
    NoPanic (moveEntry root staged toReorg en folder fs rs) := by
  unfold moveEntry
  split_ifs with hr hfl hlu
  · refine .bind ?_ fun _ _ => .bind (.mapError fun _ => rfl) fun _ _ => noPanic_moveChildren _ _ _ _ _ _
    rw [flattenTarget_eq]
    split_ifs
    · exact .map (.mapError fun _ => rfl)
    · exact .ok _
  · simp [libUnitName_of_reorgName (h hr) (by simpa using hfl)] at hlu
  · exact .bind (.mapError fun _ => rfl) fun _ _ =>
      .bind (noPanic_guardedRename _ _ _) fun _ _ => .ok _
  · exact .bind (.ok _) fun _ _ => .bind (noPanic_guardedRename _ _ _) fun _ _ => .ok _
  all_goals exact .bind (noPanic_guardedRename _ _ _) fun _ _ => .ok _

theorem noPanic_moveEntries (root staged : Path) (toReorg : Bool) (en : Enumeration) :
    ∀ {names : List Name} (fs : FileSystem) (rs : List Remapping),
      (toReorg = true → ∀ f ∈ names, reorgName f = true) →
      NoPanic (moveEntries root staged toReorg en names fs rs)
  | [], _, _, _ => .ok _
  | f :: names, fs, rs, h =>
    .bind (noPanic_moveEntry root staged toReorg en f fs rs fun hr => h hr f (mem_cons_self f names))
      fun _ _ => noPanic_moveEntries root staged toReorg en _ _
        fun hr g hg => h hr g (mem_cons_of_mem f hg)

theorem noPanic_reorgRemappingPath (path : String) : NoPanic (reorgRemappingPath path) := by
  unfold reorgRemappingPath
  split_ifs
  · split
    · exact .ok _
    · exact .error rfl
  all_goals exact .ok _

theorem noPanic_addMetadataRemappings (toReorg : Bool) :
    ∀ (ms rs : List Remapping), NoPanic (addMetadataRemappings toReorg ms rs)
  | [], _ => .ok _
  | r :: ms, rs => by
    unfold addMetadataRemappings
    split_ifs
    · split
      · exact noPanic_addMetadataRemappings toReorg ms _
      · exact .error (noPanic_reorgRemappingPath r.path _ ‹_›)
    · exact noPanic_addMetadataRemappings toReorg ms _

theorem noPanic_reorgDecision (fs : FileSystem) (en : Enumeration) (staged : Path) (noReorg : Bool) :
    NoPanic (reorgDecision fs en staged noReorg) := by
  unfold reorgDecision
  split_ifs
  · exact .ok _
  · exact .map (.mapError fun _ => rfl)

/-- **`dump_sources` never panics.** Its one `assert!` holds: a reorganised tree has only
recognised top-level names, and those that are not flattened are library units. -/
theorem dumpSources_noPanic (meta : Metadata) (root : Path) (noReorg : Bool)
    (existing : List Remapping) (en : Enumeration) (fs : FileSystem) :
    NoPanic (dumpSources meta root noReorg existing en fs) := by
  unfold dumpSources
  refine .bind (.mapError fun _ => rfl) fun fs₁ _ => .bind (noPanic_reorgDecision _ _ _ _)
    fun toReorg hd => ?_
  cases hs : fs₁.pathExists (srcDir root)
  · simp only [Bool.not_false, if_true]
    exact .bind (.error rfl : NoPanic (.error .srcMissing : Except CloneError PUnit)) nofun
  cases hl : fs₁.pathExists (libDir root)
  · simp only [Bool.not_true, Bool.not_false, Bool.false_eq_true, if_false, if_true]
    exact .bind (.ok _) fun _ _ =>
      .bind (.error rfl : NoPanic (.error .libMissing : Except CloneError PUnit)) nofun
  simp only [Bool.not_true, Bool.false_eq_true, if_false]
  refine .bind (.ok _) fun _ _ => .bind (.ok _) fun _ _ => .bind (.mapError fun _ => rfl) fun names hn =>
    .bind (noPanic_moveEntries _ _ _ _ _ _ fun hr f hf => ?_) fun _ _ =>
      .bind (.mapError fun _ => rfl) fun _ _ => .bind (.mapError fun _ => rfl) fun _ _ =>
        .bind (noPanic_addMetadataRemappings _ _ _) fun _ _ => .ok _
  obtain ⟨-, rfl⟩ := reorgDecision_ok hd
  simp only [reorganises, Bool.and_eq_true, all_eq_true] at hr
  exact hr.2 f ((FileSystem.readDir_perm (liftIo_eq_ok.mp hn)).mem_iff.mp hf)

end Run

end ForgeClone
