import ForgeClone.Toml

/-!
# Synthesising the build configuration

`update_config_by_metadata` writes the explorer's compiler settings into the active profile of
`foundry.toml`: the chain id, `auto_detect_solc = false`, the exact compiler version, then every
setting the explorer reported through `update_if_needed!`, a fresh `optimizer_details` table when
details are reported, and the library table.

`update_if_needed!` is one macro invoked once per field; here it is `updateIfNeeded`, and each
run of invocations is `updateFields` over the list of `(key, reported value)` pairs in the order
the code writes them. A field the explorer did not report is `none`, and the macro does nothing
for it. The three bytecode-metadata knobs are written only when `metadata` is present; their
reported values are read through `Option.bind`, which is `none` when it is absent.

## Main definitions

* `ForgeClone.toI64` — the `as i64` casts of the chain id and the run count
* `ForgeClone.updateConfigByMetadata` — the function
* `ForgeClone.synthesizedProfile` — what the active profile becomes, computed without the walk

## Main results

* `updateConfigByMetadata_eq_ok` — from a document whose active profile is a table, the
  function succeeds exactly when the version and settings parse and `stop_after` is absent,
  and it then replaces the profile by `synthesizedProfile`
* `updateConfigByMetadata_error` — on such a document every failure is an `Err`, never a panic
-/

namespace ForgeClone

/-- What `update_config_by_metadata` reads of the loaded configuration. -/
structure Config where
  /-- The active profile's name. -/
  profile : String
  /-- `apply_lib_remappings` over the project's paths, then `with_stripped_file_prefixes(root)`:
  the rewrite of the library table, which belongs to `foundry-compilers`. -/
  rewriteLibraries : Libraries → Libraries

/-- `Config::PROFILE_SECTION`. -/
def profileSection : String := "profile"

/-- `v as i64` for a 64-bit unsigned `v`: its two's-complement reading. -/
def toI64 (v : UInt64) : Int :=
  if v.toNat < UInt64.size / 2 then v.toNat else v.toNat - UInt64.size

/-- `format!("{}.{}.{}", major, minor, patch)`. -/
def versionString (v : Version) : String :=
  toString v.major ++ "." ++ toString v.minor ++ "." ++ toString v.patch

/-- The panic of `IndexMut` on an item that is not a table. -/
def indexPanic (_ : String) : CloneError := .panic "index not found"

/-- `doc[PROFILE_SECTION][profile][k₁]...[kₙ] = v`. -/
def assignProfileKey (doc : Item) (profile : String) (keys : List String) (v : Item) :
    Except CloneError Item :=
  doc.modifyPath indexPanic (profileSection :: profile :: keys) fun _ => .ok v

/-- `update_if_needed!(keys, value)`: when a value is reported, walk from the active profile down
`keys` with `get_mut`, failing on a key that cannot be found, and write it. -/
def updateIfNeeded (doc : Item) (profile : String) (keys : List String) :
    Option Value → Except CloneError Item
  | none => .ok doc
  | some v => doc.modifyPath indexPanic [profileSection, profile] fun current =>
      current.modifyPath .cannotFindKey keys fun _ => .ok (.value v)

/-- Consecutive `update_if_needed!` calls on the keys `pre ++ [k]`. -/
def updateFields (profile : String) (pre : List String) :
    Item → List (String × Option Value) → Except CloneError Item
  | doc, [] => .ok doc
  | doc, (k, v) :: rest => do
    let doc ← updateIfNeeded doc profile (pre ++ [k]) v
    updateFields profile pre doc rest

/-- The single-key settings, in the order the code writes them. -/
def settingsFields (s : Settings) : List (String × Option Value) :=
  [("evm_version", s.evmVersion.map .string),
   ("via_ir", s.viaIr.map .boolean),
   ("cbor_metadata", (s.metadata.bind (·.cborMetadata)).map .boolean),
   ("use_literal_content", (s.metadata.bind (·.useLiteralContent)).map .boolean),
   ("bytecode_hash", (s.metadata.bind (·.bytecodeHash)).map .string),
   ("optimizer", s.optimizer.enabled.map .boolean),
   ("optimizer_runs", s.optimizer.runs.map fun r => .integer (toI64 r))]

/-- The optimizer details written under `optimizer_details`, in order. -/
def detailFields (d : OptimizerDetails) : List (String × Option Value) :=
  [("peephole", d.peephole.map .boolean),
   ("inliner", d.inliner.map .boolean),
   ("jumpdestRemover", d.jumpdestRemover.map .boolean),
   ("orderLiterals", d.orderLiterals.map .boolean),
   ("deduplicate", d.deduplicate.map .boolean),
   ("cse", d.cse.map .boolean),
   ("constantOptimizer", d.constantOptimizer.map .boolean),
   ("simpleCounterForLoopUncheckedIncrement",
     d.simpleCounterForLoopUncheckedIncrement.map .boolean),
   ("yul", d.yul.map .boolean)]

/-- The Yul details written under `optimizer_details.yulDetails`. -/
def yulFields (y : YulDetails) : List (String × Option Value) :=
  [("stackAllocation", y.stackAllocation.map .boolean),
   ("optimizerSteps", y.optimizerSteps.map .string)]

/-- The `libraries` array: `path:name:address` for each library of each file. -/
def libraryEntries (libs : Libraries) : List Value :=
  libs.flatMap fun lib => lib.2.map fun entry => .string (lib.1 ++ ":" ++ entry.1 ++ ":" ++ entry.2)

/-- The optimizer details: a fresh table, the reported fields, and the Yul details. -/
def updateOptimizerDetails (doc : Item) (profile : String) (detail : OptimizerDetails) :
    Except CloneError Item := do
  let doc ← assignProfileKey doc profile ["optimizer_details"] (.table [])
  let doc ← updateFields profile ["optimizer_details"] doc (detailFields detail)
  match detail.yulDetails with
  | some yul => do
    let doc ← assignProfileKey doc profile ["optimizer_details", "yulDetails"] (.table [])
    updateFields profile ["optimizer_details", "yulDetails"] doc (yulFields yul)
  | none => .ok doc

/-- `update_config_by_metadata(config, doc, meta, chain)`, with the chain given by its id. -/
def updateConfigByMetadata (config : Config) (doc : Item) (meta : Metadata) (chainId : UInt64) :
    Except CloneError Item := do
  let p := config.profile
  let doc ← assignProfileKey doc p ["chain_id"] (.value (.integer (toI64 chainId)))
  let doc ← assignProfileKey doc p ["auto_detect_solc"] (.value (.boolean false))
  let version ← meta.compilerVersion.mapError .compilerVersion
  let doc ← assignProfileKey doc p ["solc_version"] (.value (.string (versionString version)))
  let settings ← meta.settings.mapError .settings
  if settings.stopAfter.isSome then throw .stopAfter
  let doc ← updateFields p [] doc (settingsFields settings)
  let doc ← match settings.optimizer.details with
    | some detail => updateOptimizerDetails doc p detail
    | none => .ok doc
  assignProfileKey doc p ["libraries"]
    (.value (.array (libraryEntries (config.rewriteLibraries settings.libraries))))

/-! ## The profile the function writes -/

/-- `Item.set` of a value at `path` when one is reported. -/
def setOpt (i : Item) (path : List String) : Option Value → Item
  | none => i
  | some v => i.set path (.value v)

/-- `setOpt` of each field at `pre ++ [k]`. -/
def setFields (pre : List String) : Item → List (String × Option Value) → Item
  | i, [] => i
  | i, (k, v) :: rest => setFields pre (setOpt i (pre ++ [k]) v) rest

/-- The optimizer details as the function writes them into a profile `t`. -/
def synthesizedDetails (t : Item) (detail : OptimizerDetails) : Item :=
  let t := setFields ["optimizer_details"] (t.set ["optimizer_details"] (.table [])) (detailFields detail)
  match detail.yulDetails with
  | some yul =>
    setFields ["optimizer_details", "yulDetails"]
      (t.set ["optimizer_details", "yulDetails"] (.table [])) (yulFields yul)
  | none => t

/-- What the active profile `t` becomes. -/
def synthesizedProfile (config : Config) (t : Item) (chainId : UInt64) (version : Version)
    (settings : Settings) : Item :=
  let t := ((t.set ["chain_id"] (.value (.integer (toI64 chainId)))).set ["auto_detect_solc"]
    (.value (.boolean false))).set ["solc_version"] (.value (.string (versionString version)))
  let t := setFields [] t (settingsFields settings)
  let t := match settings.optimizer.details with
    | some detail => synthesizedDetails t detail
    | none => t
  t.set ["libraries"] (.value (.array (libraryEntries (config.rewriteLibraries settings.libraries))))

/-- The entries a run of reported fields gives a fresh table. -/
def reportedEntries (fields : List (String × Option Value)) : List (String × Item) :=
  fields.filterMap fun f => f.2.map fun v => (f.1, .value v)

/-- The `optimizer_details` table the function writes for the details `d`. -/
def detailsTable (d : OptimizerDetails) : Item :=
  .table (reportedEntries (detailFields d) ++
    match d.yulDetails with
    | some y => [("yulDetails", .table (reportedEntries (yulFields y)))]
    | none => [])

/-- The keys of the active profile the function writes. -/
def synthesizedKeys : List String :=
  ["chain_id", "auto_detect_solc", "solc_version", "evm_version", "via_ir", "cbor_metadata",
    "use_literal_content", "bytecode_hash", "optimizer", "optimizer_runs", "optimizer_details",
    "libraries"]

/-! ## Reading the written profile back -/

@[simp] theorem lookup_setOpt (i : Item) (k k' : String) (ks : List String) (v : Option Value) :
    (setOpt i (k :: ks) v).lookup k' = if k' = k then setOpt (i.lookup k) ks v else i.lookup k' := by
  cases v with
  | none => by_cases h : k' = k <;> simp [setOpt, h]
  | some v => simp [setOpt]

@[simp] theorem setOpt_nil (i : Item) (v : Option Value) :
    setOpt i [] v = (v.map Item.value).getD i := by
  cases v <;> rfl

theorem setFields_set_cons (k : String) (pre : List String) (X : Item) :
    ∀ (Y : Item) (fs : List (String × Option Value)),
      setFields (k :: pre) (X.set [k] Y) fs = X.set [k] (setFields pre Y fs)
  | _, [] => rfl
  | Y, (_, none) :: rest => setFields_set_cons k pre X Y rest
  | Y, (k', some v) :: rest => by
    have h : setOpt (X.set [k] Y) (k :: pre ++ [k']) (some v) =
        X.set [k] (setOpt Y (pre ++ [k']) (some v)) := by
      simp only [setOpt, List.cons_append, Item.set_set_cons]
    simp only [setFields, h]
    exact setFields_set_cons k pre X _ rest

theorem mem_keys_reportedEntries {fs : List (String × Option Value)} {k : String}
    (h : k ∈ (reportedEntries fs).map Prod.fst) : k ∈ fs.map Prod.fst := by
  simp only [reportedEntries, List.mem_map, List.mem_filterMap, Option.map_eq_some'] at h ⊢
  obtain ⟨_, ⟨f, hf, _, _, rfl⟩, rfl⟩ := h
  exact ⟨f, hf, rfl⟩

theorem setFields_table :
    ∀ (l : List (String × Item)) (fs : List (String × Option Value)),
      (l.map Prod.fst ++ fs.map Prod.fst).Nodup →
      setFields [] (.table l) fs = .table (l ++ reportedEntries fs)
  | l, [], _ => by simp [setFields, reportedEntries]
  | l, (k, none) :: rest, h => by
    have h' : (l.map Prod.fst ++ rest.map Prod.fst).Nodup :=
      (List.nodup_middle.mp (by simpa using h)).of_cons
    simpa [setFields, setOpt, reportedEntries] using setFields_table l rest h'
  | l, (k, some v) :: rest, h => by
    have hk : k ∉ l.map Prod.fst := fun hk =>
      (List.nodup_append.mp h).2.2 hk (List.mem_cons_self _ _)
    have h' : ((l ++ [(k, Item.value v)]).map Prod.fst ++ rest.map Prod.fst).Nodup := by
      simpa using h
    have hset : setOpt (.table l) [k] (some v) = .table (l ++ [(k, .value v)]) := by
      simp [setOpt, Item.set, Item.entries, Item.lookup, setEntry_of_not_mem _ hk]
    simp only [setFields, List.nil_append, hset, setFields_table _ rest h']
    simp [reportedEntries]

theorem nodup_keys_detailFields (d : OptimizerDetails) : ((detailFields d).map Prod.fst).Nodup := by
  simp [detailFields]

theorem nodup_keys_yulFields (y : YulDetails) : ((yulFields y).map Prod.fst).Nodup := by
  simp [yulFields]

/-- **The details table.** The optimizer details come out as one table written at once. -/
theorem synthesizedDetails_eq (T : Item) (d : OptimizerDetails) :
    synthesizedDetails T d = T.set ["optimizer_details"] (detailsTable d) := by
  have hL : setFields ["optimizer_details"] (T.set ["optimizer_details"] (.table []))
      (detailFields d) = T.set ["optimizer_details"] (.table (reportedEntries (detailFields d))) := by
    rw [setFields_set_cons, setFields_table [] _ (by simpa using nodup_keys_detailFields d)]
    rfl
  unfold synthesizedDetails detailsTable
  rw [hL]
  cases d.yulDetails with
  | none => simp
  | some y =>
    have hy : "yulDetails" ∉ (reportedEntries (detailFields d)).map Prod.fst := fun h => by
      simpa [detailFields] using mem_keys_reportedEntries h
    simp only
    rw [Item.set_set_cons, setFields_set_cons, setFields_set_cons,
      setFields_table [] _ (by simpa using nodup_keys_yulFields y)]
    simp [Item.set, Item.entries, Item.lookup, setEntry_of_not_mem _ hy]

/-- Writing a run of fields leaves every other key of the table as it was. -/
theorem lookup_setFields {k : String} :
    ∀ (T : Item) (fields : List (String × Option Value)), k ∉ fields.map Prod.fst →
      (setFields [] T fields).lookup k = T.lookup k
  | _, [], _ => rfl
  | T, (k', v) :: rest, hk => by
    simp only [List.map_cons, List.mem_cons, not_or] at hk
    rw [setFields, lookup_setFields _ rest hk.2]
    cases v <;> simp [setOpt, hk.1]

/-- **The synthesis touches only its own keys**: every key of the profile outside
`synthesizedKeys` keeps its item, whatever the profile held. -/
theorem lookup_synthesizedProfile (config : Config) (T : Item) (chainId : UInt64)
    (version : Version) (settings : Settings) {k : String} (hk : k ∉ synthesizedKeys) :
    (synthesizedProfile config T chainId version settings).lookup k = T.lookup k := by
  simp only [synthesizedKeys, List.mem_cons, List.mem_singleton, not_or] at hk
  obtain ⟨h₁, h₂, h₃, h₄, h₅, h₆, h₇, h₈, h₉, h₁₀, h₁₁, h₁₂⟩ := hk
  have hf : k ∉ (settingsFields settings).map Prod.fst := by
    simp [settingsFields, h₄, h₅, h₆, h₇, h₈, h₉, h₁₀]
  unfold synthesizedProfile
  cases settings.optimizer.details <;>
    simp [synthesizedDetails_eq, lookup_setFields _ _ hf, h₁, h₂, h₃, h₁₁, h₁₂]

/-! ## Every step replaces the active profile -/

section Steps

variable {doc : Item} {p : String} {keys : List String}

theorem assignProfileKey_eq (hdoc : doc.Open [profileSection, p])
    (hT : (doc.lookupPath [profileSection, p]).Open keys) (v : Item) :
    assignProfileKey doc p keys v =
      .ok (doc.set [profileSection, p] ((doc.lookupPath [profileSection, p]).set keys v)) := by
  have h : doc.Open ([profileSection, p] ++ keys) := (Item.open_append _ _ _).mpr ⟨hdoc, hT⟩
  rw [assignProfileKey, show profileSection :: p :: keys = [profileSection, p] ++ keys from rfl,
    Item.modifyPath_of_open _ _ _ _ h, ← Item.set_append]
  rfl

theorem updateIfNeeded_eq (hdoc : doc.Open [profileSection, p])
    (hT : (doc.lookupPath [profileSection, p]).Open keys) (v : Option Value) :
    updateIfNeeded doc p keys v = .ok (match v with
      | none => doc
      | some v => doc.set [profileSection, p]
          ((doc.lookupPath [profileSection, p]).set keys (.value v))) := by
  cases v with
  | none => rfl
  | some v =>
    rw [updateIfNeeded, Item.modifyPath_of_open _ _ _ _ hdoc, Item.modifyPath_of_open _ _ _ _ hT]
    rfl

/-- Writing a field at `pre ++ [k]` keeps `pre` a path through tables to a table. -/
theorem open_set_field {T : Item} {pre : List String} (k : String) (v : Item) :
    (T.set (pre ++ [k]) v).Open pre ∧ ((T.set (pre ++ [k]) v).lookupPath pre).asTable.isSome := by
  rw [Item.set_append]
  exact ⟨Item.open_set _ _ _, by simp⟩

theorem updateFields_eq (doc : Item) (pre : List String) :
    ∀ (T : Item) (fields : List (String × Option Value)), T.Open pre →
      (T.lookupPath pre).asTable.isSome →
      updateFields p pre (doc.set [profileSection, p] T) fields =
        .ok (doc.set [profileSection, p] (setFields pre T fields))
  | T, [], _, _ => rfl
  | T, (k, v) :: rest, hT, hpre => by
    have hopen : T.Open (pre ++ [k]) := (Item.open_append _ _ _).mpr ⟨hT, by simpa using hpre⟩
    have hstep := @updateIfNeeded_eq (doc.set [profileSection, p] T) _ _ (Item.open_set _ _ _)
      (by simpa using hopen) v
    simp only [updateFields, hstep, bind, Except.bind]
    cases v with
    | none => exact updateFields_eq doc pre T rest hT hpre
    | some v =>
      simp only [Item.lookupPath_set, Item.set_set, setFields, setOpt]
      exact updateFields_eq doc pre _ rest (open_set_field k _).1 (open_set_field k _).2

theorem setFields_open (pre : List String) :
    ∀ (T : Item) (fields : List (String × Option Value)), T.Open pre →
      (T.lookupPath pre).asTable.isSome →
      (setFields pre T fields).Open pre ∧ ((setFields pre T fields).lookupPath pre).asTable.isSome
  | _, [], hT, hpre => ⟨hT, hpre⟩
  | T, (_, none) :: rest, hT, hpre => setFields_open pre T rest hT hpre
  | _, (k, some _) :: rest, _, _ =>
    setFields_open pre _ rest (open_set_field k _).1 (open_set_field k _).2

theorem updateOptimizerDetails_eq (doc T : Item) (hT : T.asTable.isSome) (d : OptimizerDetails) :
    updateOptimizerDetails (doc.set [profileSection, p] T) p d =
      .ok (doc.set [profileSection, p] (synthesizedDetails T d)) := by
  have h₁ := @assignProfileKey_eq (doc.set [profileSection, p] T) _ ["optimizer_details"]
    (Item.open_set _ _ _) (by simpa using hT) (.table [])
  simp only [Item.lookupPath_set, Item.set_set] at h₁
  have hod : (T.set ["optimizer_details"] (.table [])).Open ["optimizer_details"] ∧
      ((T.set ["optimizer_details"] (.table [])).lookupPath ["optimizer_details"]).asTable.isSome :=
    ⟨Item.open_set _ _ _, by rw [Item.lookupPath_set]; rfl⟩
  have h₂ := @updateFields_eq p doc ["optimizer_details"] _ (detailFields d) hod.1 hod.2
  simp only [updateOptimizerDetails, h₁, h₂, bind, Except.bind, synthesizedDetails]
  cases d.yulDetails with
  | none => rfl
  | some y =>
    obtain ⟨ho, ht⟩ := setFields_open _ _ (detailFields d) hod.1 hod.2
    have hy : (setFields ["optimizer_details"] (T.set ["optimizer_details"] (.table []))
        (detailFields d)).Open (["optimizer_details"] ++ ["yulDetails"]) :=
      (Item.open_append _ _ _).mpr ⟨ho, by simpa using ht⟩
    have h₃ := @assignProfileKey_eq (doc.set [profileSection, p] _) _
      ["optimizer_details", "yulDetails"] (Item.open_set _ _ _) (by simpa using hy)
      (.table [])
    simp only [Item.lookupPath_set, Item.set_set] at h₃
    simp only [h₃, bind, Except.bind]
    exact updateFields_eq doc _ _ (yulFields y) (Item.open_set _ _ _) (by simp [Item.asTable])

theorem assignProfileKey_set (doc T : Item) (hT : T.Open keys) (v : Item) :
    assignProfileKey (doc.set [profileSection, p] T) p keys v =
      .ok (doc.set [profileSection, p] (T.set keys v)) := by
  simpa using assignProfileKey_eq (Item.open_set _ _ _) (by simpa using hT) v

/-- A single key written into a profile that has been written before. -/
theorem assignProfileKey_set_set (doc X w v : Item) (k' k : String) (ks : List String) :
    assignProfileKey (doc.set [profileSection, p] (X.set (k' :: ks) w)) p [k] v =
      .ok (doc.set [profileSection, p] ((X.set (k' :: ks) w).set [k] v)) :=
  assignProfileKey_set _ _ (by simp) v

theorem synthesizedDetails_asTable (T : Item) (d : OptimizerDetails) :
    (synthesizedDetails T d).asTable.isSome := by
  unfold synthesizedDetails
  split
  · exact And.left (setFields_open ["optimizer_details", "yulDetails"] _ _ (Item.open_set _ _ _)
      (by rw [Item.lookupPath_set]; rfl)).1
  · exact And.left (setFields_open ["optimizer_details"] _ _ (Item.open_set _ _ _)
      (by rw [Item.lookupPath_set]; rfl)).1

end Steps

/-- The profile read back at one key. -/
theorem lookupPath_profile_key (config : Config) (doc S : Item) (k : String) :
    (doc.set [profileSection, config.profile] S).lookupPath [profileSection, config.profile, k] =
      S.lookup k := by
  simp [Item.lookupPath]

/-- The frame of `update_config_by_metadata`: `doc'` differs from `doc` only inside the active
profile, which stays a table, and there only at `synthesizedKeys`. -/
structure ConfigFrame (config : Config) (doc doc' : Item) : Prop where
  /-- Every top-level key but the profile section is untouched. -/
  sections : ∀ k, k ≠ profileSection → doc'.lookup k = doc.lookup k
  /-- Every other profile is untouched. -/
  profiles : ∀ q, q ≠ config.profile →
    doc'.lookupPath [profileSection, q] = doc.lookupPath [profileSection, q]
  /-- The active profile is still a table. -/
  profile_table : (doc'.lookupPath [profileSection, config.profile]).asTable.isSome
  /-- Inside it, every key the function does not write is untouched. -/
  keys : ∀ k, k ∉ synthesizedKeys → doc'.lookupPath [profileSection, config.profile, k] =
    doc.lookupPath [profileSection, config.profile, k]

/-- The values `update_config_by_metadata` writes into the active profile, for the parsed
`version` and `settings`. -/
structure ConfigValues (config : Config) (doc : Item) (chainId : UInt64) (doc' : Item)
    (version : Version) (settings : Settings) : Prop where
  /-- The chain id, read as an `i64`. -/
  chain_id : doc'.lookupPath [profileSection, config.profile, "chain_id"] =
    .value (.integer (toI64 chainId))
  auto_detect_solc : doc'.lookupPath [profileSection, config.profile, "auto_detect_solc"] =
    .value (.boolean false)
  /-- `major.minor.patch` of the parsed version. -/
  solc_version : doc'.lookupPath [profileSection, config.profile, "solc_version"] =
    .value (.string (versionString version))
  /-- Each single-key setting (the run count read as an `i64`) when reported, its prior value
  otherwise. -/
  fields : ∀ f ∈ settingsFields settings, doc'.lookupPath [profileSection, config.profile, f.1] =
    (f.2.map Item.value).getD (doc.lookupPath [profileSection, config.profile, f.1])
  /-- The details table when details are reported, the prior value otherwise. -/
  optimizer_details : doc'.lookupPath [profileSection, config.profile, "optimizer_details"] =
    match settings.optimizer.details with
    | some d => detailsTable d
    | none => doc.lookupPath [profileSection, config.profile, "optimizer_details"]
  libraries : doc'.lookupPath [profileSection, config.profile, "libraries"] =
    .value (.array (libraryEntries (config.rewriteLibraries settings.libraries)))

section Run

variable (config : Config) (doc : Item) (meta : Metadata) (chainId : UInt64)
  {t : List (String × Item)} (hp : doc.lookupPath [profileSection, config.profile] = .table t)
include hp

/-- The first two writes, which happen before anything is parsed. -/
theorem updateConfigByMetadata_prefix :
    assignProfileKey doc config.profile ["chain_id"] (.value (.integer (toI64 chainId))) =
      .ok (doc.set [profileSection, config.profile]
        ((Item.table t).set ["chain_id"] (.value (.integer (toI64 chainId))))) := by
  have h := @assignProfileKey_eq _ _ ["chain_id"] (Item.open_of_lookupPath_eq_table hp)
    (by simp [hp, Item.asTable]) (.value (.integer (toI64 chainId)))
  rwa [hp] at h

theorem updateConfigByMetadata_of_ok {version : Version} {settings : Settings}
    (hv : meta.compilerVersion = .ok version) (hs : meta.settings = .ok settings)
    (hstop : settings.stopAfter = none) :
    updateConfigByMetadata config doc meta chainId =
      .ok (doc.set [profileSection, config.profile]
        (synthesizedProfile config (.table t) chainId version settings)) := by
  let T₁ := (Item.table t).set ["chain_id"] (.value (.integer (toI64 chainId)))
  let T₂ := T₁.set ["auto_detect_solc"] (.value (.boolean false))
  let T₃ := T₂.set ["solc_version"] (.value (.string (versionString version)))
  have h₂ := @assignProfileKey_set config.profile ["auto_detect_solc"] doc T₁
    (by simp [T₁]) (.value (.boolean false))
  have h₃ := @assignProfileKey_set config.profile ["solc_version"] doc T₂
    (by simp [T₂]) (.value (.string (versionString version)))
  have hT : (setFields [] T₃ (settingsFields settings)).asTable.isSome :=
    (setFields_open [] T₃ _ trivial (by simp [T₃, Item.lookupPath])).2
  simp only [updateConfigByMetadata, updateConfigByMetadata_prefix config doc chainId hp,
    bind, Except.bind, h₂, hv, hs, Except.mapError, h₃, hstop, Option.isSome_none,
    Bool.false_eq_true, if_false, pure, Except.pure,
    updateFields_eq doc [] T₃ _ trivial (by simp [T₃, Item.lookupPath])]
  cases hd : settings.optimizer.details with
  | none =>
    simp only [@assignProfileKey_set _ ["libraries"] _ _ (by simpa using hT),
      synthesizedProfile, hd]
  | some d =>
    simp only [updateOptimizerDetails_eq _ _ hT, @assignProfileKey_set _ ["libraries"] _ _
      (by simpa using synthesizedDetails_asTable (setFields [] T₃ (settingsFields settings)) d),
      synthesizedProfile, hd]

theorem updateConfigByMetadata_of_version_error {e : String}
    (he : meta.compilerVersion = .error e) :
    updateConfigByMetadata config doc meta chainId = .error (.compilerVersion e) := by
  simp only [updateConfigByMetadata, updateConfigByMetadata_prefix config doc chainId hp, bind,
    Except.bind, assignProfileKey_set_set, he, Except.mapError]

theorem updateConfigByMetadata_of_settings_error {version : Version} {e : String}
    (hv : meta.compilerVersion = .ok version) (hs : meta.settings = .error e) :
    updateConfigByMetadata config doc meta chainId = .error (.settings e) := by
  simp only [updateConfigByMetadata, updateConfigByMetadata_prefix config doc chainId hp, bind,
    Except.bind, assignProfileKey_set_set, hv, hs, Except.mapError]

theorem updateConfigByMetadata_of_stopAfter {version : Version} {settings : Settings}
    {phase : String} (hv : meta.compilerVersion = .ok version) (hs : meta.settings = .ok settings)
    (hstop : settings.stopAfter = some phase) :
    updateConfigByMetadata config doc meta chainId = .error .stopAfter := by
  simp only [updateConfigByMetadata, updateConfigByMetadata_prefix config doc chainId hp, bind,
    Except.bind, assignProfileKey_set_set, hv, hs, Except.mapError, hstop]
  rfl

/-- On a document whose active profile is a table, every error is an `Err`: the version or the
settings failed to parse, or `stop_after` is declared. None is a panic. -/
theorem updateConfigByMetadata_error {e : CloneError}
    (h : updateConfigByMetadata config doc meta chainId = .error e) : e.isPanic = false := by
  cases hv : meta.compilerVersion with
  | error e' =>
    rw [updateConfigByMetadata_of_version_error config doc meta chainId hp hv] at h
    cases h; rfl
  | ok version =>
    cases hs : meta.settings with
    | error e' =>
      rw [updateConfigByMetadata_of_settings_error config doc meta chainId hp hv hs] at h
      cases h; rfl
    | ok settings =>
      cases hstop : settings.stopAfter with
      | some _ =>
        rw [updateConfigByMetadata_of_stopAfter config doc meta chainId hp hv hs hstop] at h
        cases h; rfl
      | none =>
        rw [updateConfigByMetadata_of_ok config doc meta chainId hp hv hs hstop] at h
        cases h

/-- **The synthesis as a function of the profile.** From a document whose active profile is a
table, `update_config_by_metadata` succeeds exactly when the compiler version and the settings
parse and no `stop_after` is declared; the document it then returns is the input with the
active profile replaced by `synthesizedProfile`. -/
theorem updateConfigByMetadata_eq_ok (doc' : Item) :
    updateConfigByMetadata config doc meta chainId = .ok doc' ↔
      ∃ version settings, meta.compilerVersion = .ok version ∧ meta.settings = .ok settings ∧
        settings.stopAfter = none ∧
        doc' = doc.set [profileSection, config.profile]
          (synthesizedProfile config (.table t) chainId version settings) := by
  constructor
  · intro h
    cases hv : meta.compilerVersion with
    | error e => rw [updateConfigByMetadata_of_version_error config doc meta chainId hp hv] at h; cases h
    | ok version =>
      cases hs : meta.settings with
      | error e =>
        rw [updateConfigByMetadata_of_settings_error config doc meta chainId hp hv hs] at h; cases h
      | ok settings =>
        cases hstop : settings.stopAfter with
        | some _ =>
          rw [updateConfigByMetadata_of_stopAfter config doc meta chainId hp hv hs hstop] at h
          cases h
        | none =>
          rw [updateConfigByMetadata_of_ok config doc meta chainId hp hv hs hstop] at h
          cases h
          exact ⟨version, settings, rfl, rfl, hstop, rfl⟩
  · rintro ⟨version, settings, hv, hs, hstop, rfl⟩
    exact updateConfigByMetadata_of_ok config doc meta chainId hp hv hs hstop

theorem lookupPath_input_key (k : String) :
    doc.lookupPath [profileSection, config.profile, k] = (Item.table t).lookup k := by
  rw [show [profileSection, config.profile, k] = [profileSection, config.profile] ++ [k] from rfl,
    Item.lookupPath_append, hp]
  rfl

/-- **Config fidelity and frame.** When `update_config_by_metadata` succeeds on a document whose
active profile is a table, the document changes only inside that profile and only at
`synthesizedKeys`, and every written key holds what the explorer reported. -/
theorem updateConfigByMetadata_fidelity (doc' : Item)
    (h : updateConfigByMetadata config doc meta chainId = .ok doc') :
    ConfigFrame config doc doc' ∧ ∃ version settings, meta.compilerVersion = .ok version ∧
      meta.settings = .ok settings ∧ ConfigValues config doc chainId doc' version settings := by
  obtain ⟨version, settings, hv, hs, -, rfl⟩ :=
    (updateConfigByMetadata_eq_ok config doc meta chainId hp doc').mp h
  refine ⟨⟨fun k hk => by simp [hk], fun q hq => by simp [Item.lookupPath, hq],
    by simp [lookupPath_profile_key, synthesizedProfile], fun k hk => ?_⟩,
    version, settings, hv, hs, ?_⟩
  · simp only [synthesizedKeys, List.mem_cons, List.mem_singleton, not_or] at hk
    cases hd : settings.optimizer.details <;>
      simp [lookupPath_profile_key, lookupPath_input_key config doc hp, synthesizedProfile,
        synthesizedDetails_eq, setFields, settingsFields, hk, hd]
  · cases hd : settings.optimizer.details <;> constructor <;>
      simp [lookupPath_profile_key, lookupPath_input_key config doc hp, synthesizedProfile,
        synthesizedDetails_eq, setFields, settingsFields, hd]

end Run

/-! ## On a fresh `default` profile -/

/-- A configuration whose active profile is `default`, with libraries left as they are. -/
def defaultConfig : Config := ⟨"default", id⟩

/-- A document whose `default` profile is an empty table. -/
def freshDocument : Item := .table [(profileSection, .table [("default", .table [])])]

/-- Metadata whose version and settings parse, with nothing reported. -/
def bareMetadata : Metadata := ⟨"C", [], .ok ⟨0, 8, 19⟩, .ok bareSettings⟩

/-- The document the function writes for `bareMetadata` on chain `chainId`. -/
def bareSynthesis (chainId : UInt64) : Item :=
  freshDocument.set [profileSection, "default"]
    (synthesizedProfile defaultConfig (.table []) chainId ⟨0, 8, 19⟩ bareSettings)

theorem updateConfigByMetadata_bare (chainId : UInt64) :
    updateConfigByMetadata defaultConfig freshDocument bareMetadata chainId =
      .ok (bareSynthesis chainId) :=
  (updateConfigByMetadata_eq_ok defaultConfig freshDocument bareMetadata chainId rfl _).mpr
    ⟨_, _, rfl, rfl, rfl, rfl⟩

/-- The `default` profile `forge init` writes. -/
def initProfile : List (String × Item) :=
  [("src", .value (.string "src")), ("out", .value (.string "out")),
    ("libs", .value (.array [.string "lib"]))]

/-- A document whose `default` profile is `initProfile`. -/
def initDocument : Item := .table [(profileSection, .table [("default", .table initProfile)])]

/-- Settings as the explorer reports them for a 0.8.19 contract built with the optimizer, its
details and Yul details, against the Paris EVM, with one linked library. -/
def optimizedSettings : Settings :=
  { optimizer := ⟨some true, some 200, some ⟨some true, some true, some true, some false,
      some true, some true, some true, none, some true, some ⟨some true, some "dhfoDgvulfnTUtnIf"⟩⟩⟩
    libraries := [("contracts/Math.sol", [("Math", "0x5FbDB2315678afecb367f032d93F642f64180aa3")])]
    evmVersion := some "paris"
    viaIr := some false
    stopAfter := none
    metadata := some ⟨none, some false, some "ipfs"⟩
    remappings := [] }

/-- Metadata of a contract built with `optimizedSettings`. -/
def optimizedMetadata : Metadata := ⟨"Vault", [], .ok ⟨0, 8, 19⟩, .ok optimizedSettings⟩

theorem updateConfigByMetadata_fidelity_optimized :
    initDocument.lookupPath [profileSection, defaultConfig.profile] = .table initProfile ∧
    ∃ doc', updateConfigByMetadata defaultConfig initDocument optimizedMetadata 1 = .ok doc' ∧
      ConfigFrame defaultConfig initDocument doc' ∧ ∃ version settings,
        optimizedMetadata.compilerVersion = .ok version ∧
        optimizedMetadata.settings = .ok settings ∧
        ConfigValues defaultConfig initDocument 1 doc' version settings := by
  have hp : initDocument.lookupPath [profileSection, defaultConfig.profile] = .table initProfile :=
    rfl
  obtain ⟨doc', h⟩ : ∃ doc', updateConfigByMetadata defaultConfig initDocument optimizedMetadata 1 =
      .ok doc' :=
    ⟨_, (updateConfigByMetadata_eq_ok defaultConfig initDocument optimizedMetadata 1 hp _).mpr
      ⟨_, _, rfl, rfl, rfl, rfl⟩⟩
  exact ⟨hp, doc', h,
    updateConfigByMetadata_fidelity defaultConfig initDocument optimizedMetadata 1 hp doc' h⟩

/-- A chain id of `2 ^ 63` is written as `-2 ^ 63`: `chain.id() as i64` wraps. -/
theorem updateConfigByMetadata_chainId_wraps :
    updateConfigByMetadata defaultConfig freshDocument bareMetadata 9223372036854775808 =
        .ok (bareSynthesis 9223372036854775808) ∧
      (bareSynthesis 9223372036854775808).lookupPath [profileSection, "default", "chain_id"] =
        .value (.integer (-9223372036854775808)) ∧
      (bareSynthesis 9223372036854775808).lookupPath [profileSection, "default", "chain_id"] ≠
        .value (.integer (9223372036854775808 : UInt64).toNat) := by
  have h : (bareSynthesis 9223372036854775808).lookupPath [profileSection, "default", "chain_id"] =
      .value (.integer (-9223372036854775808)) := rfl
  exact ⟨updateConfigByMetadata_bare _, h, h ▸ fun he => by cases he⟩

end ForgeClone
