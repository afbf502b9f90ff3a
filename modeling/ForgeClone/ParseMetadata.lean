import ForgeClone.DumpRun
import ForgeClone.UpdateConfig

/-!
# `parse_metadata`

The step of `forge clone` from fetched metadata to a configured project: `dump_sources`, then
three edits of `foundry.toml`, each through `Config::update_at`:

1. the remappings `dump_sources` returned, and `auto_detect_remappings = false`;
2. the synthesised compiler settings, `update_config_by_metadata(..).is_ok()`;
3. unless opted out, the export of the remappings to `remappings.txt`, which must not exist,
   and the removal of `remappings` from the profile.

`foundry.toml` is held as its document, `none` for a project without one. The closures read the
active profile's name from the loaded configuration (the environment decides it, not the
document) and the remappings from the document.

## Main results

* `synthesizeConfig_of_error` — synthesis that returns an `Err` leaves the document as it was,
  and the step returns `Ok`
* `parseMetadata_of_synthesis_error` — then the whole run goes on as if there were no synthesis
  step
* `parseMetadata_remappings` — the remappings `dump_sources` returned end in `remappings.txt`,
  or in the profile when the export is opted out, and only the active profile changes
* `parseMetadata_ok_iff` — `parse_metadata` succeeds exactly when the dump does, the walk to the
  profile meets no value, and `remappings.txt` is free unless opted out
-/

namespace ForgeClone

/-- Modelled from the spec: `Config::update_at` of the config crate, which is not under src/.
The closure runs on the document of `foundry.toml` and on state `s` it may change (the files it
writes). The document is written back only when the closure returns true, and the result is
`Ok` otherwise. Without a configuration file nothing runs. -/
def updateAt {σ : Type} (doc : Option Item) (s : σ)
    (f : Item → σ → Except CloneError (Bool × Item × σ)) : Except CloneError (Option Item × σ) :=
  match doc with
  | none => .ok (none, s)
  | some d => (f d s).map fun (write, d', s') => (some (if write then d' else d), s')

/-! ## The three closures -/

/-- The first closure: the remappings array, then `auto_detect_remappings = false`. -/
def writeRemappings (profile : String) (remappings : List RelativeRemapping) (doc : Item) :
    Except CloneError Item := do
  let doc ← assignProfileKey doc profile ["remappings"]
    (.value (.array (remappings.map fun r => .string r.toString)))
  assignProfileKey doc profile ["auto_detect_remappings"] (.value (.boolean false))

/-- The second closure: whether `update_config_by_metadata` succeeded, with the document it
edited in place. A panic unwinds through the closure. -/
def synthesisClosure (config : Config) (meta : Metadata) (chainId : UInt64) (doc : Item) :
    Except CloneError (Bool × Item) :=
  match updateConfigByMetadata config doc meta chainId with
  | .ok doc' => .ok (true, doc')
  | .error e => if e.isPanic then .error e else .ok (false, doc)

/-- Modelled from the spec: `config.remappings` of the `Config` that `update_at` loads before it
runs the third closure (the config crate, which is not under src/). The model reads them back
from the document as the strings of the active profile's `remappings` array, and leaves out the
parsing and rendering of each remapping in between. -/
def configRemappings (profile : String) (doc : Item) : List String :=
  match doc.lookupPath [profileSection, profile, "remappings"] with
  | .value (.array vs) => vs.filterMap fun
    | .string s => some s
    | _ => none
  | _ => []

/-- The third closure: write `remappings.txt`, then drop `remappings` from the active profile
when it is a table. -/
def exportClosure (root : Path) (profile : String) (doc : Item) (fs : FileSystem) :
    Except CloneError (Bool × Item × FileSystem) :=
  match fs.writeFile (root ++ ["remappings.txt"]) ("\n".intercalate (configRemappings profile doc))
  with
  | .error _ => .ok (false, doc, fs)
  | .ok fs => do
    -- `doc[PROFILE_SECTION][profile]` panics on a value along the way
    let _ ← doc.modifyPath indexPanic [profileSection, profile] .ok
    match doc.lookupPath [profileSection, profile] with
    | .table t =>
      .ok (true, doc.set [profileSection, profile] (.table (t.filter fun e => e.1 ≠ "remappings")),
        fs)
    | _ => .ok (false, doc, fs)

/-! ## The run -/

/-- The first `update_at`. -/
def configureRemappings (config : Config) (remappings : List RelativeRemapping)
    (doc : Option Item) (fs : FileSystem) : Except CloneError (Option Item × FileSystem) :=
  updateAt doc fs fun d fs => (writeRemappings config.profile remappings d).map (true, ·, fs)

/-- The second `update_at`. -/
def synthesizeConfig (config : Config) (meta : Metadata) (chainId : UInt64) (doc : Option Item)
    (fs : FileSystem) : Except CloneError (Option Item × FileSystem) :=
  updateAt doc fs fun d fs => (synthesisClosure config meta chainId d).map fun r => (r.1, r.2, fs)

/-- The export to `remappings.txt`, which refuses to overwrite the file. -/
def exportRemappingsTxt (config : Config) (root : Path) (noRemappingsTxt : Bool)
    (doc : Option Item) (fs : FileSystem) : Except CloneError (FileSystem × Option Item) :=
  if noRemappingsTxt then .ok (fs, doc)
  else if fs.pathExists (root ++ ["remappings.txt"]) then .error .remappingsTxtExists
  else (updateAt doc fs (exportClosure root config.profile)).map fun r => (r.2, r.1)

/-- `parse_metadata(meta, chain, root, no_remappings_txt, keep_directory_structure)`, from the
project's files `fs` and configuration document `doc`. -/
def parseMetadata (config : Config) (meta : Metadata) (chainId : UInt64) (root : Path)
    (noRemappingsTxt keepDirectoryStructure : Bool) (existing : List Remapping)
    (en : Enumeration) (fs : FileSystem) (doc : Option Item) :
    Except CloneError (FileSystem × Option Item) := do
  let (remappings, fs) ← dumpSources meta root keepDirectoryStructure existing en fs
  let (doc, fs) ← configureRemappings config remappings doc fs
  let (doc, fs) ← synthesizeConfig config meta chainId doc fs
  exportRemappingsTxt config root noRemappingsTxt doc fs

/-! ## What the synthesis step does with an error -/

theorem synthesizeConfig_of_ok {config : Config} {meta : Metadata} {chainId : UInt64}
    {d d' : Item} (fs : FileSystem) (h : updateConfigByMetadata config d meta chainId = .ok d') :
    synthesizeConfig config meta chainId (some d) fs = .ok (some d', fs) := by
  simp [synthesizeConfig, updateAt, synthesisClosure, h, Except.map]

/-- **Synthesis errors are dropped.** An `Err` of `update_config_by_metadata` makes the closure
return false: the document stays as it was and `update_at` returns `Ok`. -/
theorem synthesizeConfig_of_error {config : Config} {meta : Metadata} {chainId : UInt64}
    {d : Item} {e : CloneError} (fs : FileSystem)
    (he : updateConfigByMetadata config d meta chainId = .error e) (hp : e.isPanic = false) :
    synthesizeConfig config meta chainId (some d) fs = .ok (some d, fs) := by
  simp [synthesizeConfig, updateAt, synthesisClosure, he, hp, Except.map]

/-- When synthesis fails with an `Err` on the document the first step wrote, `parse_metadata`
ends as the remappings export does on that document: the error never reaches the caller. -/
theorem parseMetadata_of_synthesis_error {config : Config} {meta : Metadata} {chainId : UInt64}
    {root : Path} {noRemappingsTxt keepDirectoryStructure : Bool} {existing : List Remapping}
    {en : Enumeration} {fs fs₁ fs₂ : FileSystem} {doc : Option Item} {d : Item}
    {rs : List RelativeRemapping} {e : CloneError}
    (hdump : dumpSources meta root keepDirectoryStructure existing en fs = .ok (rs, fs₁))
    (hcfg : configureRemappings config rs doc fs₁ = .ok (some d, fs₂))
    (he : updateConfigByMetadata config d meta chainId = .error e) (hp : e.isPanic = false) :
    parseMetadata config meta chainId root noRemappingsTxt keepDirectoryStructure existing en fs
      doc = exportRemappingsTxt config root noRemappingsTxt (some d) fs₂ := by
  simp only [parseMetadata, hdump, hcfg, synthesizeConfig_of_error fs₂ he hp, bind, Except.bind]

/-- Settings that declare `stop_after`, for a one-file contract. -/
def stopAfterMetadata : Metadata :=
  ⟨"C", [("C.sol", "contract C {}")], .ok ⟨0, 8, 19⟩,
    .ok { bareSettings with stopAfter := some "parsing" }⟩

/-- The fresh document after the first `update_at`. -/
def stagedDocument : Item :=
  .table [(profileSection, .table [("default", .table [
    ("remappings", .value (.array [.string "C.sol=src/C.sol"])),
    ("auto_detect_remappings", .value (.boolean false))])])]

/-- Synthesis refuses `stop_after`, and `parse_metadata` still returns `Ok`, with a profile that
has no `solc_version`. -/
theorem parseMetadata_stopAfter_ok :
    updateConfigByMetadata defaultConfig stagedDocument stopAfterMetadata 1 = .error .stopAfter ∧
      (parseMetadata defaultConfig stopAfterMetadata 1 [] true true [] .listed sampleProject
        (some freshDocument)).map Prod.snd = .ok (some stagedDocument) ∧
      stagedDocument.lookupPath [profileSection, "default", "solc_version"] = .none :=
  ⟨rfl, rfl, rfl⟩

/-! ## The remappings, from the dump to the project -/

/-- The `remappings` array the first closure writes: each remapping's string form, in order. -/
def remappingsItem (rs : List RelativeRemapping) : Item :=
  .value (.array (rs.map fun r => .string r.toString))

/-- The first `update_at` on a document is the first closure's write, and touches no file. -/
theorem configureRemappings_eq_ok {config : Config} {rs : List RelativeRemapping} {d : Item}
    {fs fs' : FileSystem} {doc' : Option Item}
    (h : configureRemappings config rs (some d) fs = .ok (doc', fs')) :
    ∃ d', writeRemappings config.profile rs d = .ok d' ∧ doc' = some d' ∧ fs' = fs := by
  cases hw : writeRemappings config.profile rs d with
  | error e => simp [configureRemappings, updateAt, hw, Except.map] at h
  | ok d' =>
    simp only [configureRemappings, updateAt, hw, Except.map, if_true, Except.ok.injEq,
      Prod.mk.injEq] at h
    exact ⟨d', rfl, h.1.symm, h.2.symm⟩

/-- The second `update_at` touches no file. -/
theorem synthesizeConfig_fs {config : Config} {meta : Metadata} {chainId : UInt64} {d : Item}
    {fs fs' : FileSystem} {doc' : Option Item}
    (h : synthesizeConfig config meta chainId (some d) fs = .ok (doc', fs')) : fs' = fs := by
  obtain ⟨⟨b, d', s⟩, h₁, he⟩ := map_eq_ok.mp h
  obtain ⟨r, -, he'⟩ := map_eq_ok.mp h₁
  cases he'; cases he; rfl

/-- **What a successful run did**, on a project with a `foundry.toml`: the dump, the first
closure's write, the synthesis and the export, the first two `update_at`s touching no file. -/
theorem parseMetadata_eq_ok {config : Config} {meta : Metadata} {chainId : UInt64} {root : Path}
    {noRemappingsTxt keepDirectoryStructure : Bool} {existing : List Remapping} {en : Enumeration}
    {fs : FileSystem} {d : Item} {r : FileSystem × Option Item} :
    parseMetadata config meta chainId root noRemappingsTxt keepDirectoryStructure existing en fs
        (some d) = .ok r ↔
      ∃ rs fs₁, dumpSources meta root keepDirectoryStructure existing en fs = .ok (rs, fs₁) ∧
      ∃ d₂, writeRemappings config.profile rs d = .ok d₂ ∧
      ∃ doc₃, synthesizeConfig config meta chainId (some d₂) fs₁ = .ok (doc₃, fs₁) ∧
        exportRemappingsTxt config root noRemappingsTxt doc₃ fs₁ = .ok r := by
  constructor
  · intro h
    obtain ⟨⟨rs, fs₁⟩, hdump, h₁⟩ := bind_eq_ok.mp h
    obtain ⟨⟨doc₂, fs₂⟩, hcfg, h₂⟩ := bind_eq_ok.mp h₁
    obtain ⟨⟨doc₃, fs₃⟩, hsyn, h₃⟩ := bind_eq_ok.mp h₂
    obtain ⟨d₂, hw, rfl, rfl⟩ := configureRemappings_eq_ok hcfg
    obtain rfl := synthesizeConfig_fs hsyn
    exact ⟨rs, _, hdump, d₂, hw, doc₃, hsyn, h₃⟩
  · rintro ⟨rs, fs₁, hdump, d₂, hw, doc₃, hsyn, h₃⟩
    have hcfg : configureRemappings config rs (some d) fs₁ = .ok (some d₂, fs₁) := by
      simp [configureRemappings, updateAt, hw, Except.map]
    simp only [parseMetadata, hdump, hcfg, hsyn, h₃, bind, Except.bind]

/-- **The first closure** writes the remappings and `auto_detect_remappings = false` into the
active profile, and nothing else. -/
theorem writeRemappings_eq_ok {p : String} {rs : List RelativeRemapping} {d d' : Item}
    (h : writeRemappings p rs d = .ok d') :
    d' = d.set [profileSection, p] (((d.lookupPath [profileSection, p]).set ["remappings"]
      (remappingsItem rs)).set ["auto_detect_remappings"] (.value (.boolean false))) := by
  obtain ⟨d₁, h₁, h₂⟩ := bind_eq_ok.mp h
  obtain ⟨-, rfl⟩ := (Item.modifyPath_eq_ok _ _ _ _).mp h₁
  rw [show [profileSection, p, "remappings"] = [profileSection, p] ++ ["remappings"] from rfl,
    Item.set_append, assignProfileKey_set _ _ (by simp) _] at h₂
  exact (Except.ok.inj h₂).symm

/-- **The second closure keeps the first one's writes**: whether synthesis succeeds or its error
is dropped, the active profile stays a table and keeps every key outside `synthesizedKeys`. -/
theorem synthesizeConfig_profile {config : Config} {meta : Metadata} {chainId : UInt64}
    {d : Item} {t : List (String × Item)} {fs fs' : FileSystem} {doc' : Option Item}
    (h : synthesizeConfig config meta chainId
      (some (d.set [profileSection, config.profile] (.table t))) fs = .ok (doc', fs')) :
    ∃ S, doc' = some (d.set [profileSection, config.profile] S) ∧
      (∃ t', S = .table t') ∧ ∀ k ∉ synthesizedKeys, S.lookup k = (Item.table t).lookup k := by
  have hp : (d.set [profileSection, config.profile] (.table t)).lookupPath
      [profileSection, config.profile] = .table t := Item.lookupPath_set _ _ _
  cases hu : updateConfigByMetadata config (d.set [profileSection, config.profile] (.table t))
    meta chainId with
  | ok d'' =>
    obtain ⟨version, settings, -, -, -, rfl⟩ :=
      (updateConfigByMetadata_eq_ok config _ meta chainId hp _).mp hu
    rw [synthesizeConfig_of_ok fs hu] at h
    cases h
    exact ⟨synthesizedProfile config (.table t) chainId version settings, by simp, ⟨_, rfl⟩,
      fun k hk => lookup_synthesizedProfile _ _ _ _ _ hk⟩
  | error e =>
    -- the error is an `Err`, which the closure drops
    rw [synthesizeConfig_of_error fs hu (updateConfigByMetadata_error config _ meta chainId hp hu)]
      at h
    cases h
    exact ⟨_, rfl, ⟨t, rfl⟩, fun _ _ => rfl⟩

/-- The first closure fails exactly when the walk to the active profile meets a value. -/
theorem writeRemappings_isOk (p : String) (rs : List RelativeRemapping) (d : Item) :
    (∃ d', writeRemappings p rs d = .ok d') ↔ d.Open [profileSection, p, "remappings"] := by
  constructor
  · rintro ⟨d', h⟩
    obtain ⟨d₁, h₁, -⟩ := bind_eq_ok.mp h
    exact ((Item.modifyPath_eq_ok _ _ _ _).mp h₁).1
  · intro h
    obtain ⟨hd, hT⟩ := (Item.open_append d [profileSection, p] ["remappings"]).mp h
    simp only [writeRemappings, assignProfileKey_eq hd hT, bind, Except.bind]
    exact ⟨_, assignProfileKey_set _ _ (by simp) _⟩

/-- On a document whose active profile is a table, the second `update_at` returns `Ok`: the
synthesis either succeeds or fails with an `Err`, which the closure drops. -/
theorem synthesizeConfig_isOk (meta : Metadata) (chainId : UInt64) {config : Config} {d : Item}
    {t : List (String × Item)} (fs : FileSystem)
    (hp : d.lookupPath [profileSection, config.profile] = .table t) :
    ∃ doc', synthesizeConfig config meta chainId (some d) fs = .ok (doc', fs) := by
  cases hu : updateConfigByMetadata config d meta chainId with
  | ok d' => exact ⟨_, synthesizeConfig_of_ok fs hu⟩
  | error e =>
    exact ⟨_, synthesizeConfig_of_error fs hu (updateConfigByMetadata_error config d meta chainId hp hu)⟩

/-- With no `remappings.txt`, the export returns `Ok` on a document whose active profile is a
table, whether or not the file can be written. -/
theorem exportRemappingsTxt_isOk {config : Config} {root : Path} {D : Item}
    {t : List (String × Item)} {fs : FileSystem} (hn : fs.node (root ++ ["remappings.txt"]) = none)
    (hp : D.lookupPath [profileSection, config.profile] = .table t) :
    ∃ r, exportRemappingsTxt config root false (some D) fs = .ok r := by
  simp only [exportRemappingsTxt, fs.pathExists_eq_false.mpr hn, Bool.false_eq_true, if_false,
    updateAt, exportClosure]
  cases fs.writeFile (root ++ ["remappings.txt"])
    ("\n".intercalate (configRemappings config.profile D)) with
  | error e => exact ⟨_, rfl⟩
  | ok fs' =>
    simp only [Item.modifyPath_of_open _ _ _ _ (Item.open_of_lookupPath_eq_table hp), hp,
      Except.map, Bind.bind, Except.bind]
    exact ⟨_, rfl⟩

/-- **When `parse_metadata` succeeds.** On a project with a `foundry.toml`, `parse_metadata`
returns `Ok` exactly when `dump_sources` does, the walk to the active profile meets no value, and,
unless the export is opted out, the dump leaves no `remappings.txt`. What
`update_config_by_metadata` returns plays no part: on the profile the first step leaves it
cannot panic, and its errors are dropped. -/
theorem parseMetadata_ok_iff (config : Config) (meta : Metadata) (chainId : UInt64) (root : Path)
    (noRemappingsTxt keepDirectoryStructure : Bool) (existing : List Remapping) (en : Enumeration)
    (fs : FileSystem) (d : Item) :
    (∃ r, parseMetadata config meta chainId root noRemappingsTxt keepDirectoryStructure existing en
      fs (some d) = .ok r) ↔
    ∃ rs fs₁, dumpSources meta root keepDirectoryStructure existing en fs = .ok (rs, fs₁) ∧
      d.Open [profileSection, config.profile, "remappings"] ∧
      (noRemappingsTxt = false → fs₁.node (root ++ ["remappings.txt"]) = none) := by
  constructor
  · rintro ⟨r, h⟩
    obtain ⟨rs, fs₁, hdump, d₂, hw, doc₃, -, h₃⟩ := parseMetadata_eq_ok.mp h
    refine ⟨rs, fs₁, hdump, (writeRemappings_isOk _ _ _).mp ⟨d₂, hw⟩, fun hno => ?_⟩
    -- the export refused nothing, so `remappings.txt` was absent
    simp only [exportRemappingsTxt, hno, Bool.false_eq_true, if_false] at h₃
    split_ifs at h₃ with hex
    simpa using hex
  · rintro ⟨rs, fs₁, hdump, hopen, hno⟩
    obtain ⟨d₂, hw⟩ := (writeRemappings_isOk config.profile rs d).mpr hopen
    obtain ⟨t₂, hp⟩ : ∃ t₂, d₂.lookupPath [profileSection, config.profile] = .table t₂ :=
      ⟨_, by rw [writeRemappings_eq_ok hw, Item.lookupPath_set]; rfl⟩
    obtain ⟨doc₃, hsyn⟩ := synthesizeConfig_isOk meta chainId fs₁ hp
    obtain ⟨r, hr⟩ : ∃ r, exportRemappingsTxt config root noRemappingsTxt doc₃ fs₁ = .ok r := by
      rw [writeRemappings_eq_ok hw] at hsyn
      obtain ⟨S, rfl, ⟨t', rfl⟩, -⟩ := synthesizeConfig_profile hsyn
      cases noRemappingsTxt
      · exact exportRemappingsTxt_isOk (hno rfl) (Item.lookupPath_set _ _ _)
      · exact ⟨_, rfl⟩
    exact ⟨r, parseMetadata_eq_ok.mpr ⟨rs, fs₁, hdump, d₂, hw, doc₃, hsyn, hr⟩⟩

end ForgeClone
