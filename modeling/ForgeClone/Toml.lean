import ForgeClone.Metadata

/-!
# The configuration document

`foundry.toml` is edited through `toml_edit`. A document is a tree of items: absent, a value, or a
table of keyed items kept in insertion order. The code reaches into it in two ways.

* `doc[a][b][c] = v` (`IndexMut`): a missing key is inserted, an absent item becomes a table, and
  indexing into a value that is not a table panics.
* `current.get_mut(key)` in `update_if_needed!`: the same walk, but it returns `None`, which the
  macro turns into the error `cannot find the key`.

Both are `modifyPath`, with a different failure. Inline tables behave as tables under both, and
are not distinguished from them here.

## Main results

* `Item.modifyPath_of_open` — along a path that runs through tables, a walk that writes `v` is
  `Item.set`
* `Item.lookupPath_set`, `Item.set_set` — reading back and overwriting a written path
-/

namespace ForgeClone

/-- A TOML value. -/
inductive Value
  | integer (i : Int)
  | boolean (b : Bool)
  | string (s : String)
  | array (elems : List Value)
  deriving Repr

/-- A TOML item: absent, a value, or a table whose entries keep their insertion order. -/
inductive Item
  | none
  | value (v : Value)
  | table (entries : List (String × Item))
  deriving Repr

/-- The item stored under `k`, `Item.none` when there is none. -/
def lookupEntry : List (String × Item) → String → Item
  | [], _ => .none
  | (k', v) :: rest, k => if k' = k then v else lookupEntry rest k

/-- The entries with `k` set to `v`: in place when `k` is present, appended otherwise. -/
def setEntry : List (String × Item) → String → Item → List (String × Item)
  | [], k, v => [(k, v)]
  | (k', v') :: rest, k, v => if k' = k then (k, v) :: rest else (k', v') :: setEntry rest k v

@[simp] theorem lookupEntry_setEntry (t : List (String × Item)) (k k' : String) (v : Item) :
    lookupEntry (setEntry t k v) k' = if k' = k then v else lookupEntry t k' := by
  induction t with
  | nil => simp [setEntry, lookupEntry, eq_comm]
  | cons e rest ih =>
    obtain ⟨k'', v''⟩ := e
    by_cases h : k'' = k
    · subst h
      by_cases h' : k'' = k'
      · subst h'; simp [setEntry, lookupEntry]
      · simp [setEntry, lookupEntry, h', Ne.symm h']
    · by_cases h' : k'' = k'
      · subst h'; simp [setEntry, lookupEntry, h]
      · simp [setEntry, lookupEntry, h, h', ih]

@[simp] theorem setEntry_setEntry (t : List (String × Item)) (k : String) (v w : Item) :
    setEntry (setEntry t k v) k w = setEntry t k w := by
  induction t with
  | nil => simp [setEntry]
  | cons e rest ih =>
    obtain ⟨k', v'⟩ := e
    by_cases h : k' = k <;> simp [setEntry, h, ih]

theorem setEntry_of_not_mem {t : List (String × Item)} {k : String} (v : Item)
    (h : k ∉ t.map Prod.fst) : setEntry t k v = t ++ [(k, v)] := by
  induction t with
  | nil => rfl
  | cons e rest ih =>
    simp only [List.map_cons, List.mem_cons, not_or] at h
    simp [setEntry, Ne.symm h.1, ih h.2]

/-- `remove_entry k`, as a filter: `k` is gone and every other key keeps its item. -/
@[simp] theorem lookupEntry_filter (t : List (String × Item)) (k k' : String) :
    lookupEntry (t.filter fun e => !decide (e.1 = k)) k' = if k' = k then .none else lookupEntry t k' := by
  induction t with
  | nil => simp [lookupEntry]
  | cons e rest ih =>
    obtain ⟨k'', v⟩ := e
    -- the entry is dropped exactly when it is `k`'s
    by_cases h : k'' = k <;> by_cases h' : k'' = k' <;> simp_all [List.filter_cons, lookupEntry]

namespace Item

/-- The entries of a table; other items have none. -/
def entries : Item → List (String × Item)
  | .table t => t
  | _ => []

/-- `Index for str`: the item under `k`, `none` unless this is a table holding `k`. -/
def lookup (i : Item) (k : String) : Item := lookupEntry i.entries k

/-- The item at the end of a key path. -/
def lookupPath : Item → List String → Item
  | i, [] => i
  | i, k :: ks => (i.lookup k).lookupPath ks

/-- Writes `v` at the key path, turning every item along it into a table. -/
def set : Item → List String → Item → Item
  | _, [], v => v
  | i, k :: ks, v => .table (setEntry i.entries k ((i.lookup k).set ks v))

/-- The entries `IndexMut` and `get_mut` index into: a table's, or a fresh table's for an
absent item; a value has none. -/
def asTable : Item → Option (List (String × Item))
  | .none => some []
  | .table t => some t
  | .value _ => Option.none

/-- The walk of `IndexMut` or `get_mut` down `path`, then `f` on the item reached; `fail k` is
what happens when the walk meets a value where it needs the key `k`. -/
def modifyPath (fail : String → CloneError) : Item → List String → (Item → Except CloneError Item) →
    Except CloneError Item
  | i, [], f => f i
  | i, k :: ks, f =>
    match i.asTable with
    | some t => (modifyPath fail (lookupEntry t k) ks f).map fun c => .table (setEntry t k c)
    | Option.none => .error (fail k)

/-- Every item strictly along `path` is a table or absent, so that a walk down it never fails. -/
def Open : Item → List String → Prop
  | _, [] => True
  | i, k :: ks => i.asTable.isSome ∧ (i.lookup k).Open ks

theorem entries_of_asTable {i : Item} {t : List (String × Item)} (h : i.asTable = some t) :
    i.entries = t := by
  cases i <;> simp_all [asTable, entries]

theorem modifyPath_of_open (fail : String → CloneError) (f : Item → Except CloneError Item) :
    ∀ (i : Item) (ks : List String), i.Open ks →
      i.modifyPath fail ks f = (f (i.lookupPath ks)).map (i.set ks)
  | i, [], _ => by simp only [modifyPath, lookupPath]; cases f i <;> rfl
  | i, k :: ks, ⟨hi, hk⟩ => by
    obtain ⟨t, ht⟩ := Option.isSome_iff_exists.mp hi
    have he := entries_of_asTable ht
    simp only [modifyPath, ht, lookupPath, set, lookup, he] at hk ⊢
    rw [modifyPath_of_open fail f _ ks hk]
    cases f _ <;> rfl

/-- **A write down a key path succeeds exactly when the path runs through tables**, and it is
then `Item.set`. -/
theorem modifyPath_eq_ok (fail : String → CloneError) (v : Item) :
    ∀ (i : Item) (ks : List String) {i' : Item},
      i.modifyPath fail ks (fun _ => .ok v) = .ok i' ↔ i.Open ks ∧ i' = i.set ks v
  | i, [], i' => by simp [modifyPath, Open, set, eq_comm]
  | i, k :: ks, i' => by
    simp only [modifyPath, Open]
    cases ht : i.asTable with
    | none => simp
    | some t =>
      have he := entries_of_asTable ht
      simp only [map_eq_ok, modifyPath_eq_ok fail v _ ks, Option.isSome_some, true_and,
        lookup, he, set]
      constructor
      · rintro ⟨c, ⟨ho, rfl⟩, rfl⟩
        exact ⟨ho, rfl⟩
      · rintro ⟨ho, rfl⟩
        exact ⟨_, ⟨ho, rfl⟩, rfl⟩

@[simp] theorem lookup_set_cons (i : Item) (k k' : String) (ks : List String) (v : Item) :
    (i.set (k :: ks) v).lookup k' = if k' = k then (i.lookup k).set ks v else i.lookup k' := by
  simp [set, lookup, entries]

@[simp] theorem lookupPath_set (i : Item) (ks : List String) (v : Item) :
    (i.set ks v).lookupPath ks = v := by
  induction ks generalizing i with
  | nil => rfl
  | cons k ks ih => simp [lookupPath, ih]

@[simp] theorem set_set (i : Item) (ks : List String) (v w : Item) :
    (i.set ks v).set ks w = i.set ks w := by
  induction ks generalizing i with
  | nil => rfl
  | cons k ks ih => simp [set, entries, lookup, ih]

@[simp] theorem asTable_set_cons (i : Item) (k : String) (ks : List String) (v : Item) :
    (i.set (k :: ks) v).asTable = some ((i.set (k :: ks) v).entries) := rfl

theorem set_cons_eq (i : Item) (k : String) (ks : List String) (v : Item) :
    i.set (k :: ks) v = i.set [k] ((i.lookup k).set ks v) := rfl

@[simp] theorem set_nil (i v : Item) : i.set [] v = v := rfl

/-- Writing below a key that was just written writes into the value written there. -/
theorem set_set_cons (X Y : Item) (k : String) (ks : List String) (v : Item) :
    (X.set [k] Y).set (k :: ks) v = X.set [k] (Y.set ks v) := by
  rw [set_cons_eq, set_set, lookup_set_cons, if_pos rfl, set_nil]

@[simp] theorem lookupPath_none (ks : List String) : Item.none.lookupPath ks = .none := by
  induction ks with
  | nil => rfl
  | cons k ks ih => exact ih

theorem lookupPath_append (i : Item) (ks ks' : List String) :
    i.lookupPath (ks ++ ks') = (i.lookupPath ks).lookupPath ks' := by
  induction ks generalizing i with
  | nil => rfl
  | cons k ks ih => exact ih _

theorem set_append (i : Item) (ks ks' : List String) (v : Item) :
    i.set (ks ++ ks') v = i.set ks ((i.lookupPath ks).set ks' v) := by
  induction ks generalizing i with
  | nil => rfl
  | cons k ks ih =>
    show i.set (k :: (ks ++ ks')) v = _
    simp only [set, lookupPath, ih]

theorem open_append (i : Item) (ks ks' : List String) :
    i.Open (ks ++ ks') ↔ i.Open ks ∧ (i.lookupPath ks).Open ks' := by
  induction ks generalizing i with
  | nil => simp [Open, lookupPath]
  | cons k ks ih =>
    show i.Open (k :: (ks ++ ks')) ↔ _
    simp only [Open, ih, lookupPath, and_assoc]

@[simp] theorem open_singleton (i : Item) (k : String) : i.Open [k] ↔ i.asTable.isSome := by
  simp [Open]

/-- A table reached by a key path was reached through tables. -/
theorem open_of_lookupPath_eq_table {i : Item} {ks : List String} {t : List (String × Item)}
    (h : i.lookupPath ks = .table t) : i.Open ks := by
  induction ks generalizing i with
  | nil => trivial
  | cons k ks ih =>
    refine ⟨?_, ih h⟩
    cases i with
    | value v => simp [lookupPath, lookup, entries, lookupEntry] at h
    | _ => rfl

theorem open_set (i : Item) (ks : List String) (v : Item) : (i.set ks v).Open ks := by
  induction ks generalizing i with
  | nil => trivial
  | cons k ks ih => exact ⟨rfl, by simpa using ih (i.lookup k)⟩

end Item

end ForgeClone
