import Mathlib.Data.List.Pairwise
import ForgeClone.FileSystem

/-!
# Relocating subtrees

The move loop of `dump_sources` renames entries of the staging directory, one after another, to
fresh places in the project. As long as no destination lies below another, and no destination
below a moved entry, what the renames leave behind does not depend on their order. `relocate`
describes it: a path below a destination holds what the matching path below its source held, a
path below a source is gone, and every other path is untouched.

## Main results

* `renameNode_relocate` — one more rename extends the relocation by its move
* `setNode_relocate`, `removeNode_relocate` — creating or removing a path away from the moves
  commutes with them
* `relocate_perm` — the order of the moves does not matter
-/

namespace ForgeClone

open List

/-- Neither path lies below the other: the subtrees at `p` and `q` are disjoint. -/
def Apart (p q : Path) : Prop := ¬ p <+: q ∧ ¬ q <+: p

theorem Apart.symm {p q : Path} (h : Apart p q) : Apart q p := ⟨h.2, h.1⟩

/-- No path lies below two paths that are apart. -/
theorem Apart.not_both {p q l : Path} (h : Apart p q) (hp : p <+: l) (hq : q <+: l) : False :=
  have hpq := prefix_or_prefix_of_prefix hp hq
  hpq.elim h.1 h.2

/-- Two different paths of the same length are apart. -/
theorem apart_of_length_eq {p q : Path} (hl : p.length = q.length) (hne : p ≠ q) : Apart p q :=
  ⟨fun h => hne (h.eq_of_length hl), fun h => hne (h.eq_of_length hl.symm).symm⟩

/-- A path apart from `p` is apart from everything below `p`. -/
theorem Apart.append {p q : Path} (h : Apart p q) (x : Path) : Apart p (q ++ x) :=
  ⟨fun h' => h.not_both h' (prefix_append q x), fun h' => h.2 ((prefix_append q x).trans h')⟩

theorem Apart.append_append {p q : Path} (h : Apart p q) (x y : Path) : Apart (p ++ x) (q ++ y) :=
  ((h.append y).symm.append x).symm

/-- Paths that part at a component below a common prefix are apart. -/
theorem apart_append_cons {p : Path} {a b : Name} (hab : a ≠ b) (x y : Path) :
    Apart (p ++ a :: x) (p ++ b :: y) := by
  simp [Apart, prefix_append_right_inj, cons_prefix_cons, hab, Ne.symm hab]

/-! ## Order-free facts about lists -/

theorem find?_perm {α : Type} {p : α → Bool} {l₁ l₂ : List α} (h : l₁ ~ l₂)
    (hu : l₁.Pairwise fun a b => ¬ (p a ∧ p b)) : l₁.find? p = l₂.find? p := by
  induction h with
  | nil => rfl
  | cons x _ ih => simp only [find?_cons, ih (pairwise_cons.mp hu).2]
  | swap x y l =>
    have hxy : ¬ (p y ∧ p x) := (pairwise_cons.mp hu).1 x (mem_cons_self x l)
    cases hx : p x <;> cases hy : p y <;> simp_all [find?_cons]
  | trans h₁ _ ih₁ ih₂ =>
    exact (ih₁ hu).trans (ih₂ ((h₁.pairwise_iff fun hab hba => hab (And.symm hba)).mp hu))

theorem any_perm {α : Type} {p : α → Bool} {l₁ l₂ : List α} (h : l₁ ~ l₂) :
    l₁.any p = l₂.any p :=
  Bool.eq_iff_iff.mpr (by
    rw [any_eq_true, any_eq_true]; exact exists_congr fun _ => and_congr_left' h.mem_iff)

theorem all_perm {α : Type} {p : α → Bool} {l₁ l₂ : List α} (h : l₁ ~ l₂) :
    l₁.all p = l₂.all p :=
  Bool.eq_iff_iff.mpr (by
    rw [all_eq_true, all_eq_true]; exact forall_congr' fun _ => imp_congr_left h.mem_iff)

/-! ## The relocated node map -/

/-- The node map after moving, for each `(s, d)` of `moves`, the subtree at `s` to `d`. -/
def relocate (node : Path → Option Node) (moves : List (Path × Path)) (q : Path) : Option Node :=
  match moves.find? (fun m => m.2 <+: q) with
  | some m => node (m.1 ++ q.drop m.2.length)
  | none => if moves.any (fun m => m.1 <+: q) then none else node q

@[simp] theorem relocate_nil (node : Path → Option Node) : relocate node [] = node := by
  funext q; simp [relocate]

section

variable {node : Path → Option Node} {moves : List (Path × Path)}

/-- Away from every move, nothing changed. -/
theorem relocate_of_apart {q : Path} (h : ∀ m ∈ moves, ¬ m.2 <+: q ∧ ¬ m.1 <+: q) :
    relocate node moves q = node q := by
  have hf : moves.find? (fun m => m.2 <+: q) = none :=
    find?_eq_none.mpr fun m hm => by simpa using (h m hm).1
  have ha : moves.any (fun m => m.1 <+: q) = false :=
    any_eq_false.mpr fun m hm => by simpa using (h m hm).2
  simp [relocate, hf, ha]

/-- Below a moved entry, nothing is left. -/
theorem relocate_of_source {s d q : Path} (hm : (s, d) ∈ moves) (hq : s <+: q)
    (h : ∀ m ∈ moves, ¬ m.2 <+: q) : relocate node moves q = none := by
  have hf : moves.find? (fun m => m.2 <+: q) = none :=
    find?_eq_none.mpr fun m hm => by simpa using h m hm
  have ha : moves.any (fun m => m.1 <+: q) = true := any_eq_true.mpr ⟨_, hm, by simpa using hq⟩
  simp only [relocate, hf, ha, if_true]

/-- Below a destination, what was below its source. -/
theorem relocate_of_dest {s d q : Path} (hm : (s, d) ∈ moves)
    (hd : moves.Pairwise fun a b => Apart a.2 b.2) (hq : d <+: q) :
    relocate node moves q = node (s ++ q.drop d.length) := by
  have hsome : ∃ m ∈ moves, (fun m : Path × Path => decide (m.2 <+: q)) m = true :=
    ⟨_, hm, by simpa using hq⟩
  obtain ⟨m, hf⟩ := Option.isSome_iff_exists.mp (find?_isSome.mpr hsome)
  have hmq : m.2 <+: q := by simpa using find?_some hf
  have heq : m = (s, d) := by
    by_contra hne
    exact (hd.forall (fun _ _ h => Apart.symm h) (mem_of_find?_eq_some hf) hm hne).not_both hmq hq
  simp only [relocate, hf, heq]

/-- At a sibling of the destinations, away from the sources, nothing is there exactly when
nothing was and it is no destination. -/
theorem relocate_sibling_eq_none {d : Path} (hlen : ∀ m ∈ moves, m.2.length = d.length)
    (hs : ∀ m ∈ moves, ¬ m.1 <+: d) (hpres : ∀ m ∈ moves, node m.1 ≠ none) :
    relocate node moves d = none ↔ node d = none ∧ ∀ m ∈ moves, m.2 ≠ d := by
  unfold relocate
  cases hf : moves.find? (fun m => m.2 <+: d) with
  | some m =>
    have hm := mem_of_find?_eq_some hf
    have hmd : m.2 = d := (by simpa using find?_some hf : m.2 <+: d).eq_of_length (hlen m hm)
    simp only [hmd, drop_length, append_nil]
    exact iff_of_false (hpres m hm) fun h => h.2 m hm hmd
  | none =>
    have hne : ∀ m ∈ moves, m.2 ≠ d := fun m hm h => by simpa [h] using find?_eq_none.mp hf m hm
    have ha : moves.any (fun m => m.1 <+: d) = false :=
      any_eq_false.mpr fun m hm => by simpa using hs m hm
    simp only [ha, Bool.false_eq_true, if_false]
    exact ⟨fun h => ⟨h, hne⟩, And.left⟩

/-- **Renaming extends the relocation.** A rename whose source and destination are apart from
every earlier move's adds its move to the list. -/
theorem renameNode_relocate {s d : Path} (hd : ∀ m ∈ moves, Apart m.2 d)
    (hs : ∀ m ∈ moves, Apart m.1 s ∧ Apart m.2 s) :
    renameNode (relocate node moves) s d = relocate node (moves ++ [(s, d)]) := by
  funext q
  have hnone : ∀ {t : Path}, (∀ m ∈ moves, Apart m.2 t) → t <+: q →
      moves.find? (fun m => m.2 <+: q) = none := fun ht htq =>
    find?_eq_none.mpr fun m hm h => (ht m hm).not_both (by simpa using h) htq
  unfold renameNode relocate
  by_cases hdq : d <+: q
  · have hx : relocate node moves (s ++ q.drop d.length) = node (s ++ q.drop d.length) :=
      relocate_of_apart fun m hm => ⟨fun h => ((hs m hm).2.append _).1 h, fun h => ((hs m hm).1.append _).1 h⟩
    simp only [relocate] at hx
    simp [hdq, hx, find?_append, hnone hd hdq]
  · by_cases hsq : s <+: q
    · simp [hdq, hsq, find?_append, hnone (fun m hm => (hs m hm).2) hsq]
    · have ha : (moves ++ [(s, d)]).any (fun m => m.1 <+: q) = moves.any (fun m => m.1 <+: q) := by
        simp [hsq]
      rw [ha]
      cases hf : moves.find? (fun m => m.2 <+: q) <;> simp [hdq, hsq, find?_append, hf]

/-- Setting a path that lies below no move commutes with the moves. -/
theorem setNode_relocate {p : Path} {v : Node} (hp : ∀ m ∈ moves, ¬ m.2 <+: p ∧ ¬ m.1 <+: p) :
    setNode (relocate node moves) p v = relocate (setNode node p v) moves := by
  funext q
  by_cases hq : q = p
  · subst hq
    simp [setNode, relocate_of_apart hp]
  · unfold relocate setNode
    cases hf : moves.find? (fun m => m.2 <+: q) with
    | none => simp [hq, hf]
    | some m =>
      have hmp : m.1 ++ q.drop m.2.length ≠ p := fun h =>
        (hp m (mem_of_find?_eq_some hf)).2 (h ▸ prefix_append _ _)
      simp [hq, hf, hmp]

/-- Removing a subtree apart from every move commutes with the moves. -/
theorem removeNode_relocate {p : Path} (hp : ∀ m ∈ moves, Apart m.2 p ∧ Apart m.1 p) :
    removeNode (relocate node moves) p = relocate (removeNode node p) moves := by
  funext q
  unfold relocate removeNode
  cases hf : moves.find? (fun m => m.2 <+: q) with
  | none => by_cases hpq : p <+: q <;> simp [hf, hpq]
  | some m =>
    have hm := hp m (mem_of_find?_eq_some hf)
    have hpq : ¬ p <+: q := fun h => hm.1.not_both (by simpa using find?_some hf) h
    have hps : ¬ p <+: m.1 ++ q.drop m.2.length := fun h => (hm.2.symm.append _).1 h
    simp [hf, hpq, hps]

/-- **Order does not matter.** Moves with pairwise apart destinations relocate the same way in
any order. -/
theorem relocate_perm {moves' : List (Path × Path)} (h : moves ~ moves')
    (hd : moves.Pairwise fun a b => Apart a.2 b.2) : relocate node moves = relocate node moves' := by
  funext q
  have hu : moves.Pairwise fun a b =>
      ¬ ((fun m : Path × Path => decide (m.2 <+: q)) a ∧ (fun m : Path × Path => decide (m.2 <+: q)) b) :=
    hd.imp fun hab ⟨ha, hb⟩ => hab.not_both (by simpa using ha) (by simpa using hb)
  simp only [relocate, find?_perm h hu, any_perm h]

end

end ForgeClone
