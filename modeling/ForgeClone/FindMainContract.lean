import ForgeClone.Metadata

/-!
# Locating the target contract among the artifacts

`find_main_contract` scans the `(file, contract name, artifact)` triples of a compile output and
keeps the one whose name is the target. It stops at the second match instead of picking one, and
reports a missing target after the scan.

The artifact type is a parameter: the function never looks inside an artifact.

## Main results

* `findMainContract_go` — the loop depends only on the list of matching triples
* `findMainContract_spec` — `Ok` exactly for a single match, the ambiguity error exactly for two
  or more, and the not-found error exactly for none
-/

namespace ForgeClone

variable {A : Type}

/-- `find_main_contract(compile_output, contract)`, over the triples `artifacts_with_files`
yields. -/
def findMainContract (artifacts : List (String × String × A)) (contract : String) :
    Except CloneError (String × A) :=
  go artifacts none
where
  /-- The `for` loop, with `rv` the match found so far. -/
  go : List (String × String × A) → Option (String × A) → Except CloneError (String × A)
    | [], rv => match rv with
      | some r => .ok r
      | none => .error .contractNotFound
    | (f, c, a) :: rest, rv =>
      if contract = c then
        if rv.isSome then .error .multipleContracts else go rest (some (f, a))
      else go rest rv

/-- The triples whose name is the target. -/
def contractMatches (artifacts : List (String × String × A)) (contract : String) :
    List (String × String × A) :=
  artifacts.filter fun t => contract = t.2.1

/-- What the loop returns from the match `rv` found so far and the matches still ahead. -/
def scanOutcome : Option (String × A) → List (String × String × A) → Except CloneError (String × A)
  | some r, [] => .ok r
  | none, [] => .error .contractNotFound
  | none, [(f, _, a)] => .ok (f, a)
  | none, _ :: _ :: _ => .error .multipleContracts
  | some _, _ :: _ => .error .multipleContracts

theorem findMainContract_go (contract : String) (artifacts : List (String × String × A))
    (rv : Option (String × A)) :
    findMainContract.go contract artifacts rv = scanOutcome rv (contractMatches artifacts contract) := by
  induction artifacts generalizing rv with
  | nil => cases rv <;> rfl
  | cons t rest ih =>
    obtain ⟨f, c, a⟩ := t
    by_cases hc : contract = c
    · subst hc
      cases rv with
      | none =>
        simp only [findMainContract.go, if_true, Option.isSome_none, ih, contractMatches,
          List.filter_cons, decide_True]
        cases rest.filter (fun t => contract = t.2.1) <;> rfl
      | some r => simp [findMainContract.go, contractMatches, scanOutcome]
    · simp [findMainContract.go, hc, ih, contractMatches]

/-- **Target lookup is exact.** -/
theorem findMainContract_spec (artifacts : List (String × String × A)) (contract : String) :
    (∀ f a, findMainContract artifacts contract = .ok (f, a) ↔
        contractMatches artifacts contract = [(f, contract, a)]) ∧
      (findMainContract artifacts contract = .error .multipleContracts ↔
        2 ≤ (contractMatches artifacts contract).length) ∧
      (findMainContract artifacts contract = .error .contractNotFound ↔
        contractMatches artifacts contract = []) := by
  have hname : ∀ t ∈ contractMatches artifacts contract, t.2.1 = contract := fun t ht =>
    (of_decide_eq_true (List.mem_filter.mp ht).2).symm
  simp only [findMainContract, findMainContract_go]
  revert hname
  rcases contractMatches artifacts contract with _ | ⟨⟨f, c, a⟩, _ | ⟨t, ts⟩⟩ <;>
    simp +contextual [scanOutcome]

end ForgeClone
