import Mathlib.Data.List.Basic
import Mathlib.Tactic.Common

namespace FallibleChecks

/-!
# When a sequence of checks passes

A fallible function answers a value or the error of the first check that fails.
It answers a value exactly when none of its checks fails, and these lemmas peel
the checks off one at a time.
-/

variable {Error OtherError Item Value : Type*} {Result : Type}

/-- A guard passes when its condition does not hold. -/
theorem ite_error_eq_ok_iff
    {condition : Prop}
    [Decidable condition]
    {error : Error}
    {rest : Except Error Value}
    {value : Value} :
    (if condition then .error error else rest) = .ok value ↔
      ¬condition ∧ rest = .ok value := by
  by_cases holds : condition
  · rw [if_pos holds]
    constructor
    · intro passed
      cases passed
    · intro passed
      exact absurd holds passed.1
  · rw [if_neg holds]
    exact (and_iff_right holds).symm

/-- A check whose errors are renamed passes when it passes. -/
theorem mapError_eq_ok_iff
    {rename : Error → OtherError}
    {check : Except Error Value}
    {value : Value} :
    check.mapError rename = .ok value ↔ check = .ok value := by
  cases check with
  | error error =>
      simp [Except.mapError]
  | ok answer =>
      simp [Except.mapError]

/-- A check without an answer, then the rest. -/
theorem unit_bind_eq_ok_iff
    {check : Except Error Unit}
    {rest : Unit → Except Error Result}
    {result : Result} :
    (check >>= rest) = .ok result ↔
      check = .ok () ∧ rest () = .ok result := by
  cases check with
  | error error =>
      simp [bind, Except.bind]
  | ok answer =>
      simp [bind, Except.bind]

/-- One check for each item of a list. -/
theorem forM_eq_ok_iff
    {check : Item → Except Error Unit}
    {items : List Item} :
    items.forM check = .ok () ↔ ∀ item ∈ items, check item = .ok () := by
  induction items with
  | nil =>
      exact iff_of_true rfl (List.forall_mem_nil _)
  | cons item rest inductionHypothesis =>
      rw [List.forall_mem_cons, ← inductionHypothesis, List.forM_eq_forM,
        List.forM_cons, unit_bind_eq_ok_iff]

/-- A map whose answers are known. -/
theorem mapM_eq_some_map
    {answer : Item → Option Result}
    {result : Item → Result}
    {items : List Item}
    (answered : ∀ item ∈ items, answer item = some (result item)) :
    items.mapM answer = some (items.map result) := by
  induction items with
  | nil =>
      rfl
  | cons item rest inductionHypothesis =>
      have restAnswered :=
        inductionHypothesis fun later listed =>
          answered later (List.mem_cons_of_mem item listed)
      rw [List.mapM_cons, answered item List.mem_cons_self, restAnswered]
      rfl

/-- A map that answers every item lists the answers. -/
theorem exists_mapM_eq_ok
    {answer : Item → Except Error Result}
    {items : List Item}
    (answered : ∀ item ∈ items, ∃ result, answer item = .ok result) :
    ∃ results,
      items.mapM answer = .ok results ∧
        ∀ result, result ∈ results ↔ ∃ item ∈ items, answer item = .ok result := by
  induction items with
  | nil =>
      exact ⟨[], rfl, by simp⟩
  | cons item rest inductionHypothesis =>
      rw [List.forall_mem_cons] at answered
      obtain ⟨first, isFirst⟩ := answered.1
      obtain ⟨later, areLater, mem_iff⟩ := inductionHypothesis answered.2
      refine ⟨first :: later, ?_, ?_⟩
      · rw [List.mapM_cons, isFirst, areLater]
        rfl
      · intro result
        rw [List.mem_cons, mem_iff, List.exists_mem_cons_iff, isFirst,
          Except.ok.injEq, eq_comm]

/-- Place of the first answer that is false, counted from `start`. -/
def firstFailing : List Bool → Nat → Option Nat
  | [], _ => none
  | holds :: rest, start =>
      if holds then firstFailing rest (start + 1) else some start

/-- The place found is not before the start. -/
theorem le_of_firstFailing
    {answers : List Bool}
    {start place : Nat}
    (found : firstFailing answers start = some place) :
    start ≤ place := by
  induction answers generalizing start with
  | nil =>
      cases found
  | cons holds rest inductionHypothesis =>
      cases holds with
      | false =>
          exact Nat.le_of_eq (Option.some.inj found)
      | true =>
          exact Nat.le_of_succ_le (inductionHypothesis found)

/-- With one rest, two sequences fail at one place when they agree in the first answer. -/
theorem firstFailing_cons_eq_iff
    {holds holds' : Bool}
    {rest : List Bool}
    {start : Nat} :
    firstFailing (holds :: rest) start = firstFailing (holds' :: rest) start ↔
      holds = holds' := by
  have later : firstFailing rest (start + 1) ≠ some start := by
    intro found
    exact absurd (le_of_firstFailing found) (Nat.not_succ_le_self start)
  cases holds with
  | false =>
      cases holds' with
      | false =>
          simp only
      | true =>
          simpa [firstFailing] using later.symm
  | true =>
      cases holds' with
      | false =>
          simpa [firstFailing] using later
      | true =>
          simp only

end FallibleChecks
