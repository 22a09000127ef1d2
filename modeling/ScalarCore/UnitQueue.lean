import Mathlib.Algebra.BigOperators.Group.List.Basic
import Mathlib.Algebra.Ring.Nat
import Mathlib.Order.Basic
import Mathlib.Tactic.Common

namespace UnitQueue

/-!
# Queues of tagged amounts

A queue of lots, each a tag and an amount, stands for the list of its units:
every lot repeats its tag as often as its amount says.  Taking an amount from
the front, with a partial last lot, is dropping that many units.
-/

variable {Tag : Type*}

/-- The units of a queue, front first. -/
def units (lots : List (Tag × Nat)) : List Tag :=
  lots.flatMap fun lot => List.replicate lot.2 lot.1

/-- Take an amount from the front; lots used up stay with amount zero. -/
def drain : Nat → List (Tag × Nat) → List (Tag × Nat)
  | _, [] => []
  | remaining, lot :: rest =>
      (lot.1, lot.2 - remaining) :: drain (remaining - lot.2) rest

@[simp] theorem units_nil : units ([] : List (Tag × Nat)) = [] :=
  rfl

@[simp] theorem units_cons
    (lot : Tag × Nat)
    (rest : List (Tag × Nat)) :
    units (lot :: rest) = List.replicate lot.2 lot.1 ++ units rest :=
  rfl

@[simp] theorem units_append
    (lots later : List (Tag × Nat)) :
    units (lots ++ later) = units lots ++ units later :=
  List.flatMap_append

/-- There are as many units as the amounts add up to. -/
theorem length_units (lots : List (Tag × Nat)) :
    (units lots).length = (lots.map Prod.snd).sum := by
  induction lots with
  | nil =>
      rfl
  | cons lot rest inductionHypothesis =>
      simp [inductionHypothesis]

/-- Taking an amount drops as many units from the front. -/
theorem units_drain
    (remaining : Nat)
    (lots : List (Tag × Nat)) :
    units (drain remaining lots) = (units lots).drop remaining := by
  induction lots generalizing remaining with
  | nil =>
      simp [drain]
  | cons lot rest inductionHypothesis =>
      simp only [drain, units_cons, inductionHypothesis, List.drop_append,
        List.drop_replicate, List.length_replicate]

/-- Nothing to take leaves the queue as it is. -/
@[simp] theorem drain_zero (lots : List (Tag × Nat)) :
    drain 0 lots = lots := by
  induction lots with
  | nil =>
      rfl
  | cons lot rest inductionHypothesis =>
      simp [drain, inductionHypothesis]

/-- Lots with amount zero have no units. -/
theorem units_filter_positive (lots : List (Tag × Nat)) :
    units (lots.filter fun lot => decide (0 < lot.2)) = units lots := by
  induction lots with
  | nil =>
      rfl
  | cons lot rest inductionHypothesis =>
      by_cases positive : 0 < lot.2
      · simp [positive, inductionHypothesis]
      · have noAmount : lot.2 = 0 := Nat.eq_zero_of_not_pos positive
        simp [noAmount, inductionHypothesis]

/-- Lots in another order have the same units in another order. -/
theorem units_perm
    {lots lots' : List (Tag × Nat)}
    (same : lots.Perm lots') :
    (units lots).Perm (units lots') :=
  same.flatMap_right _

/-- Units have the tag of a lot. -/
theorem exists_lot_of_mem_units
    {lots : List (Tag × Nat)}
    {tag : Tag}
    (member : tag ∈ units lots) :
    ∃ lot ∈ lots, lot.1 = tag := by
  obtain ⟨lot, listed, inLot⟩ := List.mem_flatMap.mp member
  exact ⟨lot, listed, (List.eq_of_mem_replicate inLot).symm⟩

/-- The units of lots in order are in order. -/
theorem pairwise_units
    [Preorder Tag]
    {lots : List (Tag × Nat)}
    (ordered :
      lots.Pairwise fun earlier later => earlier.1 ≤ later.1) :
    (units lots).Pairwise (· ≤ ·) := by
  induction lots with
  | nil =>
      exact List.Pairwise.nil
  | cons lot rest inductionHypothesis =>
      obtain ⟨first, restOrdered⟩ := List.pairwise_cons.mp ordered
      rw [units_cons, List.pairwise_append]
      refine
        ⟨List.pairwise_replicate.mpr (Or.inr le_rfl),
          inductionHypothesis restOrdered, ?_⟩
      intro tag inFirst tag' inRest
      obtain ⟨later, listed, rfl⟩ := exists_lot_of_mem_units inRest
      rw [List.eq_of_mem_replicate inFirst]
      exact first later listed

end UnitQueue
