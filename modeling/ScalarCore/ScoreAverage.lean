import Mathlib.Algebra.GroupWithZero.Nat
import Mathlib.Algebra.Order.BigOperators.Group.List
import Mathlib.Data.Nat.ModEq

namespace ScoreAverage

/-!
# Totals of bounded scores

Items that pass a test have a score between two bounds, the others have none.  A total is
then bounded by the number of items that pass, and an average by their share.
-/

variable {Item : Type*} {score : Item → Nat} {passes : Item → Bool} {least most : Nat}

/-- A total is at most the greatest score for each item that passes. -/
theorem sum_le_mul_countP
    (atMost : ∀ item, passes item = true → score item ≤ most)
    (otherwise : ∀ item, passes item = false → score item = 0)
    (items : List Item) :
    (items.map score).sum ≤ most * items.countP passes := by
  induction items with
  | nil =>
      exact Nat.zero_le _
  | cons item rest inductionHypothesis =>
      rw [List.map_cons, List.sum_cons, List.countP_cons]
      cases tested : passes item with
      | true =>
          rw [if_pos rfl, Nat.mul_succ, Nat.add_comm]
          exact Nat.add_le_add inductionHypothesis (atMost item tested)
      | false =>
          rw [otherwise item tested, Nat.zero_add]
          exact inductionHypothesis

/-- A total is at least the least score for each item that passes. -/
theorem mul_countP_le_sum
    (atLeast : ∀ item, passes item = true → least ≤ score item)
    (items : List Item) :
    least * items.countP passes ≤ (items.map score).sum := by
  induction items with
  | nil =>
      exact Nat.le_refl _
  | cons item rest inductionHypothesis =>
      rw [List.map_cons, List.sum_cons, List.countP_cons]
      cases tested : passes item with
      | true =>
          rw [if_pos rfl, Nat.mul_succ, Nat.add_comm]
          exact Nat.add_le_add (atLeast item tested) inductionHypothesis
      | false =>
          exact inductionHypothesis.trans (Nat.le_add_left _ _)

/-- An average is below what the share of the items that pass is below. -/
theorem average_lt
    {total passing length threshold : Nat}
    (bounded : total ≤ most * passing)
    (share : most * passing < threshold * length) :
    total / length < threshold :=
  Nat.div_lt_of_lt_mul (by rw [Nat.mul_comm]; exact bounded.trans_lt share)

/-- An average reaches what the share of the items that pass reaches. -/
theorem le_average
    {total passing length threshold : Nat}
    (nonempty : 0 < length)
    (bounded : least * passing ≤ total)
    (share : threshold * length ≤ least * passing) :
    threshold ≤ total / length :=
  (Nat.le_div_iff_mul_le nonempty).mpr (share.trans bounded)

end ScoreAverage
