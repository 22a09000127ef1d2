import Mathlib.Algebra.GroupWithZero.Nat
import Mathlib.Algebra.Order.BigOperators.Group.List
import Mathlib.Data.Nat.ModEq

namespace FloorShares

/-!
# Shares rounded down

An amount is shared in proportion to weights, each share rounded down.  The
shares never add up to more than the amount as long as the weights do not add
up to more than the divisor.
-/

/-- The share of each weight in an amount. -/
def shares (amount divisor : Nat) (weights : List Nat) : List Nat :=
  weights.map fun weight => amount * weight / divisor

/-- The shares together are at most the share of all weights together. -/
theorem sum_shares_le_div (amount divisor : Nat) (weights : List Nat) :
    (shares amount divisor weights).sum ≤ amount * weights.sum / divisor := by
  induction weights with
  | nil =>
      exact Nat.zero_le _
  | cons weight rest inductionHypothesis =>
      calc
        (shares amount divisor (weight :: rest)).sum
            = amount * weight / divisor +
                (shares amount divisor rest).sum := List.sum_cons
        _ ≤ amount * weight / divisor + amount * rest.sum / divisor :=
            Nat.add_le_add_left inductionHypothesis _
        _ ≤ (amount * weight + amount * rest.sum) / divisor :=
            Nat.div_add_div_le_add_div
        _ = amount * (weight :: rest).sum / divisor := by
            rw [List.sum_cons, Nat.mul_add]

/-- Rounding loses less than one for each share. -/
theorem div_lt_sum_shares
    {weights : List Nat}
    (shared : weights ≠ [])
    (amount divisor : Nat) :
    amount * weights.sum / divisor < (shares amount divisor weights).sum + weights.length := by
  induction weights with
  | nil =>
      exact absurd rfl shared
  | cons weight rest inductionHypothesis =>
      have split := Nat.add_div_le_div_add_div_add_one (amount * weight) (amount * rest.sum) divisor
      rw [shares, List.map_cons, List.sum_cons, List.sum_cons, ← shares, Nat.mul_add,
        List.length_cons]
      cases rest with
      | nil =>
          rw [List.sum_nil, Nat.mul_zero, Nat.add_zero]
          exact Nat.lt_add_of_pos_right Nat.zero_lt_one
      | cons weight' rest =>
          have lost := inductionHypothesis (List.cons_ne_nil weight' rest)
          omega

/-- One share is within the amount. -/
theorem share_le
    {weight divisor : Nat}
    (covered : weight ≤ divisor)
    (amount : Nat) :
    amount * weight / divisor ≤ amount := by
  apply Nat.div_le_of_le_mul
  rw [Nat.mul_comm amount weight]
  exact Nat.mul_le_mul_right amount covered

/-- The shares are within the amount. -/
theorem sum_shares_le
    {divisor : Nat}
    {weights : List Nat}
    (covered : weights.sum ≤ divisor)
    (amount : Nat) :
    (shares amount divisor weights).sum ≤ amount :=
  (sum_shares_le_div amount divisor weights).trans (share_le covered amount)

end FloorShares
