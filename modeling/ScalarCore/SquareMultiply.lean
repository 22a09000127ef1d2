import Mathlib.Algebra.Group.Basic
import Mathlib.Tactic.Common

namespace SquareMultiply

/-!
# Square and multiply

The loop that computes a power from the bits of the exponent, lowest first.  Its
multiplication may fail.  Where it does not, on the elements that the loop can
reach, the loop computes the power of what the elements stand for in a monoid.
-/

variable {Element : Type*}

/-- The loop, with what it has multiplied so far and the current square. -/
def powLoop
    (multiply : Element → Element → Option Element)
    (result base : Element)
    (exponent : Nat) : Option Element :=
  if exponent = 0 then
    some result
  else do
    let next ← if exponent % 2 = 1 then multiply result base else some result
    let square ← multiply base base
    powLoop multiply next square (exponent / 2)
termination_by exponent

section Meaning

variable {M : Type*} [Monoid M]
variable {multiply : Element → Element → Option Element}
variable {Reduced : Element → Prop}
variable {meaning : Element → M}

/-- Multiplication succeeds on reduced elements and means multiplication. -/
def Multiplies
    (multiply : Element → Element → Option Element)
    (Reduced : Element → Prop)
    (meaning : Element → M) : Prop :=
  ∀ left right,
    Reduced left →
    Reduced right →
    ∃ product,
      multiply left right = some product ∧
        Reduced product ∧ meaning product = meaning left * meaning right

/-- An odd power is one factor and a power of the square. -/
theorem mul_mul_pow_half
    {exponent : Nat}
    (odd : exponent % 2 = 1)
    (result base : M) :
    result * base * (base * base) ^ (exponent / 2) = result * base ^ exponent := by
  have split : exponent = 2 * (exponent / 2) + 1 := by
    omega
  calc
    result * base * (base * base) ^ (exponent / 2)
      = result * (base * base ^ (2 * (exponent / 2))) := by
        rw [mul_assoc, pow_mul, pow_two]
    _ = result * base ^ exponent := by
        rw [← pow_succ', ← split]

/-- An even power is a power of the square. -/
theorem mul_pow_half
    {exponent : Nat}
    (even : ¬ exponent % 2 = 1)
    (result base : M) :
    result * (base * base) ^ (exponent / 2) = result * base ^ exponent := by
  have split : exponent = 2 * (exponent / 2) := by
    omega
  calc
    result * (base * base) ^ (exponent / 2)
      = result * base ^ (2 * (exponent / 2)) := by
        rw [pow_mul, pow_two]
    _ = result * base ^ exponent := by
        rw [← split]

/-- The loop keeps the product of the result and the power of the square. -/
theorem powLoop_eq_some
    (multiplies : Multiplies multiply Reduced meaning)
    {result base : Element}
    (resultReduced : Reduced result)
    (baseReduced : Reduced base)
    (exponent : Nat) :
    ∃ power,
      powLoop multiply result base exponent = some power ∧
        Reduced power ∧
        meaning power = meaning result * meaning base ^ exponent := by
  induction exponent using Nat.strongRecOn generalizing result base with
  | ind exponent inductionHypothesis =>
      rw [powLoop]
      by_cases done : exponent = 0
      · rw [if_pos done, done, pow_zero, mul_one]
        exact ⟨result, rfl, resultReduced, rfl⟩
      · have smaller : exponent / 2 < exponent :=
          Nat.div_lt_self (Nat.pos_of_ne_zero done) Nat.one_lt_two
        obtain ⟨square, squared, squareReduced, isSquare⟩ :=
          multiplies base base baseReduced baseReduced
        rw [if_neg done, squared]
        by_cases odd : exponent % 2 = 1
        · obtain ⟨next, multiplied, nextReduced, isNext⟩ :=
            multiplies result base resultReduced baseReduced
          obtain ⟨power, computed, powerReduced, isPower⟩ :=
            inductionHypothesis _ smaller nextReduced squareReduced
          rw [if_pos odd, multiplied]
          refine ⟨power, computed, powerReduced, ?_⟩
          rw [isPower, isNext, isSquare, mul_mul_pow_half odd]
        · obtain ⟨power, computed, powerReduced, isPower⟩ :=
            inductionHypothesis _ smaller resultReduced squareReduced
          rw [if_neg odd]
          refine ⟨power, computed, powerReduced, ?_⟩
          rw [isPower, isSquare, mul_pow_half odd]

end Meaning

end SquareMultiply
