import ScalarCore.MachineInt
import Mathlib.Logic.Function.Basic

namespace CounterNumbering

/-!
# Keys numbered by a counter

A machine counter gives its value to a key and moves on.  As long as it does not
wrap, the numbers in use are different and below it.
-/

open MachineInt

variable {Key : Type*} {numberOf : Key → Option UInt64} {counter : UInt64}

/-- The numbers of the keys are different, and below the counter. -/
structure Numbered (numberOf : Key → Option UInt64) (counter : UInt64) :
    Prop where
  below :
    ∀ key number, numberOf key = some number → number.toNat < counter.toNat
  injective :
    ∀ key key' number,
      numberOf key = some number → numberOf key' = some number → key = key'

/-- Before the first number there is none. -/
theorem numbered_none (counter : UInt64) :
    Numbered (fun _ : Key => none) counter where
  below _ _ isNumber := absurd isNumber (Option.some_ne_none _).symm
  injective _ _ _ isNumber _ := absurd isNumber (Option.some_ne_none _).symm

/-- Numbers may be taken away. -/
theorem Numbered.restrict
    {numberOf' : Key → Option UInt64}
    (numbered : Numbered numberOf counter)
    (fewer :
      ∀ key number, numberOf' key = some number → numberOf key = some number) :
    Numbered numberOf' counter where
  below key number isNumber :=
    numbered.below key number (fewer key number isNumber)
  injective key key' number isNumber isNumber' :=
    numbered.injective key key' number (fewer key number isNumber)
      (fewer key' number isNumber')

/-- A key that has a number, or the counter as a number, is the only one. -/
theorem Numbered.eq_of_isNumber
    (numbered : Numbered numberOf counter)
    {key other : Key}
    {number : UInt64}
    (assigned : number = counter ∨ numberOf key = some number)
    (isNumber : numberOf other = some number) :
    other = key := by
  rcases assigned with rfl | isOld
  · exact absurd (numbered.below other number isNumber) (lt_irrefl _)
  · exact numbered.injective other key number isNumber isOld

/-- A key takes the value of the counter, or keeps the number it has. -/
theorem Numbered.assign
    [DecidableEq Key]
    (numbered : Numbered numberOf counter)
    (counts : counter.toNat < maxU64)
    {key : Key}
    {number : UInt64}
    (assigned : number = counter ∨ numberOf key = some number) :
    Numbered (Function.update numberOf key (some number)) (counter + 1) := by
  refine ⟨fun other found isNumber => ?_, ?_⟩
  · rw [toNat_add_one counts, Nat.lt_succ_iff]
    by_cases same : other = key
    · subst same
      rw [Function.update_self, Option.some_inj] at isNumber
      subst isNumber
      rcases assigned with rfl | isOld
      · exact le_rfl
      · exact (numbered.below other number isOld).le
    · rw [Function.update_of_ne same] at isNumber
      exact (numbered.below other found isNumber).le
  · intro other other' found isNumber isNumber'
    by_cases same : other = key <;> by_cases same' : other' = key
    · exact same.trans same'.symm
    · subst same
      rw [Function.update_self] at isNumber
      rw [Function.update_of_ne same', ← isNumber] at isNumber'
      exact (numbered.eq_of_isNumber assigned isNumber').symm
    · subst same'
      rw [Function.update_self] at isNumber'
      rw [Function.update_of_ne same, ← isNumber'] at isNumber
      exact numbered.eq_of_isNumber assigned isNumber
    · rw [Function.update_of_ne same] at isNumber
      rw [Function.update_of_ne same'] at isNumber'
      exact numbered.injective other other' found isNumber isNumber'

end CounterNumbering
