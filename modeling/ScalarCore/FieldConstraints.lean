import Mathlib.Algebra.Ring.Commute
import Mathlib.Algebra.CharP.Defs
import Mathlib.Data.Nat.Bitwise
import Mathlib.Tactic.LinearCombination

namespace FieldConstraints

/-!
# Constraints over a ring

A row of an arithmetic circuit is accepted when every constraint vanishes on
it.  Ranges are proved bit by bit: each bit column is zero or one and the bits
recompose the value.

What such a range proof gives is a natural number below a power of two whose
cast is the value.  It says nothing about a value that has no bits.
-/

variable {F : Type*} [CommRing F]

/-- All constraints of a list are met. -/
def Vanish (constraints : List F) : Prop :=
  ∀ constraint ∈ constraints, constraint = 0

@[simp] theorem vanish_nil : Vanish ([] : List F) :=
  fun _ member => absurd member List.not_mem_nil

@[simp] theorem vanish_cons
    {constraint : F}
    {rest : List F} :
    Vanish (constraint :: rest) ↔ constraint = 0 ∧ Vanish rest :=
  List.forall_mem_cons

@[simp] theorem vanish_append
    {first second : List F} :
    Vanish (first ++ second) ↔ Vanish first ∧ Vanish second :=
  List.forall_mem_append

theorem vanish_flatMap
    {Index : Type*}
    {indices : List Index}
    {constraints : Index → List F} :
    Vanish (indices.flatMap constraints) ↔
      ∀ index ∈ indices, Vanish (constraints index) := by
  constructor
  · intro vanish index listed constraint member
    exact vanish constraint (List.mem_flatMap.mpr ⟨index, listed, member⟩)
  · intro vanish constraint member
    obtain ⟨index, listed, isMember⟩ := List.mem_flatMap.mp member
    exact vanish index listed constraint isMember

/-- The constraint of a bit column. -/
def bitConstraint (bit : F) : F :=
  bit * (bit - 1)

/-- Without zero divisors a bit column holds a bit. -/
theorem bitConstraint_eq_zero_iff
    [NoZeroDivisors F]
    {bit : F} :
    bitConstraint bit = 0 ↔ bit = 0 ∨ bit = 1 := by
  rw [bitConstraint, mul_eq_zero, sub_eq_zero]

/-- One round of the loop that recomposes a value: the sum and the power. -/
def accumulate (bit : Nat → F) (state : F × F) (index : Nat) : F × F :=
  (state.1 + bit index * state.2, state.2 * 2)

/-- The value of the first bits, least significant first. -/
def recompose (bit : Nat → F) (count : Nat) : F :=
  ((List.range count).foldl (accumulate bit) (0, 1)).1

/-- The constraints of a range proof for a value. -/
def rangeProof (bit : Nat → F) (count : Nat) (value : F) : List F :=
  (List.range count).map (fun index => bitConstraint (bit index)) ++
    [value - recompose bit count]

/-- After a number of rounds the power is that power of two. -/
theorem foldl_accumulate_snd
    (bit : Nat → F)
    (count : Nat) :
    ((List.range count).foldl (accumulate bit) (0, 1)).2 = 2 ^ count := by
  induction count with
  | zero =>
      simp
  | succ count inductionHypothesis =>
      rw [List.range_succ, List.foldl_append, List.foldl_cons,
        List.foldl_nil, accumulate, inductionHypothesis, pow_succ]

@[simp] theorem recompose_zero (bit : Nat → F) : recompose bit 0 = 0 :=
  rfl

theorem recompose_succ
    (bit : Nat → F)
    (count : Nat) :
    recompose bit (count + 1) =
      recompose bit count + bit count * 2 ^ count := by
  rw [recompose, List.range_succ, List.foldl_append, List.foldl_cons,
    List.foldl_nil, accumulate, foldl_accumulate_snd]
  rfl

/-- Only the bits in range are read. -/
theorem rangeProof_congr
    {bit bit' : Nat → F}
    {count : Nat}
    (same : ∀ index < count, bit index = bit' index)
    (value : F) :
    rangeProof bit count value = rangeProof bit' count value := by
  have sameSum : recompose bit count = recompose bit' count := by
    induction count with
    | zero =>
        rfl
    | succ count inductionHypothesis =>
        have before :=
          inductionHypothesis fun index inRange =>
            same index (Nat.lt_succ_of_lt inRange)
        rw [recompose_succ, recompose_succ, before,
          same count (Nat.lt_succ_self count)]
  have sameBits :
      (List.range count).map (fun index => bitConstraint (bit index)) =
        (List.range count).map fun index => bitConstraint (bit' index) :=
    List.map_congr_left fun index listed => by
      rw [same index (List.mem_range.mp listed)]
  rw [rangeProof, rangeProof, sameBits, sameSum]

/-- Bits recompose a number below the power of two. -/
theorem exists_lt_recompose
    {bit : Nat → F}
    {count : Nat}
    (bits : ∀ index < count, bit index = 0 ∨ bit index = 1) :
    ∃ value : Nat,
      value < 2 ^ count ∧ recompose bit count = (value : F) := by
  induction count with
  | zero =>
      exact ⟨0, Nat.one_pos, Nat.cast_zero.symm⟩
  | succ count inductionHypothesis =>
      obtain ⟨value, below, isValue⟩ :=
        inductionHypothesis fun index inRange =>
          bits index (Nat.lt_succ_of_lt inRange)
      rw [recompose_succ, isValue]
      rcases bits count (Nat.lt_succ_self count) with isZero | isOne
      · refine ⟨value, ?_, by rw [isZero, zero_mul, add_zero]⟩
        exact below.trans (Nat.pow_lt_pow_right (by decide) (Nat.lt_succ_self _))
      · refine ⟨value + 2 ^ count, ?_, ?_⟩
        · rw [pow_succ, mul_two]
          exact Nat.add_lt_add_right below _
        · rw [isOne, one_mul, Nat.cast_add, Nat.cast_pow, Nat.cast_ofNat]

/-- The bit column of a number. -/
def bitOf (value index : Nat) : F :=
  if value.testBit index then 1 else 0

/-- The bits of a number recompose its remainder. -/
theorem recompose_bitOf
    (value count : Nat) :
    recompose (bitOf value) count = ((value % 2 ^ count : Nat) : F) := by
  induction count with
  | zero =>
      simp [Nat.mod_one]
  | succ count inductionHypothesis =>
      rw [recompose_succ, inductionHypothesis, Nat.mod_pow_succ, bitOf]
      have digit : value / 2 ^ count % 2 = (value.testBit count).toNat :=
        (Nat.toNat_testBit value count).symm
      rw [digit]
      cases value.testBit count with
      | false =>
          simp
      | true =>
          simp

/-- What a range proof proves. -/
theorem exists_lt_of_rangeProof
    [NoZeroDivisors F]
    {bit : Nat → F}
    {count : Nat}
    {value : F}
    (vanish : Vanish (rangeProof bit count value)) :
    ∃ number : Nat, number < 2 ^ count ∧ value = (number : F) := by
  rw [rangeProof, vanish_append] at vanish
  have bits : ∀ index < count, bit index = 0 ∨ bit index = 1 := by
    intro index inRange
    apply bitConstraint_eq_zero_iff.mp
    apply vanish.1
    exact List.mem_map.mpr ⟨index, List.mem_range.mpr inRange, rfl⟩
  obtain ⟨number, below, isNumber⟩ := exists_lt_recompose bits
  have isSum : value - recompose bit count = 0 :=
    vanish.2 _ (List.mem_singleton.mpr rfl)
  exact ⟨number, below, by rw [sub_eq_zero.mp isSum, isNumber]⟩

/-- The bits of a number are a range proof for its remainder, and no more. -/
theorem vanish_rangeProof_iff
    {bit : Nat → F}
    {number count : Nat}
    {value : F}
    (bits : ∀ index < count, bit index = bitOf number index) :
    Vanish (rangeProof bit count value) ↔
      value = ((number % 2 ^ count : Nat) : F) := by
  have allBits :
      Vanish
        ((List.range count).map fun index =>
          bitConstraint (bitOf number index : F)) := by
    intro constraint member
    obtain ⟨index, _, rfl⟩ := List.mem_map.mp member
    unfold bitConstraint bitOf
    cases number.testBit index with
    | false =>
        simp
    | true =>
        simp
  rw [rangeProof_congr bits, rangeProof, vanish_append, vanish_cons,
    recompose_bitOf, sub_eq_zero]
  exact ⟨fun vanish => vanish.2.1, fun isValue => ⟨allBits, isValue, vanish_nil⟩⟩

/-- The bits of a number below the power of two are a range proof. -/
theorem vanish_rangeProof
    {bit : Nat → F}
    {number count : Nat}
    (below : number < 2 ^ count)
    (bits : ∀ index < count, bit index = bitOf number index) :
    Vanish (rangeProof bit count (number : F)) := by
  rw [vanish_rangeProof_iff bits, Nat.mod_eq_of_lt below]

end FieldConstraints
