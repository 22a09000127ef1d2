import Mathlib.Algebra.BigOperators.Intervals
import Mathlib.Algebra.Module.BigOperators
import Mathlib.GroupTheory.OrderOfElement
import Mathlib.Tactic.LinearCombination
import Mathlib.Tactic.Module
import ScalarCore.PolynomialFold

namespace ButterflyNetwork

/-!
# Butterfly networks

A stage takes the values at two places a power of two apart to their sum and their
difference, after the second one is multiplied by a power of a weight.  The network
joins pairs, pairs of pairs and so on, with one weight in all its stages.

The outputs of a block of places are read as the coefficients of a polynomial.  Its
values follow from those of the two halves of the block, without the outputs.
-/

open PolynomialFold
open scoped BigOperators

variable {F V : Type*}
  [Field F] [AddCommGroup V] [Module F V]

/-!
## One stage
-/

/-- The lower place of the pair of a place. -/
def pairBase (span k : Nat) : Nat :=
  if k / span % 2 = 0 then k else k - span

/-- The butterfly of the pair at `i` and `i + span`. -/
def butterflyAt
    (weight : F)
    (span i : Nat)
    (values : Nat → V) : Nat → V :=
  Function.update
    (Function.update values i (values i + weight • values (i + span)))
    (i + span) (values i - weight • values (i + span))

/-- The butterflies of all pairs; the weight has the place in its half as exponent. -/
def stage
    (weight : F)
    (span : Nat)
    (values : Nat → V)
    (k : Nat) : V :=
  if k / span % 2 = 0 then
    values k + weight ^ (k % span) • values (k + span)
  else
    values (k - span) - weight ^ (k % span) • values k

/-- The sum at the lower place. -/
theorem stage_lower
    {span i : Nat}
    (lower : i / span % 2 = 0)
    (weight : F)
    (values : Nat → V) :
    stage weight span values i =
      values i + weight ^ (i % span) • values (i + span) := by
  rw [stage, if_pos lower]

section Pairs

variable {span : Nat}
  (positive : 0 < span)

include positive

theorem add_span_div (i : Nat) : (i + span) / span = i / span + 1 :=
  Nat.add_div_right i positive

/-- Every place is in a pair. -/
theorem exists_pair (k : Nat) :
    ∃ i, i / span % 2 = 0 ∧ (k = i ∨ k = i + span) := by
  by_cases isLower : k / span % 2 = 0
  · exact ⟨k, isLower, .inl rfl⟩
  · have fits : span ≤ k := by
      by_contra below
      rw [Nat.div_eq_of_lt (Nat.lt_of_not_le below)] at isLower
      exact isLower rfl
    have above := add_span_div positive (k - span)
    rw [Nat.sub_add_cancel fits] at above
    exact ⟨k - span, by omega, .inr (Nat.sub_add_cancel fits).symm⟩

section Pair

variable {i : Nat}
  (lower : i / span % 2 = 0)
  (weight : F)
  (values : Nat → V)

include lower

/-- A pair is its lower place and the place `span` above. -/
theorem pairBase_eq_iff (k : Nat) :
    pairBase span k = i ↔ k = i ∨ k = i + span := by
  have above := add_span_div positive i
  rcases exists_pair positive k with ⟨base, isLower, rfl | rfl⟩
  · rw [pairBase, if_pos isLower]
    constructor
    · exact .inl
    · rintro (same | upper)
      · exact same
      · rw [upper] at isLower
        omega
  · have upper := add_span_div positive base
    rw [pairBase, if_neg (by omega), Nat.add_sub_cancel]
    constructor
    · rintro rfl
      exact .inr rfl
    · rintro (same | same)
      · rw [same] at upper
        omega
      · exact Nat.add_right_cancel same

/-- The difference at the upper one. -/
theorem stage_upper :
    stage weight span values (i + span) =
      values i - weight ^ (i % span) • values (i + span) := by
  have above := add_span_div positive i
  rw [stage, if_neg (by omega), Nat.add_sub_cancel, Nat.add_mod_right]

/-- A butterfly answers at its two places what the stage does. -/
theorem butterflyAt_of_pair
    {k : Nat}
    (isPair : pairBase span k = i) :
    butterflyAt (weight ^ (i % span)) span i values k =
      stage weight span values k := by
  rcases (pairBase_eq_iff positive lower k).mp isPair with rfl | rfl
  · rw [butterflyAt, Function.update_of_ne (by omega), Function.update_self,
      stage_lower lower]
  · rw [butterflyAt, Function.update_self, stage_upper positive lower]

/-- Other places are left alone. -/
theorem butterflyAt_of_ne
    {k : Nat}
    (other : pairBase span k ≠ i) :
    butterflyAt weight span i values k = values k := by
  have places := mt (pairBase_eq_iff positive lower k).mpr other
  rw [not_or] at places
  rw [butterflyAt, Function.update_of_ne places.2,
    Function.update_of_ne places.1]

/-- So the stage answers at other places what it did before. -/
theorem stage_butterflyAt
    (weight' : F)
    {k : Nat}
    (other : pairBase span k ≠ i) :
    stage weight' span (butterflyAt weight span i values) k =
      stage weight' span values k := by
  rcases exists_pair positive k with ⟨base, isLower, isPlace⟩
  have isBase := (pairBase_eq_iff positive isLower k).mpr isPlace
  have kept {place : Nat} (isPlace : place = base ∨ place = base + span) :
      butterflyAt weight span i values place = values place := by
    apply butterflyAt_of_ne positive lower
    rwa [(pairBase_eq_iff positive isLower place).mpr isPlace, ← isBase]
  rcases isPlace with rfl | rfl
  · rw [stage_lower isLower, stage_lower isLower,
      kept (.inl rfl), kept (.inr rfl)]
  · rw [stage_upper positive isLower, stage_upper positive isLower,
      kept (.inl rfl), kept (.inr rfl)]

end Pair

/-- Butterflies at different pairs, in any order, are those of the stage. -/
theorem foldl_butterflyAt
    (weight : F)
    {bases : List Nat}
    (lower : ∀ i ∈ bases, i / span % 2 = 0)
    (nodup : bases.Nodup)
    (values : Nat → V)
    (k : Nat) :
    bases.foldl
        (fun values i => butterflyAt (weight ^ (i % span)) span i values)
        values k =
      if pairBase span k ∈ bases then
        stage weight span values k
      else
        values k := by
  induction bases generalizing values with
  | nil =>
      rfl
  | cons i rest inductionHypothesis =>
      rw [List.forall_mem_cons] at lower
      rw [List.nodup_cons] at nodup
      rw [List.foldl_cons, inductionHypothesis lower.2 nodup.2]
      by_cases isPair : pairBase span k = i
      · rw [if_neg (isPair ▸ nodup.1), if_pos (isPair ▸ List.mem_cons_self),
          butterflyAt_of_pair positive lower.1 weight values isPair]
      · rw [stage_butterflyAt positive lower.1 _ values weight isPair,
          butterflyAt_of_ne positive lower.1 _ values isPair]
        simp only [List.mem_cons, isPair, false_or]

end Pairs

/-!
## All stages
-/

/-- A polynomial is evaluated as a sum over its coefficients. -/
theorem evalAt_map_range (coeff : Nat → V) (count : Nat) (x : F) :
    evalAt ((List.range count).map coeff) x =
      ∑ k ∈ Finset.range count, x ^ k • coeff k := by
  induction count generalizing coeff with
  | zero =>
      rfl
  | succ count inductionHypothesis =>
      rw [List.range_succ_eq_map, List.map_cons, List.map_map, evalAt_cons,
        inductionHypothesis, Finset.sum_range_succ', Finset.smul_sum, pow_zero,
        one_smul, add_comm]
      simp only [Function.comp_apply, pow_succ', mul_smul]

/-- The stages that join blocks of `2 ^ log` places. -/
def network (weight : F) : Nat → (Nat → V) → Nat → V
  | 0, values => values
  | log + 1, values => stage weight (2 ^ log) (network weight log values)

/-- The outputs of a block of `2 ^ log` places as coefficients, evaluated at `x`. -/
def blockValue
    (weight : F)
    (values : Nat → V)
    (log block : Nat)
    (x : F) : V :=
  ∑ k ∈ Finset.range (2 ^ log),
    x ^ k • network weight log values (block * 2 ^ log + k)

/-- The outputs of the whole network are those of its first block. -/
theorem evalAt_network
    (weight : F)
    (values : Nat → V)
    (log : Nat)
    (x : F) :
    evalAt ((List.range (2 ^ log)).map (network weight log values)) x =
      blockValue weight values log 0 x := by
  rw [evalAt_map_range, blockValue]
  simp only [Nat.zero_mul, Nat.zero_add]

section Blocks

variable (weight : F)
  (values : Nat → V)
  (log block : Nat)
  (x : F)

theorem blockValue_zero :
    blockValue weight values 0 block x = values block := by
  simp [blockValue, network]

section Half

variable {log block}
variable {k : Nat}
  (inHalf : k < 2 ^ log)

include inHalf

/-- The even blocks are the lower places of the stage that joins them. -/
theorem lower_place : (2 * block * 2 ^ log + k) / 2 ^ log % 2 = 0 := by
  rw [Nat.mul_comm, Nat.mul_add_div (Nat.two_pow_pos log),
    Nat.div_eq_of_lt inHalf, Nat.add_zero, Nat.mul_mod_right]

theorem lower_place_mod : (2 * block * 2 ^ log + k) % 2 ^ log = k := by
  rw [Nat.mul_comm, Nat.mul_add_mod, Nat.mod_eq_of_lt inHalf]

/-- What a stage answers at a place of the lower half of a block. -/
theorem network_succ_lower :
    network weight (log + 1) values (block * 2 ^ (log + 1) + k) =
      network weight log values (2 * block * 2 ^ log + k) +
        weight ^ k •
          network weight log values ((2 * block + 1) * 2 ^ log + k) := by
  have place : block * 2 ^ (log + 1) + k = 2 * block * 2 ^ log + k := by ring
  have upper :
      2 * block * 2 ^ log + k + 2 ^ log = (2 * block + 1) * 2 ^ log + k := by
    ring
  rw [place, network, stage_lower (lower_place inHalf),
    lower_place_mod inHalf, upper]

/-- What it answers in the upper half. -/
theorem network_succ_upper :
    network weight (log + 1) values (block * 2 ^ (log + 1) + (2 ^ log + k)) =
      network weight log values (2 * block * 2 ^ log + k) -
        weight ^ k •
          network weight log values ((2 * block + 1) * 2 ^ log + k) := by
  have place :
      block * 2 ^ (log + 1) + (2 ^ log + k) =
        2 * block * 2 ^ log + k + 2 ^ log := by
    ring
  have upper :
      2 * block * 2 ^ log + k + 2 ^ log = (2 * block + 1) * 2 ^ log + k := by
    ring
  rw [place, network,
    stage_upper (Nat.two_pow_pos log) (lower_place inHalf),
    lower_place_mod inHalf, upper]

end Half

/--
The value of a block from those of its halves.  The weight of the stage moves the
point at which the upper half is evaluated.
-/
theorem blockValue_succ :
    blockValue weight values (log + 1) block x =
      (1 + x ^ 2 ^ log) • blockValue weight values log (2 * block) x +
        (1 - x ^ 2 ^ log) •
          blockValue weight values log (2 * block + 1) (weight * x) := by
  have double : 2 ^ (log + 1) = 2 ^ log + 2 ^ log := by ring
  rw [blockValue, double, Finset.sum_range_add, ← Finset.sum_add_distrib,
    blockValue, blockValue, Finset.smul_sum, Finset.smul_sum,
    ← Finset.sum_add_distrib]
  apply Finset.sum_congr rfl
  intro k listed
  have inHalf := Finset.mem_range.mp listed
  rw [← double, network_succ_lower weight values inHalf,
    network_succ_upper weight values inHalf, mul_pow, pow_add]
  module

/-- Two values are joined by one butterfly. -/
theorem blockValue_pair :
    blockValue weight values 1 block x =
      (1 + x) • values (2 * block) + (1 - x) • values (2 * block + 1) := by
  have joined := blockValue_succ weight values 0 block x
  rwa [pow_zero, pow_one, blockValue_zero, blockValue_zero] at joined

/-- Of equal values every block is a constant. -/
theorem blockValue_of_equal
    {value : V}
    (equal : ∀ k < 2 ^ log, values (block * 2 ^ log + k) = value) :
    blockValue weight values log block x = (2 ^ log : F) • value := by
  induction log generalizing block x with
  | zero =>
      have only := equal 0 Nat.one_pos
      rw [pow_zero, Nat.mul_one, Nat.add_zero] at only
      rw [blockValue_zero, only, pow_zero, one_smul]
  | succ log inductionHypothesis =>
      have double : 2 ^ (log + 1) = 2 ^ log + 2 ^ log := by ring
      have lower (k : Nat) (inHalf : k < 2 ^ log) :
          values (2 * block * 2 ^ log + k) = value := by
        rw [← equal k (by omega)]
        congr 1
        ring
      have upper (k : Nat) (inHalf : k < 2 ^ log) :
          values ((2 * block + 1) * 2 ^ log + k) = value := by
        rw [← equal (2 ^ log + k) (by omega)]
        congr 1
        ring
      rw [blockValue_succ, inductionHypothesis _ _ lower,
        inductionHypothesis _ _ upper]
      module

/-- At a point whose power is one only the first blocks count. -/
theorem blockValue_of_pow_eq_one
    (isOne : x ^ 2 ^ log = 1)
    (stages : Nat) :
    blockValue weight values (log + stages) block x =
      (2 ^ stages : F) •
        blockValue weight values log (block * 2 ^ stages) x := by
  induction stages generalizing block with
  | zero =>
      rw [pow_zero, one_smul, pow_zero, Nat.mul_one, Nat.add_zero]
  | succ stages inductionHypothesis =>
      have power : x ^ 2 ^ (log + stages) = 1 := by
        rw [pow_add, pow_mul, isOne, one_pow]
      have first : 2 * block * 2 ^ stages = block * 2 ^ (stages + 1) := by ring
      rw [← Nat.add_assoc, blockValue_succ, power, inductionHypothesis, first]
      module

/-- Where a power is minus one, the upper block of that stage is what counts. -/
theorem blockValue_of_pow_eq_neg_one
    (isNegOne : x ^ 2 ^ log = -1)
    (stages : Nat) :
    blockValue weight values (log + 1 + stages) block x =
      (2 ^ (stages + 1) : F) •
        blockValue weight values log (block * 2 ^ (stages + 1) + 1)
          (weight * x) := by
  have isOne : x ^ 2 ^ (log + 1) = 1 := by
    rw [pow_succ, pow_mul, isNegOne, neg_one_sq]
  have upper :
      2 * (block * 2 ^ stages) + 1 = block * 2 ^ (stages + 1) + 1 := by
    ring
  rw [blockValue_of_pow_eq_one _ _ _ _ _ isOne, blockValue_succ, isNegOne,
    upper]
  module

/-- At one the first value of a block remains. -/
theorem blockValue_one :
    blockValue weight values log block 1 =
      (2 ^ log : F) • values (block * 2 ^ log) := by
  have all :=
    blockValue_of_pow_eq_one weight values 0 block 1 (one_pow _) log
  rwa [Nat.zero_add, blockValue_zero] at all

end Blocks

/-- A root of unity of order `2 ^ log` is one, or a power of it is minus one. -/
theorem exists_pow_eq_neg_one
    {x : F}
    {log : Nat}
    (isRoot : x ^ 2 ^ log = 1)
    (notOne : x ≠ 1) :
    ∃ stages, stages < log ∧ x ^ 2 ^ stages = -1 := by
  induction log with
  | zero =>
      rw [pow_zero, pow_one] at isRoot
      exact absurd isRoot notOne
  | succ log inductionHypothesis =>
      rw [pow_succ, pow_mul] at isRoot
      rcases sq_eq_one_iff.mp isRoot with isOne | isNegOne
      · rcases inductionHypothesis isOne with ⟨stages, fewer, isNegOne⟩
        exact ⟨stages, Nat.lt_succ_of_lt fewer, isNegOne⟩
      · exact ⟨log, Nat.lt_succ_self log, isNegOne⟩

/-!
## Values at the roots of unity

The network is fed the values of a function at the powers of a root of unity, in
their order, and its weight is the inverse of the root.
-/

/-- One, the root and their opposites. -/
def Exceptional (root x : F) : Prop :=
  x ^ 2 = 1 ∨ x ^ 2 = root ^ 2

/-- One value at all roots of unity of order `2 ^ log` that are not exceptional. -/
def EqualElsewhere (root : F) (log : Nat) (f : F → V) : Prop :=
  ∀ x y,
    x ^ 2 ^ log = 1 →
    y ^ 2 ^ log = 1 →
    ¬Exceptional root x →
    ¬Exceptional root y →
    f x = f y

section Roots

variable {root : F}
  {log : Nat}
  (isRoot : root ^ 2 ^ log = -1)

include isRoot

theorem root_ne_zero : root ≠ 0 := by
  rintro rfl
  rw [zero_pow (Nat.two_pow_pos log).ne'] at isRoot
  exact neg_ne_zero.mpr one_ne_zero isRoot.symm

omit isRoot in
theorem neg_one_ne_one (two : (2 : F) ≠ 0) : (-1 : F) ≠ 1 := by
  intro same
  apply two
  linear_combination -same

theorem root_pow_order : root ^ 2 ^ (log + 1) = 1 := by
  rw [pow_succ, pow_mul, isRoot, neg_one_sq]

/-- At the root itself the value at minus one comes out. -/
theorem blockValue_root (f : F → V) :
    blockValue root⁻¹ (fun i => f (root ^ i)) (log + 1) 0 root =
      (2 ^ (log + 1) : F) • f (-1) := by
  have descent :=
    blockValue_of_pow_eq_neg_one root⁻¹ (fun i => f (root ^ i)) log 0 root
      isRoot 0
  rw [Nat.add_zero, Nat.zero_mul, Nat.zero_add,
    inv_mul_cancel₀ (root_ne_zero isRoot), blockValue_one, Nat.one_mul, isRoot,
    smul_smul] at descent
  rw [descent]
  congr 1
  ring

section Ordinary

variable (two : (2 : F) ≠ 0)

include two

/-- The square of the root has half its order. -/
theorem orderOf_root_sq : orderOf (root ^ 2) = 2 ^ log := by
  cases log with
  | zero =>
      rw [pow_zero, pow_one] at isRoot
      rw [isRoot, neg_one_sq, orderOf_one, pow_zero]
  | succ log =>
      apply orderOf_eq_prime_pow
      · rw [← pow_mul, ← pow_succ', isRoot]
        exact neg_one_ne_one two
      · rw [← pow_mul, ← pow_succ', root_pow_order isRoot]

/-- The powers of the root below its order are different. -/
theorem root_pow_injective
    {i i' : Nat}
    (listed : i < 2 ^ (log + 1))
    (listed' : i' < 2 ^ (log + 1))
    (same : root ^ i = root ^ i') :
    i = i' := by
  have order : orderOf root = 2 ^ (log + 1) := by
    apply orderOf_eq_prime_pow
    · rw [isRoot]
      exact neg_one_ne_one two
    · exact root_pow_order isRoot
  rw [← order] at listed listed'
  exact pow_injOn_Iio_orderOf listed listed' same

theorem nodup_root_powers :
    ((List.range (2 ^ (log + 1))).map (root ^ ·)).Nodup :=
  List.nodup_range.map_on fun _ listed _ listed' same =>
    root_pow_injective isRoot two (List.mem_range.mp listed)
      (List.mem_range.mp listed') same

/-- The powers of the root that are exceptional are the first two of each half. -/
theorem not_exceptional_root_pow
    {i : Nat}
    (place : 2 ≤ i % 2 ^ log) :
    ¬Exceptional root (root ^ i) := by
  have order := orderOf_root_sq isRoot two
  have square : (root ^ i) ^ 2 = (root ^ 2) ^ i := by
    rw [← pow_mul, ← pow_mul, Nat.mul_comm]
  rintro (isOne | isRootSq)
  · rw [square] at isOne
    have divides := orderOf_dvd_of_pow_eq_one isOne
    rw [order] at divides
    have none := Nat.mod_eq_zero_of_dvd divides
    omega
  · have notZero : i ≠ 0 := by
      rintro rfl
      rw [Nat.zero_mod] at place
      omega
    rcases Nat.exists_eq_succ_of_ne_zero notZero with ⟨before, rfl⟩
    rw [square, pow_succ] at isRootSq
    have isOne :=
      (mul_eq_right₀ (pow_ne_zero 2 (root_ne_zero isRoot))).mp isRootSq
    have divides := orderOf_dvd_of_pow_eq_one isOne
    rw [order] at divides
    have none := Nat.mod_eq_zero_of_dvd divides
    rw [Nat.succ_eq_add_one, Nat.add_mod, none, Nat.zero_add,
      Nat.mod_mod] at place
    have atMostOne := Nat.mod_le 1 (2 ^ log)
    omega

/-- A point whose power is minus one early on is not exceptional. -/
theorem not_exceptional_of_pow
    {x : F}
    {stages : Nat}
    (fewer : stages + 1 < log)
    (isNegOne : x ^ 2 ^ (stages + 1) = -1) :
    ¬Exceptional root x := by
  rw [pow_succ', pow_mul] at isNegOne
  rintro (isOne | isRootSq)
  · rw [isOne, one_pow] at isNegOne
    exact neg_one_ne_one two isNegOne.symm
  · rw [isRootSq, ← pow_mul, ← pow_succ'] at isNegOne
    rcases Nat.exists_eq_add_of_lt fewer with ⟨more, rfl⟩
    rw [Nat.add_assoc, pow_add, pow_mul, isNegOne, pow_succ', pow_mul,
      neg_one_sq, one_pow] at isRoot
    exact neg_one_ne_one two isRoot.symm

/-- Nor is one whose quotient by the root is such a point. -/
theorem not_exceptional_of_late
    {x : F}
    {stages : Nat}
    (fewer : stages + 1 < log)
    (isNegOne : x ^ 2 ^ log = -1)
    (isUpper : (root⁻¹ * x) ^ 2 ^ (stages + 1) = -1) :
    ¬Exceptional root x := by
  rintro (isOne | isRootSq)
  · rcases Nat.exists_eq_add_of_lt fewer with ⟨more, rfl⟩
    rw [pow_succ', pow_mul, isOne, one_pow] at isNegOne
    exact neg_one_ne_one two isNegOne.symm
  · rw [pow_succ', pow_mul, mul_pow, inv_pow, isRootSq,
      inv_mul_cancel₀ (pow_ne_zero 2 (root_ne_zero isRoot)), one_pow] at isUpper
    exact neg_one_ne_one two isUpper.symm

omit two [AddCommGroup V] [Module F V] in
/-- Up to order four there are no other roots of unity. -/
theorem equalElsewhere_of_le
    (small : log ≤ 1)
    (f : F → V) :
    EqualElsewhere root (log + 1) f := by
  intro x y ofUnity ofUnity' ordinary ordinary'
  apply absurd _ ordinary
  rcases Nat.le_one_iff_eq_zero_or_eq_one.mp small with rfl | rfl
  · exact .inl ofUnity
  · have square : (x ^ 2) ^ 2 = 1 :=
      (pow_mul x 2 2).symm.trans ofUnity
    rcases sq_eq_one_iff.mp square with isOne | isNegOne
    · exact .inl isOne
    · exact .inr (isNegOne.trans isRoot.symm)

variable {f : F → V}
  (swapped : f root = f (-1))
  (equal : EqualElsewhere root (log + 1) f)

include equal

/-- Blocks without exceptional places are constant. -/
theorem blockValue_elsewhere
    {x : F}
    (ofUnity : x ^ 2 ^ (log + 1) = 1)
    (ordinary : ¬Exceptional root x)
    {stages block : Nat}
    (places : ∀ k < 2 ^ stages, 2 ≤ (block * 2 ^ stages + k) % 2 ^ log)
    (z : F) :
    blockValue root⁻¹ (fun i => f (root ^ i)) stages block z =
      (2 ^ stages : F) • f x := by
  apply blockValue_of_equal
  intro k inBlock
  apply equal _ _ _ ofUnity _ ordinary
  · rw [pow_right_comm, root_pow_order isRoot, one_pow]
  · exact not_exceptional_root_pow isRoot two (places k inBlock)

/-- The block in the upper half, where a power is minus one in the last stage. -/
theorem blockValue_beside_late
    {x : F}
    (isNegOne : x ^ 2 ^ log = -1)
    {stages more : Nat}
    (isLog : log = stages + more + 1)
    (isUpper : (root⁻¹ * x) ^ 2 ^ stages = -1) :
    blockValue root⁻¹ (fun i => f (root ^ i)) stages
        (1 * 2 ^ (more + 1) + 1) (root⁻¹ * (root⁻¹ * x)) =
      (2 ^ stages : F) • f x := by
  have nonzero := root_ne_zero isRoot
  have fewer : stages < log := by omega
  cases stages with
  | zero =>
      rw [Nat.zero_add] at isLog
      rw [pow_zero, pow_one, inv_mul_eq_iff_eq_mul₀ nonzero] at isUpper
      rw [blockValue_zero, Nat.one_mul, ← isLog, pow_succ, isRoot,
        neg_one_mul, isUpper, mul_neg_one, pow_zero, one_smul]
  | succ stages =>
      apply
        blockValue_elsewhere isRoot two equal
          (by rw [pow_succ, pow_mul, isNegOne, neg_one_sq])
          (not_exceptional_of_late isRoot two fewer isNegOne isUpper)
      intro k inBlock
      have double := Nat.pow_le_pow_right Nat.two_pos fewer
      have two := Nat.pow_le_pow_right Nat.two_pos (Nat.succ_pos stages)
      have place :
          (1 * 2 ^ (more + 1) + 1) * 2 ^ (stages + 1) + k =
            2 ^ log + (2 ^ (stages + 1) + k) := by
        rw [isLog]
        ring
      rw [pow_succ 2 (stages + 1)] at double
      rw [place, Nat.add_mod_left, Nat.mod_eq_of_lt (by omega)]
      omega

include swapped

/-- The block beside the first one, where a power is minus one before the last stage. -/
theorem blockValue_beside_early
    {x : F}
    (ofUnity : x ^ 2 ^ (log + 1) = 1)
    {stages : Nat}
    (fewer : stages < log)
    (isNegOne : x ^ 2 ^ stages = -1) :
    blockValue root⁻¹ (fun i => f (root ^ i)) stages 1 (root⁻¹ * x) =
      (2 ^ stages : F) • f x := by
  cases stages with
  | zero =>
      rw [pow_zero, pow_one] at isNegOne
      rw [blockValue_zero, pow_one, swapped, isNegOne, pow_zero, one_smul]
  | succ stages =>
      apply
        blockValue_elsewhere isRoot two equal ofUnity
          (not_exceptional_of_pow isRoot two fewer isNegOne)
      intro k inBlock
      have double := Nat.pow_le_pow_right Nat.two_pos fewer
      have two := Nat.pow_le_pow_right Nat.two_pos (Nat.succ_pos stages)
      rw [pow_succ 2 (stages + 1)] at double
      rw [Nat.one_mul, Nat.mod_eq_of_lt (by omega)]
      omega

/-- The value comes out where a power is minus one before the last stage. -/
theorem blockValue_early
    {x : F}
    (ofUnity : x ^ 2 ^ (log + 1) = 1)
    {stages : Nat}
    (fewer : stages < log)
    (isNegOne : x ^ 2 ^ stages = -1) :
    blockValue root⁻¹ (fun i => f (root ^ i)) (log + 1) 0 x =
      (2 ^ (log + 1) : F) • f x := by
  rcases Nat.exists_eq_add_of_lt fewer with ⟨more, isLog⟩
  have descent :=
    blockValue_of_pow_eq_neg_one root⁻¹ (fun i => f (root ^ i)) stages 0 x
      isNegOne (more + 1)
  have all : stages + 1 + (more + 1) = log + 1 := by omega
  have upper :=
    blockValue_beside_early isRoot two swapped equal ofUnity fewer isNegOne
  rw [all, Nat.zero_mul, Nat.zero_add, upper, smul_smul, ← pow_add] at descent
  rw [descent, ← all]
  congr 2
  ring

/-- And where it is minus one in the last one. -/
theorem blockValue_late
    {x : F}
    (isNegOne : x ^ 2 ^ log = -1) :
    blockValue root⁻¹ (fun i => f (root ^ i)) (log + 1) 0 x =
      (2 ^ (log + 1) : F) • f x := by
  have nonzero := root_ne_zero isRoot
  have descent :=
    blockValue_of_pow_eq_neg_one root⁻¹ (fun i => f (root ^ i)) log 0 x
      isNegOne 0
  have ofUnity : (root⁻¹ * x) ^ 2 ^ log = 1 := by
    rw [mul_pow, inv_pow, isRoot, isNegOne]
    exact inv_mul_cancel₀ (neg_ne_zero.mpr one_ne_zero)
  by_cases isOne : root⁻¹ * x = 1
  · have isSame : x = root := by
      rw [inv_mul_eq_one₀ nonzero] at isOne
      exact isOne.symm
    rw [isSame, blockValue_root isRoot, swapped]
  rcases exists_pow_eq_neg_one ofUnity isOne with ⟨stages, fewer, isUpper⟩
  rcases Nat.exists_eq_add_of_lt fewer with ⟨more, isLog⟩
  have second :=
    blockValue_of_pow_eq_neg_one root⁻¹ (fun i => f (root ^ i)) stages 1
      (root⁻¹ * x) isUpper more
  have all : stages + 1 + more = log := by omega
  have upper :=
    blockValue_beside_late isRoot two equal isNegOne isLog isUpper
  rw [all, upper] at second
  rw [Nat.add_zero, Nat.zero_mul, Nat.zero_add, second, smul_smul, smul_smul,
    ← pow_add, ← pow_add] at descent
  rw [descent, isLog]
  congr 2
  ring

/-- So the values of a function that meets both conditions come out as they are. -/
theorem blockValue_of_equalElsewhere
    {x : F}
    (ofUnity : x ^ 2 ^ (log + 1) = 1) :
    blockValue root⁻¹ (fun i => f (root ^ i)) (log + 1) 0 x =
      (2 ^ (log + 1) : F) • f x := by
  by_cases isOne : x = 1
  · rw [isOne, blockValue_one, Nat.zero_mul, pow_zero]
  rcases exists_pow_eq_neg_one ofUnity isOne with ⟨stages, fewer, isNegOne⟩
  rcases Nat.lt_succ_iff_lt_or_eq.mp fewer with early | rfl
  · exact blockValue_early isRoot two swapped equal ofUnity early isNegOne
  · exact blockValue_late isRoot two swapped equal isNegOne

end Ordinary

end Roots

/-!
## Eight places

For eight places the two conditions are needed as well.
-/

section Eight

/-- A value that is a mean with itself is the other one as well. -/
theorem eq_of_mean
    {r : F}
    (notOne : r ≠ 1)
    {value other : V}
    (mean : (2 : F) • value = (1 + r) • value + (1 - r) • other) :
    other = value := by
  have difference : (1 - r) • (other - value) = 0 := by
    calc (1 - r) • (other - value)
        = (1 + r) • value + (1 - r) • other - (2 : F) • value := by
          module
      _ = 0 := by
          rw [mean, sub_self]
  have factor := (smul_eq_zero.mp difference).resolve_left
  exact sub_eq_zero.mp (factor (sub_ne_zero.mpr notOne.symm))

variable {root : F}
  {f : F → V}
  (isRoot : root ^ 2 ^ 2 = -1)
  (two : (2 : F) ≠ 0)
  (comesOut :
    ∀ x, x ^ 2 ^ 3 = 1 →
      blockValue root⁻¹ (fun i => f (root ^ i)) 3 0 x = (2 ^ 3 : F) • f x)

include two comesOut in
/-- Where the square of a point is minus one, its value is a mean of two. -/
theorem value_of_sq_eq_neg_one
    {x : F}
    (isNegOne : x ^ 2 = -1) :
    (2 : F) • f x =
      (1 + root⁻¹ * x) • f (root ^ 2) + (1 - root⁻¹ * x) • f (root ^ 3) := by
  have ofUnity : x ^ 2 ^ 3 = 1 := by
    linear_combination (x ^ 2 - 1) * (x ^ 4 + 1) * isNegOne
  have descent :=
    blockValue_of_pow_eq_neg_one root⁻¹ (fun i => f (root ^ i)) 1 0 x isNegOne 1
  rw [comesOut x ofUnity, Nat.zero_mul, Nat.zero_add, blockValue_pair] at descent
  apply smul_right_injective V (pow_ne_zero 2 two)
  calc (2 ^ 2 : F) • (2 : F) • f x
      = (2 ^ 3 : F) • f x := by
        module
    _ = (2 ^ 2 : F) •
          ((1 + root⁻¹ * x) • f (root ^ 2) +
            (1 - root⁻¹ * x) • f (root ^ 3)) :=
        descent

include isRoot

/-- The points that are not exceptional, up to their sign. -/
theorem sq_of_not_exceptional
    {x : F}
    (ofUnity : x ^ 2 ^ 3 = 1)
    (ordinary : ¬Exceptional root x) :
    x = root ^ 2 ∨ x = -root ^ 2 ∨ x = root ^ 3 ∨ x = -root ^ 3 := by
  have notOne : x ^ 2 ≠ 1 := fun isOne => ordinary (.inl isOne)
  have notRootSq : x ^ 2 - root ^ 2 ≠ 0 := fun same =>
    ordinary (.inr (sub_eq_zero.mp same))
  have fourth : x ^ 4 = 1 ∨ x ^ 4 = -1 :=
    sq_eq_one_iff.mp ((pow_mul x 4 2).symm.trans ofUnity)
  rcases fourth with isOne | isNegOne
  · have square : (x ^ 2) ^ 2 = 1 :=
      (pow_mul x 2 2).symm.trans isOne
    have isNegOne := (sq_eq_one_iff.mp square).resolve_left notOne
    have same : x ^ 2 = (root ^ 2) ^ 2 :=
      isNegOne.trans (isRoot.symm.trans (pow_mul root 2 2))
    rcases sq_eq_sq_iff_eq_or_eq_neg.mp same with isSame | isOpposite
    · exact .inl isSame
    · exact .inr (.inl isOpposite)
  · have product : (x ^ 2 - root ^ 2) * (x ^ 2 + root ^ 2) = 0 := by
      linear_combination isNegOne - isRoot
    have isOpposite := (mul_eq_zero.mp product).resolve_left notRootSq
    have same : x ^ 2 = (root ^ 3) ^ 2 := by
      linear_combination isOpposite - root ^ 2 * isRoot
    exact .inr (.inr (sq_eq_sq_iff_eq_or_eq_neg.mp same))

include two comesOut

/-- The value at the third power is a mean of two opposite ones. -/
theorem value_root_pow_three :
    (2 : F) • f (root ^ 3) =
      (1 + root) • f (-root ^ 2) + (1 - root) • f (-root ^ 3) := by
  have nonzero := root_ne_zero isRoot
  have sixth : root ^ 6 = -root ^ 2 := by
    linear_combination root ^ 2 * isRoot
  have seventh : root ^ 7 = -root ^ 3 := by
    linear_combination root ^ 3 * isRoot
  have ofUnity : (root ^ 3) ^ 2 ^ 3 = 1 := by
    linear_combination
      (root ^ 20 - root ^ 16 + root ^ 12 - root ^ 8 + root ^ 4 - 1) * isRoot
  have quotient : root⁻¹ * root ^ 3 = root ^ 2 := by
    rw [pow_succ', inv_mul_cancel_left₀ nonzero]
  have quotient' : root⁻¹ * root ^ 2 = root := by
    rw [pow_two, inv_mul_cancel_left₀ nonzero]
  have last :=
    blockValue_of_pow_eq_neg_one root⁻¹ (fun i => f (root ^ i)) 2 0 (root ^ 3)
      (by linear_combination (root ^ 8 - root ^ 4 + 1) * isRoot) 0
  have before :=
    blockValue_of_pow_eq_neg_one root⁻¹ (fun i => f (root ^ i)) 1 1 (root ^ 2)
      (by linear_combination isRoot) 0
  have pair := blockValue_pair root⁻¹ (fun i => f (root ^ i)) 3 root
  rw [quotient] at last
  rw [quotient'] at before
  apply smul_right_injective V (pow_ne_zero 2 two)
  calc (2 ^ 2 : F) • (2 : F) • f (root ^ 3)
      = (2 ^ 3 : F) • f (root ^ 3) := by
        module
    _ = (2 ^ 1 : F) •
          blockValue root⁻¹ (fun i => f (root ^ i)) 2 1 (root ^ 2) :=
        (comesOut _ ofUnity).symm.trans last
    _ = (2 ^ 1 : F) • (2 ^ 1 : F) •
          blockValue root⁻¹ (fun i => f (root ^ i)) 1 3 root :=
        congrArg _ before
    _ = (2 ^ 1 : F) • (2 ^ 1 : F) •
          ((1 + root) • f (root ^ 6) + (1 - root) • f (root ^ 7)) :=
        congrArg _ (congrArg _ pair)
    _ = (2 ^ 2 : F) •
          ((1 + root) • f (-root ^ 2) + (1 - root) • f (-root ^ 3)) := by
        rw [sixth, seventh]
        module

/-- Four of the values are one. -/
theorem values_of_comesOut :
    f (root ^ 3) = f (root ^ 2) ∧ f (-root ^ 2) = f (root ^ 2) ∧
      f (-root ^ 3) = f (root ^ 2) := by
  have nonzero := root_ne_zero isRoot
  have notOne : root ≠ 1 := by
    rintro rfl
    apply two
    linear_combination isRoot
  have quotient : root⁻¹ * root ^ 2 = root := by
    rw [pow_two, inv_mul_cancel_left₀ nonzero]
  have square : (root ^ 2) ^ 2 = -1 := by
    linear_combination isRoot
  have mean := value_of_sq_eq_neg_one two comesOut square
  rw [quotient] at mean
  have third := eq_of_mean notOne mean
  have opposite : f (-root ^ 2) = f (root ^ 2) := by
    apply smul_right_injective V two
    have mean' :=
      value_of_sq_eq_neg_one two comesOut ((neg_sq (root ^ 2)).trans square)
    rw [third] at mean'
    change (2 : F) • f (-root ^ 2) = (2 : F) • f (root ^ 2)
    rw [mean']
    module
  have last := value_root_pow_three isRoot two comesOut
  rw [third, ← opposite] at last
  exact ⟨third, opposite, (eq_of_mean notOne last).trans opposite⟩

theorem equalElsewhere_of_comesOut : EqualElsewhere root 3 f := by
  rcases values_of_comesOut isRoot two comesOut with
    ⟨third, second', third'⟩
  have value {x : F} (ofUnity : x ^ 2 ^ 3 = 1) (ordinary : ¬Exceptional root x) :
      f x = f (root ^ 2) := by
    rcases sq_of_not_exceptional isRoot ofUnity ordinary with
      rfl | rfl | rfl | rfl
    · rfl
    · exact second'
    · exact third
    · exact third'
  intro x y ofUnity ofUnity' ordinary ordinary'
  rw [value ofUnity ordinary, value ofUnity' ordinary']

end Eight

end ButterflyNetwork
