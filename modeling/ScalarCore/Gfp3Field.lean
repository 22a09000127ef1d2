import ScalarCore.CubicField
import ScalarCore.Gfp3

namespace ScalarCore.VerifierPy

/-!
# Field arithmetic of the cubic extension

Triples of coefficients are the elements of `GF(p)[X]/(X^3 - X - 1)`.  The columns
of the Frobenius matrix are the `p`-th powers of `X` and `X^2`, found here by sixty-four
squarings; that the first differs from `X` by a unit makes the quotient a field.
-/

open CubicField

/-- `FROBENIUS_MATRIX`. -/
def frobeniusMatrix : Fin 3 → Fin 3 → Goldilocks :=
  ![![1, 10615703402128488253, 6700183068485440220],
    ![0, 10050274602728160328, 14531223735771536287],
    ![0, 11746561000929144102, 8396469466686423992]]

/-- `ef_frobenius`. -/
def efFrobenius (a : EF) : EF :=
  let m := frobeniusMatrix
  let c0 := m 0 0 * a 0 + m 0 1 * a 1 + m 0 2 * a 2
  let c1 := m 1 0 * a 0 + m 1 1 * a 1 + m 1 2 * a 2
  let c2 := m 2 0 * a 0 + m 2 1 * a 1 + m 2 2 * a 2
  ![c0, c1, c2]

/-- `ef_inv`; there is no inverse of zero. -/
def efInv (a : EF) : Option EF :=
  if a = ![0, 0, 0] then
    none
  else do
    let aP := efFrobenius a
    let prod := efMul a aP
    let prodConj := efFrobenius prod
    let normEf := efMul a prodConj
    let norm := normEf 0
    let normInv ← finv norm
    some fun i => prodConj i * normInv

/-- The loop of `ef_pow`. -/
def efPowLoop (result base : EF) (n : Nat) : EF :=
  if n > 0 then
    efPowLoop (if n % 2 = 1 then efMul result base else result) (efMul base base) (n / 2)
  else
    result

/-- `ef_pow`, by repeated squaring. -/
def efPow (a : EF) (n : Nat) : EF :=
  if n = 0 then
    ![1, 0, 0]
  else
    efPowLoop ![1, 0, 0] a n

/-- The quotient by the modulus. -/
abbrev GFp3 :=
  AdjoinRoot (trinomial Goldilocks)

/-- The element of the quotient with the given coefficients. -/
noncomputable abbrev toGFp3 (a : EF) : GFp3 :=
  ofCoefficients a

theorem toGFp3_injective : Function.Injective toGFp3 :=
  ofCoefficients_bijective.injective

theorem toGFp3_efMul (a b : EF) : toGFp3 (efMul a b) = toGFp3 a * toGFp3 b := by
  simp only [ofCoefficients_eq, efMul, Matrix.cons_val, map_add, map_mul]
  linear_combination
    -(AdjoinRoot.of _ (a 1) * AdjoinRoot.of _ (b 2) +
        AdjoinRoot.of _ (a 2) * AdjoinRoot.of _ (b 1) +
        AdjoinRoot.of _ (a 2) * AdjoinRoot.of _ (b 2) *
          AdjoinRoot.root (trinomial Goldilocks)) *
      root_cubed (K := Goldilocks)

theorem toGFp3_efAdd (a b : EF) : toGFp3 (efAdd a b) = toGFp3 a + toGFp3 b := by
  simp only [ofCoefficients_eq, efAdd, map_add]
  ring

theorem toGFp3_efFromBase (x : Goldilocks) :
    toGFp3 (efFromBase x) = AdjoinRoot.of (trinomial Goldilocks) x := by
  simp [ofCoefficients_eq, efFromBase]

theorem toGFp3_one : toGFp3 ![1, 0, 0] = 1 := by
  simp [ofCoefficients_eq]

theorem toGFp3_zero : toGFp3 ![0, 0, 0] = 0 := by
  simp [ofCoefficients_eq]

theorem toGFp3_root : toGFp3 ![0, 1, 0] = AdjoinRoot.root (trinomial Goldilocks) := by
  simp [ofCoefficients_eq]

/-- The loop multiplies the rest of the power into the result. -/
theorem toGFp3_efPowLoop (result base : EF) (n : Nat) :
    toGFp3 (efPowLoop result base n) = toGFp3 result * toGFp3 base ^ n := by
  fun_induction efPowLoop result base n with
  | case1 result base n positive inductionHypothesis =>
      rw [dite_eq_ite] at inductionHypothesis
      rw [inductionHypothesis, toGFp3_efMul, ← pow_two, ← pow_mul]
      split
      · next isOdd =>
          have half : n = 2 * (n / 2) + 1 := by
            omega
          conv_rhs => rw [half, pow_succ']
          rw [toGFp3_efMul, mul_assoc]
      · next isEven =>
          have half : n = 2 * (n / 2) := by
            omega
          conv_rhs => rw [half]
  | case2 result base n finished =>
      rw [Nat.eq_zero_of_not_pos finished, pow_zero, mul_one]

/-- Repeated squaring gives the power. -/
theorem toGFp3_efPow (a : EF) (n : Nat) : toGFp3 (efPow a n) = toGFp3 a ^ n := by
  rw [efPow]
  split
  · next isZero =>
      rw [isZero, pow_zero, toGFp3_one]
  · rw [toGFp3_efPowLoop, toGFp3_one, one_mul]

/-- Squaring `count` times raises to the power `2 ^ count`. -/
theorem toGFp3_iterate_square (a : EF) (count : Nat) :
    toGFp3 ((fun square => efMul square square)^[count] a) = toGFp3 a ^ 2 ^ count := by
  induction count with
  | zero =>
      rw [Function.iterate_zero_apply, pow_zero, pow_one]
  | succ count inductionHypothesis =>
      rw [Function.iterate_succ_apply', toGFp3_efMul, inductionHypothesis, ← pow_two, ← pow_mul,
        ← pow_succ]

/-- `X` to the power `2^32`, after 32 squarings. -/
theorem square_iterate_32 :
    (fun square : EF => efMul square square)^[32] ![0, 1, 0] =
      ![4313033625783026847, 4123756567369592585, 13756005300681981762] := by
  decide +kernel

/-- `X` to the power `2^64`, after 32 more. -/
theorem square_iterate_64 :
    (fun square : EF => efMul square square)^[32]
        ![4313033625783026847, 4123756567369592585, 13756005300681981762] =
      ![15890331032454968110, 4393904361445481836, 2012697817756225988] := by
  decide +kernel

/-- A product of triples is one in the quotient. -/
theorem isUnit_toGFp3
    {a : EF}
    (inverse : EF)
    (product : efMul a inverse = ![1, 0, 0]) :
    IsUnit (toGFp3 a) := by
  refine IsUnit.of_mul_eq_one (toGFp3 inverse) ?_
  rw [← toGFp3_efMul, product, toGFp3_one]

/-- The second column of the matrix is the `p`-th power of `X`. -/
theorem root_pow_prime :
    AdjoinRoot.root (trinomial Goldilocks) ^ 0xFFFFFFFF00000001 =
      toGFp3 (efFrobenius ![0, 1, 0]) := by
  have early := toGFp3_iterate_square ![0, 1, 0] 32
  have late := toGFp3_iterate_square
    ![4313033625783026847, 4123756567369592585, 13756005300681981762] 32
  rw [square_iterate_32, toGFp3_root] at early
  rw [square_iterate_64, early, ← pow_mul, ← pow_add] at late
  have unit : IsUnit (AdjoinRoot.root (trinomial Goldilocks)) := by
    rw [← toGFp3_root]
    exact isUnit_toGFp3 ![-1, 0, 1] (by decide +kernel)
  have product :
      efMul (efFrobenius ![0, 1, 0])
          ![4313033625783026847, 4123756567369592585, 13756005300681981762] =
        efMul ![15890331032454968110, 4393904361445481836, 2012697817756225988]
          ![0, 1, 0] := by
    decide +kernel
  have exponents : 0xFFFFFFFF00000001 + 2 ^ 32 = 2 ^ (32 + 32) + 1 := by
    norm_num
  -- both sides times `X ^ 2^32` are `X ^ (2^64 + 1)`
  refine (unit.pow (2 ^ 32)).mul_right_cancel ?_
  rw [← pow_add, exponents, pow_succ, ← late, ← early, ← toGFp3_root, ← toGFp3_efMul,
    ← toGFp3_efMul, product]

/-- The modulus has no root, so the quotient is a field. -/
theorem irreducible_trinomial : Irreducible (trinomial Goldilocks) := by
  apply irreducible_of_isUnit_root_pow_sub_root
  · rw [natDegree_trinomial]
    decide
  · have difference :
        efSub (efFrobenius ![0, 1, 0]) ![0, 1, 0] =
          ![10615703402128488253, 10050274602728160327, 11746561000929144102] := by
      decide +kernel
    have subtracted :
        toGFp3 (efSub (efFrobenius ![0, 1, 0]) ![0, 1, 0]) =
          toGFp3 (efFrobenius ![0, 1, 0]) - toGFp3 ![0, 1, 0] := by
      simp only [ofCoefficients_eq, efSub, map_sub]
      ring
    rw [ZMod.card, root_pow_prime, ← toGFp3_root, ← subtracted, difference]
    exact isUnit_toGFp3 ![991315191999139912, 15238614666038134874, 11086490780951302402]
      (by decide +kernel)

instance instFactIrreducibleTrinomial : Fact (Irreducible (trinomial Goldilocks)) :=
  ⟨irreducible_trinomial⟩

instance instCharPGFp3 : CharP GFp3 0xFFFFFFFF00000001 :=
  charP_of_injective_algebraMap (algebraMap Goldilocks GFp3).injective _

/-- The matrix combines its columns. -/
theorem toGFp3_efFrobenius_eq (a : EF) :
    toGFp3 (efFrobenius a) =
      AdjoinRoot.of _ (a 0) +
        AdjoinRoot.of _ (a 1) * toGFp3 (efFrobenius ![0, 1, 0]) +
          AdjoinRoot.of _ (a 2) * toGFp3 (efFrobenius ![0, 0, 1]) := by
  simp only [ofCoefficients_eq, efFrobenius, frobeniusMatrix, Matrix.cons_val, map_add, map_mul,
    map_zero, map_one]
  ring

/-- The matrix is the `p`-th power map. -/
theorem toGFp3_efFrobenius (a : EF) :
    toGFp3 (efFrobenius a) = toGFp3 a ^ 0xFFFFFFFF00000001 := by
  have square : efFrobenius ![0, 0, 1] =
      efMul (efFrobenius ![0, 1, 0]) (efFrobenius ![0, 1, 0]) := by
    decide +kernel
  rw [toGFp3_efFrobenius_eq, square, toGFp3_efMul, ← root_pow_prime, toGFp3,
    ofCoefficients_eq, add_pow_char, add_pow_char, mul_pow, mul_pow, ← map_pow, ← map_pow,
    ← map_pow, ZMod.pow_card, ZMod.pow_card, ZMod.pow_card, pow_right_comm, pow_two]

instance instModuleFiniteGFp3 : Module.Finite Goldilocks GFp3 :=
  (AdjoinRoot.powerBasis' (monic_trinomial (K := Goldilocks))).finite

instance instFiniteGFp3 : Finite GFp3 :=
  Module.finite_of_finite Goldilocks

/-- The `p`-th power map of the quotient, as an automorphism over the base field. -/
noncomputable def frobenius : GFp3 ≃ₐ[Goldilocks] GFp3 :=
  FiniteField.frobeniusAlgEquivOfAlgebraic Goldilocks GFp3

theorem frobenius_apply (x : GFp3) : frobenius x = x ^ 0xFFFFFFFF00000001 := by
  rw [frobenius, FiniteField.coe_frobeniusAlgEquivOfAlgebraic, ZMod.card]

/-- The quotient has dimension three, so the map has order three. -/
theorem orderOf_frobenius : orderOf frobenius = 3 := by
  rw [frobenius, FiniteField.orderOf_frobeniusAlgEquivOfAlgebraic,
    (AdjoinRoot.powerBasis' (monic_trinomial (K := Goldilocks))).finrank,
    AdjoinRoot.powerBasis'_dim, natDegree_trinomial]

/-- The product of the three conjugates is in the base field. -/
theorem exists_norm (a : EF) :
    ∃ norm : Goldilocks,
      efMul (efMul a (efFrobenius a)) (efFrobenius (efFrobenius a)) = ![norm, 0, 0] ∧
        efMul a (efFrobenius (efMul a (efFrobenius a))) = ![norm, 0, 0] ∧
          (a ≠ ![0, 0, 0] → norm ≠ 0) := by
  have conjugate (x : GFp3) :
      ((x ^ 0xFFFFFFFF00000001) ^ 0xFFFFFFFF00000001) ^ 0xFFFFFFFF00000001 = x := by
    have identity : frobenius ^ 3 = 1 := by
      rw [← orderOf_frobenius, pow_orderOf_eq_one]
    have applied := DFunLike.congr_fun identity x
    rwa [pow_succ, pow_two, AlgEquiv.mul_apply, AlgEquiv.mul_apply, AlgEquiv.one_apply,
      frobenius_apply, frobenius_apply, frobenius_apply] at applied
  obtain ⟨n, isNorm⟩ := exists_conjugates_eq (conjugate (toGFp3 a))
  have norm : toGFp3 ![(n : Goldilocks), 0, 0] =
      toGFp3 a * toGFp3 a ^ 0xFFFFFFFF00000001 *
        (toGFp3 a ^ 0xFFFFFFFF00000001) ^ 0xFFFFFFFF00000001 := by
    rw [← isNorm, ← efFromBase, toGFp3_efFromBase, map_intCast]
  refine ⟨n, toGFp3_injective ?_, toGFp3_injective ?_, ?_⟩
  · rw [norm, toGFp3_efMul, toGFp3_efMul, toGFp3_efFrobenius (efFrobenius a),
      toGFp3_efFrobenius a]
  · rw [norm, toGFp3_efMul, toGFp3_efFrobenius, toGFp3_efMul, toGFp3_efFrobenius, mul_pow,
      mul_assoc]
  · intro nonzero isZero
    rw [isZero, toGFp3_zero] at norm
    have vanishes : toGFp3 a = 0 := by
      simpa using norm.symm
    exact nonzero (toGFp3_injective (vanishes.trans toGFp3_zero.symm))

/-- The inverse is found for every element other than zero. -/
theorem exists_efInv
    {a : EF}
    (nonzero : a ≠ ![0, 0, 0]) :
    ∃ inverse, efInv a = some inverse ∧ efMul a inverse = ![1, 0, 0] := by
  obtain ⟨norm, -, isNorm, normNonzero⟩ := exists_norm a
  have scaled :
      (fun i => efFrobenius (efMul a (efFrobenius a)) i * norm⁻¹) =
        norm⁻¹ • efFrobenius (efMul a (efFrobenius a)) := by
    ext i
    exact mul_comm _ _
  refine ⟨norm⁻¹ • efFrobenius (efMul a (efFrobenius a)), ?_, ?_⟩
  · simp only [efInv, if_neg nonzero, isNorm, Matrix.cons_val,
      finv_of_ne_zero (normNonzero nonzero), Option.bind_eq_bind, Option.bind_some, scaled]
  · rw [← efMulLeft_apply, map_smul, efMulLeft_apply, isNorm]
    ext i
    fin_cases i <;> simp [normNonzero nonzero]

/-- The operations on triples are those of the field `GF(p)[X]/(X^3 - X - 1)`. -/
theorem gfp3_field_arithmetic :
    (Irreducible (trinomial Goldilocks) ∧ Function.Bijective toGFp3) ∧
      (∀ a b, toGFp3 (efMul a b) = toGFp3 a * toGFp3 b) ∧
      (∀ a, toGFp3 (efFrobenius a) = toGFp3 a ^ 0xFFFFFFFF00000001) ∧
      (∃ automorphism : GFp3 ≃ₐ[Goldilocks] GFp3,
        (∀ a, toGFp3 (efFrobenius a) = automorphism (toGFp3 a)) ∧ orderOf automorphism = 3) ∧
      (∀ a, ∃ norm,
        efMul (efMul a (efFrobenius a)) (efFrobenius (efFrobenius a)) = ![norm, 0, 0] ∧
          (a ≠ ![0, 0, 0] → norm ≠ 0)) ∧
      (∀ a, a ≠ ![0, 0, 0] →
        ∃ inverse, efInv a = some inverse ∧ efMul a inverse = ![1, 0, 0]) ∧
      (∀ a n, toGFp3 (efPow a n) = toGFp3 a ^ n) := by
  refine ⟨⟨irreducible_trinomial, ofCoefficients_bijective⟩, toGFp3_efMul, toGFp3_efFrobenius,
    ⟨frobenius, ?_, orderOf_frobenius⟩, ?_, fun a => exists_efInv, toGFp3_efPow⟩
  · intro a
    rw [toGFp3_efFrobenius, frobenius_apply]
  · intro a
    obtain ⟨norm, isNorm, -, nonzero⟩ := exists_norm a
    exact ⟨norm, isNorm, nonzero⟩

end ScalarCore.VerifierPy
