import Mathlib.Algebra.Module.LinearMap.Defs
import Mathlib.Algebra.Module.Pi
import Mathlib.Data.Fin.VecNotation
import Mathlib.FieldTheory.Finite.Basic
import Mathlib.Tactic.FinCases
import Mathlib.Tactic.Ring
import ScalarCore.Goldilocks

namespace ScalarCore.VerifierPy

/-!
# The cubic extension of the independent verifier

Elements of `GF(p)[X]/(X^3 - X - 1)` are three field elements.  The operations
reduce every intermediate number, so numbers are modelled by the field elements
they stand for.  All that the folding needs is that multiplying from the left is
linear over the base field.
-/

/-- `pow(base, exponent, P)`. -/
def powMod (base : Goldilocks) (exponent : Nat) : Goldilocks :=
  npowBinRec exponent base

@[simp] theorem powMod_eq (base : Goldilocks) (exponent : Nat) :
    powMod base exponent = base ^ exponent := by
  induction exponent with
  | zero =>
      rw [powMod, npowBinRec_zero, pow_zero]
  | succ exponent inductionHypothesis =>
      rw [powMod, npowBinRec_succ, ← powMod, inductionHypothesis, pow_succ]

/-- `finv`; there is no inverse of zero. -/
def finv (a : Goldilocks) : Option Goldilocks :=
  if a = 0 then
    none
  else
    some (powMod a (0xFFFFFFFF00000001 - 2))

/-- By Fermat's theorem the power is the inverse. -/
theorem finv_of_ne_zero
    {a : Goldilocks}
    (nonzero : a ≠ 0) :
    finv a = some a⁻¹ := by
  have fermat : a ^ (0xFFFFFFFF00000001 - 1) = 1 :=
    ZMod.pow_card_sub_one_eq_one nonzero
  rw [finv, if_neg nonzero, powMod_eq]
  apply congrArg some
  apply eq_inv_of_mul_eq_one_left
  rw [← pow_succ]
  exact fermat

/-- Coefficients are indexed by literals below 3. -/
instance instNeZeroThree : NeZero 3 :=
  ⟨by decide⟩

/-- An element `a0 + a1 * X + a2 * X^2`. -/
abbrev EF :=
  Fin 3 → Goldilocks

/-- `ef_add`. -/
def efAdd (a b : EF) : EF :=
  fun i => a i + b i

/-- `ef_sub`. -/
def efSub (a b : EF) : EF :=
  fun i => a i - b i

/-- `ef_mul`, with `X^3` replaced by `X + 1`. -/
def efMul (a b : EF) : EF :=
  let b0pb2 := b 0 + b 2
  let b1pb2 := b 1 + b 2
  ![a 0 * b 0 + a 1 * b 2 + a 2 * b 1,
    a 0 * b 1 + a 1 * b0pb2 + a 2 * b1pb2,
    a 0 * b 2 + a 1 * b 1 + a 2 * b0pb2]

/-- `ef_scalar_mul`. -/
def efScalarMul (scalar : Goldilocks) (e : EF) : EF :=
  fun i => scalar * e i

/-- `ef_from_base`. -/
def efFromBase (x : Goldilocks) : EF :=
  ![x, 0, 0]

@[simp] theorem efAdd_eq (a b : EF) :
    efAdd a b = a + b :=
  rfl

@[simp] theorem efSub_eq (a b : EF) :
    efSub a b = a - b :=
  rfl

@[simp] theorem efScalarMul_eq (scalar : Goldilocks) (e : EF) :
    efScalarMul scalar e = scalar • e :=
  rfl

/-- An embedded element multiplies as a scalar. -/
@[simp] theorem efMul_efFromBase (e : EF) (x : Goldilocks) :
    efMul e (efFromBase x) = x • e := by
  ext i
  fin_cases i <;> simp [efMul, efFromBase, mul_comm]

/-- Multiplication by an element, as a linear map. -/
def efMulLeft (a : EF) : EF →ₗ[Goldilocks] EF where
  toFun := efMul a
  map_add' b c := by
    ext i
    fin_cases i <;> simp [efMul] <;> ring
  map_smul' x b := by
    ext i
    fin_cases i <;> simp [efMul] <;> ring

@[simp] theorem efMulLeft_apply (a b : EF) :
    efMulLeft a b = efMul a b :=
  rfl

end ScalarCore.VerifierPy
