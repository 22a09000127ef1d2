import Mathlib.Algebra.Polynomial.SpecificDegree
import Mathlib.FieldTheory.Finite.Basic
import Mathlib.RingTheory.AdjoinRoot
import Mathlib.Tactic.ComputeDegree
import Mathlib.Tactic.LinearCombination

namespace CubicField

/-!
# Cubic extensions of a finite field

A polynomial of degree at most three without a root is irreducible, and a field
with `q` elements has no root of it when the `q`-th power of the adjoined root
differs from the root by a unit.  The extension by `X^3 - X - 1` has the triples of
coefficients as its elements.
-/

open Polynomial

variable {K : Type*}

/-- A root in the field would be a `q`-th power of itself, and a unit cannot vanish there. -/
theorem irreducible_of_isUnit_root_pow_sub_root
    [Field K]
    [Fintype K]
    {modulus : K[X]}
    (degree : modulus.natDegree ∈ Finset.Icc 1 3)
    (unit :
      IsUnit (AdjoinRoot.root modulus ^ Fintype.card K - AdjoinRoot.root modulus)) :
    Irreducible modulus := by
  refine irreducible_of_degree_le_three_of_not_isRoot degree ?_
  intro point isRoot
  let evaluate : AdjoinRoot modulus →+* K :=
    AdjoinRoot.lift (RingHom.id K) point (by rwa [eval₂_id])
  have vanishes :
      evaluate (AdjoinRoot.root modulus ^ Fintype.card K - AdjoinRoot.root modulus) = 0 := by
    rw [map_sub, map_pow, AdjoinRoot.lift_root, FiniteField.pow_card, sub_self]
  exact (unit.map evaluate).ne_zero vanishes

/-- `X^3 - X - 1`. -/
noncomputable def trinomial (K : Type*) [Field K] : K[X] :=
  X ^ 3 - X - 1

variable [Field K]

theorem natDegree_trinomial : (trinomial K).natDegree = 3 := by
  unfold trinomial
  compute_degree!

theorem monic_trinomial : (trinomial K).Monic := by
  unfold trinomial
  monicity!

/-- The cube of the adjoined root. -/
theorem root_cubed :
    AdjoinRoot.root (trinomial K) ^ 3 = AdjoinRoot.root (trinomial K) + 1 := by
  have vanishes := AdjoinRoot.eval₂_root (trinomial K)
  rw [trinomial, eval₂_sub, eval₂_sub, eval₂_X_pow, eval₂_X, eval₂_one] at vanishes
  exact eq_add_of_sub_eq' (sub_eq_zero.mp (by rwa [trinomial]))

/-- The element with the given coefficients of `1`, `X` and `X^2`. -/
noncomputable def ofCoefficients (a : Fin 3 → K) : AdjoinRoot (trinomial K) :=
  AdjoinRoot.mk (trinomial K) (C (a 0) + C (a 1) * X + C (a 2) * X ^ 2)

theorem ofCoefficients_eq (a : Fin 3 → K) :
    ofCoefficients a =
      AdjoinRoot.of (trinomial K) (a 0) +
        AdjoinRoot.of (trinomial K) (a 1) * AdjoinRoot.root (trinomial K) +
          AdjoinRoot.of (trinomial K) (a 2) * AdjoinRoot.root (trinomial K) ^ 2 := by
  simp only [ofCoefficients, map_add, map_mul, map_pow, AdjoinRoot.mk_C, AdjoinRoot.mk_X]

/-- Every element has its coefficients, and only those. -/
theorem ofCoefficients_bijective : Function.Bijective (ofCoefficients (K := K)) := by
  constructor
  · intro a b same
    rw [ofCoefficients, ofCoefficients, AdjoinRoot.mk_eq_mk] at same
    have small :
        (C (a 0) + C (a 1) * X + C (a 2) * X ^ 2 -
          (C (b 0) + C (b 1) * X + C (b 2) * X ^ 2)).degree < (trinomial K).degree := by
      rw [degree_eq_natDegree monic_trinomial.ne_zero, natDegree_trinomial]
      refine lt_of_le_of_lt (b := 2) ?_ (by norm_num)
      compute_degree
    have zero := eq_zero_of_dvd_of_degree_lt same small
    have coefficient (i : Nat) := congrArg (coeff · i) (sub_eq_zero.mp zero)
    ext i
    fin_cases i
    · simpa using coefficient 0
    · simpa [coeff_X, coeff_C] using coefficient 1
    · simpa [coeff_X, coeff_C] using coefficient 2
  · intro x
    obtain ⟨polynomial, rfl⟩ := AdjoinRoot.mk_surjective x
    let remainder := polynomial %ₘ trinomial K
    have small : remainder.natDegree < 3 := by
      rw [← natDegree_trinomial (K := K)]
      refine natDegree_modByMonic_lt polynomial monic_trinomial ?_
      intro isOne
      have degree := natDegree_trinomial (K := K)
      rw [isOne, natDegree_one] at degree
      omega
    have expanded :
        C (remainder.coeff 0) + C (remainder.coeff 1) * X + C (remainder.coeff 2) * X ^ 2 =
          remainder := by
      conv_rhs => rw [as_sum_range_C_mul_X_pow' remainder small]
      rw [Finset.sum_range_succ, Finset.sum_range_succ, Finset.sum_range_one, pow_zero, mul_one,
        pow_one]
    refine ⟨fun i => remainder.coeff i, ?_⟩
    rw [ofCoefficients]
    exact (congrArg _ expanded).trans
      (AdjoinRoot.mk_eq_mk.mpr (dvd_modByMonic_sub polynomial (trinomial K)))

/-- With a prime number of elements below, the product of the three conjugates is below. -/
theorem exists_conjugates_eq
    {p : Nat}
    [Fact p.Prime]
    {L : Type*}
    [Field L]
    [CharP L p]
    {x : L}
    (conjugate : ((x ^ p) ^ p) ^ p = x) :
    ∃ n : ℤ, n = x * x ^ p * (x ^ p) ^ p := by
  rw [← mem_bot_iff_intCast p, Subfield.mem_bot_iff_pow_eq_self L p]
  calc
    (x * x ^ p * (x ^ p) ^ p) ^ p = x ^ p * (x ^ p) ^ p * ((x ^ p) ^ p) ^ p := by
      rw [mul_pow, mul_pow]
    _ = x * x ^ p * (x ^ p) ^ p := by
      rw [conjugate]
      ring

end CubicField
