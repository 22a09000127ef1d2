import Mathlib.Data.List.Iterate
import Mathlib.Tactic.NormNum.Basic
import Mathlib.Tactic.ReduceModChar
import ScalarCore.FallibleChecks
import ScalarCore.Gfp3
import ScalarCore.PolynomialFold

namespace ScalarCore.VerifierPy

/-!
# Folding the evaluations of a round

The evaluations of a round stand in bit-reversed order on a coset of the roots
of unity whose order is their number.  A column is folded in pairs or in groups
of four neighbours; the query phase folds one group and computes its points by
itself.  Where an assertion of the source fails, an index is out of range or
zero is inverted, there is no result.
-/

open PolynomialFold

/-- `GOLDILOCKS_GENERATOR`. -/
def goldilocksGenerator : Goldilocks :=
  7

/-- `goldilocks_two_adic_generator`. -/
def goldilocksTwoAdicGenerator (logN : Nat) : Option Goldilocks :=
  if 0 < logN ∧ logN ≤ 32 then
    let omega32 :=
      powMod goldilocksGenerator ((0xFFFFFFFF00000001 - 1) >>> 32)
    some (powMod omega32 (1 <<< (32 - logN)))
  else
    none

/-- `compute_coset_domain_points`, in natural order. -/
def computeCosetDomainPoints
    (logDomainSize : Nat)
    (cosetShift : Goldilocks) : Option (List Goldilocks) := do
  let omega ← goldilocksTwoAdicGenerator logDomainSize
  return List.iterate (fun x => x * omega) cosetShift (1 <<< logDomainSize)

/-- `fri_fold_arity2`. -/
def friFoldArity2 (vPlus vMinus beta xInv2 : EF) : Option EF := do
  let inv2 ← finv 2
  let halfSum := efScalarMul inv2 (efAdd vPlus vMinus)
  let halfDiff := efScalarMul inv2 (efSub vPlus vMinus)
  let correction := efMul beta (efMul halfDiff xInv2)
  return efAdd halfSum correction

/-- The fold of a pair of values at `x0` and its opposite. -/
def foldPairAt (v0 v1 beta : EF) (x0 : Goldilocks) : Option EF := do
  let x0Inv2 ← finv (2 * x0)
  friFoldArity2 v0 v1 beta (efFromBase x0Inv2)

/-- Two pairs at `x0` and `x2` are folded, and their folds with `beta^2`. -/
def foldGroupAt (v0 v1 v2 v3 beta : EF) (x0 x2 : Goldilocks) : Option EF := do
  let betaSq := efMul beta beta
  let ev0 ← foldPairAt v0 v1 beta x0
  let ev1 ← foldPairAt v2 v3 beta x2
  let x0Sq := x0 * x0
  foldPairAt ev0 ev1 betaSq x0Sq

/-- `_fold_arity2_column`; the domain size is that of the column. -/
def foldArity2Column
    (evalsBr : List EF)
    (beta : EF)
    (cosetShift : Goldilocks) : Option (List EF) := do
  let n := evalsBr.length
  guard (n % 2 = 0)
  let logN := n.log2
  let pointsNatural ← computeCosetDomainPoints logN cosetShift
  (List.range (n / 2)).mapM fun g => do
    let x0 ← pointsNatural[bitReverse (2 * g) logN]?
    let v0 ← evalsBr[2 * g]?
    let v1 ← evalsBr[2 * g + 1]?
    foldPairAt v0 v1 beta x0

/-- `fri_fold_column_arity4`; the domain size is that of the column. -/
def friFoldColumnArity4
    (evalsBr : List EF)
    (beta : EF)
    (cosetShift : Goldilocks) : Option (List EF) := do
  let n := evalsBr.length
  guard (n % 4 = 0)
  let logN := n.log2
  guard (1 <<< logN = n)
  let pointsNatural ← computeCosetDomainPoints logN cosetShift
  (List.range (n / 4)).mapM fun g => do
    let x0 ← pointsNatural[bitReverse (4 * g) logN]?
    let x2 ← pointsNatural[bitReverse (4 * g + 2) logN]?
    let v0 ← evalsBr[4 * g]?
    let v1 ← evalsBr[4 * g + 1]?
    let v2 ← evalsBr[4 * g + 2]?
    let v3 ← evalsBr[4 * g + 3]?
    foldGroupAt v0 v1 v2 v3 beta x0 x2

/-- The fold of a round; other arities raise `Unverifiable`. -/
def foldColumn
    (logArity : Nat)
    (evalsBr : List EF)
    (beta : EF)
    (cosetShift : Goldilocks) : Option (List EF) :=
  match logArity with
  | 1 => foldArity2Column evalsBr beta cosetShift
  | 2 => friFoldColumnArity4 evalsBr beta cosetShift
  | _ => none

/-- `_domain_point_at_index`; a height that is not positive is refused. -/
def domainPointAtIndex
    (index : Nat)
    (logHeight : Int)
    (cosetShift : Goldilocks) : Option Goldilocks := do
  let omega ← goldilocksTwoAdicGenerator logHeight.toNat
  let naturalI := bitReverse index logHeight.toNat
  return cosetShift * powMod omega naturalI

/-- `_fold_query_step_arity2`. -/
def foldQueryStepArity2
    (evalsPair : List EF)
    (beta : EF)
    (groupIndex : Nat)
    (logCurrentHeight : Int)
    (cosetShift : Goldilocks) : Option EF := do
  let x0 ← domainPointAtIndex (2 * groupIndex) logCurrentHeight cosetShift
  let v0 ← evalsPair[0]?
  let v1 ← evalsPair[1]?
  foldPairAt v0 v1 beta x0

/-- `_fold_query_step_arity4`. -/
def foldQueryStepArity4
    (evalsGroup : List EF)
    (beta : EF)
    (groupIndex : Nat)
    (logCurrentHeight : Int)
    (cosetShift : Goldilocks) : Option EF := do
  let x0 ← domainPointAtIndex (4 * groupIndex) logCurrentHeight cosetShift
  let x2 ← domainPointAtIndex (4 * groupIndex + 2) logCurrentHeight cosetShift
  let v0 ← evalsGroup[0]?
  let v1 ← evalsGroup[1]?
  let v2 ← evalsGroup[2]?
  let v3 ← evalsGroup[3]?
  foldGroupAt v0 v1 v2 v3 beta x0 x2

/-- The fold of a queried group. -/
def foldQueryStep
    (logArity : Nat)
    (evalsFull : List EF)
    (beta : EF)
    (groupIndex : Nat)
    (logCurrentHeight : Int)
    (cosetShift : Goldilocks) : Option EF :=
  if logArity = 1 then
    foldQueryStepArity2 evalsFull beta groupIndex logCurrentHeight cosetShift
  else
    foldQueryStepArity4 evalsFull beta groupIndex logCurrentHeight cosetShift

/-!
## The roots of unity
-/

/-- The root of unity of order `2 ^ log`. -/
def twoAdicRoot (log : Nat) : Goldilocks :=
  (goldilocksGenerator ^ (2 ^ 32 - 1)) ^ 2 ^ (32 - log)

theorem goldilocksTwoAdicGenerator_eq
    {log : Nat}
    (positive : 0 < log)
    (inRange : log ≤ 32) :
    goldilocksTwoAdicGenerator log = some (twoAdicRoot log) := by
  rw [goldilocksTwoAdicGenerator, if_pos ⟨positive, inRange⟩]
  apply congrArg some
  change powMod (powMod _ (2 ^ 32 - 1)) _ = _
  rw [powMod_eq, powMod_eq, twoAdicRoot, Nat.shiftLeft_eq, Nat.one_mul]

theorem goldilocksGenerator_ne_zero : goldilocksGenerator ≠ 0 := by
  decide

theorem two_ne_zero_goldilocks : (2 : Goldilocks) ≠ 0 := by
  decide

theorem twoAdicRoot_ne_zero (log : Nat) :
    twoAdicRoot log ≠ 0 :=
  pow_ne_zero _ (pow_ne_zero _ goldilocksGenerator_ne_zero)

/-- The generator is no square. -/
theorem goldilocksGenerator_pow_half :
    goldilocksGenerator ^ ((2 ^ 32 - 1) * 2 ^ 31) = -1 := by
  have power : (7 : ZMod 0xFFFFFFFF00000001) ^ 9223372034707292160 = -1 := by
    reduce_mod_char
  exact power

/-- The square of a root is the root of half the order. -/
theorem twoAdicRoot_mul_self
    {log : Nat}
    (inRange : log + 1 ≤ 32) :
    twoAdicRoot (log + 1) * twoAdicRoot (log + 1) = twoAdicRoot log := by
  have halved : 32 - log = 32 - (log + 1) + 1 := by omega
  rw [twoAdicRoot, twoAdicRoot, halved, ← pow_add, ← two_mul, ← pow_succ']

/-- Half the order leads to the opposite of one. -/
theorem twoAdicRoot_pow_half
    {log : Nat}
    (inRange : log + 1 ≤ 32) :
    twoAdicRoot (log + 1) ^ 2 ^ log = -1 := by
  have total : 32 - (log + 1) + log = 31 := by omega
  rw [twoAdicRoot, ← pow_mul, ← pow_add, total, ← pow_mul,
    goldilocksGenerator_pow_half]

/-- A power of a root is the root of a smaller order. -/
theorem twoAdicRoot_pow
    {log more : Nat}
    (inRange : log + more ≤ 32) :
    twoAdicRoot (log + more) ^ 2 ^ more = twoAdicRoot log := by
  have order : 32 - (log + more) + more = 32 - log := by omega
  rw [twoAdicRoot, ← pow_mul, ← pow_add, order, twoAdicRoot]

/-- The iterated points are the powers that the query phase computes. -/
theorem computeCosetDomainPoints_eq
    {log : Nat}
    (positive : 0 < log)
    (inRange : log ≤ 32)
    (cosetShift : Goldilocks) :
    computeCosetDomainPoints log cosetShift =
      some
        ((List.range (2 ^ log)).map fun index =>
          cosetShift * twoAdicRoot log ^ index) := by
  rw [computeCosetDomainPoints, goldilocksTwoAdicGenerator_eq positive inRange,
    Nat.shiftLeft_eq, Nat.one_mul]
  apply congrArg some
  rw [← List.range_map_iterate]
  apply List.map_congr_left
  intro index listed
  clear listed
  induction index with
  | zero =>
      rw [Function.iterate_zero_apply, pow_zero, mul_one]
  | succ index inductionHypothesis =>
      rw [Function.iterate_succ_apply', inductionHypothesis, pow_succ,
        mul_assoc]

/-- Both phases assign one point to a position. -/
theorem domainPointAtIndex_eq
    {log : Nat}
    (positive : 0 < log)
    (inRange : log ≤ 32)
    (index : Nat)
    (cosetShift : Goldilocks) :
    domainPointAtIndex index log cosetShift =
      some (cosetPoint (twoAdicRoot log) cosetShift log index) := by
  rw [domainPointAtIndex, Int.toNat_natCast,
    goldilocksTwoAdicGenerator_eq positive inRange, cosetPoint]
  change some (_ * powMod _ _) = _
  rw [powMod_eq]

/-!
## The folds
-/

section Folds

variable (v0 v1 v2 v3 beta : EF)

/-- A pair is folded as its values are. -/
theorem foldPairAt_eq
    {x0 : Goldilocks}
    (pointNonzero : x0 ≠ 0) :
    foldPairAt v0 v1 beta x0 =
      some (foldValues (efMulLeft beta) x0 v0 v1) := by
  have inverse :=
    finv_of_ne_zero (mul_ne_zero two_ne_zero_goldilocks pointNonzero)
  have half := finv_of_ne_zero two_ne_zero_goldilocks
  simp only [foldPairAt, inverse, friFoldArity2, half, Option.bind_eq_bind,
    Option.bind_some, Option.pure_def, efAdd_eq, efSub_eq, efScalarMul_eq,
    efMul_efFromBase, foldValues, efMulLeft_apply]

/-- A group is folded as its pairs are, and then as their folds. -/
theorem foldGroupAt_eq
    {x0 x2 : Goldilocks}
    (pointNonzero : x0 ≠ 0)
    (pointNonzero' : x2 ≠ 0) :
    foldGroupAt v0 v1 v2 v3 beta x0 x2 =
      some
        (foldValues (efMulLeft (efMul beta beta)) (x0 * x0)
          (foldValues (efMulLeft beta) x0 v0 v1)
          (foldValues (efMulLeft beta) x2 v2 v3)) := by
  have first := foldPairAt_eq v0 v1 beta pointNonzero
  have second := foldPairAt_eq v2 v3 beta pointNonzero'
  have both (ev0 ev1 : EF) :=
    foldPairAt_eq ev0 ev1 (efMul beta beta)
      (mul_ne_zero pointNonzero pointNonzero)
  simp only [foldGroupAt, first, second, Option.bind_eq_bind,
    Option.bind_some, both]

end Folds

/-!
## One fold of a round

A round folds `2 ^ logArity` neighbours of a column of `2 ^ (log + logArity)`
values.
-/

/-- The fold of the neighbours of a group, from the values of the column. -/
def neighbourFold
    (logArity : Nat)
    (beta : EF)
    (point : Nat → Goldilocks)
    (value : Nat → EF)
    (g : Nat) : EF :=
  match logArity with
  | 1 =>
      foldValues (efMulLeft beta) (point (2 * g)) (value (2 * g))
        (value (2 * g + 1))
  | _ =>
      foldValues (efMulLeft (efMul beta beta))
        (point (4 * g) * point (4 * g))
        (foldValues (efMulLeft beta) (point (4 * g)) (value (4 * g))
          (value (4 * g + 1)))
        (foldValues (efMulLeft beta) (point (4 * g + 2)) (value (4 * g + 2))
          (value (4 * g + 3)))

/-- The point of a position in the column of a round. -/
def roundPoint (cosetShift : Goldilocks) (log index : Nat) : Goldilocks :=
  cosetPoint (twoAdicRoot log) cosetShift log index

section Rounds

variable {evalsBr : List EF}
  (beta : EF)
  {cosetShift : Goldilocks}
  (nonzero : cosetShift ≠ 0)
  {log : Nat}

include nonzero in
theorem roundPoint_ne_zero (log index : Nat) :
    roundPoint cosetShift log index ≠ 0 :=
  cosetPoint_ne_zero (twoAdicRoot_ne_zero log) nonzero log index

/-- The points are looked up by reversed positions. -/
theorem getElem?_points (index : Nat) :
    ((List.range (2 ^ log)).map fun index =>
        cosetShift * twoAdicRoot log ^ index)[bitReverse index log]? =
      some (roundPoint cosetShift log index) := by
  rw [List.getElem?_map, List.getElem?_range (bitReverse_lt index log)]
  rfl

/-- A value of the column. -/
theorem getElem?_eq_getD
    {index : Nat}
    (inRange : index < evalsBr.length) :
    evalsBr[index]? = some (evalsBr.getD index 0) := by
  rw [List.getD_eq_getElem?_getD, List.getElem?_eq_getElem inRange,
    Option.getD_some]

include nonzero

theorem foldArity2Column_eq
    (length : evalsBr.length = 2 ^ (log + 1))
    (inRange : log + 1 ≤ 32) :
    foldArity2Column evalsBr beta cosetShift =
      some
        ((List.range (2 ^ log)).map
          (neighbourFold 1 beta (roundPoint cosetShift (log + 1))
            (fun index => evalsBr.getD index 0))) := by
  have isEven : evalsBr.length % 2 = 0 := by
    rw [length, pow_succ, Nat.mul_mod_left]
  have groups : evalsBr.length / 2 = 2 ^ log := by
    rw [length, pow_succ, Nat.mul_div_cancel _ (by decide)]
  have logN : evalsBr.length.log2 = log + 1 := by
    rw [length, Nat.log2_two_pow]
  have points :=
    computeCosetDomainPoints_eq (Nat.succ_pos log) inRange cosetShift
  simp only [foldArity2Column, isEven, guard_true, groups, logN, points,
    Option.bind_eq_bind, Option.bind_some, Option.pure_def]
  apply FallibleChecks.mapM_eq_some_map
  intro g listed
  have isGroup := List.mem_range.mp listed
  have room : evalsBr.length = 2 * 2 ^ log := by
    rw [length, pow_succ, Nat.mul_comm]
  have first : 2 * g < evalsBr.length := by omega
  have second : 2 * g + 1 < evalsBr.length := by omega
  rw [getElem?_points, getElem?_eq_getD first, getElem?_eq_getD second]
  exact foldPairAt_eq _ _ beta (roundPoint_ne_zero nonzero _ _)

theorem friFoldColumnArity4_eq
    (length : evalsBr.length = 2 ^ (log + 2))
    (inRange : log + 2 ≤ 32) :
    friFoldColumnArity4 evalsBr beta cosetShift =
      some
        ((List.range (2 ^ log)).map
          (neighbourFold 2 beta (roundPoint cosetShift (log + 2))
            (fun index => evalsBr.getD index 0))) := by
  have room : evalsBr.length = 4 * 2 ^ log := by
    rw [length, pow_add, Nat.mul_comm]
    rfl
  have isQuadruple : evalsBr.length % 4 = 0 := by
    rw [room, Nat.mul_mod_right]
  have groups : evalsBr.length / 4 = 2 ^ log := by
    rw [room, Nat.mul_div_cancel_left _ (by decide)]
  have logN : evalsBr.length.log2 = log + 2 := by
    rw [length, Nat.log2_two_pow]
  have isPower : 1 <<< (log + 2) = evalsBr.length := by
    rw [length, Nat.shiftLeft_eq, Nat.one_mul]
  have points :=
    computeCosetDomainPoints_eq (Nat.succ_pos (log + 1)) inRange cosetShift
  simp only [friFoldColumnArity4, isQuadruple, guard_true, groups, logN,
    isPower, points, Option.bind_eq_bind, Option.bind_some, Option.pure_def]
  apply FallibleChecks.mapM_eq_some_map
  intro g listed
  have isGroup := List.mem_range.mp listed
  have first : 4 * g < evalsBr.length := by omega
  have second : 4 * g + 1 < evalsBr.length := by omega
  have third : 4 * g + 2 < evalsBr.length := by omega
  have fourth : 4 * g + 3 < evalsBr.length := by omega
  rw [getElem?_points, getElem?_points, getElem?_eq_getD first,
    getElem?_eq_getD second, getElem?_eq_getD third, getElem?_eq_getD fourth]
  exact
    foldGroupAt_eq _ _ _ _ beta (roundPoint_ne_zero nonzero _ _)
      (roundPoint_ne_zero nonzero _ _)

/-- The values of a column are folded group by group. -/
theorem foldColumn_eq
    {logArity : Nat}
    (arity : logArity = 1 ∨ logArity = 2)
    (length : evalsBr.length = 2 ^ (log + logArity))
    (inRange : log + logArity ≤ 32) :
    foldColumn logArity evalsBr beta cosetShift =
      some
        ((List.range (2 ^ log)).map
          (neighbourFold logArity beta
            (roundPoint cosetShift (log + logArity))
            (fun index => evalsBr.getD index 0))) := by
  rcases arity with rfl | rfl
  · exact foldArity2Column_eq beta nonzero length inRange
  · exact friFoldColumnArity4_eq beta nonzero length inRange

/-- The query phase folds a group as the column was folded. -/
theorem foldQueryStep_eq
    {logArity : Nat}
    (arity : logArity = 1 ∨ logArity = 2)
    (inRange : log + logArity ≤ 32)
    (value : Nat → EF)
    (g : Nat) :
    foldQueryStep logArity
        ((List.range (2 ^ logArity)).map fun index =>
          value (2 ^ logArity * g + index))
        beta g (log + logArity : Nat) cosetShift =
      some
        (neighbourFold logArity beta
          (roundPoint cosetShift (log + logArity)) value g) := by
  rcases arity with rfl | rfl
  · have point :=
      domainPointAtIndex_eq (Nat.succ_pos log) inRange (2 * g) cosetShift
    have pair :=
      foldPairAt_eq (value (2 * g)) (value (2 * g + 1)) beta
        (roundPoint_ne_zero nonzero (log + 1) (2 * g))
    have values :
        ((List.range (2 ^ 1)).map fun index => value (2 ^ 1 * g + index)) =
          [value (2 * g), value (2 * g + 1)] := by
      simp [List.range_succ]
    rw [values, foldQueryStep, if_pos rfl, foldQueryStepArity2, point]
    simp only [List.getElem?_cons_zero, List.getElem?_cons_succ,
      Option.bind_eq_bind, Option.bind_some, neighbourFold]
    exact pair
  · have point (index : Nat) :=
      domainPointAtIndex_eq (Nat.succ_pos (log + 1)) inRange index cosetShift
    have group :=
      foldGroupAt_eq (value (4 * g)) (value (4 * g + 1)) (value (4 * g + 2))
        (value (4 * g + 3)) beta
        (roundPoint_ne_zero nonzero (log + 2) (4 * g))
        (roundPoint_ne_zero nonzero (log + 2) (4 * g + 2))
    have values :
        ((List.range (2 ^ 2)).map fun index => value (2 ^ 2 * g + index)) =
          [value (4 * g), value (4 * g + 1), value (4 * g + 2),
            value (4 * g + 3)] := by
      simp [List.range_succ]
    rw [values, foldQueryStep, if_neg (by decide), foldQueryStepArity4, point,
      point]
    simp only [List.getElem?_cons_zero, List.getElem?_cons_succ,
      Option.bind_eq_bind, Option.bind_some, neighbourFold]
    exact group

end Rounds

/-!
## Folding the values of a polynomial

Every round takes its points on a coset with one and the same shift, so the
folded polynomial is rescaled to it.
-/

/-- The polynomial whose values a round answers. -/
def foldedPolynomial
    (logArity : Nat)
    (beta : EF)
    (cosetShift : Goldilocks)
    (coeffs : List EF) : List EF :=
  match logArity with
  | 1 =>
      rescale cosetShift (foldCoeffs (efMulLeft beta) coeffs)
  | _ =>
      rescale (cosetShift * cosetShift * cosetShift)
        (foldCoeffs (efMulLeft (efMul beta beta))
          (foldCoeffs (efMulLeft beta) coeffs))

/--
The values of an extension polynomial on the coset of `2 ^ log` points, in the
bit-reversed order in which `goldilocks_lde` answers those of a base polynomial.
-/
def cosetEvaluations
    (log : Nat)
    (cosetShift : Goldilocks)
    (coeffs : List EF) : List EF :=
  evaluations (twoAdicRoot log) cosetShift log coeffs

@[simp] theorem length_cosetEvaluations
    (log : Nat)
    (cosetShift : Goldilocks)
    (coeffs : List EF) :
    (cosetEvaluations log cosetShift coeffs).length = 2 ^ log :=
  length_evaluations _ _ _ _

theorem getD_cosetEvaluations
    (cosetShift : Goldilocks)
    (coeffs : List EF)
    {log index : Nat}
    (listed : index < 2 ^ log) :
    (cosetEvaluations log cosetShift coeffs).getD index 0 =
      evalAt coeffs (roundPoint cosetShift log index) := by
  rw [cosetEvaluations, List.getD_eq_getElem?_getD,
    getElem?_evaluations _ _ _ listed]
  rfl

section Polynomials

variable (beta : EF)
  {cosetShift : Goldilocks}
  {coeffs : List EF}
  {log logArity : Nat}
  (arity : logArity = 1 ∨ logArity = 2)

include arity

/-- A round divides the bound on the degree by its arity. -/
theorem length_foldedPolynomial_le
    (degree : coeffs.length ≤ 2 ^ (log + logArity)) :
    (foldedPolynomial logArity beta cosetShift coeffs).length ≤ 2 ^ log := by
  rcases arity with rfl | rfl
  · rw [foldedPolynomial, length_rescale, length_foldCoeffs]
    rw [pow_succ] at degree
    omega
  · simp only [foldedPolynomial, length_rescale, length_foldCoeffs]
    rw [pow_succ, pow_succ] at degree
    omega

/-- A single coefficient stays single, up to a factor. -/
theorem foldedPolynomial_monomial
    (nonzero : cosetShift ≠ 0)
    (degree : Nat)
    (coeff : EF) :
    ∃ factor : Goldilocks,
      factor ≠ 0 ∧
      foldedPolynomial logArity beta cosetShift
          (List.replicate (2 ^ logArity * degree) 0 ++ [coeff]) =
        List.replicate degree 0 ++ [factor • coeff] := by
  rcases arity with rfl | rfl
  · refine ⟨_, pow_ne_zero degree nonzero, ?_⟩
    rw [foldedPolynomial, pow_one, foldCoeffs_monomial, rescale_monomial]
  · refine
      ⟨_,
        pow_ne_zero degree (mul_ne_zero (mul_ne_zero nonzero nonzero) nonzero),
        ?_⟩
    simp only [foldedPolynomial]
    rw [pow_two, Nat.mul_assoc, foldCoeffs_monomial, foldCoeffs_monomial,
      rescale_monomial]

/-- Folding the values of a polynomial evaluates the folded polynomial. -/
theorem neighbourFold_evalAt
    (nonzero : cosetShift ≠ 0)
    (inRange : log + logArity ≤ 32)
    (g : Nat) :
    neighbourFold logArity beta (roundPoint cosetShift (log + logArity))
        (fun index =>
          evalAt coeffs (roundPoint cosetShift (log + logArity) index))
        g =
      evalAt (foldedPolynomial logArity beta cosetShift coeffs)
        (roundPoint cosetShift log g) := by
  rcases arity with rfl | rfl
  · have folded :=
      foldValues_neighbours (efMulLeft beta) coeffs two_ne_zero_goldilocks
        (twoAdicRoot_ne_zero (log + 1)) nonzero (twoAdicRoot_pow_half inRange)
        g
    rw [twoAdicRoot_mul_self inRange] at folded
    rw [foldedPolynomial, evalAt_rescale]
    exact folded
  · have folded :=
      foldValues_four_neighbours (efMulLeft beta) (efMulLeft (efMul beta beta))
        coeffs two_ne_zero_goldilocks (twoAdicRoot_ne_zero (log + 2)) nonzero
        (twoAdicRoot_pow_half inRange) g
    rw [twoAdicRoot_mul_self inRange,
      twoAdicRoot_mul_self (Nat.le_of_succ_le inRange)] at folded
    simp only [foldedPolynomial, evalAt_rescale]
    exact folded

variable (coeffs) in
/-- A round answers the evaluations of the folded polynomial. -/
theorem foldColumn_evaluations
    (nonzero : cosetShift ≠ 0)
    (inRange : log + logArity ≤ 32) :
    foldColumn logArity
        (cosetEvaluations (log + logArity) cosetShift coeffs) beta cosetShift =
      some
        (cosetEvaluations log cosetShift
          (foldedPolynomial logArity beta cosetShift coeffs)) := by
  rw [foldColumn_eq beta nonzero arity (length_cosetEvaluations _ _ _) inRange]
  apply congrArg some
  apply List.map_congr_left
  intro g listed
  rw [List.mem_range] at listed
  have value {index : Nat} (listed : index < 2 ^ (log + logArity)) :=
    getD_cosetEvaluations cosetShift coeffs listed
  have room : 2 ^ (log + logArity) = 2 ^ logArity * 2 ^ log := by
    rw [pow_add, Nat.mul_comm]
  refine Eq.trans ?_ (neighbourFold_evalAt beta arity nonzero inRange g)
  rcases arity with rfl | rfl
  · simp only [neighbourFold]
    rw [value (by omega), value (by omega)]
  · simp only [neighbourFold]
    rw [value (by omega), value (by omega), value (by omega),
      value (by omega)]

end Polynomials

end ScalarCore.VerifierPy
