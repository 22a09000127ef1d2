import Mathlib.Algebra.Module.LinearMap.Defs
import Mathlib.Data.List.Basic
import Mathlib.Tactic.Module

namespace PolynomialFold

/-!
# Folding a polynomial through its values

A polynomial is the list of its coefficients, vectors over a field, and is
evaluated at points of the field.  Folding takes its values at `x` and `-x` to
the value at `x * x` of a polynomial with half the coefficients.

On a coset of the roots of unity of order `2 ^ log`, listed in bit-reversed
order, neighbours are opposite points.  So folding neighbours gives the values
of the folded polynomial on a coset of the squares, again in bit-reversed order.
-/

/-!
## Bit reversal
-/

/-- One step for each bit: the lowest bit of `x` is appended to the result. -/
def bitReverseLoop : Nat → Nat → Nat → Nat
  | 0, _, result => result
  | bits + 1, x, result =>
      bitReverseLoop bits (x >>> 1) ((result <<< 1) ||| (x &&& 1))

/-- The lowest bits of a number in reverse. -/
def bitReverse (x bits : Nat) : Nat :=
  bitReverseLoop bits x 0

/-- Appending a bit doubles the result and adds the bit. -/
theorem bitReverseLoop_succ (bits x result : Nat) :
    bitReverseLoop (bits + 1) x result =
      bitReverseLoop bits (x / 2) (2 * result + x % 2) := by
  have bit : x % 2 < 2 ^ 1 := Nat.mod_lt x (by decide)
  rw [bitReverseLoop, Nat.shiftRight_one, Nat.and_one_is_mod,
    ← Nat.shiftLeft_add_eq_or_of_lt bit, Nat.shiftLeft_eq, pow_one,
    Nat.mul_comm]

/-- What was there before is moved up by one place for each bit. -/
theorem bitReverseLoop_eq (bits x result : Nat) :
    bitReverseLoop bits x result = result * 2 ^ bits + bitReverse x bits := by
  induction bits generalizing x result with
  | zero =>
      simp [bitReverse, bitReverseLoop]
  | succ bits inductionHypothesis =>
      rw [bitReverse, bitReverseLoop_succ, bitReverseLoop_succ,
        inductionHypothesis, inductionHypothesis _ (2 * 0 + x % 2)]
      ring

/-- The lowest bit becomes the highest one. -/
theorem bitReverse_succ (x bits : Nat) :
    bitReverse x (bits + 1) = x % 2 * 2 ^ bits + bitReverse (x / 2) bits := by
  rw [bitReverse, bitReverseLoop_succ, bitReverseLoop_eq, Nat.mul_zero,
    Nat.zero_add]

@[simp] theorem bitReverse_even (x bits : Nat) :
    bitReverse (2 * x) (bits + 1) = bitReverse x bits := by
  rw [bitReverse_succ, Nat.mul_mod_right, Nat.zero_mul, Nat.zero_add,
    Nat.mul_div_cancel_left x (by decide)]

@[simp] theorem bitReverse_odd (x bits : Nat) :
    bitReverse (2 * x + 1) (bits + 1) = 2 ^ bits + bitReverse x bits := by
  have lowest : (2 * x + 1) % 2 = 1 := by omega
  have others : (2 * x + 1) / 2 = x := by omega
  rw [bitReverse_succ, lowest, others, Nat.one_mul]

/-- A reversed number has no more bits than were reversed. -/
theorem bitReverse_lt (x bits : Nat) :
    bitReverse x bits < 2 ^ bits := by
  induction bits generalizing x with
  | zero =>
      exact Nat.one_pos
  | succ bits inductionHypothesis =>
      have lower := inductionHypothesis (x / 2)
      have bit : x % 2 ≤ 1 := Nat.le_of_lt_succ (Nat.mod_lt x (by decide))
      have upper := Nat.mul_le_mul_right (2 ^ bits) bit
      rw [bitReverse_succ, pow_succ]
      omega

/-- The highest bit becomes the lowest one. -/
theorem bitReverse_high
    {x bits : Nat}
    (inRange : x < 2 ^ bits)
    {bit : Nat}
    (isBit : bit < 2) :
    bitReverse (x + bit * 2 ^ bits) (bits + 1) =
      2 * bitReverse x bits + bit := by
  induction bits generalizing x with
  | zero =>
      rw [pow_zero, Nat.lt_one_iff] at inRange
      rw [bitReverse_succ, inRange, pow_zero, Nat.mul_one, Nat.mul_one,
        Nat.zero_add, Nat.mod_eq_of_lt isBit, Nat.div_eq_of_lt isBit,
        Nat.add_comm]
      rfl
  | succ bits inductionHypothesis =>
      rw [pow_succ] at inRange
      have lowest : (x + bit * 2 ^ (bits + 1)) % 2 = x % 2 := by
        rw [pow_succ, ← Nat.mul_assoc, Nat.add_mul_mod_self_right]
      have others :
          (x + bit * 2 ^ (bits + 1)) / 2 = x / 2 + bit * 2 ^ bits := by
        rw [pow_succ, ← Nat.mul_assoc, Nat.add_mul_div_right _ _ Nat.two_pos]
      rw [bitReverse_succ, lowest, others, inductionHypothesis (by omega),
        bitReverse_succ x bits]
      ring

/-- Reversing twice changes nothing. -/
theorem bitReverse_bitReverse
    {x bits : Nat}
    (inRange : x < 2 ^ bits) :
    bitReverse (bitReverse x bits) bits = x := by
  induction bits generalizing x with
  | zero =>
      exact (Nat.lt_one_iff.mp inRange).symm
  | succ bits inductionHypothesis =>
      rw [pow_succ] at inRange
      rw [bitReverse_succ x, Nat.add_comm,
        bitReverse_high (bitReverse_lt _ _) (Nat.mod_lt x Nat.two_pos),
        inductionHypothesis (by omega), Nat.div_add_mod]

/-- Zeros above a number come below its reverse. -/
theorem bitReverse_of_lt
    {x bits : Nat}
    (inRange : x < 2 ^ bits)
    (more : Nat) :
    bitReverse x (bits + more) = 2 ^ more * bitReverse x bits := by
  induction more with
  | zero =>
      rw [pow_zero, Nat.one_mul, Nat.add_zero]
  | succ more inductionHypothesis =>
      have wider : x < 2 ^ (bits + more) :=
        inRange.trans_le (Nat.pow_le_pow_right Nat.two_pos (Nat.le_add_right _ _))
      have reversed := bitReverse_high wider Nat.two_pos
      rw [Nat.zero_mul, Nat.add_zero, Nat.add_zero, inductionHypothesis]
        at reversed
      rw [← Nat.add_assoc, reversed]
      ring

/-!
## Coefficients and values
-/

variable {F V : Type*}
  [Field F] [AddCommGroup V] [Module F V]

/-- Two is written as a literal of the field. -/
scoped instance instAtLeastTwoTwo : Nat.AtLeastTwo 2 :=
  ⟨le_rfl⟩

/-- The value at a point of the polynomial with the listed coefficients. -/
def evalAt (coeffs : List V) (x : F) : V :=
  coeffs.foldr (fun coeff value => coeff + x • value) 0

/-- The polynomial in a multiple of the variable. -/
def rescale (factor : F) : List V → List V
  | [] => []
  | coeff :: rest =>
      coeff :: (rescale factor rest).map fun later => factor • later

/-- Each pair of coefficients folded into one. -/
def foldCoeffs (fold : V →ₗ[F] V) : List V → List V
  | even :: odd :: rest =>
      (even + fold ((2⁻¹ : F) • odd)) :: foldCoeffs fold rest
  | [] => []
  | [even] => [even]

/-- The fold of the values at a point and at its opposite. -/
def foldValues
    (fold : V →ₗ[F] V)
    (x : F)
    (plus minus : V) : V :=
  (2⁻¹ : F) • (plus + minus) +
    fold ((2 * x)⁻¹ • (2⁻¹ : F) • (plus - minus))

@[simp] theorem evalAt_cons (coeff : V) (rest : List V) (x : F) :
    evalAt (coeff :: rest) x = coeff + x • evalAt rest x :=
  rfl

theorem evalAt_singleton (coeff : V) (x : F) :
    evalAt [coeff] x = coeff := by
  simp [evalAt]

/-- A polynomial with one coefficient at most has one value. -/
theorem evalAt_eq_of_length_le_one
    {coeffs : List V}
    (constant : coeffs.length ≤ 1)
    (x y : F) :
    evalAt coeffs x = evalAt coeffs y := by
  match coeffs, constant with
  | [], _ =>
      rfl
  | [coeff], _ =>
      simp [evalAt]

theorem evalAt_map_smul (factor : F) (coeffs : List V) (x : F) :
    evalAt (coeffs.map fun coeff => factor • coeff) x =
      factor • evalAt coeffs x := by
  induction coeffs with
  | nil =>
      exact (smul_zero factor).symm
  | cons coeff rest inductionHypothesis =>
      rw [List.map_cons, evalAt_cons, inductionHypothesis, evalAt_cons,
        smul_add, smul_comm]

@[simp] theorem length_rescale (factor : F) (coeffs : List V) :
    (rescale factor coeffs).length = coeffs.length := by
  induction coeffs with
  | nil =>
      rfl
  | cons coeff rest inductionHypothesis =>
      simp [rescale, inductionHypothesis]

/-- The rescaled polynomial has the values at the multiples. -/
theorem evalAt_rescale (factor : F) (coeffs : List V) (x : F) :
    evalAt (rescale factor coeffs) x = evalAt coeffs (factor * x) := by
  induction coeffs with
  | nil =>
      rfl
  | cons coeff rest inductionHypothesis =>
      rw [rescale, evalAt_cons, evalAt_map_smul, inductionHypothesis,
        evalAt_cons, smul_smul, mul_comm]

/-- Coefficients of zero at the end change no value. -/
theorem evalAt_append_zeros (coeffs : List V) (zeros : Nat) (x : F) :
    evalAt (coeffs ++ List.replicate zeros 0) x = evalAt coeffs x := by
  induction coeffs with
  | nil =>
      induction zeros with
      | zero =>
          rfl
      | succ zeros inductionHypothesis =>
          rw [List.nil_append] at inductionHypothesis ⊢
          rw [List.replicate_succ, evalAt_cons, inductionHypothesis, zero_add]
          exact smul_zero x
  | cons coeff rest inductionHypothesis =>
      rw [List.cons_append, evalAt_cons, inductionHypothesis, evalAt_cons]

/-- A polynomial with one coefficient that is not zero. -/
theorem evalAt_monomial (degree : Nat) (coeff : V) (x : F) :
    evalAt (List.replicate degree 0 ++ [coeff]) x = x ^ degree • coeff := by
  induction degree with
  | zero =>
      simp [evalAt]
  | succ degree inductionHypothesis =>
      rw [List.replicate_succ, List.cons_append, evalAt_cons,
        inductionHypothesis, zero_add, smul_smul, ← pow_succ']

/-- Half of the coefficients remain, rounded up. -/
theorem length_foldCoeffs (fold : V →ₗ[F] V) (coeffs : List V) :
    (foldCoeffs fold coeffs).length = (coeffs.length + 1) / 2 := by
  induction coeffs using foldCoeffs.induct with
  | case1 even odd rest inductionHypothesis =>
      simp only [foldCoeffs, List.length_cons, inductionHypothesis]
      omega
  | case2 =>
      simp [foldCoeffs]
  | case3 even =>
      simp [foldCoeffs]

/-- Rescaling multiplies a single coefficient by a power. -/
theorem rescale_monomial (factor : F) (degree : Nat) (coeff : V) :
    rescale factor (List.replicate degree 0 ++ [coeff]) =
      List.replicate degree 0 ++ [factor ^ degree • coeff] := by
  induction degree with
  | zero =>
      simp [rescale]
  | succ degree inductionHypothesis =>
      rw [List.replicate_succ, List.cons_append, rescale, inductionHypothesis]
      simp [pow_succ', mul_smul]

/-- Folding halves the degree of a single coefficient. -/
theorem foldCoeffs_monomial (fold : V →ₗ[F] V) (degree : Nat) (coeff : V) :
    foldCoeffs fold (List.replicate (2 * degree) 0 ++ [coeff]) =
      List.replicate degree 0 ++ [coeff] := by
  induction degree with
  | zero =>
      rfl
  | succ degree inductionHypothesis =>
      rw [Nat.mul_succ, List.replicate_succ, List.replicate_succ,
        List.cons_append, List.cons_append, foldCoeffs, inductionHypothesis,
        smul_zero, map_zero, add_zero]
      rfl

/-- Folding takes two coefficients to one and leaves the square alone. -/
theorem foldValues_pair
    (fold : V →ₗ[F] V)
    (two_ne_zero : (2 : F) ≠ 0)
    {x : F}
    (nonzero : x ≠ 0)
    (even odd plus minus : V) :
    foldValues fold x (even + x • (odd + x • plus))
        (even + (-x) • (odd + (-x) • minus)) =
      even + fold ((2⁻¹ : F) • odd) +
        (x * x) • foldValues fold x plus minus := by
  have halved : (2⁻¹ : F) • (2 : F) • even = even :=
    inv_smul_smul₀ two_ne_zero even
  have divided :
      (2 * x)⁻¹ • (2⁻¹ : F) • (2 * x) • odd = (2⁻¹ : F) • odd := by
    rw [smul_comm, inv_smul_smul₀ (mul_ne_zero two_ne_zero nonzero)]
  have sum :
      even + x • (odd + x • plus) + (even + (-x) • (odd + (-x) • minus)) =
        (2 : F) • even + (x * x) • (plus + minus) := by
    module
  have halfSum :
      (2⁻¹ : F) • ((2 : F) • even + (x * x) • (plus + minus)) =
        even + (x * x) • (2⁻¹ : F) • (plus + minus) := by
    rw [smul_add, halved, smul_comm]
  have difference :
      even + x • (odd + x • plus) - (even + (-x) • (odd + (-x) • minus)) =
        (2 * x) • odd + (x * x) • (plus - minus) := by
    module
  have halfDifference :
      (2 * x)⁻¹ • (2⁻¹ : F) • ((2 * x) • odd + (x * x) • (plus - minus)) =
        (2⁻¹ : F) • odd +
          (x * x) • (2 * x)⁻¹ • (2⁻¹ : F) • (plus - minus) := by
    rw [smul_add, smul_add, divided, smul_comm (2⁻¹ : F) (x * x),
      smul_comm (2 * x)⁻¹ (x * x)]
  rw [foldValues, sum, halfSum, difference, halfDifference, map_add,
    map_smul fold (x * x), foldValues, smul_add (x * x),
    add_add_add_comm]

/-- Folding opposite values evaluates the folded polynomial at the square. -/
theorem foldValues_evalAt
    (fold : V →ₗ[F] V)
    (coeffs : List V)
    (two_ne_zero : (2 : F) ≠ 0)
    {x : F}
    (nonzero : x ≠ 0) :
    foldValues fold x (evalAt coeffs x) (evalAt coeffs (-x)) =
      evalAt (foldCoeffs fold coeffs) (x * x) := by
  induction coeffs using foldCoeffs.induct with
  | case1 even odd rest inductionHypothesis =>
      simp only [evalAt_cons]
      rw [foldValues_pair fold two_ne_zero nonzero, inductionHypothesis,
        foldCoeffs, evalAt_cons]
  | case2 =>
      simp [evalAt, foldValues, foldCoeffs]
  | case3 even =>
      have alone := foldValues_pair fold two_ne_zero nonzero even 0 0 0
      simpa [evalAt, foldValues, foldCoeffs] using alone

/-!
## Values determine the coefficients
-/

/-- The quotient of a polynomial without its value at a point by `X - point`. -/
def quotientAt (point : F) : List V → List V
  | _ :: next :: rest =>
      evalAt (next :: rest) point :: quotientAt point (next :: rest)
  | [] => []
  | [_] => []

@[simp] theorem length_quotientAt (point : F) (coeffs : List V) :
    (quotientAt point coeffs).length = coeffs.length - 1 := by
  induction coeffs using quotientAt.induct with
  | case1 coeff next rest inductionHypothesis =>
      simp [quotientAt, inductionHypothesis]
  | case2 =>
      rfl
  | case3 coeff =>
      rfl

/-- The difference of two values is divided by that of the points. -/
theorem evalAt_sub_evalAt (coeffs : List V) (x point : F) :
    evalAt coeffs x - evalAt coeffs point =
      (x - point) • evalAt (quotientAt point coeffs) x := by
  induction coeffs using quotientAt.induct with
  | case1 coeff next rest inductionHypothesis =>
      rw [quotientAt, evalAt_cons coeff, evalAt_cons coeff,
        evalAt_cons (evalAt (next :: rest) point), smul_add,
        smul_comm (x - point) x, ← inductionHypothesis]
      module
  | case2 =>
      simp [evalAt, quotientAt]
  | case3 coeff =>
      simp [evalAt, quotientAt]

/-- A polynomial is determined by a quotient and the value at its point. -/
theorem eq_of_quotientAt_eq
    {point : F}
    {coeffs coeffs' : List V}
    (sameLength : coeffs.length = coeffs'.length)
    (sameQuotient : quotientAt point coeffs = quotientAt point coeffs')
    (sameValue : evalAt coeffs point = evalAt coeffs' point) :
    coeffs = coeffs' := by
  induction coeffs generalizing coeffs' with
  | nil =>
      exact (List.length_eq_zero_iff.mp sameLength.symm).symm
  | cons coeff rest inductionHypothesis =>
      match coeffs', sameLength with
      | coeff' :: rest', sameLength =>
          have restLength : rest.length = rest'.length :=
            Nat.succ_inj.mp sameLength
          have sameRest : rest = rest' := by
            match rest, rest', restLength with
            | [], [], _ =>
                rfl
            | next :: later, next' :: later', restLength =>
                rw [quotientAt, quotientAt, List.cons.injEq] at sameQuotient
                exact
                  inductionHypothesis restLength sameQuotient.2 sameQuotient.1
          rw [evalAt_cons, evalAt_cons, sameRest] at sameValue
          rw [sameRest, add_right_cancel sameValue]

/-- As many values as coefficients determine a polynomial. -/
theorem eq_of_evalAt_eq
    {points : List F}
    (distinct : points.Nodup)
    {coeffs coeffs' : List V}
    (sameLength : coeffs.length = coeffs'.length)
    (enough : coeffs.length ≤ points.length)
    (sameValues : ∀ x ∈ points, evalAt coeffs x = evalAt coeffs' x) :
    coeffs = coeffs' := by
  induction points generalizing coeffs coeffs' with
  | nil =>
      have none := List.length_eq_zero_iff.mp (Nat.le_zero.mp enough)
      rw [none, List.length_nil] at sameLength
      rw [none, List.length_eq_zero_iff.mp sameLength.symm]
  | cons point rest inductionHypothesis =>
      rw [List.nodup_cons] at distinct
      rw [List.forall_mem_cons] at sameValues
      apply eq_of_quotientAt_eq sameLength _ sameValues.1
      apply inductionHypothesis distinct.2
      · rw [length_quotientAt, length_quotientAt, sameLength]
      · rw [length_quotientAt]
        exact Nat.sub_le_of_le_add enough
      · intro x listed
        have other : x - point ≠ 0 := by
          intro same
          rw [sub_eq_zero.mp same] at listed
          exact distinct.1 listed
        have difference := evalAt_sub_evalAt coeffs x point
        rw [sameValues.1, sameValues.2 x listed, evalAt_sub_evalAt] at difference
        exact (smul_right_injective V other difference).symm

/-- Nor can fewer coefficients have other values elsewhere. -/
theorem evalAt_eq_of_sameValues
    {points : List F}
    (distinct : points.Nodup)
    {coeffs coeffs' : List V}
    (shorter : coeffs'.length ≤ coeffs.length)
    (enough : coeffs.length ≤ points.length)
    (sameValues : ∀ x ∈ points, evalAt coeffs x = evalAt coeffs' x)
    (x : F) :
    evalAt coeffs x = evalAt coeffs' x := by
  have padded :
      coeffs = coeffs' ++ List.replicate (coeffs.length - coeffs'.length) 0 := by
    apply eq_of_evalAt_eq distinct _ enough
    · intro point listed
      rw [evalAt_append_zeros, sameValues point listed]
    · rw [List.length_append, List.length_replicate]
      omega
  rw [padded, evalAt_append_zeros]

/-!
## Cosets in bit-reversed order
-/

/-- The point at a position of the bit-reversed coset. -/
def cosetPoint (root shift : F) (log index : Nat) : F :=
  shift * root ^ bitReverse index log

/-- The values on the coset, in bit-reversed order. -/
def evaluations
    (root shift : F)
    (log : Nat)
    (coeffs : List V) : List V :=
  (List.range (2 ^ log)).map fun index =>
    evalAt coeffs (cosetPoint root shift log index)

@[simp] theorem length_evaluations
    (root shift : F)
    (log : Nat)
    (coeffs : List V) :
    (evaluations root shift log coeffs).length = 2 ^ log := by
  simp [evaluations]

theorem getElem?_evaluations
    (root shift : F)
    {log : Nat}
    (coeffs : List V)
    {index : Nat}
    (inRange : index < 2 ^ log) :
    (evaluations root shift log coeffs)[index]? =
      some (evalAt coeffs (cosetPoint root shift log index)) := by
  rw [evaluations, List.getElem?_map, List.getElem?_range inRange,
    Option.map_some]

/-- The first values are those on the coset of a power of the root. -/
theorem take_evaluations
    (root shift : F)
    (log more : Nat)
    (coeffs : List V) :
    (evaluations root shift (log + more) coeffs).take (2 ^ log) =
      evaluations (root ^ 2 ^ more) shift log coeffs := by
  have fewer : 2 ^ log ≤ 2 ^ (log + more) :=
    Nat.pow_le_pow_right Nat.two_pos (Nat.le_add_right log more)
  rw [evaluations, ← List.map_take, List.take_range, Nat.min_eq_left fewer,
    evaluations]
  apply List.map_congr_left
  intro index listed
  rw [cosetPoint, bitReverse_of_lt (List.mem_range.mp listed), pow_mul,
    cosetPoint]

/-- The values of a constant are all equal. -/
theorem evaluations_eq_replicate
    {coeffs : List V}
    (constant : coeffs.length ≤ 1)
    (root shift : F)
    (log : Nat) :
    evaluations root shift log coeffs =
      List.replicate (2 ^ log) (evalAt coeffs (0 : F)) := by
  rw [evaluations]
  apply List.eq_replicate_iff.mpr
  refine ⟨by simp, fun value listed => ?_⟩
  rcases List.mem_map.mp listed with ⟨index, _, rfl⟩
  exact evalAt_eq_of_length_le_one constant _ _

theorem cosetPoint_ne_zero
    {root shift : F}
    (rootNonzero : root ≠ 0)
    (shiftNonzero : shift ≠ 0)
    (log index : Nat) :
    cosetPoint root shift log index ≠ 0 :=
  mul_ne_zero shiftNonzero (pow_ne_zero _ rootNonzero)

/-- Neighbours are opposite points. -/
theorem cosetPoint_odd
    {root shift : F}
    {log : Nat}
    (opposite : root ^ 2 ^ log = -1)
    (index : Nat) :
    cosetPoint root shift (log + 1) (2 * index + 1) =
      -cosetPoint root shift (log + 1) (2 * index) := by
  rw [cosetPoint, bitReverse_odd, pow_add, opposite, cosetPoint,
    bitReverse_even]
  ring

/-- The square of a point is a point of the coset of the squares, shifted. -/
theorem cosetPoint_even_mul_self
    (root shift : F)
    (log index : Nat) :
    cosetPoint root shift (log + 1) (2 * index) *
        cosetPoint root shift (log + 1) (2 * index) =
      shift * cosetPoint (root * root) shift log index := by
  rw [cosetPoint, bitReverse_even, cosetPoint, mul_pow]
  ring

section Cosets

variable (fold fold' : V →ₗ[F] V)
  (coeffs : List V)
  (two_ne_zero : (2 : F) ≠ 0)
  {root shift : F}
  (rootNonzero : root ≠ 0)
  (shiftNonzero : shift ≠ 0)
  {log : Nat}

include two_ne_zero rootNonzero shiftNonzero

/-- Folding neighbours evaluates the folded polynomial at the square. -/
theorem foldValues_neighbours
    (opposite : root ^ 2 ^ log = -1)
    (index : Nat) :
    foldValues fold (cosetPoint root shift (log + 1) (2 * index))
        (evalAt coeffs (cosetPoint root shift (log + 1) (2 * index)))
        (evalAt coeffs (cosetPoint root shift (log + 1) (2 * index + 1))) =
      evalAt (foldCoeffs fold coeffs)
        (shift * cosetPoint (root * root) shift log index) := by
  rw [cosetPoint_odd opposite,
    foldValues_evalAt fold coeffs two_ne_zero
      (cosetPoint_ne_zero rootNonzero shiftNonzero _ _),
    cosetPoint_even_mul_self]

/-- Folding four neighbours, the pairs first, folds the polynomial twice. -/
theorem foldValues_four_neighbours
    (opposite : root ^ 2 ^ (log + 1) = -1)
    (index : Nat) :
    foldValues fold'
        (cosetPoint root shift (log + 2) (4 * index) *
          cosetPoint root shift (log + 2) (4 * index))
        (foldValues fold (cosetPoint root shift (log + 2) (4 * index))
          (evalAt coeffs (cosetPoint root shift (log + 2) (4 * index)))
          (evalAt coeffs (cosetPoint root shift (log + 2) (4 * index + 1))))
        (foldValues fold (cosetPoint root shift (log + 2) (4 * index + 2))
          (evalAt coeffs (cosetPoint root shift (log + 2) (4 * index + 2)))
          (evalAt coeffs (cosetPoint root shift (log + 2) (4 * index + 3)))) =
      evalAt (foldCoeffs fold' (foldCoeffs fold coeffs))
        (shift * shift * shift *
          cosetPoint (root * root * (root * root)) shift log index) := by
  have firstPair : 4 * index = 2 * (2 * index) := by ring
  have secondPair : 4 * index + 2 = 2 * (2 * index + 1) := by ring
  have last : 4 * index + 3 = 2 * (2 * index + 1) + 1 := by ring
  have squareOpposite : (root * root) ^ 2 ^ log = -1 := by
    rw [← opposite, pow_succ, ← pow_two, ← pow_mul, Nat.mul_comm]
  rw [last, secondPair, firstPair,
    foldValues_neighbours fold coeffs two_ne_zero rootNonzero shiftNonzero
      opposite,
    foldValues_neighbours fold coeffs two_ne_zero rootNonzero shiftNonzero
      opposite,
    cosetPoint_even_mul_self, cosetPoint_odd squareOpposite, mul_neg,
    foldValues_evalAt fold' _ two_ne_zero
      (mul_ne_zero shiftNonzero
        (cosetPoint_ne_zero (mul_ne_zero rootNonzero rootNonzero)
          shiftNonzero _ _))]
  congr 1
  calc shift * cosetPoint (root * root) shift (log + 1) (2 * index) *
        (shift * cosetPoint (root * root) shift (log + 1) (2 * index))
      = shift * shift *
          (cosetPoint (root * root) shift (log + 1) (2 * index) *
            cosetPoint (root * root) shift (log + 1) (2 * index)) := by
        ring
    _ = shift * shift * shift *
          cosetPoint (root * root * (root * root)) shift log index := by
        rw [cosetPoint_even_mul_self, mul_assoc (shift * shift)]

end Cosets

end PolynomialFold
