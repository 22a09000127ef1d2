import ScalarCore.Goldilocks
import ScalarCore.MachineInt
import ScalarCore.SquareMultiply

namespace ScalarCore

/-!
# Field arithmetic on machine words

Elements of the field are computed with as 64-bit words.  Sums and products are
reduced without a division: what exceeds `2^64` is folded back as a multiple of
`2^32 - 1`, and at the end the prime is subtracted once.
-/

open MachineInt

/-- `field_add`. -/
def fieldAdd (a b : UInt64) : UInt64 :=
  let (sum, carry) := overflowingAdd a b
  if carry ∨ sum ≥ goldilocksPrime then
    sum - goldilocksPrime
  else
    sum

/-- `field_sub`. -/
def fieldSub (a b : UInt64) : UInt64 :=
  if a ≥ b then
    a - b
  else
    a - b + goldilocksPrime

/-- The low 64 bits of a 128-bit word. -/
def lowWord (x : BitVec 128) : UInt64 :=
  UInt64.ofBitVec (x.setWidth 64)

/-- The high 64 bits of a 128-bit word. -/
def highWord (x : BitVec 128) : UInt64 :=
  lowWord (x >>> 64)

/-- A 64-bit word in 128 bits. -/
def toU128 (word : UInt64) : BitVec 128 :=
  word.toBitVec.setWidth 128

/-- `2^32 - 1`, which is `2^64` in the field. -/
def epsilon : UInt64 :=
  ((1 : UInt64) <<< 32) - 1

/-- `reduce_u128`. -/
def reduceU128 (x : BitVec 128) : UInt64 :=
  let lo := lowWord x
  let hi := highWord x
  let hiLo := toU128 hi * toU128 epsilon
  let (sum, carry) := overflowingAdd lo (lowWord hiLo)
  let carryVal := highWord hiLo + carry.toUInt64
  let (result, overflow) := overflowingAdd sum (carryVal * epsilon)
  if overflow ∨ result ≥ goldilocksPrime then
    result - goldilocksPrime
  else
    result

/-- `field_mul`. -/
def fieldMul (a b : UInt64) : UInt64 :=
  reduceU128 (toU128 a * toU128 b)

/-- The loop of `field_pow`; `fuel` counts the bits of the exponent. -/
def fieldPowLoop : Nat → UInt64 → UInt64 → UInt64 → UInt64
  | 0, result, _, _ => result
  | fuel + 1, result, base, exp =>
      if exp > 0 then
        let next := if exp &&& 1 = 1 then fieldMul result base else result
        fieldPowLoop fuel next (fieldMul base base) (exp >>> 1)
      else
        result

/-- `field_pow`. -/
def fieldPow (base exp : UInt64) : UInt64 :=
  fieldPowLoop 64 1 (fieldReduce base) exp

/-!
## The subtraction of the prime
-/

/-- A sum with its carry, from which the prime is subtracted once. -/
theorem toNat_subtract_once
    {left right : UInt64}
    (bounded : left.toNat + right.toNat < 2 ^ 64 + goldilocksPrime.toNat) :
    (let (sum, carry) := overflowingAdd left right
      if carry ∨ sum ≥ goldilocksPrime then sum - goldilocksPrime else sum).toNat =
      if goldilocksPrime.toNat ≤ left.toNat + right.toNat then
        left.toNat + right.toNat - goldilocksPrime.toNat
      else
        left.toNat + right.toNat := by
  have prime : goldilocksPrime.toNat = 18446744069414584321 := rfl
  have largest : maxU64 = 18446744073709551615 := rfl
  have leftBound := left.toNat_lt
  have rightBound := right.toNat_lt
  simp only [overflowingAdd, decide_eq_true_eq, ge_iff_le, UInt64.le_iff_toNat_le,
    UInt64.toNat_add, apply_ite UInt64.toNat, UInt64.toNat_sub, prime] at bounded ⊢
  split <;> split <;> omega

/-- Below twice the prime, the result is the remainder. -/
theorem toNat_subtract_once_eq_mod
    {left right : UInt64}
    (bounded : left.toNat + right.toNat < 2 * goldilocksPrime.toNat) :
    (let (sum, carry) := overflowingAdd left right
      if carry ∨ sum ≥ goldilocksPrime then sum - goldilocksPrime else sum).toNat =
      (left.toNat + right.toNat) % goldilocksPrime.toNat := by
  have prime : goldilocksPrime.toNat = 18446744069414584321 := rfl
  rw [toNat_subtract_once (by omega)]
  split
  · next large =>
      rw [Nat.mod_eq_sub_mod large, Nat.mod_eq_of_lt (by omega)]
  · next small =>
      exact (Nat.mod_eq_of_lt (Nat.lt_of_not_le small)).symm

/-!
## Addition and subtraction
-/

/-- A word below the prime. -/
abbrev CanonicalWord :=
  { word : UInt64 // word < goldilocksPrime }

theorem CanonicalWord.toNat_lt (word : CanonicalWord) :
    word.val.toNat < goldilocksPrime.toNat :=
  UInt64.lt_iff_toNat_lt.mp word.property

/-- The sum of canonical words is their sum in the field. -/
theorem toNat_fieldAdd (a b : CanonicalWord) :
    (fieldAdd a.val b.val).toNat =
      (a.val.toNat + b.val.toNat) % goldilocksPrime.toNat := by
  have aBound := a.toNat_lt
  have bBound := b.toNat_lt
  exact toNat_subtract_once_eq_mod (by omega)

/-- The difference of canonical words is their difference in the field. -/
theorem toNat_fieldSub (a b : CanonicalWord) :
    ((fieldSub a.val b.val).toNat : Int) =
      ((a.val.toNat : Int) - b.val.toNat) % goldilocksPrime.toNat := by
  have prime : goldilocksPrime.toNat = 18446744069414584321 := rfl
  have aBound := a.toNat_lt
  have bBound := b.toNat_lt
  simp only [fieldSub, ge_iff_le, UInt64.le_iff_toNat_le, apply_ite UInt64.toNat,
    UInt64.toNat_add, UInt64.toNat_sub, prime] at aBound bBound ⊢
  split <;> omega

/-!
## Multiplication
-/

theorem toNat_lowWord (x : BitVec 128) :
    (lowWord x).toNat = x.toNat % 2 ^ 64 := by
  rw [lowWord, UInt64.toNat_ofBitVec, BitVec.toNat_setWidth]

theorem toNat_highWord (x : BitVec 128) :
    (highWord x).toNat = x.toNat / 2 ^ 64 := by
  have xBound := x.isLt
  rw [highWord, toNat_lowWord, BitVec.toNat_ushiftRight, Nat.shiftRight_eq_div_pow]
  omega

/-- A product of two words fits 128 bits. -/
theorem toNat_toU128_mul (a b : UInt64) :
    (toU128 a * toU128 b).toNat = a.toNat * b.toNat := by
  have widened (word : UInt64) : (toU128 word).toNat = word.toNat := by
    rw [toU128, BitVec.toNat_setWidth, UInt64.toNat_toBitVec]
    exact Nat.mod_eq_of_lt (word.toNat_lt.trans (by decide))
  have fits : a.toNat * b.toNat < 2 ^ 128 :=
    calc
      a.toNat * b.toNat < 2 ^ 64 * 2 ^ 64 :=
        Nat.mul_lt_mul'' a.toNat_lt b.toNat_lt
      _ = 2 ^ 128 := by
        decide
  rw [BitVec.toNat_mul, widened, widened, Nat.mod_eq_of_lt fits]

/-- In the field `2^64` is `2^32 - 1`. -/
theorem fold_modEq (value : Nat) :
    value % 2 ^ 64 + value / 2 ^ 64 * (2 ^ 32 - 1) ≡ value [MOD goldilocksPrime.toNat] := by
  have folded : 2 ^ 32 - 1 ≡ 2 ^ 64 [MOD goldilocksPrime.toNat] := by
    decide
  calc
    value % 2 ^ 64 + value / 2 ^ 64 * (2 ^ 32 - 1)
      ≡ value % 2 ^ 64 + value / 2 ^ 64 * 2 ^ 64 [MOD goldilocksPrime.toNat] :=
        (folded.mul_left _).add_left _
    _ = value := Nat.mod_add_div' value (2 ^ 64)

/-- The carried sum of a word and a product is the exact one, in two words. -/
theorem toNat_fold_carry
    (lo : UInt64)
    (product : BitVec 128)
    (bounded : product.toNat ≤ (2 ^ 64 - 1) * (2 ^ 32 - 1)) :
    (overflowingAdd lo (lowWord product)).1.toNat = (lo.toNat + product.toNat) % 2 ^ 64 ∧
      (highWord product + (overflowingAdd lo (lowWord product)).2.toUInt64).toNat =
        (lo.toNat + product.toNat) / 2 ^ 64 := by
  have largest : maxU64 = 18446744073709551615 := rfl
  have loBound := lo.toNat_lt
  have low := toNat_lowWord product
  have high := toNat_highWord product
  constructor
  · rw [overflowingAdd, UInt64.toNat_add, low, Nat.add_mod_mod]
  · rw [UInt64.toNat_add, overflowingAdd]
    by_cases carries : maxU64 < lo.toNat + (lowWord product).toNat
    · rw [decide_eq_true carries, high]
      change (product.toNat / 2 ^ 64 + 1) % 2 ^ 64 = _
      omega
    · rw [decide_eq_false carries, high]
      change (product.toNat / 2 ^ 64 + 0) % 2 ^ 64 = _
      omega

/-- A 128-bit word is reduced to its remainder. -/
theorem toNat_reduceU128 (x : BitVec 128) :
    (reduceU128 x).toNat = x.toNat % goldilocksPrime.toNat := by
  have prime : goldilocksPrime.toNat = 18446744069414584321 := rfl
  have eps : epsilon.toNat = 2 ^ 32 - 1 := rfl
  have loBound := (lowWord x).toNat_lt
  have hiBound := (highWord x).toNat_lt
  have hiLo := toNat_toU128_mul (highWord x) epsilon
  have once := fold_modEq x.toNat
  rw [← toNat_lowWord, ← toNat_highWord, ← eps, ← hiLo] at once
  rw [eps] at hiLo
  dsimp only [reduceU128]
  generalize toU128 (highWord x) * toU128 epsilon = product at hiLo once ⊢
  obtain ⟨isSum, isCarry⟩ := toNat_fold_carry (lowWord x) product (by omega)
  have twice := fold_modEq ((lowWord x).toNat + product.toNat)
  rw [← isSum, ← isCarry, ← eps] at twice
  generalize overflowingAdd (lowWord x) (lowWord product) = added at isSum isCarry twice ⊢
  have second :
      ((highWord product + added.2.toUInt64) * epsilon).toNat =
        (highWord product + added.2.toUInt64).toNat * epsilon.toNat := by
    rw [UInt64.toNat_mul, isCarry, eps]
    omega
  rw [← second] at twice
  have bounded :
      added.1.toNat + ((highWord product + added.2.toUInt64) * epsilon).toNat <
        2 * goldilocksPrime.toNat := by
    rw [second, isSum, isCarry, eps]
    omega
  calc
    _ = (added.1.toNat + ((highWord product + added.2.toUInt64) * epsilon).toNat) %
          goldilocksPrime.toNat :=
        toNat_subtract_once_eq_mod bounded
    _ = x.toNat % goldilocksPrime.toNat :=
        twice.trans once

/-- The product of two words is their product in the field. -/
theorem toNat_fieldMul (a b : UInt64) :
    (fieldMul a b).toNat = a.toNat * b.toNat % goldilocksPrime.toNat := by
  rw [fieldMul, toNat_reduceU128, toNat_toU128_mul]

/-!
## The words as field elements
-/

/-- A remainder by the prime is the same element. -/
theorem natCast_mod_goldilocksPrime (value : Nat) :
    ((value % goldilocksPrime.toNat : Nat) : Goldilocks) = value :=
  ZMod.natCast_mod value _

/-- The canonical word of an element is the remainder of any number that denotes it. -/
theorem toNat_eq_mod_of_new_eq
    {word : UInt64}
    (canonical : word < goldilocksPrime)
    {value : Nat}
    (same : Goldilocks.new word = value) :
    word.toNat = value % goldilocksPrime.toNat := by
  have remainders :
      word.toNat % goldilocksPrime.toNat = value % goldilocksPrime.toNat :=
    (ZMod.natCast_eq_natCast_iff' _ _ _).mp same
  rwa [Nat.mod_eq_of_lt (UInt64.lt_iff_toNat_lt.mp canonical)] at remainders

@[simp] theorem new_fieldMul (a b : UInt64) :
    Goldilocks.new (fieldMul a b) = Goldilocks.new a * Goldilocks.new b := by
  rw [Goldilocks.new, toNat_fieldMul, natCast_mod_goldilocksPrime, Nat.cast_mul]
  rfl

theorem fieldMul_lt (a b : UInt64) : fieldMul a b < goldilocksPrime := by
  rw [UInt64.lt_iff_toNat_lt, toNat_fieldMul]
  exact Nat.mod_lt _ (by decide)

/-- The sum of a canonical word and any word is their sum in the field. -/
theorem new_fieldAdd
    {a : UInt64}
    (canonical : a < goldilocksPrime)
    (b : UInt64) :
    Goldilocks.new (fieldAdd a b) = Goldilocks.new a + Goldilocks.new b := by
  have aBound := UInt64.lt_iff_toNat_lt.mp canonical
  have bBound := b.toNat_lt
  have sum : (fieldAdd a b).toNat = _ := toNat_subtract_once (by omega)
  rw [Goldilocks.new, sum, Goldilocks.new, Goldilocks.new, ← Nat.cast_add]
  split
  · next large =>
      rw [← natCast_mod_goldilocksPrime, ← Nat.mod_eq_sub_mod large, natCast_mod_goldilocksPrime]
  · rfl

theorem fieldAdd_lt
    {a b : UInt64}
    (canonical : a < goldilocksPrime)
    (canonical' : b < goldilocksPrime) :
    fieldAdd a b < goldilocksPrime := by
  rw [UInt64.lt_iff_toNat_lt, toNat_fieldAdd ⟨a, canonical⟩ ⟨b, canonical'⟩]
  exact Nat.mod_lt _ (by decide)

/-!
## Powers
-/

/-- The loop keeps the product of the result and the power of the base. -/
theorem new_fieldPowLoop
    {fuel : Nat}
    {result base exp : UInt64}
    (enough : exp.toNat < 2 ^ fuel) :
    Goldilocks.new (fieldPowLoop fuel result base exp) =
      Goldilocks.new result * Goldilocks.new base ^ exp.toNat := by
  induction fuel generalizing result base exp with
  | zero =>
      rw [Nat.lt_one_iff.mp enough, pow_zero, mul_one]
      rfl
  | succ fuel inductionHypothesis =>
      have halved : (exp >>> 1).toNat = exp.toNat / 2 :=
        Nat.shiftRight_eq_div_pow exp.toNat 1
      have lowest : exp &&& 1 = 1 ↔ exp.toNat % 2 = 1 := by
        rw [← UInt64.toNat_inj, UInt64.toNat_and, UInt64.toNat_one, Nat.and_one_is_mod]
      have fewer : (exp >>> 1).toNat < 2 ^ fuel := by
        rw [halved]
        omega
      rw [fieldPowLoop]
      by_cases positive : exp > 0
      · rw [if_pos positive, inductionHypothesis fewer, halved, new_fieldMul]
        by_cases odd : exp.toNat % 2 = 1
        · rw [if_pos (lowest.mpr odd), new_fieldMul]
          exact SquareMultiply.mul_mul_pow_half odd _ _
        · rw [if_neg (mt lowest.mp odd)]
          exact SquareMultiply.mul_pow_half odd _ _
      · have isZero : exp.toNat = 0 := by
          rw [gt_iff_lt, UInt64.lt_iff_toNat_lt, UInt64.toNat_zero] at positive
          omega
        rw [if_neg positive, isZero, pow_zero, mul_one]

theorem fieldPowLoop_lt
    {fuel : Nat}
    {result base exp : UInt64}
    (canonical : result < goldilocksPrime) :
    fieldPowLoop fuel result base exp < goldilocksPrime := by
  induction fuel generalizing result base exp with
  | zero =>
      exact canonical
  | succ fuel inductionHypothesis =>
      rw [fieldPowLoop]
      split
      · apply inductionHypothesis
        split
        · exact fieldMul_lt _ _
        · exact canonical
      · exact canonical

theorem fieldPow_lt (base exp : UInt64) : fieldPow base exp < goldilocksPrime :=
  fieldPowLoop_lt (by decide)

/-- The 64 bits of the exponent are enough for every power. -/
@[simp] theorem new_fieldPow (base exp : UInt64) :
    Goldilocks.new (fieldPow base exp) = Goldilocks.new base ^ exp.toNat := by
  have one : Goldilocks.new 1 = 1 := by
    decide
  rw [fieldPow, new_fieldPowLoop exp.toNat_lt, one, one_mul, Goldilocks.new_fieldReduce]

theorem toNat_fieldPow (base exp : UInt64) :
    (fieldPow base exp).toNat = base.toNat ^ exp.toNat % goldilocksPrime.toNat := by
  refine toNat_eq_mod_of_new_eq (fieldPow_lt base exp) ?_
  rw [new_fieldPow, Nat.cast_pow]
  rfl

/--
Every operation answers the canonical representative: products of any words,
remainders of any 128-bit word, sums and differences of canonical words and
powers with any exponent.
-/
theorem goldilocks_arithmetic :
    (∀ a b : UInt64,
      fieldMul a b < goldilocksPrime ∧
        (fieldMul a b).toNat = a.toNat * b.toNat % goldilocksPrime.toNat) ∧
      (∀ x : BitVec 128, (reduceU128 x).toNat = x.toNat % goldilocksPrime.toNat) ∧
      (∀ a b : CanonicalWord,
        (fieldAdd a.val b.val).toNat =
          (a.val.toNat + b.val.toNat) % goldilocksPrime.toNat) ∧
      (∀ a b : CanonicalWord,
        ((fieldSub a.val b.val).toNat : Int) =
          ((a.val.toNat : Int) - b.val.toNat) % goldilocksPrime.toNat) ∧
      ∀ (a : CanonicalWord) (exp : UInt64),
        fieldPow a.val exp < goldilocksPrime ∧
          (fieldPow a.val exp).toNat = a.val.toNat ^ exp.toNat % goldilocksPrime.toNat :=
  ⟨fun a b => ⟨fieldMul_lt a b, toNat_fieldMul a b⟩, toNat_reduceU128, toNat_fieldAdd,
    toNat_fieldSub, fun a exp => ⟨fieldPow_lt a.val exp, toNat_fieldPow a.val exp⟩⟩

end ScalarCore
