import Mathlib.Algebra.Field.ZMod
import Mathlib.NumberTheory.LucasPrimality
import Mathlib.Tactic.NormNum.Prime
import Mathlib.Tactic.ReduceModChar
import ScalarCore.Poseidon2T8

namespace ScalarCore

/-!
# The Goldilocks field

The field of the circuits.  A machine word enters it by reduction, so two words
that differ by the prime are one element; the element answers the smaller one
as its canonical word.
-/

/-- The field of `2^64 - 2^32 + 1` elements. -/
abbrev Goldilocks :=
  ZMod 0xFFFFFFFF00000001

/-- The primes that divide the order of the multiplicative group. -/
theorem prime_dvd_order
    {divisor : Nat}
    (prime : divisor.Prime)
    (divides : divisor ∣ 0xFFFFFFFF00000001 - 1) :
    divisor ∈ [2, 3, 5, 17, 257, 65537] := by
  have factors :
      0xFFFFFFFF00000001 - 1 =
        2 ^ 32 * (3 * (5 * (17 * (257 * 65537)))) := by
    norm_num
  have same
      {factor : Nat}
      (isPrime : factor.Prime)
      (isFactor : divisor ∣ factor) :
      divisor = factor :=
    (Nat.prime_dvd_prime_iff_eq prime isPrime).mp isFactor
  rw [factors, prime.dvd_mul, prime.dvd_mul, prime.dvd_mul, prime.dvd_mul,
    prime.dvd_mul] at divides
  rcases divides with two | three | five | seventeen | other | last
  · rw [same Nat.prime_two (prime.dvd_of_dvd_pow two)]
    decide
  · rw [same Nat.prime_three three]
    decide
  · rw [same Nat.prime_five five]
    decide
  · rw [same (by norm_num) seventeen]
    decide
  · rw [same (by norm_num) other]
    decide
  · rw [same (by norm_num) last]
    decide

/-- The modulus is prime: 7 generates the multiplicative group. -/
theorem goldilocks_prime : Nat.Prime 0xFFFFFFFF00000001 := by
  apply lucas_primality _ (7 : Goldilocks)
  · norm_num only
    reduce_mod_char
  · intro divisor prime divides
    have listed := prime_dvd_order prime divides
    simp only [List.mem_cons, List.not_mem_nil, or_false] at listed
    rcases listed with rfl | rfl | rfl | rfl | rfl | rfl <;>
      (norm_num only; reduce_mod_char; decide)

instance fact_goldilocks_prime : Fact (Nat.Prime 0xFFFFFFFF00000001) :=
  ⟨goldilocks_prime⟩

namespace Goldilocks

/-- `Goldilocks::new`. -/
def new (value : UInt64) : Goldilocks :=
  value.toNat

/-- `as_canonical_u64`. -/
def asCanonicalU64 (element : Goldilocks) : UInt64 :=
  UInt64.ofNat element.val

theorem val_lt (element : Goldilocks) :
    element.val < 0xFFFFFFFF00000001 :=
  ZMod.val_lt element

@[simp] theorem toNat_asCanonicalU64 (element : Goldilocks) :
    (asCanonicalU64 element).toNat = element.val := by
  have bound := val_lt element
  rw [asCanonicalU64, UInt64.toNat_ofNat']
  exact Nat.mod_eq_of_lt (bound.trans (by decide))

/-- Canonical words are below the prime. -/
theorem asCanonicalU64_lt (element : Goldilocks) :
    asCanonicalU64 element < goldilocksPrime := by
  rw [UInt64.lt_iff_toNat_lt, toNat_asCanonicalU64]
  exact val_lt element

@[simp] theorem new_asCanonicalU64 (element : Goldilocks) :
    new (asCanonicalU64 element) = element := by
  rw [new, toNat_asCanonicalU64]
  exact ZMod.natCast_zmod_val element

/-- A word that enters the field comes back reduced. -/
@[simp] theorem asCanonicalU64_new (value : UInt64) :
    asCanonicalU64 (new value) = fieldReduce value := by
  rw [← UInt64.toNat_inj, toNat_asCanonicalU64, toNat_fieldReduce, new]
  exact ZMod.val_natCast _ _

/-- A word below the prime is the number of its element. -/
theorem val_new_of_lt
    {word : UInt64}
    (below : word.toNat < 0xFFFFFFFF00000001) :
    (new word).val = word.toNat :=
  ZMod.val_natCast_of_lt below

/-- Words are one element when they agree modulo the prime. -/
theorem new_eq_iff {first second : UInt64} :
    new first = new second ↔ fieldReduce first = fieldReduce second := by
  constructor
  · intro same
    rw [← asCanonicalU64_new, same, asCanonicalU64_new]
  · intro same
    rw [← new_asCanonicalU64 (new first), asCanonicalU64_new, same,
      ← asCanonicalU64_new, new_asCanonicalU64]

@[simp] theorem new_fieldReduce (value : UInt64) :
    new (fieldReduce value) = new value :=
  new_eq_iff.mpr (fieldReduce_idem value)

/-- Numbers below the prime are told apart by the field. -/
theorem natCast_inj_of_lt
    {first second : Nat}
    (firstBelow : first < 0xFFFFFFFF00000001)
    (secondBelow : second < 0xFFFFFFFF00000001) :
    (first : Goldilocks) = (second : Goldilocks) ↔ first = second := by
  rw [ZMod.natCast_eq_natCast_iff', Nat.mod_eq_of_lt firstBelow,
    Nat.mod_eq_of_lt secondBelow]

/--
A division in the field is the division of the numbers when its quotient is, or
when its remainder is.
-/
theorem val_eq_div_iff
    {number : Nat}
    {divisor quotient remainder : Goldilocks}
    (below : number < 0xFFFFFFFF00000001)
    (regular : divisor ≠ 0)
    (division : (number : Goldilocks) = divisor * quotient + remainder) :
    quotient.val = number / divisor.val ↔
      remainder.val = number % divisor.val := by
  have exact :
      divisor * ((number / divisor.val : Nat) : Goldilocks) +
          ((number % divisor.val : Nat) : Goldilocks) =
        divisor * quotient + remainder := by
    have split := congrArg (Nat.cast : Nat → Goldilocks)
      (Nat.div_add_mod number divisor.val)
    rw [Nat.cast_add, Nat.cast_mul, ZMod.natCast_zmod_val] at split
    exact split.trans division
  constructor
  · intro isQuotient
    have inField :
        ((number / divisor.val : Nat) : Goldilocks) = quotient := by
      rw [← isQuotient, ZMod.natCast_zmod_val]
    rw [inField] at exact
    rw [← add_left_cancel exact]
    exact ZMod.val_natCast_of_lt ((Nat.mod_le _ _).trans_lt below)
  · intro isRemainder
    have inField :
        ((number % divisor.val : Nat) : Goldilocks) = remainder := by
      rw [← isRemainder, ZMod.natCast_zmod_val]
    rw [inField] at exact
    rw [← mul_left_cancel₀ regular (add_right_cancel exact)]
    exact ZMod.val_natCast_of_lt ((Nat.div_le_self _ _).trans_lt below)

/-- A power of two is not zero. -/
theorem two_pow_ne_zero (count : Nat) :
    ((2 ^ count : Nat) : Goldilocks) ≠ 0 := by
  have two : ((2 : Nat) : Goldilocks) ≠ 0 := by
    decide
  rw [Nat.cast_pow]
  exact pow_ne_zero count two

/-- A number is its low bits in the field only when it has no others. -/
theorem natCast_eq_mod_two_pow_iff
    {number count : Nat}
    (bound : number < 2 ^ count * 0xFFFFFFFF00000001) :
    (number : Goldilocks) = ((number % 2 ^ count : Nat) : Goldilocks) ↔
      number < 2 ^ count := by
  constructor
  · intro same
    have high : ((number / 2 ^ count : Nat) : Goldilocks) = 0 := by
      have split : 2 ^ count * (number / 2 ^ count) + number % 2 ^ count = number :=
        Nat.div_add_mod number (2 ^ count)
      have inField := congrArg (Nat.cast : Nat → Goldilocks) split
      rw [Nat.cast_add, Nat.cast_mul, ← same, add_eq_right] at inField
      exact (mul_eq_zero.mp inField).resolve_left (two_pow_ne_zero count)
    have divides := (ZMod.natCast_eq_zero_iff _ _).mp high
    have below : number / 2 ^ count < 0xFFFFFFFF00000001 :=
      Nat.div_lt_of_lt_mul bound
    have isZero := Nat.eq_zero_of_dvd_of_lt divides below
    exact (Nat.div_eq_zero_iff_lt (Nat.two_pow_pos count)).mp isZero
  · intro below
    rw [Nat.mod_eq_of_lt below]

end Goldilocks

end ScalarCore
