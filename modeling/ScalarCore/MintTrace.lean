import Mathlib.FieldTheory.Finite.Basic
import ScalarCore.MintAir
import ScalarCore.SquareMultiply

namespace ScalarCore.MintLinearAir

/-!
# The trace of an honest mint claim

The prover inverts the reward by Fermat's little theorem, with products of 128
bits.  For a claim that passes the checks nothing over- or underflows, the
reward has an inverse, and every row is accepted.
-/

open MachineInt SquareMultiply

/-- The prime, of 128 bits. -/
def prime128 : Nat :=
  0xFFFFFFFF00000001

/-- A product of 128 bits, reduced. -/
def mulMod128 (left right : Nat) : Option Nat := do
  let product ← checkedMul128 left right
  return product % prime128

/-- The inverse of a reward, `reward^(p - 2) mod p`. -/
def rewardInv (reward : UInt64) : Option UInt64 := do
  let base := reward.toNat % prime128
  let result ← powLoop mulMod128 1 base (prime128 - 2)
  return UInt64.ofNat result

/-- `build_mint_linear_trace`: four copies of one row. -/
def buildMintLinearTrace (pi : MintLinearPublicInputs) : Option (List Row) := do
  let newTotal ← checkedAdd pi.totalMintedSscl pi.rewardAmountSscl
  let headroom ← checkedSub mintSESscl newTotal
  let nullNz : UInt64 :=
    if pi.mintNullifier 0 ≠ 0 ∨ pi.mintNullifier 1 ≠ 0 ∨
        pi.mintNullifier 2 ≠ 0 ∨ pi.mintNullifier 3 ≠ 0 then
      1
    else
      0
  let rewardInvVal ← rewardInv pi.rewardAmountSscl
  let isDepVal : UInt64 := if pi.depAmountSscl > 0 then 1 else 0
  let isVestVal : UInt64 := if pi.vestLockEpochs > 0 then 1 else 0
  let row : Row := fun column =>
    [Goldilocks.new pi.cryptoVersion.toUInt64,
      Goldilocks.new headroom,
      Goldilocks.new pi.rewardAmountSscl,
      Goldilocks.new pi.nodeAuthValid.toUInt64,
      Goldilocks.new nullNz,
      Goldilocks.new rewardInvVal,
      Goldilocks.new (pi.mintNullifier 0),
      Goldilocks.new isDepVal,
      Goldilocks.new isVestVal].getD column 0
  return List.replicate 4 row

/-- Products of reduced numbers fit, and are those of the field. -/
theorem multiplies_mulMod128 :
    Multiplies mulMod128 (· < prime128)
      (Nat.cast : Nat → Goldilocks) := by
  intro left right leftBelow rightBelow
  have fits : left * right ≤ maxU128 := by
    calc left * right
        ≤ prime128 * prime128 := Nat.mul_le_mul leftBelow.le rightBelow.le
      _ ≤ maxU128 := by decide
  refine ⟨left * right % prime128, ?_, Nat.mod_lt _ (by decide), ?_⟩
  · rw [mulMod128, checkedMul128, if_pos fits]
    rfl
  · rw [← Nat.cast_mul]
    exact ZMod.natCast_mod _ _

/-- The loop inverts every reward that the prime does not divide. -/
theorem exists_rewardInv
    {reward : UInt64}
    (regular : Goldilocks.new reward ≠ 0) :
    ∃ inverse,
      rewardInv reward = some inverse ∧
        inverse.toNat < prime128 ∧
        Goldilocks.new reward * Goldilocks.new inverse = 1 := by
  obtain ⟨power, computed, below, isPower⟩ :=
    powLoop_eq_some multiplies_mulMod128 (show 1 < prime128 by decide)
      (Nat.mod_lt reward.toNat (show 0 < prime128 by decide)) (prime128 - 2)
  have fits : power ≤ maxU64 :=
    below.le.trans (by decide)
  have isWord := toNat_ofNat_of_le fits
  have base :
      ((reward.toNat % prime128 : Nat) : Goldilocks) = Goldilocks.new reward :=
    ZMod.natCast_mod _ _
  rw [base, Nat.cast_one, one_mul] at isPower
  refine ⟨UInt64.ofNat power, ?_, isWord.trans_lt below, ?_⟩
  · rw [rewardInv, computed]
    rfl
  · calc
      Goldilocks.new reward * Goldilocks.new (UInt64.ofNat power)
        = Goldilocks.new reward * Goldilocks.new reward ^ (prime128 - 2) := by
          rw [← isPower, Goldilocks.new, Goldilocks.new, isWord]
      _ = Goldilocks.new reward ^ (prime128 - 1) :=
          (pow_succ' _ _).symm
      _ = 1 :=
          ZMod.pow_card_sub_one_eq_one regular

/-- A flag of an amount meets its two constraints. -/
theorem flag_of_amount (amount : UInt64) :
    let flag := Goldilocks.new (if amount > 0 then 1 else 0)
    flag * (1 - flag) = 0 ∧ (1 - flag) * Goldilocks.new amount = 0 := by
  by_cases positive : amount > 0
  · have isOne : Goldilocks.new 1 = 1 := by
      decide
    simp only [if_pos positive, isOne, sub_self, mul_zero, zero_mul, and_self]
  · have isZero : amount = 0 := by
      rw [← UInt64.toNat_inj]
      exact Nat.eq_zero_of_not_pos fun above =>
        positive (UInt64.lt_iff_toNat_lt.mpr above)
    have inField : Goldilocks.new 0 = 0 := by
      decide
    simp only [if_neg positive, inField, zero_mul, true_and]
    rw [isZero, inField, mul_zero]

/-- A reward up to the cap is not zero in the field. -/
theorem new_reward_ne_zero
    {reward : UInt64}
    (positive : 0 < reward)
    (capped : reward ≤ mintSESscl) :
    Goldilocks.new reward ≠ 0 := by
  have above := UInt64.lt_iff_toNat_lt.mp positive
  have below := UInt64.le_iff_toNat_le.mp capped
  have cap : mintSESscl.toNat < goldilocksPrime.toNat := by
    decide
  rw [Ne, new_eq_zero_iff]
  rintro (rfl | rfl)
  · exact Nat.lt_irrefl _ above
  · exact absurd below (Nat.not_le.mpr cap)

/-- The loop inverts every reward up to the cap. -/
theorem rewardInv_inverts
    {reward : UInt64}
    (positive : 0 < reward)
    (capped : reward ≤ mintSESscl) :
    ∃ inverse,
      rewardInv reward = some inverse ∧
        reward.toNat * inverse.toNat % prime128 = 1 := by
  obtain ⟨inverse, computed, _, inverts⟩ :=
    exists_rewardInv (new_reward_ne_zero positive capped)
  refine ⟨inverse, computed, ?_⟩
  rw [Goldilocks.new, Goldilocks.new, ← Nat.cast_mul, ← Nat.cast_one,
    ZMod.natCast_eq_natCast_iff'] at inverts
  exact inverts

/-- Below the cap neither the total nor the headroom leaves the word. -/
theorem exists_headroom
    {minted reward : UInt64}
    (capped : minted.toNat + reward.toNat ≤ mintSESscl.toNat) :
    ∃ total headroom,
      checkedAdd minted reward = some total ∧
        checkedSub mintSESscl total = some headroom ∧
        headroom.toNat + (minted.toNat + reward.toNat) = mintSESscl.toNat := by
  have capFits : mintSESscl.toNat ≤ maxU64 := by
    decide
  have total := toNat_ofNat_of_le (capped.trans capFits)
  have isTotal := checkedAdd_eq_some_iff.mpr total
  have covered := Nat.sub_add_cancel capped
  have headroom :=
    toNat_ofNat_of_le
      ((Nat.sub_le mintSESscl.toNat (minted.toNat + reward.toNat)).trans
        capFits)
  rw [← headroom] at covered
  refine ⟨_, _, isTotal, checkedSub_eq_some_iff.mpr ?_, covered⟩
  rw [total]
  exact covered

variable {pi : MintLinearPublicInputs}

/-- The prover's row of a claim that passes the checks. -/
theorem exists_accepts_buildMintLinearTrace
    (passed : pi.checkConstraints = .ok ()) :
    ∃ rows,
      buildMintLinearTrace pi = some rows ∧
        rows.length = 4 ∧ ∀ row ∈ rows, Accepts row pi := by
  obtain ⟨facts, rewarded⟩ := checkConstraints_eq_ok_iff.mp passed
  obtain ⟨total, headroom, isTotal, isHeadroom, covers⟩ :=
    exists_headroom facts.capped
  have positive : 0 < pi.rewardAmountSscl := by
    rw [UInt64.lt_iff_toNat_lt]
    apply Nat.pos_of_ne_zero
    intro isZero
    exact rewarded (UInt64.toNat_inj.mp isZero)
  have capped : pi.rewardAmountSscl ≤ mintSESscl := by
    rw [UInt64.le_iff_toNat_le]
    exact (Nat.le_add_left _ _).trans facts.capped
  obtain ⟨inverse, isInverse, _, inverts⟩ :=
    exists_rewardInv (new_reward_ne_zero positive capped)
  have someWord :
      pi.mintNullifier 0 ≠ 0 ∨ pi.mintNullifier 1 ≠ 0 ∨
        pi.mintNullifier 2 ≠ 0 ∨ pi.mintNullifier 3 ≠ 0 := by
    obtain ⟨index, isWord⟩ := facts.nullified
    fin_cases index
    · exact .inl isWord
    · exact .inr (.inl isWord)
    · exact .inr (.inr (.inl isWord))
    · exact .inr (.inr (.inr isWord))
  have one : Goldilocks.new 1 = 1 := by
    decide
  obtain ⟨isDep, depCovered⟩ := flag_of_amount pi.depAmountSscl
  obtain ⟨isVest, vestCovered⟩ := flag_of_amount pi.vestLockEpochs
  simp only [buildMintLinearTrace, isTotal, isHeadroom, isInverse,
    if_pos someWord, Option.bind_eq_bind, Option.bind_some, Option.pure_def]
  refine ⟨_, rfl, List.length_replicate, ?_⟩
  intro row listed
  rw [List.eq_of_mem_replicate listed, accepts_iff]
  refine
    ⟨rfl, ?_, rfl, inverts, rfl, one, rfl, ?_, isDep, isVest, depCovered,
      vestCovered⟩
  · have inField := congrArg (Nat.cast : Nat → Goldilocks) covers
    rw [Nat.cast_add, Nat.cast_add, ← add_assoc] at inField
    exact inField
  · exact (congrArg (_ * ·) one).trans (mul_one _)

/--
For every claim that passes the checks the trace is built and each of its rows
is accepted; the loop inverts every reward up to the cap.
-/
theorem buildMintLinearTrace_complete
    {pi : MintLinearPublicInputs}
    (passed : pi.checkConstraints = .ok ()) :
    (∃ rows,
        buildMintLinearTrace pi = some rows ∧
          rows.length = 4 ∧ ∀ row ∈ rows, Accepts row pi) ∧
      ∀ reward : UInt64,
        0 < reward →
        reward ≤ mintSESscl →
        ∃ inverse,
          rewardInv reward = some inverse ∧
            reward.toNat * inverse.toNat % prime128 = 1 :=
  ⟨exists_accepts_buildMintLinearTrace passed,
    fun _ positive capped => rewardInv_inverts positive capped⟩

/-- A first mint of one sSCL. -/
def firstMint : MintLinearPublicInputs where
  cryptoVersion := mintCryptoVersion
  totalMintedSscl := 0
  rewardAmountSscl := 1
  nodeAuthValid := true
  mintNullifier := fun _ => 1
  depAmountSscl := goldilocksPrime
  vestLockEpochs := 0

/-- Its trace is accepted, although its deposit is zero in the field. -/
theorem buildMintLinearTrace_firstMint :
    firstMint.checkConstraints = .ok () ∧
      ∃ rows,
        buildMintLinearTrace firstMint = some rows ∧
          rows.length = 4 ∧ ∀ row ∈ rows, Accepts row firstMint := by
  have passed : firstMint.checkConstraints = .ok () :=
    rfl
  exact ⟨passed, (buildMintLinearTrace_complete passed).1⟩

end ScalarCore.MintLinearAir
