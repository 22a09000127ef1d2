import ScalarCore.FallibleChecks
import ScalarCore.FieldConstraints
import ScalarCore.Goldilocks
import ScalarCore.MachineInt

namespace ScalarCore.MintLinearAir

/-!
# The linear constraints of a mint claim

The constraint groups MC1 to MC5 of a mint, over one row of nine columns, and
the checks the prover runs on the public inputs.  The groups are meant to be
those checks.  Only the reward is checked by them: the version and the
authorization are compared with the claimant's own words, the headroom may be
any element, and the flag that the nullifier is not zero is not tied to the
nullifier.
-/

open FallibleChecks FieldConstraints MachineInt

/-- The one valid crypto version. -/
def mintCryptoVersion : UInt8 :=
  1

/-- Emission cap in sSCL. -/
def mintSESscl : UInt64 :=
  1890000000000000

/-- Number of columns of the trace. -/
def mintLinearWidth : Nat :=
  9

/-- Number of public values. -/
def mintLinearPiLen : Nat :=
  10

def mintColVersion : Nat := 0
def mintColCapHeadroom : Nat := 1
def mintColReward : Nat := 2
def mintColAuth : Nat := 3
def mintColNullNz : Nat := 4
def mintColRewardInv : Nat := 5
def mintColNull0 : Nat := 6
def mintColIsDep : Nat := 7
def mintColIsVest : Nat := 8

/-- The public inputs of a mint claim. -/
structure MintLinearPublicInputs where
  cryptoVersion : UInt8
  totalMintedSscl : UInt64
  rewardAmountSscl : UInt64
  nodeAuthValid : Bool
  mintNullifier : Digest4
  depAmountSscl : UInt64
  vestLockEpochs : UInt64

/-- A violated constraint, by group and text. -/
inductive MintLinearError where
  | constraintViolated (group : Nat) (text : String)
  deriving DecidableEq

/-- The constraint groups on the public inputs themselves. -/
def MintLinearPublicInputs.checkConstraints
    (pi : MintLinearPublicInputs) : Except MintLinearError Unit :=
  if pi.cryptoVersion ≠ mintCryptoVersion then
    .error (.constraintViolated 0 "MC1: invalid crypto_version")
  else
    match checkedAdd pi.totalMintedSscl pi.rewardAmountSscl with
    | none => .error (.constraintViolated 1 "MC3: arithmetic overflow")
    | some newTotal =>
        if newTotal > mintSESscl then
          .error (.constraintViolated 1 "MC3: supply cap exceeded")
        else if pi.rewardAmountSscl = 0 then
          .error (.constraintViolated 2 "MC4: reward must be > 0")
        else if !pi.nodeAuthValid then
          .error (.constraintViolated 3 "MC5: node auth invalid")
        else if pi.mintNullifier 0 = 0 ∧ pi.mintNullifier 1 = 0 ∧
            pi.mintNullifier 2 = 0 ∧ pi.mintNullifier 3 = 0 then
          .error (.constraintViolated 4 "MC2: nullifier is zero")
        else
          .ok ()

/-- `build_mint_linear_pv`. -/
def buildMintLinearPv (pi : MintLinearPublicInputs) : List Goldilocks :=
  [Goldilocks.new pi.cryptoVersion.toUInt64,
    Goldilocks.new pi.totalMintedSscl,
    Goldilocks.new pi.rewardAmountSscl,
    Goldilocks.new pi.nodeAuthValid.toUInt64,
    Goldilocks.new (pi.mintNullifier 0),
    Goldilocks.new (pi.mintNullifier 1),
    Goldilocks.new (pi.mintNullifier 2),
    Goldilocks.new (pi.mintNullifier 3),
    Goldilocks.new pi.depAmountSscl,
    Goldilocks.new pi.vestLockEpochs]

/-- A row of the trace, read in its first `mintLinearWidth` columns. -/
abbrev Row :=
  Nat → Goldilocks

/-- `eval`; an equation is its difference. -/
def eval (row : Row) (pv : List Goldilocks) : List Goldilocks :=
  if pv.length < mintLinearPiLen then
    []
  else
    let pvVersion := pv.getD 0 0
    let pvTotalMinted := pv.getD 1 0
    let pvReward := pv.getD 2 0
    let pvAuth := pv.getD 3 0
    let pvNull0 := pv.getD 4 0
    let pvDepAmount := pv.getD 8 0
    let pvVestLock := pv.getD 9 0
    -- MC1, MC3, the reward binding, MC4 and MC5.
    [row mintColVersion - pvVersion,
      row mintColCapHeadroom + pvTotalMinted + pvReward -
        (mintSESscl.toNat : Goldilocks),
      row mintColReward - pvReward,
      row mintColReward * row mintColRewardInv - 1,
      row mintColAuth - pvAuth,
      -- MC2; the other words of the nullifier are not read.
      row mintColNullNz - 1,
      row mintColNull0 - pvNull0,
      row mintColNull0 * row mintColNullNz - row mintColNull0,
      -- MC3-DEP and MC3-VEST.
      row mintColIsDep * (1 - row mintColIsDep),
      row mintColIsVest * (1 - row mintColIsVest),
      (1 - row mintColIsDep) * pvDepAmount,
      (1 - row mintColIsVest) * pvVestLock]

/-- All constraints vanish on a row, against the public values of a claim. -/
def Accepts (row : Row) (pi : MintLinearPublicInputs) : Prop :=
  Vanish (eval row (buildMintLinearPv pi))

/-- What the groups other than MC4 ask of the public inputs. -/
structure Facts (pi : MintLinearPublicInputs) : Prop where
  version : pi.cryptoVersion = mintCryptoVersion
  capped :
    pi.totalMintedSscl.toNat + pi.rewardAmountSscl.toNat ≤
      mintSESscl.toNat
  authorized : pi.nodeAuthValid = true
  nullified : ∃ index, pi.mintNullifier index ≠ 0

variable {row : Row} {pi : MintLinearPublicInputs}

/-- The checks pass when all groups hold. -/
theorem checkConstraints_eq_ok_iff :
    pi.checkConstraints = .ok () ↔
      Facts pi ∧ pi.rewardAmountSscl ≠ 0 := by
  have someWord :
      (∃ index, pi.mintNullifier index ≠ 0) ↔
        ¬ (pi.mintNullifier 0 = 0 ∧ pi.mintNullifier 1 = 0 ∧
          pi.mintNullifier 2 = 0 ∧ pi.mintNullifier 3 = 0) := by
    rw [← not_forall_not]
    simp only [not_not, Fin.forall_fin_succ]
    simp
  have capFits : mintSESscl.toNat ≤ maxU64 := by
    decide
  rw [MintLinearPublicInputs.checkConstraints, ite_error_eq_ok_iff, not_not]
  cases isSum : checkedAdd pi.totalMintedSscl pi.rewardAmountSscl with
  | none =>
      have overflow := checkedAdd_eq_none_iff.mp isSum
      constructor
      · intro passed
        exact nomatch passed.2
      · intro passed
        exact absurd (overflow.trans_le (passed.1.capped.trans capFits))
          (lt_irrefl _)
  | some newTotal =>
      have exactSum := checkedAdd_eq_some_iff.mp isSum
      simp only [ite_error_eq_ok_iff, and_true, ← someWord, Bool.not_eq_true',
        Bool.not_eq_false, gt_iff_lt, UInt64.not_lt, UInt64.le_iff_toNat_le,
        exactSum]
      constructor
      · rintro ⟨version, capped, rewarded, authorized, nullified⟩
        exact ⟨⟨version, capped, authorized, nullified⟩, rewarded⟩
      · rintro ⟨⟨version, capped, authorized, nullified⟩, rewarded⟩
        exact ⟨version, capped, rewarded, authorized, nullified⟩

/-- What the constraints say of a row, one equation for each. -/
theorem accepts_iff :
    Accepts row pi ↔
      row mintColVersion = Goldilocks.new pi.cryptoVersion.toUInt64 ∧
        row mintColCapHeadroom + Goldilocks.new pi.totalMintedSscl +
            Goldilocks.new pi.rewardAmountSscl =
          (mintSESscl.toNat : Goldilocks) ∧
        row mintColReward = Goldilocks.new pi.rewardAmountSscl ∧
        row mintColReward * row mintColRewardInv = 1 ∧
        row mintColAuth = Goldilocks.new pi.nodeAuthValid.toUInt64 ∧
        row mintColNullNz = 1 ∧
        row mintColNull0 = Goldilocks.new (pi.mintNullifier 0) ∧
        row mintColNull0 * row mintColNullNz = row mintColNull0 ∧
        row mintColIsDep * (1 - row mintColIsDep) = 0 ∧
        row mintColIsVest * (1 - row mintColIsVest) = 0 ∧
        (1 - row mintColIsDep) * Goldilocks.new pi.depAmountSscl = 0 ∧
        (1 - row mintColIsVest) * Goldilocks.new pi.vestLockEpochs = 0 := by
  have evaluated :
      eval row (buildMintLinearPv pi) =
        [row mintColVersion - Goldilocks.new pi.cryptoVersion.toUInt64,
          row mintColCapHeadroom + Goldilocks.new pi.totalMintedSscl +
              Goldilocks.new pi.rewardAmountSscl -
            (mintSESscl.toNat : Goldilocks),
          row mintColReward - Goldilocks.new pi.rewardAmountSscl,
          row mintColReward * row mintColRewardInv - 1,
          row mintColAuth - Goldilocks.new pi.nodeAuthValid.toUInt64,
          row mintColNullNz - 1,
          row mintColNull0 - Goldilocks.new (pi.mintNullifier 0),
          row mintColNull0 * row mintColNullNz - row mintColNull0,
          row mintColIsDep * (1 - row mintColIsDep),
          row mintColIsVest * (1 - row mintColIsVest),
          (1 - row mintColIsDep) * Goldilocks.new pi.depAmountSscl,
          (1 - row mintColIsVest) * Goldilocks.new pi.vestLockEpochs] :=
    rfl
  rw [Accepts, evaluated]
  simp only [vanish_cons, vanish_nil, and_true, sub_eq_zero]

/-- A row for any claim with a reward: the headroom is whatever is missing. -/
def forgedRow (pi : MintLinearPublicInputs) : Row :=
  fun column =>
    [Goldilocks.new pi.cryptoVersion.toUInt64,
      (mintSESscl.toNat : Goldilocks) - Goldilocks.new pi.rewardAmountSscl -
        Goldilocks.new pi.totalMintedSscl,
      Goldilocks.new pi.rewardAmountSscl,
      Goldilocks.new pi.nodeAuthValid.toUInt64,
      1,
      (Goldilocks.new pi.rewardAmountSscl)⁻¹,
      Goldilocks.new (pi.mintNullifier 0),
      1,
      1].getD column 0

/-- The forged row of a claim is accepted when its reward is not zero. -/
theorem accepts_forgedRow
    (rewarded : Goldilocks.new pi.rewardAmountSscl ≠ 0) :
    Accepts (forgedRow pi) pi := by
  rw [accepts_iff]
  refine
    ⟨rfl, ?_, rfl, mul_inv_cancel₀ rewarded, rfl, rfl, rfl, mul_one _, ?_, ?_,
      ?_, ?_⟩
  · exact (congrArg (· + _) (sub_add_cancel _ _)).trans (sub_add_cancel _ _)
  · exact mul_eq_zero_of_right _ (sub_self 1)
  · exact mul_eq_zero_of_right _ (sub_self 1)
  · exact mul_eq_zero_of_left (sub_self 1) _
  · exact mul_eq_zero_of_left (sub_self 1) _

/-- A claim is accepted, with some row, exactly when its reward is not zero. -/
theorem exists_accepts_iff :
    (∃ row, Accepts row pi) ↔ Goldilocks.new pi.rewardAmountSscl ≠ 0 := by
  constructor
  · rintro ⟨row, accepted⟩ isZero
    obtain ⟨_, _, isReward, inverse, _⟩ := accepts_iff.mp accepted
    rw [isReward, isZero, zero_mul] at inverse
    exact zero_ne_one inverse
  · intro rewarded
    exact ⟨forgedRow pi, accepts_forgedRow rewarded⟩

/-- The reward is zero in the field when the prime divides it. -/
theorem new_eq_zero_iff
    {word : UInt64} :
    Goldilocks.new word = 0 ↔ word = 0 ∨ word = goldilocksPrime := by
  have bound := word.toNat_lt
  have prime : goldilocksPrime.toNat = 0xFFFFFFFF00000001 := rfl
  rw [Goldilocks.new, ZMod.natCast_eq_zero_iff, ← UInt64.toNat_inj,
    ← UInt64.toNat_inj, prime, UInt64.toNat_zero]
  constructor
  · rintro ⟨factor, isMultiple⟩
    omega
  · rintro (isZero | isPrime)
    · rw [isZero]
      exact dvd_zero _
    · rw [isPrime]

/--
Whatever row is accepted for a claim, its public inputs pass the checks: this
holds exactly when no row is, because the reward is zero in the field, or when
the checks other than the reward's pass.
-/
theorem accepts_checkConstraints_iff (pi : MintLinearPublicInputs) :
    (∀ row, Accepts row pi → pi.checkConstraints = .ok ()) ↔
      pi.rewardAmountSscl = 0 ∨ pi.rewardAmountSscl = goldilocksPrime ∨
        pi.cryptoVersion = mintCryptoVersion ∧
          pi.totalMintedSscl.toNat + pi.rewardAmountSscl.toNat ≤
            mintSESscl.toNat ∧
          pi.nodeAuthValid = true ∧
          ∃ index, pi.mintNullifier index ≠ 0 := by
  rw [← or_assoc, ← new_eq_zero_iff]
  constructor
  · intro checked
    by_cases unrewarded : Goldilocks.new pi.rewardAmountSscl = 0
    · exact .inl unrewarded
    · have passed := checked _ (accepts_forgedRow unrewarded)
      obtain ⟨facts, _⟩ := checkConstraints_eq_ok_iff.mp passed
      exact
        .inr
          ⟨facts.version, facts.capped, facts.authorized, facts.nullified⟩
  · rintro (unrewarded | ⟨version, capped, authorized, nullified⟩) row accepted
    · exact absurd unrewarded (exists_accepts_iff.mp ⟨row, accepted⟩)
    · have rewarded := exists_accepts_iff.mp ⟨row, accepted⟩
      apply checkConstraints_eq_ok_iff.mpr
      refine ⟨⟨version, capped, authorized, nullified⟩, ?_⟩
      intro isZero
      exact rewarded (new_eq_zero_iff.mpr (.inl isZero))

/-- One sSCL over the cap, of an unknown version, by nobody, without nullifier. -/
def uncappedMint : MintLinearPublicInputs where
  cryptoVersion := 0
  totalMintedSscl := mintSESscl
  rewardAmountSscl := 1
  nodeAuthValid := false
  mintNullifier := fun _ => 0
  depAmountSscl := 0
  vestLockEpochs := 0

/-- The constraints accept the mint that every other check refuses. -/
theorem accepts_uncappedMint :
    Accepts (forgedRow uncappedMint) uncappedMint ∧
      uncappedMint.checkConstraints ≠ .ok () ∧
        uncappedMint.cryptoVersion ≠ mintCryptoVersion ∧
        mintSESscl.toNat <
          uncappedMint.totalMintedSscl.toNat +
            uncappedMint.rewardAmountSscl.toNat ∧
        uncappedMint.nodeAuthValid = false ∧
        ∀ index, uncappedMint.mintNullifier index = 0 := by
  refine
    ⟨accepts_forgedRow ?_, by decide, by decide, by decide, rfl,
      fun _ => rfl⟩
  decide

end ScalarCore.MintLinearAir
