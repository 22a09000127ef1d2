import Mathlib.Tactic.Ring
import ScalarCore.MachineInt

namespace ScalarCore

/-!
# The emission accumulator

The emission of an epoch is the initial emission times the square of the
fraction still to be minted, in fixed-point arithmetic of basis 10^9.  Both
divisions round down: the minted fraction, so that the remaining one is rounded
up, and its square.
-/

open MachineInt

/-- Supply reserved for emission, in sSCL. -/
def sESscl : UInt64 :=
  18900000 * 100000000

/-- Emission of the first epoch, in sSCL. -/
def e0Sscl : UInt64 :=
  126000 * 100000000

/-- Errors of the emission operations. -/
inductive EmissionError where
  | overflow
  | supplyCapExceeded (minted reward cap : UInt64)
  deriving Repr, DecidableEq

/-- The total minted so far. -/
structure EmissionAccumulator where
  totalMinted : UInt64
  deriving Repr, DecidableEq

namespace EmissionAccumulator

/-- Nothing minted. -/
def new : EmissionAccumulator where
  totalMinted := 0

/-- The minted fraction of the supply, in basis 10^9. -/
def rhoFp (acc : EmissionAccumulator) : Nat :=
  (checkedDiv128
    (saturatingMul128 acc.totalMinted.toNat 1000000000)
    sESscl.toNat).getD 1000000000

/-- The emission of the epoch after what was minted so far. -/
def emissionThisEpoch (acc : EmissionAccumulator) : UInt64 :=
  let oneMinusRho := 1000000000 - acc.rhoFp
  let omrSq :=
    (checkedDiv128 (saturatingMul128 oneMinusRho oneMinusRho)
      1000000000).getD 0
  UInt64.ofNat
    ((checkedDiv128 (saturatingMul128 e0Sscl.toNat omrSq)
      1000000000).getD 0)

/-- Check that a reward keeps the total under the cap. -/
def checkSupplyCap
    (acc : EmissionAccumulator)
    (reward : UInt64) : Except EmissionError Unit :=
  match checkedAdd acc.totalMinted reward with
  | none => .error .overflow
  | some newTotal =>
      if newTotal > sESscl then
        .error (.supplyCapExceeded acc.totalMinted reward sESscl)
      else
        .ok ()

/-- Add the emission of a confirmed epoch. -/
def commitEpoch
    (acc : EmissionAccumulator)
    (emissionAmount : UInt64) :
    Except EmissionError EmissionAccumulator := do
  acc.checkSupplyCap emissionAmount
  match checkedAdd acc.totalMinted emissionAmount with
  | none => .error .overflow
  | some total => .ok { totalMinted := total }

/-- Commit the emission of a number of epochs in a row. -/
def commitEpochs :
    Nat → EmissionAccumulator → Except EmissionError EmissionAccumulator
  | 0, acc => .ok acc
  | epochs + 1, acc => do
      let next ← acc.commitEpoch acc.emissionThisEpoch
      commitEpochs epochs next

/-- The minted fraction: one basis point for each 1_890_000 sSCL. -/
theorem rhoFp_eq (acc : EmissionAccumulator) :
    acc.rhoFp = acc.totalMinted.toNat / 1890000 := by
  have inRange := acc.totalMinted.toNat_lt
  have cap : sESscl.toNat = 1890000 * 1000000000 := rfl
  have exact :
      saturatingMul128 acc.totalMinted.toNat 1000000000 =
        acc.totalMinted.toNat * 1000000000 := by
    apply saturatingMul128_eq
    unfold maxU128
    omega
  rw [rhoFp, exact, cap, checkedDiv128_eq (by decide), Option.getD_some,
    Nat.mul_div_mul_right _ _ (by decide)]

/-- The remaining fraction in basis 10^9, rounded up. -/
def oneMinusRho (acc : EmissionAccumulator) : Nat :=
  1000000000 - acc.rhoFp

/-- The emission as a function of the remaining fraction. -/
theorem toNat_emissionThisEpoch (acc : EmissionAccumulator) :
    acc.emissionThisEpoch.toNat =
      12600 * (acc.oneMinusRho * acc.oneMinusRho / 1000000000) := by
  have basis : acc.oneMinusRho ≤ 1000000000 := Nat.sub_le _ _
  have squareBound :
      acc.oneMinusRho * acc.oneMinusRho ≤ 1000000000 * 1000000000 :=
    Nat.mul_le_mul basis basis
  have square :
      saturatingMul128 acc.oneMinusRho acc.oneMinusRho =
        acc.oneMinusRho * acc.oneMinusRho := by
    apply saturatingMul128_eq
    unfold maxU128
    omega
  have quotientBound :
      acc.oneMinusRho * acc.oneMinusRho / 1000000000 ≤ 1000000000 :=
    Nat.div_le_of_le_mul squareBound
  have initial : e0Sscl.toNat = 12600 * 1000000000 := rfl
  have product :
      saturatingMul128 e0Sscl.toNat
          (acc.oneMinusRho * acc.oneMinusRho / 1000000000) =
        12600 * (acc.oneMinusRho * acc.oneMinusRho / 1000000000) *
          1000000000 := by
    rw [saturatingMul128_eq, initial]
    · ring
    · rw [initial]
      unfold maxU128
      omega
  have unfolded :
      acc.emissionThisEpoch =
        UInt64.ofNat
          ((checkedDiv128
            (saturatingMul128 e0Sscl.toNat
              ((checkedDiv128
                (saturatingMul128 acc.oneMinusRho acc.oneMinusRho)
                1000000000).getD 0))
            1000000000).getD 0) :=
    rfl
  have divided (value : Nat) :
      (checkedDiv128 value 1000000000).getD 0 = value / 1000000000 := by
    rw [checkedDiv128_eq (by decide), Option.getD_some]
  rw [unfolded, square, divided, divided, product,
    Nat.mul_div_cancel _ (by decide), toNat_ofNat_of_le]
  unfold maxU64
  omega

/-- The emission of an epoch never exceeds what is left of the supply. -/
theorem emissionThisEpoch_le_remaining
    {acc : EmissionAccumulator}
    (capped : acc.totalMinted.toNat ≤ sESscl.toNat) :
    acc.emissionThisEpoch.toNat ≤
      sESscl.toNat - acc.totalMinted.toNat := by
  have cap : sESscl.toNat = 1890000 * 1000000000 := rfl
  have fraction := acc.rhoFp_eq
  have basis : acc.oneMinusRho = 1000000000 - acc.rhoFp := rfl
  rw [toNat_emissionThisEpoch]
  by_cases small : acc.oneMinusRho ≤ 1
  · -- the square of the last basis point rounds down to nothing
    have square : acc.oneMinusRho * acc.oneMinusRho ≤ 1 * 1 :=
      Nat.mul_le_mul small small
    have noEmission :
        acc.oneMinusRho * acc.oneMinusRho / 1000000000 = 0 := by
      omega
    rw [noEmission]
    exact Nat.zero_le _
  · have squareRounded :
        acc.oneMinusRho * acc.oneMinusRho / 1000000000 ≤
          acc.oneMinusRho :=
      Nat.div_le_of_le_mul
        (Nat.mul_le_mul_right _ (by omega : acc.oneMinusRho ≤ 1000000000))
    calc 12600 * (acc.oneMinusRho * acc.oneMinusRho / 1000000000)
        ≤ 12600 * acc.oneMinusRho := Nat.mul_le_mul_left _ squareRounded
      _ ≤ 1890000 * (acc.oneMinusRho - 1) := by
        omega
      _ ≤ sESscl.toNat - acc.totalMinted.toNat := by
        omega

/-- The more is minted, the less is emitted. -/
theorem emissionThisEpoch_antitone
    {acc later : EmissionAccumulator}
    (more : acc.totalMinted.toNat ≤ later.totalMinted.toNat) :
    later.emissionThisEpoch.toNat ≤ acc.emissionThisEpoch.toNat := by
  have fraction : later.oneMinusRho ≤ acc.oneMinusRho := by
    rw [oneMinusRho, oneMinusRho, rhoFp_eq, rhoFp_eq]
    omega
  rw [toNat_emissionThisEpoch, toNat_emissionThisEpoch]
  exact
    Nat.mul_le_mul_left _
      (Nat.div_le_div_right (Nat.mul_le_mul fraction fraction))

/-- An amount that keeps the total under the cap is committed. -/
theorem commitEpoch_of_le
    {acc : EmissionAccumulator}
    {amount : UInt64}
    (capped :
      acc.totalMinted.toNat + amount.toNat ≤ sESscl.toNat) :
    ∃ next,
      acc.commitEpoch amount = .ok next ∧
        next.totalMinted.toNat =
          acc.totalMinted.toNat + amount.toNat := by
  have cap : sESscl.toNat ≤ maxU64 := by
    decide
  have exactSum :
      (acc.totalMinted + amount).toNat =
        acc.totalMinted.toNat + amount.toNat := by
    rw [UInt64.toNat_add]
    unfold maxU64 at cap
    omega
  have summed :
      checkedAdd acc.totalMinted amount = some (acc.totalMinted + amount) :=
    checkedAdd_eq_some_iff.mpr exactSum
  have underCap : ¬ acc.totalMinted + amount > sESscl := by
    rw [gt_iff_lt, UInt64.lt_iff_toNat_lt, exactSum]
    omega
  refine ⟨{ totalMinted := acc.totalMinted + amount }, ?_, exactSum⟩
  simp only [commitEpoch, checkSupplyCap, summed, if_neg underCap]
  rfl

/-- Committing its own emission keeps an accumulator under the cap. -/
theorem commitEpoch_emissionThisEpoch
    {acc : EmissionAccumulator}
    (capped : acc.totalMinted.toNat ≤ sESscl.toNat) :
    ∃ next,
      acc.commitEpoch acc.emissionThisEpoch = .ok next ∧
        acc.totalMinted.toNat ≤ next.totalMinted.toNat ∧
        next.totalMinted.toNat ≤ sESscl.toNat := by
  have withinRest := emissionThisEpoch_le_remaining capped
  obtain ⟨next, committed, total⟩ :=
    commitEpoch_of_le
      (by omega :
        acc.totalMinted.toNat + acc.emissionThisEpoch.toNat ≤ sESscl.toNat)
  exact ⟨next, committed, by omega, by omega⟩

/-- Every run of epochs succeeds under the cap and only adds to the total. -/
theorem commitEpochs_of_capped
    {acc : EmissionAccumulator}
    (capped : acc.totalMinted.toNat ≤ sESscl.toNat)
    (epochs : Nat) :
    ∃ last,
      commitEpochs epochs acc = .ok last ∧
        acc.totalMinted.toNat ≤ last.totalMinted.toNat ∧
        last.totalMinted.toNat ≤ sESscl.toNat := by
  induction epochs generalizing acc with
  | zero =>
      exact ⟨acc, rfl, Nat.le_refl _, capped⟩
  | succ epochs inductionHypothesis =>
      obtain ⟨next, committed, grows, nextCapped⟩ :=
        commitEpoch_emissionThisEpoch capped
      obtain ⟨last, restCommitted, restGrows, lastCapped⟩ :=
        inductionHypothesis nextCapped
      refine ⟨last, ?_, grows.trans restGrows, lastCapped⟩
      rw [commitEpochs, committed]
      exact restCommitted

/-- A longer run continues a shorter one. -/
theorem commitEpochs_add
    {acc last : EmissionAccumulator}
    {epochs : Nat}
    (committed : commitEpochs epochs acc = .ok last)
    (later : Nat) :
    commitEpochs (epochs + later) acc = commitEpochs later last := by
  induction epochs generalizing acc with
  | zero =>
      cases committed
      rw [Nat.zero_add]
  | succ epochs inductionHypothesis =>
      rw [commitEpochs] at committed
      rw [Nat.succ_add, commitEpochs]
      cases first : acc.commitEpoch acc.emissionThisEpoch with
      | error failure =>
          rw [first] at committed
          cases committed
      | ok next =>
          rw [first] at committed
          exact inductionHypothesis committed

/--
Emission never overruns the supply.  Committing the emission of any number of
epochs in a row succeeds, keeps the total under the cap and leads to emissions
that never increase; and the emission never exceeds the rest of the supply.
-/
theorem emission_never_overruns :
    (∀ epochs,
        ∃ acc,
          commitEpochs epochs new = .ok acc ∧
            acc.totalMinted.toNat ≤ sESscl.toNat ∧
            ∀ later,
              ∃ acc',
                commitEpochs (epochs + later) new = .ok acc' ∧
                  acc'.emissionThisEpoch.toNat ≤
                    acc.emissionThisEpoch.toNat) ∧
      ∀ acc : EmissionAccumulator,
        acc.totalMinted.toNat ≤ sESscl.toNat →
        acc.emissionThisEpoch.toNat ≤
          sESscl.toNat - acc.totalMinted.toNat := by
  refine ⟨fun epochs => ?_, fun acc => emissionThisEpoch_le_remaining⟩
  have nothingMinted : new.totalMinted.toNat ≤ sESscl.toNat :=
    Nat.zero_le _
  obtain ⟨acc, committed, _, capped⟩ :=
    commitEpochs_of_capped nothingMinted epochs
  refine ⟨acc, committed, capped, fun later => ?_⟩
  obtain ⟨acc', laterCommitted, grows, _⟩ :=
    commitEpochs_of_capped capped later
  exact
    ⟨acc', (commitEpochs_add committed later).trans laterCommitted,
      emissionThisEpoch_antitone grows⟩

end EmissionAccumulator

end ScalarCore
