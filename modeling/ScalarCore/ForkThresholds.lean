import ScalarCore.Fork

namespace ScalarCore

/-!
# The thresholds of a fork

The share of the power behind a vote is its clamped sum, multiplied by the
basis with clamping and divided by the total power.  The clamped product never
exceeds the machine word, so a threshold whose product with the total power
does is out of reach, even for all votes together.
-/

open KeyedWrites MachineInt

namespace NodeSignals

/-- The power that a signal gives to a kind of vote. -/
def powerFor (kind : SignalType) (signal : NodeSignal) : Nat :=
  if signal.signalType = kind then
    signal.governancePowerFp.toNat
  else
    0

/-- The power behind a kind of vote as an integer. -/
def integerPower (signals : NodeSignals) (kind : SignalType) : Nat :=
  total (powerFor kind) signals

/-- Adding the power of a signal is clamped at the machine word. -/
theorem toNat_addPower
    (kind : SignalType)
    (power : UInt64)
    (nodeId : Bytes32)
    (signal : NodeSignal) :
    (addPower kind power nodeId signal).toNat =
      min (power.toNat + powerFor kind signal) maxU64 := by
  unfold addPower powerFor
  by_cases sameKind : signal.signalType = kind
  · rw [if_pos sameKind, if_pos sameKind, toNat_saturatingAdd]
  · rw [if_neg sameKind, if_neg sameKind, Nat.add_zero,
      Nat.min_eq_left (toNat_le_maxU64 power)]

/-- So is adding the powers of any signals in any order. -/
theorem toNat_foldl_addPower
    (kind : SignalType)
    (entries : List (Sigma fun _ : Bytes32 => NodeSignal))
    (power : UInt64) :
    (entries.foldl (fun sum entry => addPower kind sum entry.1 entry.2)
        power).toNat =
      min
        (power.toNat + (entries.map fun entry => powerFor kind entry.2).sum)
        maxU64 := by
  induction entries generalizing power with
  | nil =>
      rw [List.foldl_nil, List.map_nil, List.sum_nil, Nat.add_zero,
        Nat.min_eq_left (toNat_le_maxU64 power)]
  | cons entry rest inductionHypothesis =>
      rw [List.foldl_cons, inductionHypothesis, toNat_addPower, List.map_cons,
        List.sum_cons]
      omega

/-- The power behind a kind of vote is the clamped integer sum. -/
theorem toNat_powerOf (signals : NodeSignals) (kind : SignalType) :
    (signals.powerOf kind).toNat = min (signals.integerPower kind) maxU64 := by
  have listed := toNat_foldl_addPower kind signals.entries.toList 0
  rw [integerPower, total_eq_entries, powerOf, Finmap.foldl]
  rw [← Multiset.coe_toList signals.entries, Multiset.map_coe,
    Multiset.sum_coe, Multiset.coe_foldl, listed]
  exact congrArg (min · maxU64) (Nat.zero_add _)

end NodeSignals

namespace ForkProposal

variable {proposal : ForkProposal} {kind : SignalType} {threshold : UInt64}

/-- The power that a threshold asks for, in basis 10^6. -/
def requiredPower (proposal : ForkProposal) (threshold : UInt64) : Nat :=
  threshold.toNat * proposal.totalGovernancePowerFp.toNat

/-- The power behind a kind of vote, in basis 10^6. -/
def castPower (proposal : ForkProposal) (kind : SignalType) : Nat :=
  fixedPointBasis.toNat * proposal.signals.integerPower kind

theorem ne_zero_of_power
    (hasPower : 0 < proposal.totalGovernancePowerFp) :
    proposal.totalGovernancePowerFp ≠ 0 :=
  fun isZero => absurd hasPower (isZero ▸ UInt64.lt_irrefl 0)

/-- A share reaches a threshold that a machine word can hold the power for. -/
theorem threshold_le_fractionFp_iff
    (hasPower : 0 < proposal.totalGovernancePowerFp) :
    proposal.fractionFp kind ≥ threshold ↔
      proposal.requiredPower threshold ≤ proposal.castPower kind ∧
        proposal.requiredPower threshold ≤ maxU64 := by
  have positive : 0 < proposal.totalGovernancePowerFp.toNat :=
    UInt64.lt_iff_toNat_lt.mp hasPower
  have basisPositive : 1 ≤ fixedPointBasis.toNat := by decide
  rw [fractionFp, if_neg (ne_zero_of_power hasPower), ge_iff_le, UInt64.le_iff_toNat_le,
    UInt64.toNat_div, toNat_saturatingMul, NodeSignals.toNat_powerOf,
    Nat.le_div_iff_mul_le positive, requiredPower, castPower, Nat.le_min]
  generalize proposal.signals.integerPower kind = power
  generalize threshold.toNat * proposal.totalGovernancePowerFp.toNat = required
  constructor
  · intro ⟨withinCast, withinWord⟩
    refine ⟨withinCast.trans ?_, withinWord⟩
    rw [Nat.mul_comm]
    exact Nat.mul_le_mul_left _ (Nat.min_le_left _ _)
  · intro ⟨withinCast, withinWord⟩
    refine ⟨?_, withinWord⟩
    rcases Nat.le_total power maxU64 with small | large
    · rwa [Nat.min_eq_left small, Nat.mul_comm]
    · rw [Nat.min_eq_right large]
      exact withinWord.trans (Nat.le_mul_of_pos_right _ basisPositive)

/-- A transition of a proposal with power never fails. -/
theorem evaluateTransition_of_power
    (hasPower : 0 < proposal.totalGovernancePowerFp)
    (currentEpoch currentTimestamp : UInt64) :
    proposal.evaluateTransition currentEpoch currentTimestamp =
      .ok
        { proposal with
          state := proposal.nextState currentEpoch currentTimestamp } :=
  if_neg (ne_zero_of_power hasPower)

/-- A pending fork is committed by the share of its threshold. -/
theorem nextState_committed_iff
    (currentEpoch currentTimestamp : UInt64)
    (pending : proposal.state = .pending) :
    (∃ committedEpoch,
        proposal.nextState currentEpoch currentTimestamp =
          .committed committedEpoch) ↔
      proposal.fractionFp .commit ≥ commitThreshold proposal.forkType := by
  rw [nextState, pending, commitFractionFp]
  dsimp only
  by_cases reached :
      proposal.fractionFp .commit ≥ commitThreshold proposal.forkType
  · rw [if_pos reached]
    exact iff_of_true ⟨_, rfl⟩ reached
  · rw [if_neg reached]
    refine iff_of_false ?_ reached
    rintro ⟨_, absurdState⟩
    cases absurdState

/-- A committed fork is cancelled by the share of its threshold. -/
theorem nextState_cancelled_iff
    (currentEpoch currentTimestamp : UInt64)
    {committedEpoch : UInt64}
    (committed : proposal.state = .committed committedEpoch) :
    proposal.nextState currentEpoch currentTimestamp = .cancelled ↔
      proposal.fractionFp .abort ≥ forkAbortThresholdFp := by
  rw [nextState, committed, abortFractionFp]
  dsimp only
  by_cases reached : proposal.fractionFp .abort ≥ forkAbortThresholdFp
  · rw [if_pos reached]
    exact iff_of_true rfl reached
  · rw [if_neg reached]
    refine iff_of_false ?_ reached
    cases proposal.forkType with
    | normal =>
        dsimp only
        split <;> exact ForkState.noConfusion
    | emergency =>
        dsimp only
        split <;> exact ForkState.noConfusion

/--
A pending fork is committed, and a committed one cancelled, exactly when the
integer power behind the votes reaches the threshold.
-/
structure ThresholdsExact
    (proposal : ForkProposal)
    (currentEpoch currentTimestamp : UInt64) : Prop where
  commits :
    proposal.state = .pending →
      ((∃ after committedEpoch,
          proposal.evaluateTransition currentEpoch currentTimestamp =
              .ok after ∧
            after.state = .committed committedEpoch) ↔
        proposal.requiredPower (commitThreshold proposal.forkType) ≤
          proposal.castPower .commit)
  cancels : ∀ committedEpoch,
    proposal.state = .committed committedEpoch →
      ((∃ after,
          proposal.evaluateTransition currentEpoch currentTimestamp =
              .ok after ∧
            after.state = .cancelled) ↔
        proposal.requiredPower forkAbortThresholdFp ≤
          proposal.castPower .abort)

/-- The power that a threshold asks for fits a word, or the votes lack it. -/
def FitsOrLacks
    (proposal : ForkProposal)
    (kind : SignalType)
    (threshold : UInt64) : Prop :=
  proposal.requiredPower threshold ≤ maxU64 ∨
    proposal.castPower kind < proposal.requiredPower threshold

/-- A share reaches exactly the thresholds it should when the power fits. -/
theorem fractionFp_exact_iff
    (hasPower : 0 < proposal.totalGovernancePowerFp) :
    (proposal.fractionFp kind ≥ threshold ↔
        proposal.requiredPower threshold ≤ proposal.castPower kind) ↔
      proposal.FitsOrLacks kind threshold := by
  rw [threshold_le_fractionFp_iff hasPower, FitsOrLacks, ← Nat.not_le]
  tauto

variable {currentEpoch currentTimestamp : UInt64}

/-- What a proposal with power commits to. -/
theorem commits_iff
    (hasPower : 0 < proposal.totalGovernancePowerFp)
    (pending : proposal.state = .pending) :
    (∃ after committedEpoch,
        proposal.evaluateTransition currentEpoch currentTimestamp =
            .ok after ∧
          after.state = .committed committedEpoch) ↔
      proposal.fractionFp .commit ≥ commitThreshold proposal.forkType := by
  rw [evaluateTransition_of_power hasPower,
    ← nextState_committed_iff currentEpoch currentTimestamp pending]
  constructor
  · rintro ⟨after, committedEpoch, isAfter, isCommitted⟩
    cases isAfter
    exact ⟨committedEpoch, isCommitted⟩
  · rintro ⟨committedEpoch, isCommitted⟩
    exact ⟨_, committedEpoch, rfl, isCommitted⟩

/-- When a proposal with power is cancelled. -/
theorem cancels_iff
    {committedEpoch : UInt64}
    (hasPower : 0 < proposal.totalGovernancePowerFp)
    (committed : proposal.state = .committed committedEpoch) :
    (∃ after,
        proposal.evaluateTransition currentEpoch currentTimestamp =
            .ok after ∧
          after.state = .cancelled) ↔
      proposal.fractionFp .abort ≥ forkAbortThresholdFp := by
  rw [evaluateTransition_of_power hasPower,
    ← nextState_cancelled_iff currentEpoch currentTimestamp committed]
  constructor
  · rintro ⟨after, isAfter, isCancelled⟩
    cases isAfter
    exact isCancelled
  · intro isCancelled
    exact ⟨_, rfl, isCancelled⟩

/--
The thresholds are exact at a call exactly when the power that the threshold in
question asks for fits a machine word or the votes lack it.
-/
theorem thresholdsExact_iff
    (hasPower : 0 < proposal.totalGovernancePowerFp) :
    proposal.ThresholdsExact currentEpoch currentTimestamp ↔
      (proposal.state = .pending →
          proposal.FitsOrLacks .commit (commitThreshold proposal.forkType)) ∧
        ∀ committedEpoch,
          proposal.state = .committed committedEpoch →
            proposal.FitsOrLacks .abort forkAbortThresholdFp := by
  constructor
  · intro isExact
    constructor
    · intro pending
      rw [← fractionFp_exact_iff hasPower]
      exact (commits_iff hasPower pending).symm.trans (isExact.commits pending)
    · intro committedEpoch committed
      rw [← fractionFp_exact_iff hasPower]
      exact
        (cancels_iff hasPower committed).symm.trans
          (isExact.cancels committedEpoch committed)
  · intro ⟨pendingFits, committedFits⟩
    constructor
    · intro pending
      exact
        (commits_iff hasPower pending).trans
          ((fractionFp_exact_iff hasPower).mpr (pendingFits pending))
    · intro committedEpoch committed
      exact
        (cancels_iff hasPower committed).trans
          ((fractionFp_exact_iff hasPower).mpr
            (committedFits committedEpoch committed))

/-- A pending fork with one vote for it, by all the power there is. -/
def unanimous (power : UInt64) : ForkProposal where
  forkHash := Bytes32.zero
  forkType := .normal
  proposedEpoch := 0
  proposedTimestamp := 0
  state := .pending
  signals :=
    Finmap.singleton Bytes32.zero
      { signalType := .commit, governancePowerFp := power }
  totalGovernancePowerFp := power

/-- A unanimous vote of little power commits. -/
theorem thresholdsExact_unanimous :
    (unanimous 1000000).ThresholdsExact 0 0 :=
  (thresholdsExact_iff (by decide)).mpr
    ⟨fun _ => Or.inl (by decide), fun _ absurdState => by cases absurdState⟩

/-- A unanimous vote near the end of the machine word does not. -/
theorem unanimous_vote_not_committed :
    ¬ ∀ (proposal : ForkProposal) (currentEpoch currentTimestamp : UInt64),
        0 < proposal.totalGovernancePowerFp →
        proposal.ThresholdsExact currentEpoch currentTimestamp := by
  intro always
  have isExact := always (unanimous 18446744073709551615) 0 0 (by decide)
  have reached :
      (unanimous 18446744073709551615).fractionFp .commit ≥ 750000 :=
    (commits_iff (by decide) rfl).mp ((isExact.commits rfl).mpr (by decide))
  exact absurd reached (by decide)

end ForkProposal

end ScalarCore
