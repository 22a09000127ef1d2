import ScalarCore.Fork
import ScalarCore.StateMachine

namespace ScalarCore

/-!
# The lifecycle of a fork

A fork is pending, then committed, then cancelled or active.  The store keeps
to this except where a stored proposal is replaced by one in another state (or
a new one does not start pending), where a vote on a fork without any
governance power is counted by a call that fails, and where the activation
epoch exceeds the machine word.  A run is lawful exactly when no step is one of
these.
-/

open MachineInt

/-- The moves of a fork when a vote on it is processed in an epoch. -/
inductive ForkState.Moves
    (forkType : ForkType)
    (currentEpoch : UInt64) : ForkState → ForkState → Prop where
  | stays (state : ForkState) : Moves forkType currentEpoch state state
  | commits : Moves forkType currentEpoch .pending (.committed currentEpoch)
  | cancels (committedEpoch : UInt64) :
      Moves forkType currentEpoch (.committed committedEpoch) .cancelled
  | activates
      (committedEpoch activationEpoch : UInt64)
      (waited :
        forkType = .normal →
          committedEpoch.toNat + forkActivationOffsetEpochs.toNat ≤
            currentEpoch.toNat) :
      Moves forkType currentEpoch
        (.committed committedEpoch) (.active activationEpoch)

/-- There is no move from a cancelled or an active fork. -/
theorem ForkState.Moves.eq_of_terminal
    {forkType : ForkType}
    {currentEpoch : UInt64}
    {before after : ForkState}
    (moves : before.Moves forkType currentEpoch after)
    (terminal : before.isOpen = false) :
    after = before := by
  cases moves with
  | stays => rfl
  | commits => cases terminal
  | cancels => cases terminal
  | activates => cases terminal

namespace ForkProposal

/--
A vote that is counted or refused as a whole, and that does not activate a
normal fork through an activation epoch beyond the machine word.
-/
structure RegularVote
    (stored : ForkProposal)
    (msg : ForkSignalMessage)
    (governancePowerFp currentEpoch : UInt64) : Prop where
  hasPower :
    stored.totalGovernancePowerFp = 0 →
      stored.signals.lookup msg.nodeId =
        some (counted msg governancePowerFp)
  inRange :
    stored.totalGovernancePowerFp ≠ 0 →
    (stored.insertSignal msg governancePowerFp).abortFractionFp <
        forkAbortThresholdFp →
    stored.forkType = .normal →
    ∀ committedEpoch,
      stored.state = .committed committedEpoch →
      maxU64 <
        committedEpoch.toNat + forkActivationOffsetEpochs.toNat →
      currentEpoch < committedEpoch + forkActivationOffsetEpochs

/-- The activation epoch of a normal fork is reached too early by wrapping. -/
theorem reached_activation_iff
    {committedEpoch currentEpoch : UInt64}
    (reached :
      currentEpoch ≥ committedEpoch + forkActivationOffsetEpochs) :
    committedEpoch.toNat + forkActivationOffsetEpochs.toNat ≤
        currentEpoch.toNat ↔
      ¬ maxU64 <
        committedEpoch.toNat + forkActivationOffsetEpochs.toNat := by
  have offset : forkActivationOffsetEpochs.toNat = 3 := rfl
  have currentBound := currentEpoch.toNat_lt
  rw [ge_iff_le, UInt64.le_iff_toNat_le, UInt64.toNat_add] at reached
  rw [offset] at reached ⊢
  unfold maxU64
  omega

/-- Votes and time move an open fork lawfully unless the epoch wraps. -/
theorem moves_nextState_iff
    {proposal : ForkProposal}
    (isOpen : proposal.state.isOpen = true)
    (currentEpoch currentTimestamp : UInt64) :
    proposal.state.Moves proposal.forkType currentEpoch
        (proposal.nextState currentEpoch currentTimestamp) ↔
      (proposal.abortFractionFp < forkAbortThresholdFp →
        proposal.forkType = .normal →
        ∀ committedEpoch,
          proposal.state = .committed committedEpoch →
          maxU64 <
            committedEpoch.toNat + forkActivationOffsetEpochs.toNat →
          currentEpoch < committedEpoch + forkActivationOffsetEpochs) := by
  unfold nextState
  cases state : proposal.state with
  | pending =>
      refine iff_of_true ?_ fun _ _ _ isCommitted => by cases isCommitted
      dsimp only
      split
      · exact .commits
      · exact .stays _
  | committed committedEpoch =>
      dsimp only
      split
      · next aborted =>
          refine iff_of_true (.cancels _) fun notAborted => ?_
          exact absurd aborted (UInt64.not_le.mpr notAborted)
      · next notAborted =>
          rw [ge_iff_le, UInt64.not_le] at notAborted
          cases kind : proposal.forkType with
          | normal =>
              dsimp only
              split
              · next reached =>
                  have waited_iff := reached_activation_iff reached
                  constructor
                  · intro moves _ _ epoch sameEpoch wraps
                    cases sameEpoch
                    cases moves with
                    | activates _ _ waited =>
                        exact
                          absurd wraps (waited_iff.mp (waited rfl))
                  · intro regular
                    refine .activates _ _ fun _ => waited_iff.mpr ?_
                    intro wraps
                    exact
                      absurd reached
                        (UInt64.not_le.mpr
                          (regular notAborted rfl _ rfl wraps))
              · next early =>
                  rw [ge_iff_le, UInt64.not_le] at early
                  refine iff_of_true (.stays _) ?_
                  intro _ _ epoch sameEpoch _
                  cases sameEpoch
                  exact early
          | emergency =>
              refine iff_of_true ?_ fun _ isNormal => by cases isNormal
              dsimp only
              split
              · exact .activates _ _ fun isNormal => by cases isNormal
              · exact .stays _
  | active activationEpoch =>
      rw [state] at isOpen
      cases isOpen
  | cancelled =>
      rw [state] at isOpen
      cases isOpen

end ForkProposal

namespace ForkProposalStore

/-- Adding a proposal moves no fork; a new one starts pending. -/
structure LawfulAdd (store next : ForkProposalStore) : Prop where
  kept :
    ∀ forkHash before,
      store.get forkHash = some before →
      ∃ after,
        next.get forkHash = some after ∧ after.state = before.state
  entered :
    ∀ forkHash after,
      store.get forkHash = none →
      next.get forkHash = some after →
      after.state = .pending

/--
A processed signal moves forks lawfully, adds none, and leaves the store as it
was when it fails.
-/
structure LawfulSignal
    (currentEpoch : UInt64)
    (store : ForkProposalStore)
    (result : ForkProposalStore × Except ForkError Unit) : Prop where
  moved :
    ∀ forkHash before,
      store.get forkHash = some before →
      ∃ after,
        result.1.get forkHash = some after ∧
          before.state.Moves before.forkType currentEpoch after.state
  notEntered :
    ∀ forkHash, store.get forkHash = none → result.1.get forkHash = none
  unchanged :
    ∀ failure, result.2 = .error failure → result.1 = store

/-- The law of the lifecycle for one call. -/
def Lawful
    (verifySignature : List UInt8 → List UInt8 → List UInt8 → Option Bool)
    (store : ForkProposalStore) : ForkOp → Prop
  | .addProposal proposal => LawfulAdd store (store.addProposal proposal)
  | .processSignal msg governancePowerFp currentEpoch currentTimestamp =>
      LawfulSignal currentEpoch store
        (store.processSignal verifySignature msg governancePowerFp
          currentEpoch currentTimestamp)

/--
The calls that keep the law: a proposal is added in the state of the stored
one, or pending where there is none; and a signed vote on an open fork is a
regular one.
-/
def Regular
    (verifySignature : List UInt8 → List UInt8 → List UInt8 → Option Bool)
    (store : ForkProposalStore) : ForkOp → Prop
  | .addProposal proposal =>
      proposal.state =
        ((store.get proposal.forkHash).map ForkProposal.state).getD .pending
  | .processSignal msg governancePowerFp currentEpoch _ =>
      ∀ stored,
        store.get msg.forkHash = some stored →
        stored.state.isOpen = true →
        msg.verifySig verifySignature = true →
        stored.RegularVote msg governancePowerFp currentEpoch

variable
  {verifySignature : List UInt8 → List UInt8 → List UInt8 → Option Bool}
  {store : ForkProposalStore}

theorem get_insert
    (forkHash : Bytes32)
    (proposal : ForkProposal) :
    get (store.insert forkHash proposal) forkHash = some proposal :=
  Finmap.lookup_insert _

theorem get_insert_of_ne
    {forkHash forkHash' : Bytes32}
    (different : forkHash' ≠ forkHash)
    (proposal : ForkProposal) :
    get (store.insert forkHash proposal) forkHash' = store.get forkHash' :=
  Finmap.lookup_insert_of_ne _ different

/-- A call that finds no open fork or no valid signature fails. -/
theorem processSignal_of_refused
    {msg : ForkSignalMessage}
    (refused :
      ∀ stored,
        store.get msg.forkHash = some stored →
        ¬ (stored.state.isOpen = true ∧
          msg.verifySig verifySignature = true))
    (governancePowerFp currentEpoch currentTimestamp : UInt64) :
    ∃ failure,
      store.processSignal verifySignature msg governancePowerFp
          currentEpoch currentTimestamp =
        (store, .error failure) := by
  unfold processSignal
  cases found : store.get msg.forkHash with
  | none => exact ⟨_, rfl⟩
  | some stored =>
      obtain ⟨failure, failed⟩ :=
        ForkProposal.addSignal_of_not_valid (refused stored found)
          governancePowerFp
      exact ⟨failure, by simp only [failed]⟩

/-- The vote is counted, and the transition made where there is power. -/
theorem processSignal_of_counted
    {msg : ForkSignalMessage}
    {stored : ForkProposal}
    (found : store.get msg.forkHash = some stored)
    (isOpen : stored.state.isOpen = true)
    (valid : msg.verifySig verifySignature = true)
    (governancePowerFp currentEpoch currentTimestamp : UInt64) :
    store.processSignal verifySignature msg governancePowerFp
        currentEpoch currentTimestamp =
      (let voted := stored.insertSignal msg governancePowerFp
      if stored.totalGovernancePowerFp = 0 then
        (store.insert msg.forkHash voted, .error .zeroTotalNodes)
      else
        (store.insert msg.forkHash
          { voted with
            state := voted.nextState currentEpoch currentTimestamp },
          .ok ())) := by
  unfold processSignal
  simp only [found, ForkProposal.addSignal_of_valid isOpen valid,
    ForkProposal.evaluateTransition]
  by_cases noPower : stored.totalGovernancePowerFp = 0
  · simp only [ForkProposal.insertSignal, noPower, ↓reduceIte]
  · simp only [ForkProposal.insertSignal, noPower, ↓reduceIte]

/-- Adding a proposal is lawful in exactly the regular cases. -/
theorem lawfulAdd_iff (proposal : ForkProposal) :
    LawfulAdd store (store.addProposal proposal) ↔
      proposal.state =
        ((store.get proposal.forkHash).map
          ForkProposal.state).getD .pending := by
  have added :
      (store.addProposal proposal).get proposal.forkHash = some proposal :=
    get_insert _ _
  have others :
      ∀ forkHash,
        forkHash ≠ proposal.forkHash →
        (store.addProposal proposal).get forkHash = store.get forkHash :=
    fun forkHash different => get_insert_of_ne different _
  constructor
  · intro lawful
    cases found : store.get proposal.forkHash with
    | none => exact lawful.entered _ _ found added
    | some stored =>
        obtain ⟨after, isAfter, sameState⟩ := lawful.kept _ _ found
        rw [added] at isAfter
        cases isAfter
        exact sameState
  · intro regular
    constructor
    · intro forkHash before found
      by_cases same : forkHash = proposal.forkHash
      · subst same
        rw [found] at regular
        exact ⟨proposal, added, regular⟩
      · exact ⟨before, (others _ same).trans found, rfl⟩
    · intro forkHash after notFound isAfter
      by_cases same : forkHash = proposal.forkHash
      · subst same
        rw [added] at isAfter
        cases isAfter
        rw [notFound] at regular
        exact regular
      · rw [others _ same, notFound] at isAfter
        cases isAfter

/-- Replacing one proposal moves that fork only. -/
theorem moved_insert_iff
    {forkHash : Bytes32}
    {stored next : ForkProposal}
    (found : store.get forkHash = some stored)
    (currentEpoch : UInt64) :
    (∀ forkHash' before,
        store.get forkHash' = some before →
        ∃ after,
          get (store.insert forkHash next) forkHash' = some after ∧
            before.state.Moves before.forkType currentEpoch after.state) ↔
      stored.state.Moves stored.forkType currentEpoch next.state := by
  constructor
  · intro moved
    obtain ⟨after, isAfter, moves⟩ := moved _ _ found
    rw [get_insert] at isAfter
    cases isAfter
    exact moves
  · intro moves forkHash' before isBefore
    by_cases same : forkHash' = forkHash
    · subst same
      rw [found] at isBefore
      cases isBefore
      exact ⟨next, get_insert _ _, moves⟩
    · exact
        ⟨before, (get_insert_of_ne same _).trans isBefore, .stays _⟩

/-- Replacing a stored proposal adds none. -/
theorem get_insert_eq_none
    {forkHash forkHash' : Bytes32}
    {stored : ForkProposal}
    (found : store.get forkHash = some stored)
    (next : ForkProposal)
    (absent : store.get forkHash' = none) :
    get (store.insert forkHash next) forkHash' = none := by
  have different : forkHash' ≠ forkHash := by
    rintro rfl
    rw [found] at absent
    cases absent
  rw [get_insert_of_ne different, absent]

/-- A signed vote on an open fork is lawful in exactly the regular cases. -/
theorem lawfulSignal_iff_of_counted
    {msg : ForkSignalMessage}
    {stored : ForkProposal}
    (found : store.get msg.forkHash = some stored)
    (isOpen : stored.state.isOpen = true)
    (valid : msg.verifySig verifySignature = true)
    (governancePowerFp currentEpoch currentTimestamp : UInt64) :
    LawfulSignal currentEpoch store
        (store.processSignal verifySignature msg governancePowerFp
          currentEpoch currentTimestamp) ↔
      stored.RegularVote msg governancePowerFp currentEpoch := by
  rw [processSignal_of_counted found isOpen valid]
  dsimp only
  by_cases noPower : stored.totalGovernancePowerFp = 0
  · rw [if_pos noPower]
    have unchanged_iff :
        store.insert msg.forkHash
              (stored.insertSignal msg governancePowerFp) = store ↔
          stored.signals.lookup msg.nodeId =
            some (ForkProposal.counted msg governancePowerFp) := by
      rw [KeyedWrites.insert_eq_self_iff,
        show store.lookup msg.forkHash = some stored from found,
        Option.some_inj, eq_comm, ForkProposal.insertSignal_eq_self_iff]
    constructor
    · intro lawful
      exact
        { hasPower := fun _ =>
            unchanged_iff.mp (lawful.unchanged _ rfl)
          inRange := fun hasPower => absurd noPower hasPower }
    · intro regular
      have unchanged := unchanged_iff.mpr (regular.hasPower noPower)
      exact
        { moved := (moved_insert_iff found _).mpr (.stays _)
          notEntered := fun _ => get_insert_eq_none found _
          unchanged := fun _ _ => unchanged }
  · rw [if_neg noPower]
    have moves_iff :=
      ForkProposal.moves_nextState_iff
        (show (stored.insertSignal msg
          governancePowerFp).state.isOpen = true from isOpen)
        currentEpoch currentTimestamp
    constructor
    · intro lawful
      exact
        { hasPower := fun isZero => absurd isZero noPower
          inRange := fun _ =>
            moves_iff.mp ((moved_insert_iff found _).mp lawful.moved) }
    · intro regular
      exact
        { moved :=
            (moved_insert_iff found _).mpr
              (moves_iff.mpr (regular.inRange noPower))
          notEntered := fun _ => get_insert_eq_none found _
          unchanged := fun _ failed => by cases failed }

/-- A call that fails at once is lawful. -/
theorem lawfulSignal_of_unchanged
    (currentEpoch : UInt64)
    (failure : ForkError) :
    LawfulSignal currentEpoch store (store, .error failure) where
  moved := fun _ before found => ⟨before, found, .stays _⟩
  notEntered := fun _ absent => absent
  unchanged := fun _ _ => rfl

/-- A call keeps the law exactly when it is regular. -/
theorem lawful_iff_regular
    (verifySignature : List UInt8 → List UInt8 → List UInt8 → Option Bool)
    (store : ForkProposalStore)
    (op : ForkOp) :
    store.Lawful verifySignature op ↔ store.Regular verifySignature op := by
  cases op with
  | addProposal proposal => exact lawfulAdd_iff proposal
  | processSignal msg governancePowerFp currentEpoch currentTimestamp =>
      by_cases counted :
          ∃ stored,
            store.get msg.forkHash = some stored ∧
              stored.state.isOpen = true ∧
                msg.verifySig verifySignature = true
      · obtain ⟨stored, found, isOpen, valid⟩ := counted
        have lawful_iff :=
          lawfulSignal_iff_of_counted found isOpen valid
            governancePowerFp currentEpoch currentTimestamp
        constructor
        · intro lawful stored' found' _ _
          rw [found] at found'
          cases found'
          exact lawful_iff.mp lawful
        · intro regular
          exact lawful_iff.mpr (regular stored found isOpen valid)
      · obtain ⟨failure, failed⟩ :=
          processSignal_of_refused
            (fun stored found accepted =>
              counted ⟨stored, found, accepted.1, accepted.2⟩)
            governancePowerFp currentEpoch currentTimestamp
        constructor
        · intro _ stored found isOpen valid
          exact absurd ⟨stored, found, isOpen, valid⟩ counted
        · intro _
          change LawfulSignal _ _ _
          rw [failed]
          exact lawfulSignal_of_unchanged _ _

/-!
## What the law says of a run
-/

/-- A lawful call keeps a stored fork and moves it only by a signal. -/
theorem Lawful.get_of_stored
    {op : ForkOp}
    (lawful : store.Lawful verifySignature op)
    {forkHash : Bytes32}
    {before : ForkProposal}
    (found : store.get forkHash = some before) :
    ∃ after,
      get (applyOp verifySignature store op).1 forkHash = some after ∧
        (after.state = before.state ∨
          ∃ msg governancePowerFp currentEpoch currentTimestamp,
            op =
                .processSignal msg governancePowerFp currentEpoch
                  currentTimestamp ∧
              before.state.Moves before.forkType currentEpoch
                after.state) := by
  cases op with
  | addProposal proposal =>
      obtain ⟨after, isAfter, sameState⟩ :=
        LawfulAdd.kept lawful _ _ found
      exact ⟨after, isAfter, Or.inl sameState⟩
  | processSignal msg governancePowerFp currentEpoch currentTimestamp =>
      obtain ⟨after, isAfter, moves⟩ :=
        LawfulSignal.moved lawful _ _ found
      exact ⟨after, isAfter, Or.inr ⟨_, _, _, _, rfl, moves⟩⟩

/-- A fork that a lawful call brings into the store is pending. -/
theorem Lawful.pending_of_entered
    {op : ForkOp}
    (lawful : store.Lawful verifySignature op)
    {forkHash : Bytes32}
    {after : ForkProposal}
    (absent : store.get forkHash = none)
    (isAfter :
      get (applyOp verifySignature store op).1 forkHash = some after) :
    after.state = .pending := by
  cases op with
  | addProposal proposal =>
      exact LawfulAdd.entered lawful _ _ absent isAfter
  | processSignal msg governancePowerFp currentEpoch currentTimestamp =>
      have stillAbsent := LawfulSignal.notEntered lawful _ absent
      rw [applyOp, stillAbsent] at isAfter
      cases isAfter

/-- A cancelled or active fork stays as it is in a lawful run. -/
theorem terminal_stays
    {ops : List ForkOp}
    (lawful :
      StateMachine.EveryStep (applyOp verifySignature)
        (Lawful verifySignature) store ops)
    {forkHash : Bytes32}
    {before : ForkProposal}
    (found : store.get forkHash = some before)
    (terminal : before.state.isOpen = false) :
    ∃ after,
      get (StateMachine.run (applyOp verifySignature) store ops)
          forkHash = some after ∧
        after.state = before.state := by
  induction ops generalizing store before with
  | nil =>
      exact ⟨before, found, rfl⟩
  | cons op rest inductionHypothesis =>
      obtain ⟨firstLawful, restLawful⟩ := lawful
      obtain ⟨next, isNext, stepped⟩ := firstLawful.get_of_stored found
      have sameState : next.state = before.state := by
        rcases stepped with same | ⟨_, _, _, _, _, moves⟩
        · exact same
        · exact moves.eq_of_terminal terminal
      obtain ⟨last, isLast, lastState⟩ :=
        inductionHypothesis restLawful isNext (sameState ▸ terminal)
      exact ⟨last, isLast, lastState.trans sameState⟩

/-- The epoch of a committed fork is that of a signal processed before. -/
theorem committed_in_epoch
    {ops : List ForkOp}
    (lawful :
      StateMachine.EveryStep (applyOp verifySignature)
        (Lawful verifySignature) ∅ ops)
    {forkHash : Bytes32}
    {proposal : ForkProposal}
    (found :
      get (StateMachine.run (applyOp verifySignature) ∅ ops) forkHash =
        some proposal)
    {committedEpoch : UInt64}
    (isCommitted : proposal.state = .committed committedEpoch) :
    ∃ msg governancePowerFp currentTimestamp,
      .processSignal msg governancePowerFp committedEpoch
        currentTimestamp ∈ ops := by
  induction ops using List.reverseRecOn generalizing proposal with
  | nil =>
      cases found
  | append_singleton ops op inductionHypothesis =>
      obtain ⟨pastLawful, ⟨lastLawful, _⟩⟩ :=
        StateMachine.everyStep_append.mp lawful
      rw [StateMachine.run_append] at found
      have earlier {before : ForkProposal}
          (isBefore :
            get (StateMachine.run (applyOp verifySignature) ∅ ops)
              forkHash = some before)
          (wasCommitted : before.state = .committed committedEpoch) :
          ∃ msg governancePowerFp currentTimestamp,
            .processSignal msg governancePowerFp committedEpoch
              currentTimestamp ∈ ops ++ [op] := by
        obtain ⟨msg, power, timestamp, listed⟩ :=
          inductionHypothesis pastLawful isBefore wasCommitted
        exact ⟨msg, power, timestamp, List.mem_append_left _ listed⟩
      cases isBefore :
          get (StateMachine.run (applyOp verifySignature) ∅ ops) forkHash with
      | none =>
          have isPending := lastLawful.pending_of_entered isBefore found
          rw [isPending] at isCommitted
          cases isCommitted
      | some before =>
          obtain ⟨after, isAfter, stepped⟩ :=
            lastLawful.get_of_stored isBefore
          have sameProposal : after = proposal :=
            Option.some_inj.mp (isAfter.symm.trans found)
          subst sameProposal
          rw [isCommitted] at stepped
          rcases stepped with same | ⟨msg, power, _, timestamp, rfl, moves⟩
          · exact earlier isBefore same.symm
          · generalize wasState : before.state = state at moves
            cases moves with
            | stays => exact earlier isBefore wasState
            | commits =>
                exact
                  ⟨msg, power, timestamp,
                    List.mem_append_right _ (List.mem_singleton.mpr rfl)⟩

/--
In a lawful run a normal fork becomes active only by a signal processed three
epochs after the one that committed it.
-/
theorem activated_after_commitment
    {past later : List ForkOp}
    {op : ForkOp}
    (lawful :
      StateMachine.EveryStep (applyOp verifySignature)
        (Lawful verifySignature) ∅ (past ++ op :: later))
    {forkHash : Bytes32}
    {before after : ForkProposal}
    (isBefore :
      get (StateMachine.run (applyOp verifySignature) ∅ past) forkHash =
        some before)
    (isAfter :
      get (StateMachine.run (applyOp verifySignature) ∅ (past ++ [op]))
        forkHash = some after)
    (isNormal : before.forkType = .normal)
    {activationEpoch : UInt64}
    (wasNotActive : before.state ≠ .active activationEpoch)
    (isActive : after.state = .active activationEpoch) :
    ∃ committedEpoch currentEpoch,
      (∃ msg governancePowerFp currentTimestamp,
          .processSignal msg governancePowerFp committedEpoch
            currentTimestamp ∈ past) ∧
        (∃ msg governancePowerFp currentTimestamp,
          op =
            .processSignal msg governancePowerFp currentEpoch
              currentTimestamp) ∧
        committedEpoch.toNat + forkActivationOffsetEpochs.toNat ≤
          currentEpoch.toNat := by
  obtain ⟨pastLawful, ⟨stepLawful, _⟩⟩ :=
    StateMachine.everyStep_append.mp lawful
  obtain ⟨after', isAfter', stepped⟩ := stepLawful.get_of_stored isBefore
  rw [StateMachine.run_append] at isAfter
  have sameProposal : after' = after :=
    Option.some_inj.mp (isAfter'.symm.trans isAfter)
  subst sameProposal
  rw [isActive] at stepped
  rcases stepped with same | ⟨msg, power, currentEpoch, timestamp, rfl, moves⟩
  · exact absurd same.symm wasNotActive
  · generalize wasState : before.state = state at moves
    cases moves with
    | stays => exact absurd wasState wasNotActive
    | activates committedEpoch _ waited =>
        exact
          ⟨committedEpoch, currentEpoch,
            committed_in_epoch pastLawful isBefore wasState,
            ⟨msg, power, timestamp, rfl⟩, waited isNormal⟩

/--
A run keeps the law of the lifecycle exactly when all its calls are regular.
-/
theorem lifecycle_iff
    (verifySignature : List UInt8 → List UInt8 → List UInt8 → Option Bool)
    (ops : List ForkOp) :
    StateMachine.EveryStep (applyOp verifySignature)
        (Lawful verifySignature) ∅ ops ↔
      StateMachine.EveryStep (applyOp verifySignature)
        (Regular verifySignature) ∅ ops :=
  StateMachine.everyStep_iff (lawful_iff_regular verifySignature) ∅ ops

/-- A vote of one node to commit the fork of hash zero. -/
def commitSignal : ForkSignalMessage where
  nodeId := Bytes32.endingIn 1
  epochId := 10
  forkHash := Bytes32.zero
  signalType := .commit
  timestamp := 1000000
  signature := [1]
  publicKey := [1]

/-- A proposal that this vote commits. -/
def smallProposal : ForkProposal :=
  ForkProposal.new Bytes32.zero .normal 10 1000000 1

/-- A committed fork is pending again when it is proposed again. -/
theorem lifecycle_broken :
    ¬ ∀ verifySignature ops,
        StateMachine.EveryStep (applyOp verifySignature)
          (Lawful verifySignature) ∅ ops := by
  intro always
  have lawful :=
    always (fun _ _ _ => some true)
      [.addProposal smallProposal,
        .processSignal commitSignal 1 10 1000000,
        .addProposal smallProposal]
  have replaced := (lawfulAdd_iff smallProposal).mp lawful.2.2.1
  exact absurd replaced (by decide)

end ForkProposalStore

end ScalarCore
