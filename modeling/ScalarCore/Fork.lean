import ScalarCore.Bytes
import ScalarCore.KeyedWrites
import ScalarCore.MachineInt

namespace ScalarCore

/-!
# Fork proposals

A fork is proposed, committed by three quarters of the governance power (half
of it in an emergency), and then either cancelled by two thirds of it or
activated.  Each signed vote is counted with the power that the caller passes
for its node; the store applies a vote and the transition it causes in one
call.

The signature scheme is a parameter: `verifySignature message signature key`
is the answer of its verifier, absent where it fails.  Epoch and timestamp
sums are those of machine words.
-/

open MachineInt

/-- Share of the power that commits a fork, in basis 10^6. -/
def forkCommitThresholdFp : UInt64 :=
  750000

/-- Share of the power that cancels a committed fork. -/
def forkAbortThresholdFp : UInt64 :=
  670000

/-- Share of the power that commits an emergency fork. -/
def emergencyForkCommitThresholdFp : UInt64 :=
  510000

/-- Epochs between the commitment of a fork and its activation. -/
def forkActivationOffsetEpochs : UInt64 :=
  3

/-- Seconds between the proposal of an emergency fork and its activation. -/
def emergencyForkLockSecs : UInt64 :=
  172800

/-- The basis of the shares. -/
def fixedPointBasis : UInt64 :=
  1000000

/-- The domain separator of votes. -/
def domainVote : List UInt8 :=
  asciiBytes "scalar.governance.vote"

/-- What a node votes for. -/
inductive SignalType where
  | commit
  | abort
  deriving Repr, DecidableEq

/-- The byte of a vote in the signed message. -/
def SignalType.toByte : SignalType → UInt8
  | .commit => 0
  | .abort => 1

/-- A signed vote. -/
structure ForkSignalMessage where
  nodeId : Bytes32
  epochId : UInt64
  forkHash : Bytes32
  signalType : SignalType
  timestamp : UInt64
  signature : List UInt8
  publicKey : List UInt8
  deriving DecidableEq

namespace ForkSignalMessage

/-- The message that a vote signs. -/
def voteMessage (msg : ForkSignalMessage) : List UInt8 :=
  domainVote ++ msg.nodeId.bytes ++ toLeBytes msg.epochId ++
    msg.forkHash.bytes ++ [msg.signalType.toByte]

/-- Whether the signature of a vote is valid. -/
def verifySig
    (verifySignature : List UInt8 → List UInt8 → List UInt8 → Option Bool)
    (msg : ForkSignalMessage) : Bool :=
  if msg.publicKey.isEmpty || msg.signature.isEmpty then
    false
  else
    (verifySignature msg.voteMessage msg.signature msg.publicKey).getD false

end ForkSignalMessage

/-- Whether a fork follows the normal or the emergency schedule. -/
inductive ForkType where
  | normal
  | emergency
  deriving Repr, DecidableEq

/-- The states of a fork. -/
inductive ForkState where
  | pending
  | committed (committedEpoch : UInt64)
  | active (activationEpoch : UInt64)
  | cancelled
  deriving Repr, DecidableEq

/-- Whether a fork is still voted on. -/
def ForkState.isOpen : ForkState → Bool
  | .pending => true
  | .committed _ => true
  | .active _ => false
  | .cancelled => false

/-- The vote counted for a node. -/
structure NodeSignal where
  signalType : SignalType
  governancePowerFp : UInt64
  deriving Repr, DecidableEq

/-- The votes counted for a fork, by node. -/
abbrev NodeSignals :=
  Finmap fun _ : Bytes32 => NodeSignal

/-- Add the power of a vote when it is of a kind. -/
def NodeSignals.addPower
    (kind : SignalType)
    (power : UInt64)
    (_ : Bytes32)
    (signal : NodeSignal) : UInt64 :=
  if signal.signalType = kind then
    saturatingAdd power signal.governancePowerFp
  else
    power

/-- Two votes add their power in either order. -/
theorem NodeSignals.addPower_right_comm
    (kind : SignalType)
    (power : UInt64)
    (nodeId : Bytes32)
    (signal : NodeSignal)
    (nodeId' : Bytes32)
    (signal' : NodeSignal) :
    addPower kind (addPower kind power nodeId signal) nodeId' signal' =
      addPower kind (addPower kind power nodeId' signal') nodeId signal := by
  unfold addPower
  split <;> split <;>
    first
      | rfl
      | exact saturatingAdd_right_comm _ _ _

/-- The power behind a kind of vote, whatever the order of the map. -/
def NodeSignals.powerOf
    (signals : NodeSignals)
    (kind : SignalType) : UInt64 :=
  signals.foldl (addPower kind) (addPower_right_comm kind) 0

/-- Errors of the fork operations. -/
inductive ForkError where
  | forkNotFound
  | forkNotPending
  | alreadyCommitted
  | forkCancelled
  | forkActive
  | invalidEmergencyScope
  | zeroTotalNodes
  | invalidSignature
  deriving Repr, DecidableEq

/-- A proposed fork with the votes on it. -/
structure ForkProposal where
  forkHash : Bytes32
  forkType : ForkType
  proposedEpoch : UInt64
  proposedTimestamp : UInt64
  state : ForkState
  signals : NodeSignals
  totalGovernancePowerFp : UInt64
  deriving DecidableEq

namespace ForkProposal

/-- A pending proposal without votes. -/
def new
    (forkHash : Bytes32)
    (forkType : ForkType)
    (proposedEpoch proposedTimestamp totalGovernancePowerFp : UInt64) :
    ForkProposal where
  forkHash
  forkType
  proposedEpoch
  proposedTimestamp
  state := .pending
  signals := ∅
  totalGovernancePowerFp

/-- The vote of a message, counted with a power. -/
def counted
    (msg : ForkSignalMessage)
    (governancePowerFp : UInt64) : NodeSignal where
  signalType := msg.signalType
  governancePowerFp

/-- Count a vote in place of the earlier one of its node. -/
def insertSignal
    (proposal : ForkProposal)
    (msg : ForkSignalMessage)
    (governancePowerFp : UInt64) : ForkProposal :=
  { proposal with
    signals :=
      proposal.signals.insert msg.nodeId (counted msg governancePowerFp) }

/-- Count a signed vote while the fork is voted on. -/
def addSignal
    (verifySignature : List UInt8 → List UInt8 → List UInt8 → Option Bool)
    (proposal : ForkProposal)
    (msg : ForkSignalMessage)
    (governancePowerFp : UInt64) : Except ForkError ForkProposal :=
  match proposal.state with
  | .cancelled => .error .forkCancelled
  | .active _ => .error .forkActive
  | _ =>
      if msg.verifySig verifySignature then
        .ok (proposal.insertSignal msg governancePowerFp)
      else
        .error .invalidSignature

/-- The share of the power behind a kind of vote, in basis 10^6. -/
def fractionFp (proposal : ForkProposal) (kind : SignalType) : UInt64 :=
  if proposal.totalGovernancePowerFp = 0 then
    0
  else
    saturatingMul (proposal.signals.powerOf kind) fixedPointBasis /
      proposal.totalGovernancePowerFp

/-- The share of the power that commits. -/
def commitFractionFp (proposal : ForkProposal) : UInt64 :=
  proposal.fractionFp .commit

/-- The share of the power that aborts. -/
def abortFractionFp (proposal : ForkProposal) : UInt64 :=
  proposal.fractionFp .abort

/-- The share that commits a fork of a type. -/
def commitThreshold : ForkType → UInt64
  | .normal => forkCommitThresholdFp
  | .emergency => emergencyForkCommitThresholdFp

/-- The state that the votes and the time lead to. -/
def nextState
    (proposal : ForkProposal)
    (currentEpoch currentTimestamp : UInt64) : ForkState :=
  match proposal.state with
  | .pending =>
      if proposal.commitFractionFp ≥ commitThreshold proposal.forkType then
        .committed currentEpoch
      else
        .pending
  | .committed committedEpoch =>
      if proposal.abortFractionFp ≥ forkAbortThresholdFp then
        .cancelled
      else
        match proposal.forkType with
        | .normal =>
            let activationEpoch := committedEpoch + forkActivationOffsetEpochs
            if currentEpoch ≥ activationEpoch then
              .active activationEpoch
            else
              .committed committedEpoch
        | .emergency =>
            if currentTimestamp ≥
                proposal.proposedTimestamp + emergencyForkLockSecs then
              .active currentEpoch
            else
              .committed committedEpoch
  | .active activationEpoch => .active activationEpoch
  | .cancelled => .cancelled

/-- Move the fork to the state that the votes and the time lead to. -/
def evaluateTransition
    (proposal : ForkProposal)
    (currentEpoch currentTimestamp : UInt64) :
    Except ForkError ForkProposal :=
  if proposal.totalGovernancePowerFp = 0 then
    .error .zeroTotalNodes
  else
    .ok
      { proposal with
        state := proposal.nextState currentEpoch currentTimestamp }

end ForkProposal

/-- The proposals by hash. -/
abbrev ForkProposalStore :=
  Finmap fun _ : Bytes32 => ForkProposal

/-- The operations of the store. -/
inductive ForkOp where
  | addProposal (proposal : ForkProposal)
  | processSignal
      (msg : ForkSignalMessage)
      (governancePowerFp currentEpoch currentTimestamp : UInt64)
  deriving DecidableEq

namespace ForkProposalStore

/-- The proposal stored under a hash. -/
def get
    (store : ForkProposalStore)
    (forkHash : Bytes32) : Option ForkProposal :=
  store.lookup forkHash

/-- Store a proposal under its hash. -/
def addProposal
    (store : ForkProposalStore)
    (proposal : ForkProposal) : ForkProposalStore :=
  store.insert proposal.forkHash proposal

/--
Count a vote and move its fork.  A vote that was counted stays counted when the
transition fails.
-/
def processSignal
    (verifySignature : List UInt8 → List UInt8 → List UInt8 → Option Bool)
    (store : ForkProposalStore)
    (msg : ForkSignalMessage)
    (governancePowerFp currentEpoch currentTimestamp : UInt64) :
    ForkProposalStore × Except ForkError Unit :=
  match store.get msg.forkHash with
  | none => (store, .error .forkNotFound)
  | some proposal =>
      match proposal.addSignal verifySignature msg governancePowerFp with
      | .error failure => (store, .error failure)
      | .ok voted =>
          match voted.evaluateTransition currentEpoch currentTimestamp with
          | .error failure =>
              (store.insert msg.forkHash voted, .error failure)
          | .ok moved => (store.insert msg.forkHash moved, .ok ())

/-- Number of proposals that are still voted on. -/
def activeCount (store : ForkProposalStore) : Nat :=
  (store.keys.filter fun forkHash =>
    (store.get forkHash).any fun proposal => proposal.state.isOpen).card

/-- Perform one operation. -/
def applyOp
    (verifySignature : List UInt8 → List UInt8 → List UInt8 → Option Bool)
    (store : ForkProposalStore) :
    ForkOp → ForkProposalStore × Except ForkError Unit
  | .addProposal proposal => (store.addProposal proposal, .ok ())
  | .processSignal msg governancePowerFp currentEpoch currentTimestamp =>
      store.processSignal verifySignature msg governancePowerFp currentEpoch
        currentTimestamp

end ForkProposalStore

/-!
## What a call does
-/

namespace ForkProposal

variable
  {verifySignature : List UInt8 → List UInt8 → List UInt8 → Option Bool}

/-- A vote on an open fork with a valid signature is counted. -/
theorem addSignal_of_valid
    {proposal : ForkProposal}
    {msg : ForkSignalMessage}
    (isOpen : proposal.state.isOpen = true)
    (valid : msg.verifySig verifySignature = true)
    (governancePowerFp : UInt64) :
    proposal.addSignal verifySignature msg governancePowerFp =
      .ok (proposal.insertSignal msg governancePowerFp) := by
  unfold addSignal
  cases state : proposal.state with
  | pending => exact if_pos valid
  | committed committedEpoch => exact if_pos valid
  | active activationEpoch =>
      rw [state] at isOpen
      cases isOpen
  | cancelled =>
      rw [state] at isOpen
      cases isOpen

/-- Every other vote is refused. -/
theorem addSignal_of_not_valid
    {proposal : ForkProposal}
    {msg : ForkSignalMessage}
    (refused :
      ¬ (proposal.state.isOpen = true ∧
        msg.verifySig verifySignature = true))
    (governancePowerFp : UInt64) :
    ∃ failure,
      proposal.addSignal verifySignature msg governancePowerFp =
        .error failure := by
  unfold addSignal
  cases state : proposal.state with
  | pending =>
      refine ⟨_, if_neg fun valid => refused ⟨?_, valid⟩⟩
      rw [state]
      rfl
  | committed committedEpoch =>
      refine ⟨_, if_neg fun valid => refused ⟨?_, valid⟩⟩
      rw [state]
      rfl
  | active activationEpoch => exact ⟨_, rfl⟩
  | cancelled => exact ⟨_, rfl⟩

/-- Counting a vote again that is already counted changes nothing. -/
theorem insertSignal_eq_self_iff
    {proposal : ForkProposal}
    {msg : ForkSignalMessage}
    {governancePowerFp : UInt64} :
    proposal.insertSignal msg governancePowerFp = proposal ↔
      proposal.signals.lookup msg.nodeId =
        some (counted msg governancePowerFp) := by
  rw [← KeyedWrites.insert_eq_self_iff]
  constructor
  · exact congrArg signals
  · intro sameSignals
    rw [insertSignal, sameSignals]

end ForkProposal

end ScalarCore
