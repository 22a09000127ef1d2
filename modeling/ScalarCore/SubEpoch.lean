import ScalarCore.FallibleChecks
import ScalarCore.SmtMessages
import ScalarCore.StateMachine
import Mathlib.Data.Finmap

namespace ScalarCore

/-!
# The chain of sub-epoch commitments

An epoch is divided into sub-epochs and a commitment closes each of them.  The
chain keeps one commitment for each sub-epoch id, linked by the hash of the
predecessor.  BLAKE3 is a parameter; what it is applied to is spelled out byte
by byte.
-/

open FallibleChecks

/-- Number of validator signatures that make a quorum. -/
def subepochQuorumThreshold : Nat :=
  5

/-- Domain separator of the sub-epoch hash. -/
def domainSubepoch : List UInt8 :=
  asciiBytes "scalar_subepoch"

/-- Domain separator of the incremental tree's frontier. -/
def domainImtFrontier : List UInt8 :=
  asciiBytes "scalar_imt_frontier"

/-- The commitment that closes one sub-epoch. -/
structure SubEpochCommitment where
  epochId : UInt64
  subepochId : UInt32
  txSetRoot : Bytes32
  cumulativeUtxoRoot : Bytes32
  imtFrontierRoot : Bytes32
  nullifierBatchRoot : Bytes32
  prevSubepochHash : Bytes32
  subepochHash : Bytes32
  imtCount : UInt64
  txCount : UInt32
  timestamp : UInt64
  aggregatorSig : List UInt8
  /-- Node ids with their signatures. -/
  validatorSigs : List (Bytes32 × List UInt8)
  deriving DecidableEq

namespace SubEpochCommitment

/-- Whether enough signatures are listed. -/
def hasQuorum (commitment : SubEpochCommitment) : Bool :=
  decide (subepochQuorumThreshold ≤ commitment.validatorSigs.length)

/-- Enter a signature, unless the node has one, and report the quorum. -/
def addValidatorSig
    (commitment : SubEpochCommitment)
    (nodeId : Bytes32)
    (sig : List UInt8) : SubEpochCommitment × Bool :=
  let signed :=
    if commitment.validatorSigs.any fun entry => entry.1 == nodeId then
      commitment
    else
      { commitment with
        validatorSigs := commitment.validatorSigs ++ [(nodeId, sig)] }
  (signed, signed.hasQuorum)

/-- Whether this is a fallback commitment, without a quorum. -/
def isDmmLite (commitment : SubEpochCommitment) : Bool :=
  !commitment.hasQuorum

end SubEpochCommitment

/-- The bytes of the sub-epoch hash, over everything but the signatures. -/
def subepochBytes
    (blake3 : List UInt8 → Bytes32)
    (c : SubEpochCommitment) : List UInt8 :=
  let utxoWrapped := blake3 (domainSmtActive ++ c.cumulativeUtxoRoot.bytes)
  let imtWrapped := blake3 (domainImtFrontier ++ c.imtFrontierRoot.bytes)
  domainSubepoch ++ toLeBytes c.epochId ++ toLeBytesU32 c.subepochId ++
    c.txSetRoot.bytes ++ utxoWrapped.bytes ++ imtWrapped.bytes ++
    c.nullifierBatchRoot.bytes ++ c.prevSubepochHash.bytes ++
    toLeBytes c.imtCount ++ toLeBytesU32 c.txCount ++ toLeBytes c.timestamp

/-- `compute_subepoch_hash`. -/
def computeSubepochHash
    (blake3 : List UInt8 → Bytes32)
    (c : SubEpochCommitment) : Bytes32 :=
  blake3 (subepochBytes blake3 c)

/-- An unsigned commitment with its hash. -/
def SubEpochCommitment.new
    (blake3 : List UInt8 → Bytes32)
    (epochId : UInt64)
    (subepochId : UInt32)
    (txSetRoot cumulativeUtxoRoot imtFrontierRoot nullifierBatchRoot
      prevSubepochHash : Bytes32)
    (imtCount : UInt64)
    (txCount : UInt32)
    (timestamp : UInt64) : SubEpochCommitment :=
  let c : SubEpochCommitment := {
    epochId, subepochId, txSetRoot, cumulativeUtxoRoot, imtFrontierRoot,
    nullifierBatchRoot, prevSubepochHash
    subepochHash := .zero
    imtCount, txCount, timestamp
    aggregatorSig := []
    validatorSigs := []
  }
  { c with subepochHash := computeSubepochHash blake3 c }

/-- Errors of the chain. -/
inductive SubEpochError where
  | epochMismatch (expected got : UInt64)
  | invalidHash
  | chainBroken (subepochId : UInt32)
  | quorumNotAchieved (subepochId : UInt32)
  deriving DecidableEq

/-- The commitments of one epoch. -/
structure SubEpochChain where
  commitments : Finmap fun _ : UInt32 => SubEpochCommitment
  latestSubepochId : Option UInt32
  epochId : UInt64

namespace SubEpochChain

/-- The chain of an epoch, before any commitment. -/
def new (epochId : UInt64) : SubEpochChain where
  commitments := ∅
  latestSubepochId := none
  epochId := epochId

/-- The commitment stored at an id. -/
def get
    (chain : SubEpochChain)
    (subepochId : UInt32) : Option SubEpochCommitment :=
  chain.commitments.lookup subepochId

/-- Whether the commitment stored at an id has a quorum. -/
def hasQuorum (chain : SubEpochChain) (subepochId : UInt32) : Bool :=
  ((chain.get subepochId).map (·.hasQuorum)).getD false

/-- The frontier root stored at an id, if the commitment has a quorum. -/
def getImtFrontierRoot
    (chain : SubEpochChain)
    (subepochId : UInt32) : Option Bytes32 :=
  ((chain.get subepochId).filter (·.hasQuorum)).map (·.imtFrontierRoot)

/-- Enter a commitment under its id, in place of an earlier one. -/
def store
    (chain : SubEpochChain)
    (c : SubEpochCommitment) : SubEpochChain where
  commitments := chain.commitments.insert c.subepochId c
  latestSubepochId :=
    some
      (match chain.latestSubepochId with
      | none => c.subepochId
      | some latest => max latest c.subepochId)
  epochId := chain.epochId

/-- The checks of `add_commitment`, before it writes anything. -/
def verifyCommitment
    (blake3 : List UInt8 → Bytes32)
    (chain : SubEpochChain)
    (c : SubEpochCommitment) : Except SubEpochError Unit :=
  if c.epochId ≠ chain.epochId then
    .error (.epochMismatch chain.epochId c.epochId)
  else if c.subepochHash ≠ computeSubepochHash blake3 c then
    .error .invalidHash
  else if c.subepochId = 0 then
    if c.prevSubepochHash ≠ .zero then
      .error (.chainBroken 0)
    else
      .ok ()
  else
    match chain.get (c.subepochId - 1) with
    | none => .error (.chainBroken c.subepochId)
    | some prev =>
        if c.prevSubepochHash ≠ prev.subepochHash then
          .error (.chainBroken c.subepochId)
        else
          .ok ()

/-- `add_commitment`. -/
def addCommitment
    (blake3 : List UInt8 → Bytes32)
    (chain : SubEpochChain)
    (c : SubEpochCommitment) : SubEpochChain × Except SubEpochError Unit :=
  match chain.verifyCommitment blake3 c with
  | .error error => (chain, .error error)
  | .ok () => (chain.store c, .ok ())

@[simp] theorem get_new
    (epochId : UInt64)
    (id : UInt32) :
    (new epochId).get id = none :=
  rfl

@[simp] theorem get_store_self
    (chain : SubEpochChain)
    (c : SubEpochCommitment) :
    (chain.store c).get c.subepochId = some c :=
  Finmap.lookup_insert _

theorem get_store_of_ne
    (chain : SubEpochChain)
    {c : SubEpochCommitment}
    {id : UInt32}
    (different : id ≠ c.subepochId) :
    (chain.store c).get id = chain.get id :=
  Finmap.lookup_insert_of_ne _ different

/-- What a chain asks of the hash of the predecessor. -/
def FollowsPredecessor
    (chain : SubEpochChain)
    (c : SubEpochCommitment) : Prop :=
  if c.subepochId = 0 then
    c.prevSubepochHash = .zero
  else
    (chain.get (c.subepochId - 1)).map (·.subepochHash) =
      some c.prevSubepochHash

/-- A commitment that a chain has no reason to refuse. -/
structure WellFormed
    (blake3 : List UInt8 → Bytes32)
    (chain : SubEpochChain)
    (c : SubEpochCommitment) : Prop where
  epoch : c.epochId = chain.epochId
  hash : c.subepochHash = computeSubepochHash blake3 c
  follows : chain.FollowsPredecessor c

/-- The checks let exactly the well-formed commitments pass. -/
theorem verifyCommitment_eq_ok_iff
    {blake3 : List UInt8 → Bytes32}
    {chain : SubEpochChain}
    {c : SubEpochCommitment} :
    chain.verifyCommitment blake3 c = .ok () ↔
      chain.WellFormed blake3 c := by
  have passes :
      chain.verifyCommitment blake3 c = .ok () ↔
        c.epochId = chain.epochId ∧
          c.subepochHash = computeSubepochHash blake3 c ∧
            chain.FollowsPredecessor c := by
    rw [verifyCommitment, ite_error_eq_ok_iff, ite_error_eq_ok_iff, not_not,
      not_not, FollowsPredecessor]
    by_cases isFirst : c.subepochId = 0
    · rw [if_pos isFirst, if_pos isFirst, ite_error_eq_ok_iff, not_not,
        and_iff_left rfl]
    · rw [if_neg isFirst, if_neg isFirst]
      cases stored : chain.get (c.subepochId - 1) with
      | none =>
          simp
      | some prev =>
          simp only [ite_error_eq_ok_iff, not_not, and_true, Option.map_some,
            Option.some_inj, @eq_comm _ prev.subepochHash]
  rw [passes]
  constructor
  · rintro ⟨epoch, hash, follows⟩
    exact ⟨epoch, hash, follows⟩
  · rintro ⟨epoch, hash, follows⟩
    exact ⟨epoch, hash, follows⟩

/-- A well-formed commitment is stored. -/
theorem addCommitment_of_wellFormed
    {blake3 : List UInt8 → Bytes32}
    {chain : SubEpochChain}
    {c : SubEpochCommitment}
    (wellFormed : chain.WellFormed blake3 c) :
    chain.addCommitment blake3 c = (chain.store c, .ok ()) := by
  rw [addCommitment, verifyCommitment_eq_ok_iff.mpr wellFormed]

/-- Any other commitment is refused and leaves the chain as it was. -/
theorem addCommitment_of_not_wellFormed
    {blake3 : List UInt8 → Bytes32}
    {chain : SubEpochChain}
    {c : SubEpochCommitment}
    (malformed : ¬ chain.WellFormed blake3 c) :
    ∃ error, chain.addCommitment blake3 c = (chain, .error error) := by
  unfold addCommitment
  cases checked : chain.verifyCommitment blake3 c with
  | error error =>
      exact ⟨error, rfl⟩
  | ok result =>
      exact absurd (verifyCommitment_eq_ok_iff.mp checked) malformed

/-- The chain after a call is the stored one or the same one. -/
theorem addCommitment_cases
    (blake3 : List UInt8 → Bytes32)
    (chain : SubEpochChain)
    (c : SubEpochCommitment) :
    (chain.WellFormed blake3 c ∧
        chain.addCommitment blake3 c = (chain.store c, .ok ())) ∨
      (¬ chain.WellFormed blake3 c ∧
        ∃ error,
          chain.addCommitment blake3 c = (chain, .error error)) := by
  by_cases wellFormed : chain.WellFormed blake3 c
  · exact .inl ⟨wellFormed, addCommitment_of_wellFormed wellFormed⟩
  · exact .inr ⟨wellFormed, addCommitment_of_not_wellFormed wellFormed⟩

/-- The chain after a sequence of calls. -/
def afterCalls
    (blake3 : List UInt8 → Bytes32)
    (epochId : UInt64)
    (calls : List SubEpochCommitment) : SubEpochChain :=
  StateMachine.run (addCommitment blake3) (new epochId) calls

/-- A digest that tells messages of the sub-epoch hash apart by timestamp. -/
def timestampDigest (message : List UInt8) : Bytes32 :=
  .ofLimbs fun _ => fromLeBytes (message.drop 199)

/-- A commitment of epoch 7 whose roots are all zero. -/
def bareCommitment
    (subepochId : UInt32)
    (prevSubepochHash : Bytes32)
    (timestamp : UInt64) : SubEpochCommitment :=
  .new timestampDigest 7 subepochId .zero .zero .zero .zero prevSubepochHash 0 0
    timestamp

end SubEpochChain

end ScalarCore
