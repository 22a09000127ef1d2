import ScalarCore.SubEpoch

namespace ScalarCore

/-!
# The source of a frontier root

A transaction names a sub-epoch, the frontier root, hash and count it claims
for it, and an epoch.  The claims are compared with the stored commitment, the
epoch only with the one that the caller takes for the current one.
-/

/-- The outcomes of `verify_imt_source`. -/
inductive VerificationResult where
  | valid
  | subEpochNotFound
  | subEpochQuorumFailed (subepochId : UInt32)
  | subEpochHashMismatch
  | imtFrontierMismatch
  | imtCountMismatch
  | epochMismatch (txEpochId currentEpochId : UInt64)
  deriving Repr, DecidableEq

/-- The arguments of `verify_imt_source`. -/
structure ImtSource where
  subepochId : UInt32
  claimedImtFrontierRoot : Bytes32
  claimedSubepochHash : Bytes32
  claimedImtCommitmentCount : UInt64
  refEpochId : UInt64
  currentEpochId : UInt64
  deriving DecidableEq

namespace SubEpochChain

/-- `verify_imt_source`. -/
def verifyImtSource
    (chain : SubEpochChain)
    (source : ImtSource) : VerificationResult :=
  match chain.get source.subepochId with
  | none => .subEpochNotFound
  | some commitment =>
      if commitment.hasQuorum = false then
        .subEpochQuorumFailed source.subepochId
      else if commitment.subepochHash ≠ source.claimedSubepochHash then
        .subEpochHashMismatch
      else if commitment.imtFrontierRoot ≠ source.claimedImtFrontierRoot then
        .imtFrontierMismatch
      else if commitment.imtCount ≠ source.claimedImtCommitmentCount then
        .imtCountMismatch
      else if source.refEpochId ≠ source.currentEpochId then
        .epochMismatch source.refEpochId source.currentEpochId
      else
        .valid

/-- A commitment with a quorum is what a source claims of it. -/
structure MatchesClaim
    (c : SubEpochCommitment)
    (source : ImtSource) : Prop where
  quorum : c.hasQuorum = true
  hash : c.subepochHash = source.claimedSubepochHash
  frontier : c.imtFrontierRoot = source.claimedImtFrontierRoot
  count : c.imtCount = source.claimedImtCommitmentCount

/-- The commitment stored under the claimed id is what the source claims. -/
def HoldsClaimed
    (chain : SubEpochChain)
    (source : ImtSource) : Prop :=
  ∃ c, chain.get source.subepochId = some c ∧ MatchesClaim c source

/-- A source that is found valid names the epoch of the stored commitment. -/
def SourceSound
    (chain : SubEpochChain)
    (source : ImtSource) : Prop :=
  chain.verifyImtSource source = .valid →
    ∃ c,
      chain.get source.subepochId = some c ∧
        c.subepochId = source.subepochId ∧
        MatchesClaim c source ∧
        c.epochId = source.refEpochId ∧
        source.refEpochId = source.currentEpochId

/-- Commitments are stored under their own id, in the epoch of the chain. -/
def OfEpoch (epochId : UInt64) (chain : SubEpochChain) : Prop :=
  chain.epochId = epochId ∧
    ∀ id c,
      chain.get id = some c →
      c.subepochId = id ∧ c.epochId = epochId

variable {blake3 : List UInt8 → Bytes32} {chain : SubEpochChain}
  {source : ImtSource} {epochId : UInt64}

/-- When a source is found valid. -/
theorem verifyImtSource_eq_valid_iff :
    chain.verifyImtSource source = .valid ↔
      chain.HoldsClaimed source ∧
        source.refEpochId = source.currentEpochId := by
  unfold verifyImtSource HoldsClaimed
  cases stored : chain.get source.subepochId with
  | none =>
      simp
  | some commitment =>
      simp only [Option.some.injEq, exists_eq_left']
      constructor
      · intro isValid
        split at isValid
        · cases isValid
        · rename_i quorum
          split_ifs at isValid with hash frontier count epoch
          simp only [not_not] at hash frontier count epoch
          exact ⟨⟨by simpa using quorum, hash, frontier, count⟩, epoch⟩
      · rintro ⟨⟨quorum, hash, frontier, count⟩, epoch⟩
        simp [quorum, hash, frontier, count, epoch]

/-- The empty chain is of its epoch. -/
theorem ofEpoch_new (epochId : UInt64) : OfEpoch epochId (new epochId) :=
  ⟨rfl, fun _ _ stored => by cases stored⟩

/-- A call keeps a chain to its epoch. -/
theorem ofEpoch_addCommitment
    (chain : SubEpochChain)
    (c : SubEpochCommitment)
    (ofEpoch : OfEpoch epochId chain) :
    OfEpoch epochId (chain.addCommitment blake3 c).1 := by
  obtain ⟨sameEpoch, stored⟩ := ofEpoch
  rcases addCommitment_cases blake3 chain c with
    ⟨wellFormed, added⟩ | ⟨_, _, refused⟩
  · rw [added]
    refine ⟨sameEpoch, ?_⟩
    intro id found isStored
    by_cases isNew : id = c.subepochId
    · subst isNew
      rw [get_store_self, Option.some.injEq] at isStored
      subst isStored
      exact ⟨rfl, wellFormed.epoch.trans sameEpoch⟩
    · rw [get_store_of_ne _ isNew] at isStored
      exact stored id found isStored
  · rw [refused]
    exact ⟨sameEpoch, stored⟩

/-- So does every run of calls. -/
theorem ofEpoch_afterCalls
    (blake3 : List UInt8 → Bytes32)
    (epochId : UInt64)
    (calls : List SubEpochCommitment) :
    OfEpoch epochId (afterCalls blake3 epochId calls) :=
  StateMachine.run_invariant ofEpoch_addCommitment (ofEpoch_new epochId) calls

/-- In a chain of one epoch a valid source is sound when it names that epoch. -/
theorem sourceSound_iff_of_ofEpoch (ofEpoch : OfEpoch epochId chain) :
    SourceSound chain source ↔
      chain.HoldsClaimed source →
        source.refEpochId = source.currentEpochId →
          source.refEpochId = epochId := by
  rw [SourceSound, verifyImtSource_eq_valid_iff]
  constructor
  · intro sound holds current
    obtain ⟨c, isStored, _, _, sameEpoch, _⟩ := sound ⟨holds, current⟩
    rw [← sameEpoch, (ofEpoch.2 _ c isStored).2]
  · intro namesEpoch ⟨⟨c, isStored, isClaimed⟩, current⟩
    obtain ⟨sameId, inEpoch⟩ := ofEpoch.2 _ c isStored
    have named := namesEpoch ⟨c, isStored, isClaimed⟩ current
    exact ⟨c, isStored, sameId, isClaimed, inEpoch.trans named.symm, current⟩

/-- A commitment of epoch 7 that five nodes signed. -/
def signedOfSeven (blake3 : List UInt8 → Bytes32) : SubEpochCommitment :=
  { SubEpochCommitment.new blake3 7 0 .zero .zero .zero .zero .zero 0 0 1 with
    validatorSigs := [1, 2, 3, 4, 5].map fun node => (.endingIn node, []) }

/-- What is claimed of it, for an epoch. -/
def claimedFor
    (blake3 : List UInt8 → Bytes32)
    (epochId : UInt64) : ImtSource where
  subepochId := 0
  claimedImtFrontierRoot := .zero
  claimedSubepochHash := (signedOfSeven blake3).subepochHash
  claimedImtCommitmentCount := 0
  refEpochId := epochId
  currentEpochId := epochId

/-- The chain stores the commitment that the source claims. -/
theorem holdsClaimed_claimedFor
    (blake3 : List UInt8 → Bytes32)
    (epochId : UInt64) :
    (afterCalls blake3 7 [signedOfSeven blake3]).HoldsClaimed
      (claimedFor blake3 epochId) := by
  have wellFormed : (new 7).WellFormed blake3 (signedOfSeven blake3) :=
    { epoch := rfl
      hash := rfl
      follows := rfl }
  rw [afterCalls, StateMachine.run_cons, StateMachine.run_nil,
    addCommitment_of_wellFormed wellFormed]
  exact ⟨signedOfSeven blake3, get_store_self _ _, rfl, rfl, rfl, rfl⟩

/--
Verification of a source is sound in a chain that calls lead to exactly when a
source whose claims are stored, and whose epoch the caller takes for the
current one, names the epoch of the chain.
-/
theorem sourceSound_iff
    (blake3 : List UInt8 → Bytes32)
    (epochId : UInt64)
    (calls : List SubEpochCommitment)
    (source : ImtSource) :
    SourceSound (afterCalls blake3 epochId calls) source ↔
      ((afterCalls blake3 epochId calls).HoldsClaimed source →
        source.refEpochId = source.currentEpochId →
          source.refEpochId = epochId) :=
  sourceSound_iff_of_ofEpoch (ofEpoch_afterCalls blake3 epochId calls)

/-- A source of another epoch is valid, whatever the hash. -/
theorem otherEpoch_valid :
    ¬ ∃ blake3 : List UInt8 → Bytes32,
        ∀ epochId calls source,
          SourceSound (afterCalls blake3 epochId calls) source := by
  intro ⟨blake3, always⟩
  have namesEpoch : (8 : UInt64) = 7 :=
    (sourceSound_iff_of_ofEpoch (ofEpoch_afterCalls blake3 7 _)).mp
      (always 7 [signedOfSeven blake3] (claimedFor blake3 8))
      (holdsClaimed_claimedFor blake3 8) rfl
  exact absurd namesEpoch (by decide)

end SubEpochChain

end ScalarCore
