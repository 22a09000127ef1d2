import ScalarCore.Bytes
import ScalarCore.KeyedWrites
import ScalarCore.StateMachine

namespace ScalarCore

/-!
# Level-1 commitments

A commitment of a batch collects signatures of validators and has a quorum once
five different validators have signed its payload.  Signatures are kept one for
each signer as they arrive and verified only when the quorum is checked, so it
is the first entry of each signer that counts.

The hash and the signature scheme are parameters: `verifySignature message
signature key` is the answer of the verifier, absent where it fails.
-/

/-- Number of signatures of a quorum. -/
def quorumThresholdNum : Nat :=
  5

/-- The domain separator of the signed payload. -/
def microcommitmentSignDomain : List UInt8 :=
  asciiBytes "scalar.microcommitment.sign"

/-- A commitment to a batch with the signatures collected for it. -/
structure MicroCommitment where
  subepochId : UInt64
  mcSequenceId : UInt32
  txMerkleRoot : Bytes32
  daCommitment : Bytes32
  aggregatorId : Bytes32
  /-- Node ids with their signatures. -/
  quorumSignatures : List (Bytes32 × List UInt8)
  deriving DecidableEq

namespace MicroCommitment

/-- The finality that a commitment signals. -/
inductive FinalityLevel where
  | none
  | optimistic
  | starkFinal
  deriving Repr, DecidableEq

/-- A commitment without signatures. -/
def new
    (subepochId : UInt64)
    (mcSequenceId : UInt32)
    (txMerkleRoot daCommitment aggregatorId : Bytes32) : MicroCommitment where
  subepochId
  mcSequenceId
  txMerkleRoot
  daCommitment
  aggregatorId
  quorumSignatures := []

/-- The payload that validators sign. -/
def mcSignPayload
    (blake3 : List UInt8 → Bytes32)
    (mc : MicroCommitment) : Bytes32 :=
  blake3
    (microcommitmentSignDomain ++ toLeBytes mc.subepochId ++
      toLeBytesU32 mc.mcSequenceId ++ mc.txMerkleRoot.bytes ++
      mc.daCommitment.bytes ++ mc.aggregatorId.bytes)

/-- Keep the first signature of a signer; tell whether five are kept. -/
def addQuorumSig
    (mc : MicroCommitment)
    (signerNodeId : Bytes32)
    (sig : List UInt8) : MicroCommitment × Bool :=
  let signed :=
    if mc.quorumSignatures.any fun entry => entry.1 == signerNodeId then
      mc
    else
      { mc with
        quorumSignatures := mc.quorumSignatures ++ [(signerNodeId, sig)] }
  (signed, decide (quorumThresholdNum ≤ signed.quorumSignatures.length))

section Quorum

variable
  (blake3 : List UInt8 → Bytes32)
  (verifySignature : List UInt8 → List UInt8 → List UInt8 → Option Bool)

/-- The signers with a valid signature, each listed once. -/
def validSigners
    (mc : MicroCommitment)
    (validatorSet : List (Bytes32 × List UInt8)) : List Bytes32 :=
  let payload := mc.mcSignPayload blake3
  mc.quorumSignatures.foldl
    (fun valid entry =>
      if valid.contains entry.1 then
        valid
      else
        match validatorSet.find? fun validator => validator.1 == entry.1 with
        | none => valid
        | some validator =>
            if verifySignature payload.bytes entry.2 validator.2 =
                some true then
              valid ++ [entry.1]
            else
              valid)
    []

/-- Whether five different validators have a valid signature. -/
def verifyQuorum
    (mc : MicroCommitment)
    (validatorSet : List (Bytes32 × List UInt8)) : Bool :=
  decide
    (quorumThresholdNum ≤
      (mc.validSigners blake3 verifySignature validatorSet).length)

/-- The finality of the commitment. -/
def finalityLevel
    (mc : MicroCommitment)
    (validatorSet : List (Bytes32 × List UInt8)) : FinalityLevel :=
  if mc.verifyQuorum blake3 verifySignature validatorSet then
    .optimistic
  else
    .none

end Quorum

/-- Add a submitted signature. -/
def applySig
    (mc : MicroCommitment)
    (call : Bytes32 × List UInt8) : MicroCommitment × Bool :=
  mc.addQuorumSig call.1 call.2

/-!
## Which signatures count
-/

/-- Five different nodes have a property. -/
def AtLeastFive (property : Bytes32 → Prop) : Prop :=
  ∃ ids : Finset Bytes32,
    quorumThresholdNum ≤ ids.card ∧ ∀ id ∈ ids, property id

theorem AtLeastFive.mono
    {property property' : Bytes32 → Prop}
    (weaker : ∀ id, property id → property' id)
    (five : AtLeastFive property) :
    AtLeastFive property' := by
  obtain ⟨ids, enough, all⟩ := five
  exact ⟨ids, enough, fun id listed => weaker id (all id listed)⟩

/-- Five members of a list without repetitions. -/
theorem atLeastFive_iff_length
    {ids : List Bytes32}
    (distinct : ids.Nodup) :
    AtLeastFive (· ∈ ids) ↔ quorumThresholdNum ≤ ids.length := by
  have sameCard : ids.toFinset.card = ids.length :=
    List.toFinset_card_of_nodup distinct
  constructor
  · rintro ⟨some', enough, all⟩
    have within : some' ⊆ ids.toFinset :=
      fun id listed => List.mem_toFinset.mpr (all id listed)
    have bound := Finset.card_le_card within
    omega
  · intro enough
    exact
      ⟨ids.toFinset, by omega, fun id listed => List.mem_toFinset.mp listed⟩

variable
  {blake3 : List UInt8 → Bytes32}
  {verifySignature : List UInt8 → List UInt8 → List UInt8 → Option Bool}
  {validatorSet : List (Bytes32 × List UInt8)}

/-- A signature is valid under a key that the set lists for the signer. -/
def ValidUnderKey
    (verifySignature : List UInt8 → List UInt8 → List UInt8 → Option Bool)
    (payload : Bytes32)
    (validatorSet : List (Bytes32 × List UInt8))
    (entry : Bytes32 × List UInt8) : Prop :=
  ∃ pubkey,
    (entry.1, pubkey) ∈ validatorSet ∧
      verifySignature payload.bytes entry.2 pubkey = some true

/-- A signature is valid under the first key listed for the signer. -/
def ValidUnderFirstKey
    (verifySignature : List UInt8 → List UInt8 → List UInt8 → Option Bool)
    (payload : Bytes32)
    (validatorSet : List (Bytes32 × List UInt8))
    (entry : Bytes32 × List UInt8) : Prop :=
  ∃ validator,
    (validatorSet.find? fun validator => validator.1 == entry.1) =
        some validator ∧
      verifySignature payload.bytes entry.2 validator.2 = some true

/-- The first key is one of the keys. -/
theorem ValidUnderFirstKey.validUnderKey
    {payload : Bytes32}
    {entry : Bytes32 × List UInt8}
    (valid :
      ValidUnderFirstKey verifySignature payload validatorSet entry) :
    ValidUnderKey verifySignature payload validatorSet entry := by
  obtain ⟨validator, found, verified⟩ := valid
  have listed := List.mem_of_find?_eq_some found
  have sameId := List.find?_some found
  rw [beq_iff_eq] at sameId
  exact ⟨validator.2, sameId ▸ listed, verified⟩

/-- The answer of the check that one signature goes through. -/
def verifies
    (verifySignature : List UInt8 → List UInt8 → List UInt8 → Option Bool)
    (payload : Bytes32)
    (validatorSet : List (Bytes32 × List UInt8))
    (entry : Bytes32 × List UInt8) : Bool :=
  match validatorSet.find? fun validator => validator.1 == entry.1 with
  | none => false
  | some validator =>
      decide
        (verifySignature payload.bytes entry.2 validator.2 = some true)

theorem verifies_iff
    {payload : Bytes32}
    {entry : Bytes32 × List UInt8} :
    verifies verifySignature payload validatorSet entry = true ↔
      ValidUnderFirstKey verifySignature payload validatorSet entry := by
  unfold verifies ValidUnderFirstKey
  cases validatorSet.find? fun validator => validator.1 == entry.1 with
  | none => simp
  | some validator => simp

/-- The signers are the keys of a scan. -/
theorem validSigners_eq (mc : MicroCommitment) :
    mc.validSigners blake3 verifySignature validatorSet =
      mc.quorumSignatures.foldl
        (KeyedWrites.collectKey Prod.fst
          (verifies verifySignature (mc.mcSignPayload blake3)
            validatorSet))
        [] := by
  unfold validSigners
  dsimp only
  congr 1
  funext valid entry
  unfold KeyedWrites.collectKey verifies
  cases validatorSet.find? fun validator => validator.1 == entry.1 with
  | none => simp
  | some validator => simp

/-- A quorum is five different signers with a valid stored signature. -/
theorem verifyQuorum_iff (mc : MicroCommitment) :
    mc.verifyQuorum blake3 verifySignature validatorSet = true ↔
      AtLeastFive fun id =>
        ∃ sig,
          (id, sig) ∈ mc.quorumSignatures ∧
            ValidUnderFirstKey verifySignature (mc.mcSignPayload blake3)
              validatorSet (id, sig) := by
  rw [verifyQuorum, decide_eq_true_iff, validSigners_eq,
    ← atLeastFive_iff_length
      (KeyedWrites.nodup_foldl_collectKey List.nodup_nil _)]
  have members (id : Bytes32) :
      id ∈ mc.quorumSignatures.foldl
            (KeyedWrites.collectKey Prod.fst
              (verifies verifySignature (mc.mcSignPayload blake3)
                validatorSet))
            [] ↔
        ∃ sig,
          (id, sig) ∈ mc.quorumSignatures ∧
            ValidUnderFirstKey verifySignature (mc.mcSignPayload blake3)
              validatorSet (id, sig) := by
    rw [KeyedWrites.mem_foldl_collectKey]
    simp only [List.not_mem_nil, false_or, verifies_iff]
    constructor
    · rintro ⟨⟨_, sig⟩, listed, verified, rfl⟩
      exact ⟨sig, listed, verified⟩
    · rintro ⟨sig, listed, verified⟩
      exact ⟨(id, sig), listed, verified, rfl⟩
  exact
    ⟨AtLeastFive.mono fun id => (members id).mp,
      AtLeastFive.mono fun id => (members id).mpr⟩

/-!
## Runs
-/

/-- The signatures kept after a submission. -/
theorem quorumSignatures_applySig
    (mc : MicroCommitment)
    (call : Bytes32 × List UInt8) :
    (mc.applySig call).1.quorumSignatures =
      KeyedWrites.addNew mc.quorumSignatures call := by
  unfold applySig addQuorumSig KeyedWrites.addNew
  dsimp only
  split <;> rfl

/-- A submission does not change what is signed. -/
theorem mcSignPayload_applySig
    (mc : MicroCommitment)
    (call : Bytes32 × List UInt8) :
    (mc.applySig call).1.mcSignPayload blake3 =
      mc.mcSignPayload blake3 := by
  unfold applySig addQuorumSig
  dsimp only
  split <;> rfl

/-- The signatures kept after a run. -/
theorem quorumSignatures_run
    (mc : MicroCommitment)
    (calls : List (Bytes32 × List UInt8)) :
    (StateMachine.run applySig mc calls).quorumSignatures =
      calls.foldl KeyedWrites.addNew mc.quorumSignatures := by
  induction calls generalizing mc with
  | nil =>
      rfl
  | cons call rest inductionHypothesis =>
      rw [StateMachine.run_cons, inductionHypothesis,
        quorumSignatures_applySig, List.foldl_cons]

/-- A run does not change what is signed. -/
theorem mcSignPayload_run
    (mc : MicroCommitment)
    (calls : List (Bytes32 × List UInt8)) :
    (StateMachine.run applySig mc calls).mcSignPayload blake3 =
      mc.mcSignPayload blake3 :=
  StateMachine.run_invariant
    (fun state call same => (mcSignPayload_applySig state call).trans same)
    rfl calls

/-- A node had a valid signature submitted under its id. -/
def Submitted
    (blake3 : List UInt8 → Bytes32)
    (verifySignature : List UInt8 → List UInt8 → List UInt8 → Option Bool)
    (mc : MicroCommitment)
    (validatorSet calls : List (Bytes32 × List UInt8))
    (id : Bytes32) : Prop :=
  ∃ sig,
    (id, sig) ∈ calls ∧
      ValidUnderKey verifySignature (mc.mcSignPayload blake3) validatorSet
        (id, sig)

/--
The signature that counts for a node is valid: one that the commitment already
has, or, where it has none, the first one submitted.
-/
def Heard
    (blake3 : List UInt8 → Bytes32)
    (verifySignature : List UInt8 → List UInt8 → List UInt8 → Option Bool)
    (mc : MicroCommitment)
    (validatorSet calls : List (Bytes32 × List UInt8))
    (id : Bytes32) : Prop :=
  ∃ sig,
    ((id, sig) ∈ mc.quorumSignatures ∨
        (id ∉ mc.quorumSignatures.map Prod.fst ∧
          calls.find? (fun call => call.1 = id) = some (id, sig))) ∧
      ValidUnderFirstKey verifySignature (mc.mcSignPayload blake3)
        validatorSet (id, sig)

/--
The quorum of a run: it is reached when five validators had a valid signature
submitted, and only with five valid stored signatures.
-/
structure QuorumReached
    (blake3 : List UInt8 → Bytes32)
    (verifySignature : List UInt8 → List UInt8 → List UInt8 → Option Bool)
    (mc : MicroCommitment)
    (validatorSet calls : List (Bytes32 × List UInt8)) : Prop where
  reached :
    AtLeastFive
        (Submitted blake3 verifySignature mc validatorSet calls) →
      (StateMachine.run applySig mc calls).verifyQuorum blake3
        verifySignature validatorSet = true
  signed :
    (StateMachine.run applySig mc calls).verifyQuorum blake3
        verifySignature validatorSet = true →
      AtLeastFive fun id =>
        ∃ sig,
          (id, sig) ∈
              (StateMachine.run applySig mc calls).quorumSignatures ∧
            ValidUnderKey verifySignature (mc.mcSignPayload blake3)
              validatorSet (id, sig)

/-- After a run the quorum is that of the signatures that count. -/
theorem verifyQuorum_run_iff
    (mc : MicroCommitment)
    (calls : List (Bytes32 × List UInt8)) :
    (StateMachine.run applySig mc calls).verifyQuorum blake3
          verifySignature validatorSet = true ↔
      AtLeastFive
        (Heard blake3 verifySignature mc validatorSet calls) := by
  rw [verifyQuorum_iff, mcSignPayload_run, quorumSignatures_run]
  simp only [KeyedWrites.mem_foldl_addNew]
  exact Iff.rfl

/-- A quorum has five validators with a valid signature stored. -/
theorem signed_of_verifyQuorum
    {mc : MicroCommitment}
    (quorum :
      mc.verifyQuorum blake3 verifySignature validatorSet = true) :
    AtLeastFive fun id =>
      ∃ sig,
        (id, sig) ∈ mc.quorumSignatures ∧
          ValidUnderKey verifySignature (mc.mcSignPayload blake3)
            validatorSet (id, sig) :=
  ((verifyQuorum_iff mc).mp quorum).mono
    fun _ ⟨sig, listed, valid⟩ => ⟨sig, listed, valid.validUnderKey⟩

/--
The quorum follows the submitted signatures exactly when fewer than five
validators had a valid one submitted, or five are heard: an invalid signature
submitted first under the id of a validator silences it.
-/
theorem quorumReached_iff
    (blake3 : List UInt8 → Bytes32)
    (verifySignature : List UInt8 → List UInt8 → List UInt8 → Option Bool)
    (mc : MicroCommitment)
    (validatorSet calls : List (Bytes32 × List UInt8)) :
    QuorumReached blake3 verifySignature mc validatorSet calls ↔
      ¬ AtLeastFive
            (Submitted blake3 verifySignature mc validatorSet calls) ∨
        AtLeastFive
          (Heard blake3 verifySignature mc validatorSet calls) := by
  constructor
  · intro quorum
    by_cases submitted :
        AtLeastFive
          (Submitted blake3 verifySignature mc validatorSet calls)
    · exact
        Or.inr ((verifyQuorum_run_iff mc calls).mp (quorum.reached submitted))
    · exact Or.inl submitted
  · intro condition
    constructor
    · intro submitted
      exact
        (verifyQuorum_run_iff mc calls).mpr
          (condition.resolve_left (not_not.mpr submitted))
    · intro quorum
      have signed := signed_of_verifyQuorum quorum
      rwa [mcSignPayload_run] at signed

/-- Where no forged signature comes first, the quorum is reached. -/
theorem quorumReached_of_firstValid
    {mc : MicroCommitment}
    {calls : List (Bytes32 × List UInt8)}
    (unsigned : mc.quorumSignatures = [])
    (firstValid :
      ∀ id,
        Submitted blake3 verifySignature mc validatorSet calls id →
        ∃ sig,
          calls.find? (fun call => call.1 = id) = some (id, sig) ∧
            ValidUnderFirstKey verifySignature (mc.mcSignPayload blake3)
              validatorSet (id, sig)) :
    QuorumReached blake3 verifySignature mc validatorSet calls := by
  rw [quorumReached_iff]
  by_cases submitted :
      AtLeastFive (Submitted blake3 verifySignature mc validatorSet calls)
  · refine Or.inr (submitted.mono fun id isSubmitted => ?_)
    obtain ⟨sig, isFirst, valid⟩ := firstValid id isSubmitted
    refine ⟨sig, Or.inr ⟨?_, isFirst⟩, valid⟩
    rw [unsigned]
    exact List.not_mem_nil
  · exact Or.inl submitted

/-- Five validators with the key `[1]`. -/
def fiveValidators : List (Bytes32 × List UInt8) :=
  [1, 2, 3, 4, 5].map fun index => (Bytes32.endingIn index, [1])

/-- A forged signature of the first validator, then five valid ones. -/
def forgedFirst : List (Bytes32 × List UInt8) :=
  (Bytes32.endingIn 1, [0]) :: fiveValidators

/-- A scheme in which the key is the only valid signature. -/
def keyIsSignature (_ sig key : List UInt8) : Option Bool :=
  some (sig == key)

/-- One forged signature that arrives first keeps the quorum away. -/
theorem quorum_broken :
    ¬ ∀ blake3 verifySignature mc validatorSet calls,
        QuorumReached blake3 verifySignature mc validatorSet calls := by
  intro always
  have quorum :=
    always (fun _ => Bytes32.zero) keyIsSignature
      (new 1000 0 Bytes32.zero Bytes32.zero Bytes32.zero)
      fiveValidators forgedFirst
  have submitted :
      AtLeastFive
        (Submitted (fun _ => Bytes32.zero) keyIsSignature
          (new 1000 0 Bytes32.zero Bytes32.zero Bytes32.zero)
          fiveValidators forgedFirst) := by
    refine ⟨(fiveValidators.map Prod.fst).toFinset, by decide, ?_⟩
    intro id listed
    rw [List.mem_toFinset, List.mem_map] at listed
    obtain ⟨⟨_, key⟩, isValidator, rfl⟩ := listed
    exact
      ⟨key, List.mem_cons_of_mem _ isValidator, key, isValidator, by
        simp [keyIsSignature]⟩
  exact absurd (quorum.reached submitted) (by decide)

end MicroCommitment

end ScalarCore
