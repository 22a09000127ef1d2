import ScalarCore.BatchTransfer

namespace ScalarCore.Gossip

/-!
# Relay of transfers

A node verifies the transfer proof of every delta of a gossip message before it
relays the message.  It holds no public inputs of the sender and verifies every
proof against one constant record, which the proof of an honest sender was made
for only by chance.
-/

open BatchTransfer TransferAirP3

/-- `DeltaNullifier`. -/
structure DeltaNullifier where
  nullifier : Bytes32
  spendProof : List UInt8
  newCommitment : Bytes32

/-- `ScalarGossipMessage`. -/
structure ScalarGossipMessage where
  timestamp : UInt64
  smtRoot : Bytes32
  deltaNullifiers : List DeltaNullifier
  senderSignature : List UInt8

/-- `RelayDecision`. -/
inductive RelayDecision where
  | proofWellFormed
  | rejected (reason : String)
  deriving DecidableEq

/-- `should_relay`. -/
def RelayDecision.shouldRelay : RelayDecision → Bool
  | .proofWellFormed => true
  | .rejected _ => false

/--
Decoding of batch proofs, and the prover and the verifier of the transfer
circuit.
-/
structure TransferProofs where
  fromBytes : List UInt8 → Option BatchTransferProof
  proveTransferP3 :
    TransferPublicInputsP3 → Except TransferP3Error (List UInt8)
  verifyTransferP3 :
    List UInt8 → TransferPublicInputsP3 → Except TransferP3Error Unit
  /-- No proof is read from no bytes. -/
  fromBytes_nil : fromBytes [] = none
  /-- A proof is accepted exactly against the values it was made for. -/
  verify_eq_ok_iff :
    ∀ {pi proof},
      proveTransferP3 pi = .ok proof →
      ∀ claimed,
        verifyTransferP3 proof claimed = .ok () ↔
          claimed.toGoldilocks = pi.toGoldilocks

/-- `pi_for_verify`. -/
def piForVerify : TransferPublicInputsP3 where
  feeTotalSscl := 40
  sumInputsSscl := 40
  sumOutputsSscl := 0
  cryptoVersion := 0x01
  currentSubepochId := 0
  targetSubepochId := 0
  utxoSetRoot := .zero
  nullifierActiveRoot := .zero
  nullifierArchivedRoot := .zero
  cbMembershipVerified := true
  ccNonmembershipVerified := true
  outputNonzero := true
  singleUtxoSource := true
  commitmentHash := fun _ => 0
  nullifierHash := fun _ => 0

variable (proofs : TransferProofs)

/-- The checks of one delta, with the reason of the first that fails. -/
def validateDelta (delta : DeltaNullifier) : Except String Unit :=
  if delta.spendProof = [] then
    .error "empty spend_proof"
  else if delta.newCommitment = .zero then
    .error "zero new_commitment"
  else
    match proofs.fromBytes delta.spendProof with
    | none => .error "proof deserialize failed"
    | some proof =>
        if proof.caProof = [] then
          .error "empty ca_proof"
        else if proof.cbProof = [] then
          .error "empty cb_proof"
        else if proof.ccProof = [] then
          .error "empty cc_proof"
        else if proof.cdcecgProof = [] then
          .error "empty cdcecg_proof"
        else
          match proofs.verifyTransferP3 proof.cdcecgProof piForVerify with
          | .error _ => .error "cdcecg STARK verify failed"
          | .ok _ => .ok ()

/-- `validate_and_relay`. -/
def validateAndRelay (message : ScalarGossipMessage) : RelayDecision :=
  if message.deltaNullifiers = [] then
    .rejected "empty delta_nullifiers"
  else
    match message.deltaNullifiers.forM (validateDelta proofs) with
    | .error reason => .rejected reason
    | .ok _ => .proofWellFormed

variable {proofs}

/-- A message is relayed when it has deltas and each passes its checks. -/
theorem validateAndRelay_eq_proofWellFormed_iff
    {message : ScalarGossipMessage} :
    validateAndRelay proofs message = .proofWellFormed ↔
      message.deltaNullifiers ≠ [] ∧
        ∀ delta ∈ message.deltaNullifiers,
          validateDelta proofs delta = .ok () := by
  rw [← FallibleChecks.forM_eq_ok_iff, validateAndRelay]
  split
  · rename_i empty
    simp [empty]
  · rename_i nonempty
    cases message.deltaNullifiers.forM (validateDelta proofs) with
    | error reason =>
        simp
    | ok answer =>
        simp [nonempty]

/-- A delta whose proof a sender made for checked public inputs. -/
structure HonestDelta
    (proofs : TransferProofs)
    (delta : DeltaNullifier)
    (pi : TransferPublicInputsP3) : Prop where
  checked : pi.checkAllConstraints = .ok ()
  nonzeroCommitment : delta.newCommitment ≠ .zero
  decodes :
    ∃ proof,
      proofs.fromBytes delta.spendProof = some proof ∧
      proof.caProof ≠ [] ∧
      proof.cbProof ≠ [] ∧
      proof.ccProof ≠ [] ∧
      proof.cdcecgProof ≠ [] ∧
      proofs.proveTransferP3 pi = .ok proof.cdcecgProof

/-- An honest delta reaches the verifier, which compares the published values. -/
theorem HonestDelta.validateDelta_eq
    {delta : DeltaNullifier}
    {pi : TransferPublicInputsP3}
    (honest : HonestDelta proofs delta pi) :
    validateDelta proofs delta =
      if piForVerify.toGoldilocks = pi.toGoldilocks then
        .ok ()
      else
        .error "cdcecg STARK verify failed" := by
  rcases honest.decodes with
    ⟨proof, decoded, caPresent, cbPresent, ccPresent, cdcecgPresent, proved⟩
  have bytesPresent : delta.spendProof ≠ [] := by
    intro noBytes
    rw [noBytes, proofs.fromBytes_nil] at decoded
    cases decoded
  have accepted := proofs.verify_eq_ok_iff proved piForVerify
  rw [validateDelta, if_neg bytesPresent, if_neg honest.nonzeroCommitment,
    decoded]
  simp only [if_neg caPresent, if_neg cbPresent, if_neg ccPresent,
    if_neg cdcecgPresent]
  cases verified :
      proofs.verifyTransferP3 proof.cdcecgProof piForVerify with
  | error error =>
      rw [verified] at accepted
      rw [if_neg]
      intro same
      cases accepted.mpr same
  | ok answer =>
      rw [if_pos (accepted.mp verified)]

/-- The published values are those of the relay's constant record. -/
structure IsPlaceholder (pi : TransferPublicInputsP3) : Prop where
  fee : fieldReduce pi.feeTotalSscl = 40
  sumInputs : fieldReduce pi.sumInputsSscl = 40
  sumOutputs : fieldReduce pi.sumOutputsSscl = 0
  currentSubepoch : fieldReduce pi.currentSubepochId = 0
  utxoSetRoot : pi.utxoSetRoot = .zero
  nullifierActiveRoot : pi.nullifierActiveRoot = .zero
  nullifierArchivedRoot : pi.nullifierArchivedRoot = .zero
  commitmentHash : ∀ index, fieldReduce (pi.commitmentHash index) = 0
  nullifierHash : ∀ index, fieldReduce (pi.nullifierHash index) = 0

/-- Checked inputs publish the constants when their free fields do. -/
theorem toGoldilocks_piForVerify_eq_iff
    {pi : TransferPublicInputsP3}
    (checked : pi.checkAllConstraints = .ok ()) :
    piForVerify.toGoldilocks = pi.toGoldilocks ↔ IsPlaceholder pi := by
  rcases TransferPublicInputsP3.checkAllConstraints_eq_ok_iff.mp checked with
    ⟨_, _, version, _, member, absent, output, source⟩
  rw [eq_comm, TransferPublicInputsP3.toGoldilocks_eq_iff, version, member,
    absent, output, source]
  constructor
  · rintro ⟨fee, sumInputs, sumOutputs, _, current, root, _, active, archived,
      _, _, _, commitments, nullifiers⟩
    exact
      ⟨fee, sumInputs, sumOutputs, current, root, active, archived,
        commitments, nullifiers⟩
  · intro constants
    exact
      ⟨constants.fee, constants.sumInputs, constants.sumOutputs, rfl,
        constants.currentSubepoch, constants.utxoSetRoot, rfl,
        constants.nullifierActiveRoot, constants.nullifierArchivedRoot, rfl,
        rfl, rfl, constants.commitmentHash, constants.nullifierHash⟩

/-- An honest delta passes exactly when it publishes the constants. -/
theorem HonestDelta.validateDelta_eq_ok_iff
    {delta : DeltaNullifier}
    {pi : TransferPublicInputsP3}
    (honest : HonestDelta proofs delta pi) :
    validateDelta proofs delta = .ok () ↔ IsPlaceholder pi := by
  rw [honest.validateDelta_eq, ← toGoldilocks_piForVerify_eq_iff honest.checked]
  split
  · rename_i same
    exact iff_of_true rfl same
  · rename_i different
    exact iff_of_false (by simp) different

/-- Honest deltas all pass exactly when they all publish the constants. -/
theorem forall_validateDelta_eq_ok_iff
    {deltas : List DeltaNullifier}
    {pis : List TransferPublicInputsP3}
    (honest : List.Forall₂ (HonestDelta proofs) deltas pis) :
    (∀ delta ∈ deltas, validateDelta proofs delta = .ok ()) ↔
      ∀ pi ∈ pis, IsPlaceholder pi := by
  induction honest with
  | nil =>
      exact iff_of_true (List.forall_mem_nil _) (List.forall_mem_nil _)
  | cons first _ inductionHypothesis =>
      rw [List.forall_mem_cons, List.forall_mem_cons,
        first.validateDelta_eq_ok_iff, inductionHypothesis]

/--
A message of honest deltas is relayed exactly when it has a delta and all of
them publish the values of the relay's constant record.
-/
theorem honest_relayed_iff
    {message : ScalarGossipMessage}
    {pis : List TransferPublicInputsP3}
    (honest :
      List.Forall₂ (HonestDelta proofs) message.deltaNullifiers pis) :
    validateAndRelay proofs message = .proofWellFormed ↔
      message.deltaNullifiers ≠ [] ∧ ∀ pi ∈ pis, IsPlaceholder pi := by
  rw [validateAndRelay_eq_proofWellFormed_iff,
    forall_validateDelta_eq_ok_iff honest]

/-- Field elements as bytes. -/
def encodeElements (elements : List Goldilocks) : List UInt8 :=
  elements.flatMap fun element =>
    toLeBytes (Goldilocks.asCanonicalU64 element)

theorem encodeElements_injective : Function.Injective encodeElements := by
  apply flatMap_injective (show 0 < 8 by decide) fun _ => length_toLeBytes _
  intro element element' same
  rw [← Goldilocks.new_asCanonicalU64 element, toLeBytes_injective same,
    Goldilocks.new_asCanonicalU64]

/-- A batch whose transfer proof is given. -/
def sampleBatch (cdcecgProof : List UInt8) : BatchTransferProof where
  caProof := [1]
  cbProof := [1]
  ccProof := [1]
  cdcecgProof

/-- Proofs that are their published values. -/
def sampleProofs : TransferProofs where
  fromBytes bytes :=
    if bytes = [] then
      none
    else
      some (sampleBatch bytes)
  proveTransferP3 pi :=
    match pi.checkAllConstraints with
    | .error index => .error (.constraintViolated index)
    | .ok _ => .ok (encodeElements pi.toGoldilocks)
  verifyTransferP3 proof claimed :=
    if proof = encodeElements claimed.toGoldilocks then
      .ok ()
    else
      .error .verificationFailed
  fromBytes_nil := rfl
  verify_eq_ok_iff := by
    intro pi proof proved claimed
    cases passed : pi.checkAllConstraints with
    | error index =>
        rw [passed] at proved
        cases proved
    | ok answer =>
        rw [passed] at proved
        cases proved
        split
        · rename_i same
          exact iff_of_true rfl (encodeElements_injective same).symm
        · rename_i different
          exact
            iff_of_false (by simp) fun same =>
              different (congrArg encodeElements same.symm)

/-- A message with one delta, whose proof is the sample one. -/
def sampleMessage (pi : TransferPublicInputsP3) : ScalarGossipMessage where
  timestamp := 0
  smtRoot := .zero
  deltaNullifiers :=
    [{ nullifier := .replicate 1
       spendProof := encodeElements pi.toGoldilocks
       newCommitment := .replicate 2 }]
  senderSignature := []

theorem sampleMessage_honest
    {pi : TransferPublicInputsP3}
    (checked : pi.checkAllConstraints = .ok ()) :
    List.Forall₂ (HonestDelta sampleProofs)
      (sampleMessage pi).deltaNullifiers [pi] := by
  have present : encodeElements pi.toGoldilocks ≠ [] := by
    intro empty
    have noElements : pi.toGoldilocks = [] := encodeElements_injective empty
    have lengths := pi.length_toGoldilocks
    rw [noElements] at lengths
    cases lengths
  have proved :
      sampleProofs.proveTransferP3 pi =
        .ok (encodeElements pi.toGoldilocks) := by
    simp only [sampleProofs, checked]
  have decoded :
      sampleProofs.fromBytes (encodeElements pi.toGoldilocks) =
        some (sampleBatch (encodeElements pi.toGoldilocks)) := by
    simp only [sampleProofs, if_neg present]
  have nonzero : Bytes32.replicate 2 ≠ .zero := by
    decide
  refine
    .cons ⟨checked, nonzero, _, decoded, ?_, ?_, ?_, present, proved⟩ .nil
  · exact List.cons_ne_nil _ _
  · exact List.cons_ne_nil _ _
  · exact List.cons_ne_nil _ _

/-- A transfer of 1 SCL with the smallest fee in sub-epoch 1000. -/
def samplePublicInputs : TransferPublicInputsP3 :=
  { piForVerify with
    sumInputsSscl := 1000000040
    sumOutputsSscl := 1000000000
    currentSubepochId := 1000
    targetSubepochId := 1000 }

/-- The constant record itself is relayed. -/
theorem honest_relayed_iff_placeholder :
    validateAndRelay sampleProofs (sampleMessage piForVerify) =
        .proofWellFormed ↔
      (sampleMessage piForVerify).deltaNullifiers ≠ [] ∧
        ∀ pi ∈ [piForVerify], IsPlaceholder pi :=
  honest_relayed_iff (sampleMessage_honest rfl)

/-- An honest transfer is rejected. -/
theorem honest_transfer_rejected :
    List.Forall₂ (HonestDelta sampleProofs)
        (sampleMessage samplePublicInputs).deltaNullifiers
        [samplePublicInputs] ∧
      validateAndRelay sampleProofs (sampleMessage samplePublicInputs) =
        .rejected "cdcecg STARK verify failed" := by
  have honest :
      List.Forall₂ (HonestDelta sampleProofs)
        (sampleMessage samplePublicInputs).deltaNullifiers
        [samplePublicInputs] :=
    sampleMessage_honest rfl
  refine ⟨honest, ?_⟩
  cases honest with
  | cons first _ =>
      have different :
          piForVerify.toGoldilocks ≠ samplePublicInputs.toGoldilocks := by
        rw [ne_eq, toGoldilocks_piForVerify_eq_iff first.checked]
        intro constants
        exact absurd constants.currentSubepoch (by decide)
      have answer := first.validateDelta_eq
      rw [if_neg different] at answer
      have nonempty :
          (sampleMessage samplePublicInputs).deltaNullifiers ≠ [] :=
        List.cons_ne_nil _ _
      rw [validateAndRelay, if_neg nonempty]
      simp only [sampleMessage, List.forM_eq_forM, List.forM_cons, answer]
      rfl

end ScalarCore.Gossip
