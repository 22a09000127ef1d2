import ScalarCore.BatchTransfer
import ScalarCore.KeyedSort
import ScalarCore.TransferAirSoundness

namespace ScalarCore.Starkpack

/-!
# STARKPack batches

The aggregator takes its inputs in the order of their ordering keys, checks each,
and absorbs the hashes of its proof and of its public inputs into one transcript.
The commitments of the batch are drawn from that transcript.

BLAKE3, the decoder of proofs and the verifier of the transfer circuit are
parameters.
-/

open BatchTransfer FallibleChecks KeyedSort TransferAirP3

/-- `STARK_MAX_BATCH_SIZE`. -/
def starkMaxBatchSize : Nat :=
  256

/-- `DOMAIN_SUBEPOCH_FS`. -/
def domainSubepochFs : List UInt8 :=
  asciiBytes "scalar_subepoch_fs"

/-- `DOMAIN_STARK_BATCH`. -/
def domainStarkBatch : List UInt8 :=
  asciiBytes "scalar_stark_batch"

@[simp] theorem length_domainSubepochFs : domainSubepochFs.length = 18 := by
  decide

@[simp] theorem length_domainStarkBatch : domainStarkBatch.length = 18 := by
  decide

/-- `TRANSFER_CONSTRAINT_COUNT`. -/
def transferConstraintCount : UInt32 :=
  4

/-- One transfer of a batch. -/
structure RealProofInput where
  proofBytes : List UInt8
  publicInputs : TransferPublicInputsP3
  txOrderingKey : Bytes32

/-- The commitments of a batch; the proof hashes come in sorted order. -/
@[ext] structure STARKPackBatch where
  n : Nat
  transcriptHash : Bytes32
  globalFriRoot : Bytes32
  proofHashes : List Bytes32
  deriving DecidableEq

/-- Errors of the aggregation; an index counts the sorted inputs. -/
inductive RealAggregateError where
  | invalidBatchSize (actual max : Nat)
  | emptyBatch
  | proofVerificationFailed (index : Nat) (reason : String)
  | deserializationFailed (index : Nat) (reason : String)

/--
What the aggregator calls.  The verifier runs under `catch_unwind`, whose error
is a panic.
-/
structure Backend where
  blake3 : List UInt8 → Bytes32
  fromBytes : List UInt8 → Except String BatchTransferProof
  verifyTransferP3 :
    List UInt8 → TransferPublicInputsP3 →
      Except Unit (Except TransferP3Error Unit)

/-- The message of a transfer error. -/
def message : TransferP3Error → String
  | .constraintViolated index =>
      "Constraint violated at index " ++ toString index
  | .verificationFailed => "Proof verification failed"
  | .serializationFailed text => "Serialization failed: " ++ text

/-- The bytes of the public inputs that are hashed. -/
def piBytes (pi : TransferPublicInputsP3) : List UInt8 :=
  pi.toGoldilocks.flatMap fun fe => toLeBytes (Goldilocks.asCanonicalU64 fe)

/-- The transcript after some inputs, with the hashes of their proofs. -/
structure Transcript where
  absorbed : List UInt8
  proofHashes : List Bytes32

/-- A new transcript. -/
def Transcript.new : Transcript where
  absorbed := []
  proofHashes := []

section Aggregation

variable (backend : Backend)

/-- `verify_batch_proof_with_pi`. -/
def verifyBatchProofWithPi
    (proof : BatchTransferProof)
    (pi : TransferPublicInputsP3)
    (index : Nat) :
    Except RealAggregateError Unit :=
  if proof.caProof = [] ∨ proof.cbProof = [] ∨ proof.ccProof = [] ∨
      proof.cdcecgProof = [] then
    .error
      (.proofVerificationFailed index
        "one or more sub-proof byte slices are empty")
  else
    match backend.verifyTransferP3 proof.cdcecgProof pi with
    | .ok (.ok _) => .ok ()
    | .ok (.error e) =>
        .error
          (.proofVerificationFailed index
            ("CD/CE/CG verification failed: " ++ message e))
    | .error _ =>
        .error
          (.proofVerificationFailed index
            "CD/CE/CG verifier panicked on malformed input (caught)")

/-- What the transcript absorbs of one input. -/
def inputBlock (inp : RealProofInput) : List UInt8 :=
  domainSubepochFs ++ (backend.blake3 inp.proofBytes).bytes ++
    (backend.blake3 (piBytes inp.publicInputs)).bytes ++
    toLeBytesU32 transferConstraintCount

/-- The transcript after one more input. -/
def Transcript.absorb
    (transcript : Transcript)
    (inp : RealProofInput) :
    Transcript where
  absorbed := transcript.absorbed ++ inputBlock backend inp
  proofHashes := transcript.proofHashes ++ [backend.blake3 inp.proofBytes]

/-- Phase 1: each input is checked, then absorbed. -/
def absorbVerified
    (seq : Nat)
    (transcript : Transcript) :
    List RealProofInput → Except RealAggregateError Transcript
  | [] => .ok transcript
  | inp :: rest => do
      let batchProof ←
        (backend.fromBytes inp.proofBytes).mapError
          (RealAggregateError.deserializationFailed seq)
      verifyBatchProofWithPi backend batchProof inp.publicInputs seq
      absorbVerified (seq + 1) (transcript.absorb backend inp) rest

/-- The message behind `global_fri_root`. -/
def phase3Message (n : Nat) (transcript : Transcript) : List UInt8 :=
  domainStarkBatch ++ toLeBytesU32 (UInt32.ofNat n) ++
    (backend.blake3 transcript.absorbed).bytes ++
    transcript.proofHashes.flatMap Bytes32.bytes

/-- The message behind `transcript_hash`. -/
def finalMessage (n : Nat) (transcript : Transcript) : List UInt8 :=
  (backend.blake3 transcript.absorbed).bytes ++
    (backend.blake3 (phase3Message backend n transcript)).bytes ++
    toLeBytesU32 (UInt32.ofNat n)

/-- Phases 2 and 3: the commitments of a finished transcript. -/
def finish (n : Nat) (transcript : Transcript) : STARKPackBatch where
  n := n
  transcriptHash := backend.blake3 (finalMessage backend n transcript)
  globalFriRoot := backend.blake3 (phase3Message backend n transcript)
  proofHashes := transcript.proofHashes

/-- `sorted_indices`. -/
def sortedIndices (inputs : List RealProofInput) : List (Fin inputs.length) :=
  sortByKey (fun index => (inputs.get index).txOrderingKey)
    (List.finRange inputs.length)

/-- `aggregate_real_proofs`. -/
def aggregateRealProofs
    (inputs : List RealProofInput) :
    Except RealAggregateError STARKPackBatch :=
  let n := inputs.length
  if n = 0 then
    .error .emptyBatch
  else if starkMaxBatchSize < n then
    .error (.invalidBatchSize n starkMaxBatchSize)
  else do
    let transcript ←
      absorbVerified backend 0 .new ((sortedIndices inputs).map inputs.get)
    .ok (finish backend n transcript)

end Aggregation

variable {backend : Backend}

/-- The inputs in the order in which they are absorbed. -/
abbrev sortedInputs (inputs : List RealProofInput) : List RealProofInput :=
  sortByKey RealProofInput.txOrderingKey inputs

/-- Sorting the indices sorts the inputs. -/
theorem map_get_sortedIndices (inputs : List RealProofInput) :
    (sortedIndices inputs).map inputs.get = sortedInputs inputs := by
  rw [sortedIndices, map_sortByKey RealProofInput.txOrderingKey inputs.get,
    List.map_get_finRange]

/-- The input decodes to four proofs, of which the last one verifies. -/
def Accepts (backend : Backend) (inp : RealProofInput) : Prop :=
  ∃ proof,
    backend.fromBytes inp.proofBytes = .ok proof ∧
      (proof.caProof ≠ [] ∧ proof.cbProof ≠ [] ∧ proof.ccProof ≠ [] ∧
        proof.cdcecgProof ≠ []) ∧
      backend.verifyTransferP3 proof.cdcecgProof inp.publicInputs = .ok (.ok ())

/-- The check of a decoded proof passes whatever the index in its errors. -/
theorem verifyBatchProofWithPi_eq_ok_iff
    {proof : BatchTransferProof}
    {pi : TransferPublicInputsP3}
    {index : Nat} :
    verifyBatchProofWithPi backend proof pi index = .ok () ↔
      (proof.caProof ≠ [] ∧ proof.cbProof ≠ [] ∧ proof.ccProof ≠ [] ∧
        proof.cdcecgProof ≠ []) ∧
      backend.verifyTransferP3 proof.cdcecgProof pi = .ok (.ok ()) := by
  rw [verifyBatchProofWithPi, ite_error_eq_ok_iff, not_or, not_or, not_or]
  apply and_congr_right
  intro nonempty
  cases backend.verifyTransferP3 proof.cdcecgProof pi with
  | error panic =>
      simp
  | ok verdict =>
      cases verdict with
      | error e =>
          simp
      | ok accepted =>
          simp

/-- Absorbing inputs one by one absorbs them all, when each is accepted. -/
theorem absorbVerified_eq_ok_iff
    {inputs : List RealProofInput}
    {seq : Nat}
    {transcript final : Transcript} :
    absorbVerified backend seq transcript inputs = .ok final ↔
      (∀ inp ∈ inputs, Accepts backend inp) ∧
        final = inputs.foldl (Transcript.absorb backend) transcript := by
  induction inputs generalizing seq transcript with
  | nil =>
      simp [absorbVerified, eq_comm]
  | cons inp rest inductionHypothesis =>
      have later :=
        @inductionHypothesis (seq + 1) (transcript.absorb backend inp)
      rw [List.forall_mem_cons, List.foldl_cons, and_assoc, ← later,
        absorbVerified, Accepts]
      cases decoded : backend.fromBytes inp.proofBytes with
      | error reason =>
          simp [Except.mapError, bind, Except.bind]
      | ok proof =>
          have checked :=
            @verifyBatchProofWithPi_eq_ok_iff backend proof inp.publicInputs seq
          simp only [Except.mapError, Except.ok.injEq, exists_eq_left', ← checked]
          exact unit_bind_eq_ok_iff

/-- The transcript of a list of inputs. -/
def transcriptOf (backend : Backend) (inputs : List RealProofInput) : Transcript where
  absorbed := inputs.flatMap (inputBlock backend)
  proofHashes := inputs.map fun inp => backend.blake3 inp.proofBytes

/-- Absorbing appends the transcript of the inputs. -/
theorem foldl_absorb
    (inputs : List RealProofInput)
    (transcript : Transcript) :
    inputs.foldl (Transcript.absorb backend) transcript =
      { absorbed := transcript.absorbed ++ (transcriptOf backend inputs).absorbed
        proofHashes :=
          transcript.proofHashes ++ (transcriptOf backend inputs).proofHashes } := by
  induction inputs generalizing transcript with
  | nil =>
      simp [transcriptOf]
  | cons inp rest inductionHypothesis =>
      rw [List.foldl_cons, inductionHypothesis]
      simp [transcriptOf, Transcript.absorb]

/-- The inputs are few enough, and each is accepted. -/
structure Admits (backend : Backend) (inputs : List RealProofInput) : Prop where
  nonempty : inputs ≠ []
  inBound : inputs.length ≤ starkMaxBatchSize
  accepted : ∀ inp ∈ inputs, Accepts backend inp

/-- Whether inputs are admitted does not depend on their order. -/
theorem Admits.of_perm
    {inputs order : List RealProofInput}
    (reordered : inputs.Perm order)
    (admitted : Admits backend inputs) :
    Admits backend order where
  nonempty := fun empty =>
    admitted.nonempty (List.perm_nil.mp (empty ▸ reordered))
  inBound := reordered.length_eq ▸ admitted.inBound
  accepted := fun inp listed =>
    admitted.accepted inp (reordered.mem_iff.mpr listed)

/-- Admitted inputs, and no others, are aggregated in the order of their keys. -/
theorem aggregateRealProofs_eq_ok_iff
    {inputs : List RealProofInput}
    {batch : STARKPackBatch} :
    aggregateRealProofs backend inputs = .ok batch ↔
      Admits backend inputs ∧
        batch =
          finish backend inputs.length
            (transcriptOf backend (sortedInputs inputs)) := by
  have absorbed {final : Transcript} :
      absorbVerified backend 0 .new (sortedInputs inputs) = .ok final ↔
        (∀ inp ∈ inputs, Accepts backend inp) ∧
          final = transcriptOf backend (sortedInputs inputs) := by
    rw [absorbVerified_eq_ok_iff, foldl_absorb]
    simp only [mem_sortByKey, Transcript.new, List.nil_append]
  rw [aggregateRealProofs, ite_error_eq_ok_iff, ite_error_eq_ok_iff,
    map_get_sortedIndices, List.length_eq_zero_iff, not_lt]
  constructor
  · rintro ⟨nonempty, inBound, finished⟩
    cases run : absorbVerified backend 0 .new (sortedInputs inputs) with
    | error error =>
        rw [run] at finished
        cases finished
    | ok final =>
        obtain ⟨accepted, rfl⟩ := absorbed.mp run
        rw [run] at finished
        cases finished
        exact ⟨⟨nonempty, inBound, accepted⟩, rfl⟩
  · rintro ⟨admitted, rfl⟩
    refine ⟨admitted.nonempty, admitted.inBound, ?_⟩
    rw [absorbed.mpr ⟨admitted.accepted, rfl⟩]
    rfl

/-- What the transcript sees of an input. -/
def view (inp : RealProofInput) : List UInt8 × List Goldilocks :=
  (inp.proofBytes, inp.publicInputs.toGoldilocks)

/-- The hashed bytes of the public inputs determine the values. -/
theorem piBytes_eq_iff {pi pi' : TransferPublicInputsP3} :
    piBytes pi = piBytes pi' ↔ pi.toGoldilocks = pi'.toGoldilocks := by
  constructor
  · apply flatMap_injective (show 0 < 8 by decide)
    · intro fe
      exact length_toLeBytes _
    · intro fe fe' same
      rw [← Goldilocks.new_asCanonicalU64 fe, toLeBytes_injective same,
        Goldilocks.new_asCanonicalU64]
  · intro same
    rw [piBytes, same, piBytes]

/-- Eight bytes for each value. -/
theorem length_piBytes (pi : TransferPublicInputsP3) :
    (piBytes pi).length = 328 := by
  simp [piBytes, pi.length_toGoldilocks, transferPiLen]

/-- The blocks are of one size. -/
theorem length_inputBlock (inp : RealProofInput) :
    (inputBlock backend inp).length = 86 := by
  simp [inputBlock, Bytes32.length_eq]

/-- A block shows the two hashes of its input. -/
theorem inputBlock_eq_iff {inp inp' : RealProofInput} :
    inputBlock backend inp = inputBlock backend inp' ↔
      backend.blake3 inp.proofBytes = backend.blake3 inp'.proofBytes ∧
        backend.blake3 (piBytes inp.publicInputs) =
          backend.blake3 (piBytes inp'.publicInputs) := by
  rw [inputBlock, inputBlock, List.append_cancel_right_eq, List.append_assoc,
    List.append_assoc, List.append_cancel_left_eq]
  constructor
  · intro same
    obtain ⟨sameProof, samePi⟩ :=
      List.append_inj same (by rw [Bytes32.length_eq, Bytes32.length_eq])
    exact ⟨Bytes32.ext sameProof, Bytes32.ext samePi⟩
  · rintro ⟨sameProof, samePi⟩
    rw [sameProof, samePi]

/-- The messages that are hashed for sorted inputs. -/
def messages (backend : Backend) (inputs : List RealProofInput) : List (List UInt8) :=
  (inputs.map fun inp => inp.proofBytes) ++
    (inputs.map fun inp => piBytes inp.publicInputs) ++
    [(transcriptOf backend inputs).absorbed,
      phase3Message backend inputs.length (transcriptOf backend inputs),
      finalMessage backend inputs.length (transcriptOf backend inputs)]

/-- Inputs that look the same give one transcript. -/
theorem transcriptOf_eq_of_view
    {inputs order : List RealProofInput}
    (sameView : inputs.map view = order.map view) :
    transcriptOf backend inputs = transcriptOf backend order := by
  have sameBlocks :
      inputs.map (inputBlock backend) = order.map (inputBlock backend) := by
    apply map_eq_of_map_key_eq sameView
    intro inp _ inp' _ same
    obtain ⟨sameProof, samePi⟩ := Prod.mk.inj same
    rw [inputBlock_eq_iff, sameProof, piBytes_eq_iff.mpr samePi]
    exact ⟨rfl, rfl⟩
  have sameHashes :
      (inputs.map fun inp => backend.blake3 inp.proofBytes) =
        order.map fun inp => backend.blake3 inp.proofBytes := by
    apply map_eq_of_map_key_eq sameView
    intro inp _ inp' _ same
    rw [(Prod.mk.inj same).1]
  rw [transcriptOf, transcriptOf, List.flatMap_def, List.flatMap_def, sameBlocks,
    sameHashes]

/-- With no collision, the transcript hash determines what was absorbed. -/
theorem view_eq_of_transcriptHash
    {inputs order : List RealProofInput}
    (collisionFree :
      Set.InjOn backend.blake3
        {message | message ∈ messages backend inputs ∨
          message ∈ messages backend order})
    (sameLength : inputs.length = order.length)
    (sameHash :
      (finish backend inputs.length
          (transcriptOf backend inputs)).transcriptHash =
        (finish backend order.length
          (transcriptOf backend order)).transcriptHash) :
    inputs.map view = order.map view := by
  -- From the last hash inwards: the seed, the transcript, its blocks, their inputs.
  have sameFinal :=
    collisionFree (.inl (by simp [messages])) (.inr (by simp [messages])) sameHash
  have sameSeed :
      backend.blake3 (transcriptOf backend inputs).absorbed =
        backend.blake3 (transcriptOf backend order).absorbed := by
    rw [finalMessage, finalMessage, List.append_assoc, List.append_assoc] at sameFinal
    exact
      Bytes32.ext
        (List.append_inj_left sameFinal
          (by rw [Bytes32.length_eq, Bytes32.length_eq]))
  have sameAbsorbed :=
    collisionFree (.inl (by simp [messages])) (.inr (by simp [messages])) sameSeed
  have sameBlocks :
      inputs.map (inputBlock backend) = order.map (inputBlock backend) := by
    rw [List.eq_iff_flatten_eq, ← List.flatMap_def, ← List.flatMap_def]
    refine ⟨sameAbsorbed, ?_⟩
    simp only [List.map_map, Function.comp_def, length_inputBlock,
      List.map_const', sameLength]
  apply map_eq_of_map_key_eq sameBlocks
  intro inp listed inp' listed' sameBlock
  obtain ⟨sameProof, samePi⟩ := inputBlock_eq_iff.mp sameBlock
  have sameBytes :=
    collisionFree
      (.inl (by simpa [messages] using .inl ⟨inp, listed, rfl⟩))
      (.inr (by simpa [messages] using .inl ⟨inp', listed', rfl⟩))
      sameProof
  have sameValues :=
    collisionFree
      (.inl (by simpa [messages] using .inr (.inl ⟨inp, listed, rfl⟩)))
      (.inr (by simpa [messages] using .inr (.inl ⟨inp', listed', rfl⟩)))
      samePi
  exact Prod.ext sameBytes (piBytes_eq_iff.mp sameValues)

/-- The messages hashed for the inputs in any order. -/
def hashedMessages
    (backend : Backend)
    (inputs : List RealProofInput) :
    Set (List UInt8) :=
  {message | ∃ order, inputs.Perm order ∧
    message ∈ messages backend (sortedInputs order)}

/-- Inputs with one ordering key have the same proof and the same public inputs. -/
def KeysDetermine (inputs : List RealProofInput) : Prop :=
  ∀ left ∈ inputs, ∀ right ∈ inputs,
    left.txOrderingKey = right.txOrderingKey →
      left.proofBytes = right.proofBytes ∧
        left.publicInputs.toGoldilocks = right.publicInputs.toGoldilocks

/-- Then the sorted inputs look the same whatever order they came in. -/
theorem keysDetermine_iff {inputs : List RealProofInput} :
    KeysDetermine inputs ↔
      ∀ order, inputs.Perm order →
        (sortedInputs inputs).map view = (sortedInputs order).map view := by
  rw [map_sortByKey_eq_iff]
  simp only [KeysDetermine, view, Prod.mk.injEq]

/-- Inputs that are not admitted give no batch. -/
theorem toOption_aggregateRealProofs_of_not_admits
    {inputs : List RealProofInput}
    (refused : ¬Admits backend inputs) :
    (aggregateRealProofs backend inputs).toOption = none := by
  cases run : aggregateRealProofs backend inputs with
  | error error =>
      rfl
  | ok batch =>
      exact absurd (aggregateRealProofs_eq_ok_iff.mp run).1 refused

/-- Admitted inputs give the batch of their sorted list. -/
theorem toOption_aggregateRealProofs_of_admits
    {inputs : List RealProofInput}
    (admitted : Admits backend inputs) :
    (aggregateRealProofs backend inputs).toOption =
      some
        (finish backend inputs.length
          (transcriptOf backend (sortedInputs inputs))) := by
  rw [aggregateRealProofs_eq_ok_iff.mpr ⟨admitted, rfl⟩]
  rfl

/-- Where the keys determine the inputs, every order has one outcome. -/
theorem toOption_aggregateRealProofs_of_perm
    {inputs order : List RealProofInput}
    (determined : Admits backend inputs → KeysDetermine inputs)
    (reordered : inputs.Perm order) :
    (aggregateRealProofs backend inputs).toOption =
      (aggregateRealProofs backend order).toOption := by
  by_cases admitted : Admits backend inputs
  · have sameView := keysDetermine_iff.mp (determined admitted) order reordered
    rw [toOption_aggregateRealProofs_of_admits admitted,
      toOption_aggregateRealProofs_of_admits (admitted.of_perm reordered),
      transcriptOf_eq_of_view sameView, reordered.length_eq]
  · have refused : ¬Admits backend order :=
      mt (Admits.of_perm reordered.symm) admitted
    rw [toOption_aggregateRealProofs_of_not_admits admitted,
      toOption_aggregateRealProofs_of_not_admits refused]

/-- One outcome for two orders of admitted inputs shows one sorted list. -/
theorem view_eq_of_toOption_eq
    {inputs order : List RealProofInput}
    (collisionFree : Set.InjOn backend.blake3 (hashedMessages backend inputs))
    (admitted : Admits backend inputs)
    (reordered : inputs.Perm order)
    (same :
      (aggregateRealProofs backend inputs).toOption =
        (aggregateRealProofs backend order).toOption) :
    (sortedInputs inputs).map view = (sortedInputs order).map view := by
  rw [toOption_aggregateRealProofs_of_admits admitted,
    toOption_aggregateRealProofs_of_admits (admitted.of_perm reordered),
    Option.some_inj] at same
  have length_inputs :=
    (sortByKey_perm RealProofInput.txOrderingKey inputs).length_eq
  have length_order :=
    (sortByKey_perm RealProofInput.txOrderingKey order).length_eq
  apply @view_eq_of_transcriptHash backend
  · apply collisionFree.mono
    rintro message (ofInputs | ofOrder)
    · exact ⟨inputs, List.Perm.refl inputs, ofInputs⟩
    · exact ⟨order, reordered, ofOrder⟩
  · rw [length_inputs, length_order, reordered.length_eq]
  · rw [length_inputs, length_order]
    exact congrArg STARKPackBatch.transcriptHash same

/--
The outcome of a batch does not depend on the order of its inputs exactly when
they are refused anyway, or inputs with one ordering key are alike.
-/
theorem aggregateRealProofs_perm_iff
    {inputs : List RealProofInput}
    (collisionFree : Set.InjOn backend.blake3 (hashedMessages backend inputs)) :
    (∀ order, inputs.Perm order →
        (aggregateRealProofs backend inputs).toOption =
          (aggregateRealProofs backend order).toOption) ↔
      (Admits backend inputs → KeysDetermine inputs) := by
  constructor
  · intro same admitted
    rw [keysDetermine_iff]
    intro order reordered
    exact
      view_eq_of_toOption_eq collisionFree admitted reordered
        (same order reordered)
  · intro determined order reordered
    exact toOption_aggregateRealProofs_of_perm determined reordered

/-- A vector of fewer than 128 bytes: its length, then its bytes. -/
def readVector : List UInt8 → Except String (List UInt8 × List UInt8)
  | [] => .error "Hit the end of buffer, expected more data"
  | length :: rest =>
      if rest.length < length.toNat then
        .error "Hit the end of buffer, expected more data"
      else
        .ok (rest.take length.toNat, rest.drop length.toNat)

/-- Four vectors; whatever follows them is not read. -/
def readProof (bytes : List UInt8) : Except String BatchTransferProof := do
  let (caProof, rest) ← readVector bytes
  let (cbProof, rest) ← readVector rest
  let (ccProof, rest) ← readVector rest
  let (cdcecgProof, _) ← readVector rest
  .ok { caProof, cbProof, ccProof, cdcecgProof }

/-- A hash of the length, and a verifier that accepts. -/
def lengthBackend : Backend where
  blake3 message := Bytes32.endingIn (UInt8.ofNat message.length)
  fromBytes := readProof
  verifyTransferP3 _ _ := .ok (.ok ())

/-- A proof of four bytes, with more bytes behind it. -/
def paddedInput (padding : List UInt8) (key : UInt8) : RealProofInput where
  proofBytes := [1, 7, 1, 7, 1, 7, 1, 7] ++ padding
  publicInputs := plainTransfer
  txOrderingKey := Bytes32.endingIn key

/-- Bytes behind a proof are no reason to refuse it. -/
theorem accepts_paddedInput (padding : List UInt8) (key : UInt8) :
    Accepts lengthBackend (paddedInput padding key) := by
  refine ⟨⟨[7], [7], [7], [7]⟩, ?_, by decide, rfl⟩
  simp [lengthBackend, paddedInput, readProof, readVector, bind, Except.bind]

/-- Two padded inputs are admitted. -/
theorem admits_paddedInputs (padding padding' : List UInt8) (key key' : UInt8) :
    Admits lengthBackend [paddedInput padding key, paddedInput padding' key'] where
  nonempty := List.cons_ne_nil _ _
  inBound := by simp [starkMaxBatchSize]
  accepted := by simp [accepts_paddedInput]

/-- Two inputs with distinct keys, and bytes behind the second proof. -/
def distinctInputs : List RealProofInput :=
  [paddedInput [] 1, paddedInput [0] 2]

/-- The inputs with distinct keys are sorted one way. -/
theorem sortedInputs_distinctInputs
    {order : List RealProofInput}
    (reordered : distinctInputs.Perm order) :
    sortedInputs order = distinctInputs := by
  have differs : Bytes32.endingIn 1 ≠ Bytes32.endingIn 2 := by decide
  have ascends : Bytes32.endingIn 1 ≤ Bytes32.endingIn 2 := by decide
  have distinct :
      ∀ left ∈ distinctInputs, ∀ right ∈ distinctInputs,
        left.txOrderingKey = right.txOrderingKey → left = right := by
    simp [distinctInputs, paddedInput, differs, differs.symm]
  calc
    sortedInputs order
    _ = sortedInputs distinctInputs :=
        (sortByKey_eq_of_perm distinct reordered).symm
    _ = distinctInputs :=
        sortByKey_of_pairwise (by simp [distinctInputs, paddedInput, ascends])

/-- The messages hashed for the inputs with distinct keys differ in length. -/
theorem injOn_hashedMessages_distinctInputs :
    Set.InjOn lengthBackend.blake3
      (hashedMessages lengthBackend distinctInputs) := by
  let transcript := transcriptOf lengthBackend distinctInputs
  let allMessages :=
    [(paddedInput [] 1).proofBytes, (paddedInput [0] 2).proofBytes,
      piBytes plainTransfer, transcript.absorbed,
      phase3Message lengthBackend 2 transcript,
      finalMessage lengthBackend 2 transcript]
  have among :
      ∀ message ∈ hashedMessages lengthBackend distinctInputs,
        message ∈ allMessages := by
    rintro message ⟨order, reordered, listed⟩
    rw [sortedInputs_distinctInputs reordered] at listed
    simpa [messages, distinctInputs, paddedInput, allMessages, transcript] using
      listed
  have lengths :
      allMessages.map List.length = [8, 9, 328, 172, 118, 68] := by
    simp [allMessages, transcript, transcriptOf, distinctInputs, paddedInput,
      length_piBytes, length_inputBlock, phase3Message, finalMessage,
      Bytes32.length_eq]
  have hashes :
      allMessages.map lengthBackend.blake3 =
        [8, 9, 328, 172, 118, 68].map fun length =>
          Bytes32.endingIn (UInt8.ofNat length) := by
    rw [← lengths, List.map_map]
    rfl
  have distinct : (allMessages.map lengthBackend.blake3).Nodup := by
    rw [hashes]
    decide
  intro message listed message' listed' same
  exact
    List.inj_on_of_nodup_map distinct (among message listed)
      (among message' listed') same

/-- Two inputs with distinct keys give one batch in either order. -/
theorem aggregateRealProofs_perm_distinctKeys :
    Admits lengthBackend distinctInputs ∧
      ∀ order, distinctInputs.Perm order →
        (aggregateRealProofs lengthBackend distinctInputs).toOption =
          (aggregateRealProofs lengthBackend order).toOption := by
  have differs : Bytes32.endingIn 1 ≠ Bytes32.endingIn 2 := by decide
  refine
    ⟨admits_paddedInputs [] [0] 1 2,
      (aggregateRealProofs_perm_iff injOn_hashedMessages_distinctInputs).mpr
        fun _ => ?_⟩
  simp [KeysDetermine, distinctInputs, paddedInput, differs, differs.symm]

/--
A proof and the same proof with one more byte, under one ordering key, give a
batch for each order.
-/
theorem aggregateRealProofs_sharedKey :
    [paddedInput [] 1, paddedInput [0] 1].Perm
        [paddedInput [0] 1, paddedInput [] 1] ∧
      ∃ batch batch',
        aggregateRealProofs lengthBackend
            [paddedInput [] 1, paddedInput [0] 1] = .ok batch ∧
          aggregateRealProofs lengthBackend
            [paddedInput [0] 1, paddedInput [] 1] = .ok batch' ∧
          batch ≠ batch' := by
  have sorted (padding padding' : List UInt8) :
      sortedInputs [paddedInput padding 1, paddedInput padding' 1] =
        [paddedInput padding 1, paddedInput padding' 1] :=
    sortByKey_of_pairwise (by simp [paddedInput])
  refine
    ⟨List.Perm.swap _ _ _, _, _,
      aggregateRealProofs_eq_ok_iff.mpr ⟨admits_paddedInputs [] [0] 1 1, rfl⟩,
      aggregateRealProofs_eq_ok_iff.mpr ⟨admits_paddedInputs [0] [] 1 1, rfl⟩, ?_⟩
  intro same
  have sameHashes := congrArg STARKPackBatch.proofHashes same
  rw [sorted, sorted] at sameHashes
  revert sameHashes
  decide

end ScalarCore.Starkpack
