import Mathlib.Logic.Relation
import ScalarCore.CommitStarkFinality
import ScalarCore.MicroCommit

namespace ScalarCore

/-!
# The commit window of a transaction

A transaction of the sub-epoch after its target is legitimate when a quorumed
commitment of the target holds its ordering key and a batch is final at the
sub-epoch after the target.  Until the window closes an unmet condition means
that there is no decision yet, afterwards it means rejection.

Machine arithmetic wraps: the sub-epoch after the last one is the first.
-/

open BatchTransfer StateMachine

/-- `merkle_leaf`. -/
def mcMerkleLeaf (blake3 : List UInt8 → Bytes32) (key : Bytes32) : Bytes32 :=
  blake3 (asciiBytes "scalar.mc.merkle.leaf" ++ key.bytes)

/-- `merkle_node`. -/
def mcMerkleNode
    (blake3 : List UInt8 → Bytes32)
    (left right : Bytes32) : Bytes32 :=
  blake3 (asciiBytes "scalar.mc.merkle.node" ++ left.bytes ++ right.bytes)

/-- Siblings from leaf to root, each with whether it is the right node. -/
structure MerkleProof where
  siblings : List (Bytes32 × Bool)
  deriving DecidableEq

/-- `verify_ordering_key_inclusion`. -/
def verifyOrderingKeyInclusion
    (blake3 : List UInt8 → Bytes32)
    (root orderingKey : Bytes32)
    (proof : MerkleProof) : Bool :=
  let top :=
    proof.siblings.foldl
      (fun acc sibling =>
        if sibling.2 then
          mcMerkleNode blake3 acc sibling.1
        else
          mcMerkleNode blake3 sibling.1 acc)
      (mcMerkleLeaf blake3 orderingKey)
  decide (top = root)

/-- `contains_ordering_key`. -/
def MicroCommitment.containsOrderingKey
    (blake3 : List UInt8 → Bytes32)
    (mc : MicroCommitment)
    (orderingKey : Bytes32)
    (proof : MerkleProof) : Bool :=
  verifyOrderingKeyInclusion blake3 mc.txMerkleRoot orderingKey proof

/-- A commitment with an inclusion proof for the ordering key. -/
structure McCandidate where
  mc : MicroCommitment
  inclusionProof : MerkleProof
  deriving DecidableEq

/-- The verdict on a claim. -/
inductive CgWindowOutcome where
  | valid
  | rejected
  | pending
  deriving DecidableEq

/-- What stays the same while a transaction is judged. -/
structure CgTransaction where
  orderingKey : Bytes32
  targetSubepochId : UInt64
  validatorSet : List (Bytes32 × List UInt8)

/-- What the verdict is read from and changes with time. -/
structure CgView
    {Digest : Type}
    [DecidableEq Digest]
    (hash : SmtHash Digest) where
  currentSubepochId : UInt64
  mcCandidates : List McCandidate
  commitStark : CommitStark hash

namespace CgWindow

variable {Digest : Type} [DecidableEq Digest] {hash : SmtHash Digest}

section Verdict

variable
  (blake3 : List UInt8 → Bytes32)
  (verifySignature : List UInt8 → List UInt8 → List UInt8 → Option Bool)

/-- Condition (a): a quorumed commitment of the target holds the key. -/
def conditionA (transaction : CgTransaction) (mcCandidates : List McCandidate) :
    Bool :=
  mcCandidates.any fun candidate =>
    decide (candidate.mc.subepochId = transaction.targetSubepochId) &&
      candidate.mc.verifyQuorum blake3 verifySignature
        transaction.validatorSet &&
      candidate.mc.containsOrderingKey blake3 transaction.orderingKey
        candidate.inclusionProof

/-- Condition (b): a batch is final at the sub-epoch after the target. -/
def conditionB (transaction : CgTransaction) (commitStark : CommitStark hash) :
    Bool :=
  commitStark.isFinalizedAtSubepoch (transaction.targetSubepochId + 1)

/-- `evaluate_cg_window`. -/
def evaluateCgWindow
    (transaction : CgTransaction)
    (view : CgView hash) : CgWindowOutcome :=
  if conditionA blake3 verifySignature transaction view.mcCandidates &&
      conditionB transaction view.commitStark then
    .valid
  else if transaction.targetSubepochId < view.currentSubepochId then
    .rejected
  else
    .pending

end Verdict

section Steps

variable
  (perm : T8Permutation)
  (verify :
    BatchTransferProof → TransferPublicClaims →
      Except BatchTransferError Unit)

/-- The ways in which a view changes. -/
inductive CgStep : CgView hash → CgView hash → Prop where
  /-- Time passes. -/
  | advance
      {view : CgView hash}
      {currentSubepochId : UInt64}
      (later : view.currentSubepochId ≤ currentSubepochId) :
      CgStep view { view with currentSubepochId }
  /-- Candidates come in. -/
  | candidates
      {view : CgView hash}
      {mcCandidates : List McCandidate}
      (grows : view.mcCandidates ⊆ mcCandidates) :
      CgStep view { view with mcCandidates }
  /-- A call of `commit_batch_transfer`. -/
  | commitBatch
      (view : CgView hash)
      (call : BatchCommit) :
      CgStep view
        { view with
          commitStark :=
            (view.commitStark.commitBatchTransfer perm verify call).1 }
  /-- A call of `commit_governance_vote`. -/
  | commitVote
      (view : CgView hash)
      (nodeIdFull proposalId : Bytes32) :
      CgStep view
        { view with
          commitStark :=
            (view.commitStark.commitGovernanceVote nodeIdFull proposalId).1 }

/-- One view after another in a run. -/
def CgRun : CgView hash → CgView hash → Prop :=
  Relation.ReflTransGen (CgStep perm verify)

end Steps

variable
  {blake3 : List UInt8 → Bytes32}
  {verifySignature : List UInt8 → List UInt8 → List UInt8 → Option Bool}
  {perm : T8Permutation}
  {verify :
    BatchTransferProof → TransferPublicClaims →
      Except BatchTransferError Unit}
  {transaction : CgTransaction}

/-- A view that knows at least as much as another one. -/
structure Extends (before after : CgView hash) : Prop where
  later : before.currentSubepochId ≤ after.currentSubepochId
  candidates : before.mcCandidates ⊆ after.mcCandidates
  finalized :
    before.commitStark.finalizedSubepochs ⊆
      after.commitStark.finalizedSubepochs

theorem Extends.refl (view : CgView hash) : Extends view view where
  later := UInt64.le_refl _
  candidates := List.Subset.refl _
  finalized := Finset.Subset.refl _

theorem Extends.trans
    {first second third : CgView hash}
    (before : Extends first second)
    (after : Extends second third) :
    Extends first third where
  later := UInt64.le_trans before.later after.later
  candidates := List.Subset.trans before.candidates after.candidates
  finalized := Finset.Subset.trans before.finalized after.finalized

/-- A successful batch makes its sub-epoch final, and no other. -/
theorem finalizedSubepochs_commitBatchTransfer
    {state : CommitStark hash}
    {call : BatchCommit}
    {level : FinalityLevel}
    (accepted :
      (state.commitBatchTransfer perm verify call).2 = .ok level) :
    (state.commitBatchTransfer perm verify call).1.finalizedSubepochs =
      insert call.subepochId state.finalizedSubepochs := by
  by_cases admissible : state.Admissible perm verify call
  · rw [CommitStark.commitBatchTransfer_of_admissible admissible]
  · rcases CommitStark.commitBatchTransfer_of_not_admissible admissible with
      ⟨error, refused⟩
    rw [refused] at accepted
    cases accepted

/-- No commit takes a finalised sub-epoch back. -/
theorem finalizedSubepochs_subset_commitBatchTransfer
    (state : CommitStark hash)
    (call : BatchCommit) :
    state.finalizedSubepochs ⊆
      (state.commitBatchTransfer perm verify call).1.finalizedSubepochs := by
  by_cases admissible : state.Admissible perm verify call
  · rw [CommitStark.commitBatchTransfer_of_admissible admissible]
    exact Finset.subset_insert _ _
  · rcases CommitStark.commitBatchTransfer_of_not_admissible admissible with
      ⟨error, refused⟩
    rw [refused]

/-- Every step extends the view. -/
theorem CgStep.extendsView
    {before after : CgView hash}
    (step : CgStep perm verify before after) :
    Extends before after := by
  cases step with
  | advance later =>
      exact ⟨later, List.Subset.refl _, Finset.Subset.refl _⟩
  | candidates grows =>
      exact ⟨UInt64.le_refl _, grows, Finset.Subset.refl _⟩
  | commitBatch call =>
      exact
        ⟨UInt64.le_refl _, List.Subset.refl _,
          finalizedSubepochs_subset_commitBatchTransfer _ _⟩
  | commitVote nodeIdFull proposalId =>
      refine ⟨UInt64.le_refl _, List.Subset.refl _, ?_⟩
      simp only [CommitStark.commitGovernanceVote]
      split <;> exact Finset.Subset.refl _

/-- A run extends the view. -/
theorem CgRun.extendsView
    {before after : CgView hash}
    (run : CgRun perm verify before after) :
    Extends before after := by
  induction run with
  | refl =>
      exact .refl before
  | tail _ step inductionHypothesis =>
      exact inductionHypothesis.trans step.extendsView

/-- Condition (a) stays met. -/
theorem Extends.conditionA
    {before after : CgView hash}
    (ext : Extends before after)
    (met :
      conditionA blake3 verifySignature transaction before.mcCandidates =
        true) :
    conditionA blake3 verifySignature transaction after.mcCandidates =
      true := by
  rw [CgWindow.conditionA, List.any_eq_true] at met ⊢
  rcases met with ⟨candidate, listed, holds⟩
  exact ⟨candidate, ext.candidates listed, holds⟩

/-- Condition (b) stays met. -/
theorem Extends.conditionB
    {before after : CgView hash}
    (ext : Extends before after)
    (met : conditionB transaction before.commitStark = true) :
    conditionB transaction after.commitStark = true := by
  rw [CgWindow.conditionB, CommitStark.isFinalizedAtSubepoch,
    decide_eq_true_eq] at met ⊢
  exact ext.finalized met

/-- The verdict is `Valid` exactly when both conditions are met. -/
theorem evaluateCgWindow_eq_valid_iff {view : CgView hash} :
    evaluateCgWindow blake3 verifySignature transaction view = .valid ↔
      conditionA blake3 verifySignature transaction view.mcCandidates = true ∧
        conditionB transaction view.commitStark = true := by
  rw [evaluateCgWindow, ← Bool.and_eq_true]
  split
  · simp [*]
  · split <;> simp [*]

/-- The verdict is `Rejected` when the window closed on an unmet condition. -/
theorem evaluateCgWindow_eq_rejected_iff {view : CgView hash} :
    evaluateCgWindow blake3 verifySignature transaction view = .rejected ↔
      ¬ (conditionA blake3 verifySignature transaction view.mcCandidates =
              true ∧
            conditionB transaction view.commitStark = true) ∧
        transaction.targetSubepochId < view.currentSubepochId := by
  rw [evaluateCgWindow, ← Bool.and_eq_true]
  split
  · simp [*]
  · split <;> simp [*]

/-- The view after a call of `commit_batch_transfer`. -/
def afterCommit
    (perm : T8Permutation)
    (verify :
      BatchTransferProof → TransferPublicClaims →
        Except BatchTransferError Unit)
    (view : CgView hash)
    (call : BatchCommit) : CgView hash :=
  { view with
    commitStark := (view.commitStark.commitBatchTransfer perm verify call).1 }

/-- How verdicts of one run follow each other. -/
structure VerdictsFollow
    (blake3 : List UInt8 → Bytes32)
    (verifySignature : List UInt8 → List UInt8 → List UInt8 → Option Bool)
    (transaction : CgTransaction)
    (before after : CgView hash) : Prop where
  /-- `Valid` is final. -/
  valid :
    evaluateCgWindow blake3 verifySignature transaction before = .valid →
    evaluateCgWindow blake3 verifySignature transaction after = .valid
  /-- `Rejected` stays until both conditions are met. -/
  rejected :
    evaluateCgWindow blake3 verifySignature transaction before = .rejected →
    evaluateCgWindow blake3 verifySignature transaction after =
      if conditionA blake3 verifySignature transaction after.mcCandidates &&
          conditionB transaction after.commitStark then
        .valid
      else
        .rejected

/--
Along every run `Valid` stays, and `Rejected` stays until both conditions are
met, which makes the verdict `Valid`.
-/
theorem verdictsFollow_of_run
    {before after : CgView hash}
    (run : CgRun perm verify before after) :
    VerdictsFollow blake3 verifySignature transaction before after where
  valid isValid := by
    rw [evaluateCgWindow_eq_valid_iff] at isValid ⊢
    exact
      ⟨run.extendsView.conditionA isValid.1, run.extendsView.conditionB isValid.2⟩
  rejected isRejected := by
    have closed := (evaluateCgWindow_eq_rejected_iff.mp isRejected).2
    have stillClosed :
        transaction.targetSubepochId < after.currentSubepochId :=
      UInt64.lt_of_lt_of_le closed run.extendsView.later
    rw [evaluateCgWindow, if_pos stillClosed]

/--
A successful batch that spends none of the nullifiers of a transaction which is
not valid.
-/
structure ForeignCommit
    (blake3 : List UInt8 → Bytes32)
    (verifySignature : List UInt8 → List UInt8 → List UInt8 → Option Bool)
    (perm : T8Permutation)
    (verify :
      BatchTransferProof → TransferPublicClaims →
        Except BatchTransferError Unit)
    (transaction : CgTransaction)
    (txNullifiers : List Bytes32)
    (view : CgView hash)
    (call : BatchCommit) : Prop where
  notValid :
    evaluateCgWindow blake3 verifySignature transaction view ≠ .valid
  accepted :
    (view.commitStark.commitBatchTransfer perm verify call).2 =
      .ok .starkFinal
  foreign : ∀ nullifier ∈ txNullifiers, nullifier ∉ call.nullifiers

/-- A successful batch meets condition (b) at the sub-epoch it names. -/
theorem conditionB_afterCommit
    {view : CgView hash}
    {call : BatchCommit}
    (accepted :
      (view.commitStark.commitBatchTransfer perm verify call).2 =
        .ok .starkFinal) :
    conditionB transaction (afterCommit perm verify view call).commitStark =
        true ↔
      call.subepochId = transaction.targetSubepochId + 1 ∨
        conditionB transaction view.commitStark = true := by
  simp only [conditionB, CommitStark.isFinalizedAtSubepoch, afterCommit,
    finalizedSubepochs_commitBatchTransfer accepted, decide_eq_true_eq,
    Finset.mem_insert]
  exact or_congr_left eq_comm

/--
A batch that spends none of the nullifiers of a transaction leaves it not valid
exactly when no quorumed commitment holds its key or the batch is not of the
sub-epoch after the target.
-/
theorem not_valid_afterCommit_iff
    {txNullifiers : List Bytes32}
    {view : CgView hash}
    {call : BatchCommit}
    (foreignCommit :
      ForeignCommit blake3 verifySignature perm verify transaction
        txNullifiers view call) :
    evaluateCgWindow blake3 verifySignature transaction
          (afterCommit perm verify view call) ≠
        .valid ↔
      conditionA blake3 verifySignature transaction view.mcCandidates =
          false ∨
        call.subepochId ≠ transaction.targetSubepochId + 1 := by
  have notBefore := foreignCommit.notValid
  rw [Ne, evaluateCgWindow_eq_valid_iff, not_and] at notBefore
  rw [Ne, evaluateCgWindow_eq_valid_iff,
    conditionB_afterCommit foreignCommit.accepted, not_and_or, not_or,
    Bool.not_eq_true]
  change
    conditionA blake3 verifySignature transaction view.mcCandidates = false ∨
        _ ↔ _
  constructor
  · rintro (unmet | ⟨otherSubepoch, _⟩)
    · exact .inl unmet
    · exact .inr otherSubepoch
  · rintro (unmet | otherSubepoch)
    · exact .inl unmet
    · by_cases met :
          conditionA blake3 verifySignature transaction view.mcCandidates =
            true
      · exact .inr ⟨otherSubepoch, notBefore met⟩
      · exact .inl (Bool.not_eq_true _ ▸ met)

/-- The hash that is zero everywhere. -/
def zeroHash : List UInt8 → Bytes32 :=
  fun _ => Bytes32.zero

/-- Seven validators, whose signatures are all valid. -/
def acceptSignature : List UInt8 → List UInt8 → List UInt8 → Option Bool :=
  fun _ _ _ => some true

/-- The transaction of the first sub-epoch. -/
def sampleTransaction : CgTransaction where
  orderingKey := Bytes32.endingIn 9
  targetSubepochId := 0
  validatorSet := [1, 2, 3, 4, 5, 6, 7].map fun id => (Bytes32.endingIn id, [])

/-- A commitment of the first sub-epoch to one key, signed by five. -/
def sampleCandidate : McCandidate where
  mc := {
    subepochId := 0
    mcSequenceId := 0
    txMerkleRoot := mcMerkleLeaf zeroHash (Bytes32.endingIn 9)
    daCommitment := Bytes32.zero
    aggregatorId := Bytes32.endingIn 1
    quorumSignatures := [1, 2, 3, 4, 5].map fun id => (Bytes32.endingIn id, []) }
  inclusionProof := { siblings := [] }

/-- The second sub-epoch, nothing final yet. -/
def sampleView (mcCandidates : List McCandidate) : CgView symbolicSmtHash where
  currentSubepochId := 1
  mcCandidates
  commitStark := CommitStark.new symbolicSmtHash

/-- The view after a batch that spends one nullifier in the second sub-epoch. -/
def sampleViewAfter (mcCandidates : List McCandidate) :
    CgView symbolicSmtHash :=
  afterCommit VerifierPy.t8Permutation CommitStark.acceptEvery
    (sampleView mcCandidates)
    (CommitStark.sampleCommit VerifierPy.t8Permutation [0])

/-- The batch passes the checks. -/
theorem sampleCommit_accepted (mcCandidates : List McCandidate) :
    ((sampleView mcCandidates).commitStark.commitBatchTransfer
        VerifierPy.t8Permutation CommitStark.acceptEvery
        (CommitStark.sampleCommit VerifierPy.t8Permutation [0])).2 =
      .ok .starkFinal := by
  rw [CommitStark.commitBatchTransfer_of_admissible]
  apply CommitStark.admissible_sampleCommit
  intro word _
  exact NullifierSet.isSpent_newWithWal _ _

/-- The verdicts of the sample run. -/
theorem evaluateCgWindow_sample :
    evaluateCgWindow zeroHash acceptSignature sampleTransaction
          (sampleView [sampleCandidate]) =
        .rejected ∧
      evaluateCgWindow zeroHash acceptSignature sampleTransaction
          (sampleViewAfter [sampleCandidate]) =
        .valid := by
  have metA :
      conditionA zeroHash acceptSignature sampleTransaction
        [sampleCandidate] = true := by
    decide
  constructor
  · rw [evaluateCgWindow_eq_rejected_iff]
    refine ⟨fun met => ?_, by decide⟩
    exact absurd met.2 (by decide)
  · rw [evaluateCgWindow_eq_valid_iff]
    refine ⟨metA, ?_⟩
    rw [sampleViewAfter,
      conditionB_afterCommit (sampleCommit_accepted [sampleCandidate])]
    exact .inl rfl

/-- Without candidates the sample batch leaves the verdict at `Rejected`. -/
theorem verdictsFollow_sample :
    VerdictsFollow zeroHash acceptSignature sampleTransaction
      (sampleView []) (sampleViewAfter []) := by
  have run :
      CgRun VerifierPy.t8Permutation CommitStark.acceptEvery (sampleView [])
        (sampleViewAfter []) :=
    Relation.ReflTransGen.single (CgStep.commitBatch _ _)
  exact verdictsFollow_of_run run

/-- A rejected transaction becomes valid when its batch arrives later. -/
theorem rejected_not_final :
    ∃ before after : CgView symbolicSmtHash,
      CgRun VerifierPy.t8Permutation CommitStark.acceptEvery before after ∧
        evaluateCgWindow zeroHash acceptSignature sampleTransaction before =
          .rejected ∧
        evaluateCgWindow zeroHash acceptSignature sampleTransaction after =
          .valid :=
  ⟨sampleView [sampleCandidate], sampleViewAfter [sampleCandidate],
    Relation.ReflTransGen.single (CgStep.commitBatch _ _),
    evaluateCgWindow_sample⟩

/-- The sample batch spends none of the nullifiers of the transaction. -/
theorem foreignCommit_sample
    {mcCandidates : List McCandidate}
    (notValid :
      evaluateCgWindow zeroHash acceptSignature sampleTransaction
          (sampleView mcCandidates) ≠
        .valid) :
    ForeignCommit zeroHash acceptSignature VerifierPy.t8Permutation
      CommitStark.acceptEvery sampleTransaction [Bytes32.endingIn 7]
      (sampleView mcCandidates)
      (CommitStark.sampleCommit VerifierPy.t8Permutation [0]) where
  notValid := notValid
  accepted := sampleCommit_accepted mcCandidates
  foreign := by decide

/-- Without candidates a batch of others does not make the verdict valid. -/
theorem not_valid_afterCommit_sample :
    evaluateCgWindow zeroHash acceptSignature sampleTransaction
        (sampleViewAfter []) ≠
      .valid :=
  (not_valid_afterCommit_iff (foreignCommit_sample (by decide))).mpr
    (.inl rfl)

/-- A batch that spends the zero nullifier makes another transaction valid. -/
theorem valid_through_foreign_commit :
    ∃ (view : CgView symbolicSmtHash) (call : BatchCommit),
      ForeignCommit zeroHash acceptSignature VerifierPy.t8Permutation
          CommitStark.acceptEvery sampleTransaction [Bytes32.endingIn 7] view
          call ∧
        evaluateCgWindow zeroHash acceptSignature sampleTransaction
            (afterCommit VerifierPy.t8Permutation CommitStark.acceptEvery view
              call) =
          .valid := by
  have notValid :
      evaluateCgWindow zeroHash acceptSignature sampleTransaction
          (sampleView [sampleCandidate]) ≠
        .valid := by
    rw [evaluateCgWindow_sample.1]
    decide
  exact
    ⟨sampleView [sampleCandidate],
      CommitStark.sampleCommit VerifierPy.t8Permutation [0],
      foreignCommit_sample notValid, evaluateCgWindow_sample.2⟩

end CgWindow

end ScalarCore
