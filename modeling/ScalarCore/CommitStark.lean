import ScalarCore.BatchTransfer
import ScalarCore.NullifierZeroGap

namespace ScalarCore

/-!
# Level-2 commits

A batch is final once its nullifiers are checked and set in one step.  The
checks come first: the nullifiers are those of the claims, the four proofs
verify, and none of the nullifiers has been used.  Only then are they entered.

The verifier of the proofs is a parameter.
-/

open BatchTransfer FallibleChecks OwnershipAir

/-- Finality of a commit. -/
inductive FinalityLevel where
  | none
  | optimistic
  | starkFinal
  deriving Repr, DecidableEq

/-- Errors of a commit. -/
inductive CommitStarkError where
  | nullifierBindingMismatch
  | nullifierCountMismatch (supplied expected : Nat)
  | proofVerificationFailed (error : BatchTransferError)
  | doubleSpendDetected (conflicts total : Nat)
  | governanceVoteAlreadyFinalized

/-- The four words of a nullifier as bytes. -/
def nullifierToBytes (words : Digest4) : Bytes32 :=
  Bytes32.ofLimbs words

/-- The state of Level 2. -/
structure CommitStark
    {Digest : Type}
    [DecidableEq Digest]
    (hash : SmtHash Digest) where
  nullifierSet : NullifierSet hash (Option WalEntry)
  finalizedSubepochs : Finset UInt64
  finalizedVotes : Finset (Bytes32 × Bytes32)

/-- The arguments of `commit_batch_transfer`. -/
structure BatchCommit where
  subepochId : UInt64
  epochId : UInt64
  proof : BatchTransferProof
  claims : TransferPublicClaims
  nullifiers : List Bytes32

namespace CommitStark

variable {Digest : Type} [DecidableEq Digest] {hash : SmtHash Digest}

variable (hash) in
/-- Nothing finalised. -/
def new : CommitStark hash where
  nullifierSet := .newWithWal hash none
  finalizedSubepochs := ∅
  finalizedVotes := ∅

/-- Whether a sub-epoch has a finalised batch. -/
def isFinalizedAtSubepoch (state : CommitStark hash) (subepochId : UInt64) :
    Bool :=
  decide (subepochId ∈ state.finalizedSubepochs)

section Batches

variable (perm : T8Permutation)
  (verify :
    BatchTransferProof → TransferPublicClaims →
      Except BatchTransferError Unit)

/-- The checks of `commit_batch_transfer`, before it writes anything. -/
def checkBatch
    (state : CommitStark hash)
    (call : BatchCommit) :
    Except CommitStarkError Unit :=
  if call.nullifiers.length ≠ call.claims.ownershipClaims.length then
    .error (.nullifierCountMismatch call.nullifiers.length
      call.claims.ownershipClaims.length)
  else if computeNullifierHash perm call.nullifiers ≠
      call.claims.pi.nullifierHash then
    .error .nullifierBindingMismatch
  else if ∃ pair ∈ call.nullifiers.zip call.claims.ownershipClaims,
      pair.1 ≠ nullifierToBytes pair.2.expectedNullifier then
    .error .nullifierBindingMismatch
  else do
    (verify call.proof call.claims).mapError .proofVerificationFailed
    let conflicts :=
      (call.nullifiers.filter state.nullifierSet.isSpent).length
    if conflicts > 0 then
      .error (.doubleSpendDetected conflicts call.nullifiers.length)
    else
      .ok ()

/-- Enter nullifiers one after the other. -/
def insertAll
    (set : NullifierSet hash (Option WalEntry))
    (epochId : UInt64)
    (nullifiers : List Bytes32) :
    NullifierSet hash (Option WalEntry) :=
  nullifiers.foldl (fun set nullifier => set.insert nullifier epochId) set

/-- `commit_batch_transfer`. -/
def commitBatchTransfer
    (state : CommitStark hash)
    (call : BatchCommit) :
    CommitStark hash × Except CommitStarkError FinalityLevel :=
  match state.checkBatch perm verify call with
  | .error error => (state, .error error)
  | .ok () =>
      ({ state with
          nullifierSet :=
            insertAll state.nullifierSet call.epochId call.nullifiers
          finalizedSubepochs :=
            insert call.subepochId state.finalizedSubepochs },
        .ok .starkFinal)

/-- A batch that passes the checks. -/
structure Admissible
    (state : CommitStark hash)
    (call : BatchCommit) : Prop where
  claimed :
    call.nullifiers =
      call.claims.ownershipClaims.map fun claim =>
        nullifierToBytes claim.expectedNullifier
  bound :
    computeNullifierHash perm call.nullifiers = call.claims.pi.nullifierHash
  verified : verify call.proof call.claims = .ok ()
  unspent :
    ∀ nullifier ∈ call.nullifiers,
      state.nullifierSet.isSpent nullifier = false

end Batches

/-- Record the vote of a node on a proposal, unless it is recorded. -/
def commitGovernanceVote
    (state : CommitStark hash)
    (nodeIdFull proposalId : Bytes32) :
    CommitStark hash × Except CommitStarkError FinalityLevel :=
  if (nodeIdFull, proposalId) ∈ state.finalizedVotes then
    (state, .error .governanceVoteAlreadyFinalized)
  else
    ({ state with
        finalizedVotes :=
          insert (nodeIdFull, proposalId) state.finalizedVotes },
      .ok .starkFinal)

/-- Whether a vote is recorded. -/
def isVoteFinalized
    (state : CommitStark hash)
    (nodeIdFull proposalId : Bytes32) : Bool :=
  decide ((nodeIdFull, proposalId) ∈ state.finalizedVotes)

variable {perm : T8Permutation}
  {verify :
    BatchTransferProof → TransferPublicClaims →
      Except BatchTransferError Unit}
  {state : CommitStark hash} {call : BatchCommit}

/-- The cross-check compares two lists of nullifiers. -/
theorem nullifiers_eq_iff
    {nullifiers : List Bytes32}
    {claims : List OwnershipPublicClaim} :
    nullifiers =
        claims.map (fun claim => nullifierToBytes claim.expectedNullifier) ↔
      nullifiers.length = claims.length ∧
        ∀ pair ∈ nullifiers.zip claims,
          pair.1 = nullifierToBytes pair.2.expectedNullifier := by
  rw [← List.forall₂_eq_eq_eq, List.forall₂_map_right_iff,
    List.forall₂_iff_zip]
  constructor
  · rintro ⟨sameLength, agree⟩
    exact ⟨sameLength, fun pair listed => agree listed⟩
  · rintro ⟨sameLength, agree⟩
    exact ⟨sameLength, fun listed => agree _ listed⟩

/-- The checks pass exactly for the admissible batches. -/
theorem checkBatch_eq_ok_iff :
    state.checkBatch perm verify call = .ok () ↔
      state.Admissible perm verify call := by
  have noConflict :
      ¬(call.nullifiers.filter state.nullifierSet.isSpent).length > 0 ↔
        ∀ nullifier ∈ call.nullifiers,
          state.nullifierSet.isSpent nullifier = false := by
    rw [gt_iff_lt, List.length_pos_iff, not_not, List.filter_eq_nil_iff]
    simp only [Bool.not_eq_true]
  simp only [checkBatch, ite_error_eq_ok_iff, unit_bind_eq_ok_iff,
    mapError_eq_ok_iff, not_not, not_exists, not_and, and_true, noConflict]
  constructor
  · rintro ⟨count, bound, agree, verified, unspent⟩
    exact {
      claimed := nullifiers_eq_iff.mpr ⟨count, agree⟩
      bound := bound
      verified := verified
      unspent := unspent
    }
  · rintro ⟨claimed, bound, verified, unspent⟩
    obtain ⟨count, agree⟩ := nullifiers_eq_iff.mp claimed
    exact ⟨count, bound, agree, verified, unspent⟩

/-- An admissible batch is entered and final. -/
theorem commitBatchTransfer_of_admissible
    (admissible : state.Admissible perm verify call) :
    state.commitBatchTransfer perm verify call =
      ({ state with
          nullifierSet :=
            insertAll state.nullifierSet call.epochId call.nullifiers
          finalizedSubepochs :=
            insert call.subepochId state.finalizedSubepochs },
        .ok .starkFinal) := by
  rw [commitBatchTransfer, checkBatch_eq_ok_iff.mpr admissible]

/-- Any other batch is refused and changes nothing. -/
theorem commitBatchTransfer_of_not_admissible
    (inadmissible : ¬ state.Admissible perm verify call) :
    ∃ error,
      state.commitBatchTransfer perm verify call = (state, .error error) := by
  unfold commitBatchTransfer
  cases checked : state.checkBatch perm verify call with
  | error error =>
      exact ⟨error, rfl⟩
  | ok result =>
      exact absurd (checkBatch_eq_ok_iff.mp checked) inadmissible

/-- Entering nullifiers spends them and no others. -/
theorem isSpent_insertAll
    (set : NullifierSet hash (Option WalEntry))
    (epochId : UInt64)
    (nullifiers : List Bytes32)
    (other : Bytes32) :
    (insertAll set epochId nullifiers).isSpent other =
      (set.isSpent other || decide (other ∈ nullifiers)) := by
  induction nullifiers generalizing set with
  | nil =>
      simp [insertAll]
  | cons nullifier rest inductionHypothesis =>
      have entered :
          insertAll set epochId (nullifier :: rest) =
            insertAll (set.insert nullifier epochId) epochId rest :=
        rfl
      rw [entered, inductionHypothesis, NullifierSet.isSpent_insert,
        Bool.or_assoc, ← Bool.decide_or]
      simp only [List.mem_cons]

end CommitStark

end ScalarCore
