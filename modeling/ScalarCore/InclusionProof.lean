import ScalarCore.Bytes
import ScalarCore.MachineInt
import Mathlib.Data.Set.Function

namespace ScalarCore

/-!
# Proof of inclusion

An aggregator loses its reward for a batch when a known transaction waited too long and is
not in the batch.  The claim of the aggregator holds a hash of the transactions that are in
the batch; whichever list is shown for it, the verdict is the same.
-/

open MachineInt

/-- `T_MAX_WAIT_MS`. -/
def tMaxWaitMs : UInt64 :=
  1800000

/-- `PoolTx`. -/
structure PoolTx where
  txId : Bytes32
  entryTimestampMs : UInt64
  deriving DecidableEq

/-- `InclusionClaim`. -/
structure InclusionClaim where
  txListHash : Bytes32
  batchTimestampMs : UInt64
  aggregatorId : Bytes32
  deriving DecidableEq

/-- `InclusionVerdict`. -/
inductive InclusionVerdict where
  | valid
  | excludedEligibleTx (excludedCount : Nat)
  deriving DecidableEq

/-- What `compute_tx_list_hash` hashes. -/
def txListMessage (includedTxIds : List Bytes32) : List UInt8 :=
  includedTxIds.mergeSort.flatMap Bytes32.bytes

/-- `compute_tx_list_hash`. -/
def computeTxListHash
    (blake3 : List UInt8 → Bytes32)
    (includedTxIds : List Bytes32) : Bytes32 :=
  blake3 (txListMessage includedTxIds)

/-- `verify_inclusion`. -/
def verifyInclusion
    (claim : InclusionClaim)
    (knownPool : List PoolTx)
    (includedTxIds : List Bytes32)
    (maxWaitMs : UInt64) : InclusionVerdict :=
  let threshold := saturatingSub claim.batchTimestampMs maxWaitMs
  let eligible := knownPool.filter fun tx => tx.entryTimestampMs < threshold
  let excludedCount := (eligible.filter fun tx => tx.txId ∉ includedTxIds).length
  if excludedCount > 0 then
    .excludedEligibleTx excludedCount
  else
    .valid

/-- `verify_tx_list_hash`. -/
def verifyTxListHash
    (blake3 : List UInt8 → Bytes32)
    (claim : InclusionClaim)
    (includedTxIds : List Bytes32) : Bool :=
  computeTxListHash blake3 includedTxIds = claim.txListHash

namespace InclusionClaim

variable {claim : InclusionClaim} {maxWaitMs : UInt64} {tx : PoolTx}

/-- A transaction waited longer than it may, when the batch was made. -/
def Overdue (claim : InclusionClaim) (maxWaitMs : UInt64) (tx : PoolTx) : Prop :=
  tx.entryTimestampMs.toNat + maxWaitMs.toNat < claim.batchTimestampMs.toNat

instance (claim : InclusionClaim) (maxWaitMs : UInt64) (tx : PoolTx) :
    Decidable (claim.Overdue maxWaitMs tx) :=
  inferInstanceAs (Decidable (_ < _))

/-- The threshold tells which transactions are overdue. -/
theorem lt_threshold_iff :
    tx.entryTimestampMs < saturatingSub claim.batchTimestampMs maxWaitMs ↔
      claim.Overdue maxWaitMs tx := by
  rw [UInt64.lt_iff_toNat_lt, toNat_saturatingSub, Overdue]
  omega

/-- The known transactions that are overdue and not included. -/
def excluded
    (claim : InclusionClaim)
    (knownPool : List PoolTx)
    (includedTxIds : List Bytes32)
    (maxWaitMs : UInt64) : List PoolTx :=
  knownPool.filter fun tx => claim.Overdue maxWaitMs tx ∧ tx.txId ∉ includedTxIds

/-- The verdict counts the transactions that are overdue and not included. -/
theorem verifyInclusion_eq (knownPool : List PoolTx) (includedTxIds : List Bytes32) :
    verifyInclusion claim knownPool includedTxIds maxWaitMs =
      if claim.excluded knownPool includedTxIds maxWaitMs = [] then
        .valid
      else
        .excludedEligibleTx (claim.excluded knownPool includedTxIds maxWaitMs).length := by
  have same :
      (knownPool.filter fun tx =>
            tx.entryTimestampMs < saturatingSub claim.batchTimestampMs maxWaitMs).filter
          (fun tx => tx.txId ∉ includedTxIds) =
        claim.excluded knownPool includedTxIds maxWaitMs := by
    rw [excluded, List.filter_filter]
    refine List.filter_congr fun tx _ => ?_
    rw [Bool.eq_iff_iff, Bool.and_eq_true, decide_eq_true_iff, decide_eq_true_iff,
      decide_eq_true_iff, lt_threshold_iff, and_comm]
  rw [verifyInclusion, same]
  by_cases none : claim.excluded knownPool includedTxIds maxWaitMs = []
  · rw [if_pos none, none]
    rfl
  · rw [if_neg none, if_pos (List.length_pos_iff.mpr none)]

/-- The verdict is valid when every overdue transaction is included. -/
theorem verifyInclusion_eq_valid_iff
    {knownPool : List PoolTx}
    {includedTxIds : List Bytes32} :
    verifyInclusion claim knownPool includedTxIds maxWaitMs = .valid ↔
      ∀ tx ∈ knownPool, claim.Overdue maxWaitMs tx → tx.txId ∈ includedTxIds := by
  have noneExcluded :
      claim.excluded knownPool includedTxIds maxWaitMs = [] ↔
        ∀ tx ∈ knownPool, claim.Overdue maxWaitMs tx → tx.txId ∈ includedTxIds := by
    rw [excluded, List.filter_eq_nil_iff]
    simp only [decide_eq_true_iff, not_and, not_not]
  rw [verifyInclusion_eq]
  split
  · rename_i none
    exact iff_of_true rfl (noneExcluded.mp none)
  · rename_i some
    exact iff_of_false InclusionVerdict.noConfusion (mt noneExcluded.mpr some)

/-- Lists of the same transactions are judged alike. -/
theorem excluded_congr
    {knownPool : List PoolTx}
    {includedTxIds others : List Bytes32}
    (same : ∀ txId, txId ∈ includedTxIds ↔ txId ∈ others) :
    claim.excluded knownPool includedTxIds maxWaitMs =
      claim.excluded knownPool others maxWaitMs := by
  refine List.filter_congr fun tx _ => ?_
  exact decide_eq_decide.mpr (and_congr_right fun _ => not_congr (same tx.txId))

/-- The message tells the transactions apart from their order. -/
theorem txListMessage_eq_iff {includedTxIds others : List Bytes32} :
    txListMessage includedTxIds = txListMessage others ↔ includedTxIds.Perm others := by
  constructor
  · intro same
    have sorted := Bytes32.flatMap_bytes_injective same
    exact
      (List.mergeSort_perm includedTxIds _).symm.trans
        (sorted ▸ List.mergeSort_perm others _)
  · intro reordered
    rw [txListMessage, txListMessage, mergeSort_eq_of_perm reordered]

/-- Every id adds 32 bytes to the message. -/
theorem length_txListMessage (includedTxIds : List Bytes32) :
    (txListMessage includedTxIds).length = 32 * includedTxIds.length := by
  have lengths :
      (includedTxIds.mergeSort.map fun txId => txId.bytes.length) =
        List.replicate includedTxIds.length 32 := by
    rw [← List.length_mergeSort includedTxIds, ← List.map_const']
    exact List.map_congr_left fun txId _ => txId.length_eq
  rw [txListMessage, List.length_flatMap, lengths, List.sum_replicate_nat, Nat.mul_comm]

/-- What a claim commits its aggregator to. -/
structure Commits
    (blake3 : List UInt8 → Bytes32)
    (claim : InclusionClaim)
    (knownPool : List PoolTx)
    (maxWaitMs : UInt64)
    (shown : List (List Bytes32)) : Prop where
  judges :
    ∀ includedTxIds,
      verifyInclusion claim knownPool includedTxIds maxWaitMs = .valid ↔
        ∀ tx ∈ knownPool, claim.Overdue maxWaitMs tx → tx.txId ∈ includedTxIds
  counts :
    ∀ includedTxIds excludedCount,
      verifyInclusion claim knownPool includedTxIds maxWaitMs =
          .excludedEligibleTx excludedCount ↔
        excludedCount ≠ 0 ∧
          knownPool.countP (fun tx =>
            claim.Overdue maxWaitMs tx ∧ tx.txId ∉ includedTxIds) = excludedCount
  learns :
    ∀ includedTxIds others,
      verifyInclusion claim (knownPool ++ others) includedTxIds maxWaitMs = .valid →
      verifyInclusion claim knownPool includedTxIds maxWaitMs = .valid
  reordered :
    ∀ includedTxIds others,
      includedTxIds.Perm others →
      verifyTxListHash blake3 claim includedTxIds = verifyTxListHash blake3 claim others
  binds :
    ∀ includedTxIds ∈ shown, ∀ others ∈ shown,
      verifyTxListHash blake3 claim includedTxIds = true →
      verifyTxListHash blake3 claim others = true →
      includedTxIds.Perm others ∧
        verifyInclusion claim knownPool includedTxIds maxWaitMs =
          verifyInclusion claim knownPool others maxWaitMs

/--
The verdict is valid exactly when each known transaction that waited longer than it may is
in the batch, and otherwise counts those that are not; who knows more transactions is not
more lenient.  Lists that are shown for one claim, where their hashes do not collide, are
the same up to their order and get the same verdict.
-/
theorem claim_commits
    {blake3 : List UInt8 → Bytes32}
    {shown : List (List Bytes32)}
    (collisionFree : Set.InjOn blake3 {message | ∃ list ∈ shown, txListMessage list = message})
    (claim : InclusionClaim)
    (knownPool : List PoolTx)
    (maxWaitMs : UInt64) :
    Commits blake3 claim knownPool maxWaitMs shown := by
  refine
    { judges := fun includedTxIds => verifyInclusion_eq_valid_iff
      counts := fun includedTxIds excludedCount => ?_
      learns := fun includedTxIds others isValid => ?_
      reordered := fun includedTxIds others reordered => ?_
      binds := fun includedTxIds listed others alsoListed verified alsoVerified => ?_ }
  · rw [verifyInclusion_eq, List.countP_eq_length_filter, ← excluded]
    split
    · rename_i none
      rw [none]
      refine iff_of_false InclusionVerdict.noConfusion ?_
      rintro ⟨positive, isZero⟩
      exact positive isZero.symm
    · rename_i some
      rw [InclusionVerdict.excludedEligibleTx.injEq]
      constructor
      · intro isCount
        exact ⟨isCount ▸ (List.length_pos_iff.mpr some).ne', isCount⟩
      · exact And.right
  · rw [verifyInclusion_eq_valid_iff] at isValid ⊢
    exact fun tx known => isValid tx (List.mem_append_left _ known)
  · rw [verifyTxListHash, verifyTxListHash, computeTxListHash, computeTxListHash,
      txListMessage_eq_iff.mpr reordered]
  · have sameHash : blake3 (txListMessage includedTxIds) = blake3 (txListMessage others) :=
      (of_decide_eq_true verified).trans (of_decide_eq_true alsoVerified).symm
    have perm :=
      txListMessage_eq_iff.mp
        (collisionFree ⟨includedTxIds, listed, rfl⟩ ⟨others, alsoListed, rfl⟩ sameHash)
    refine ⟨perm, ?_⟩
    rw [verifyInclusion_eq, verifyInclusion_eq, excluded_congr fun _ => perm.mem_iff]

/-- A claim for two transactions, hashed to the length of their ids. -/
def sampleClaim : InclusionClaim where
  txListHash := Bytes32.endingIn 64
  batchTimestampMs := 10000000
  aggregatorId := Bytes32.zero

/-- The two transactions are shown in both orders, and another list beside them. -/
theorem claim_commits_two :
    Commits (fun message => Bytes32.endingIn (UInt8.ofNat message.length)) sampleClaim
      [⟨Bytes32.endingIn 1, 8199999⟩, ⟨Bytes32.endingIn 3, 8200000⟩] tMaxWaitMs
      [[Bytes32.endingIn 1, Bytes32.endingIn 2], [Bytes32.endingIn 2, Bytes32.endingIn 1],
        [Bytes32.endingIn 3]] := by
  refine claim_commits ?_ sampleClaim _ tMaxWaitMs
  have distinct :
      ∀ list ∈ [[Bytes32.endingIn 1, Bytes32.endingIn 2],
          [Bytes32.endingIn 2, Bytes32.endingIn 1], [Bytes32.endingIn 3]],
        ∀ other ∈ [[Bytes32.endingIn 1, Bytes32.endingIn 2],
            [Bytes32.endingIn 2, Bytes32.endingIn 1], [Bytes32.endingIn 3]],
          Bytes32.endingIn (UInt8.ofNat (32 * list.length)) =
              Bytes32.endingIn (UInt8.ofNat (32 * other.length)) →
            list.Perm other := by
    decide
  rintro _ ⟨list, listed, rfl⟩ _ ⟨other, alsoListed, rfl⟩ same
  simp only [length_txListMessage] at same
  exact txListMessage_eq_iff.mpr (distinct list listed other alsoListed same)

end InclusionClaim

end ScalarCore
