import ScalarCore.BestScan
import ScalarCore.MachineInt
import ScalarCore.Poseidon2Pair

namespace ScalarCore

/-!
# Winner and fairness transaction of a batch

Aggregators announce the batch they prove; the one of least tie-break score
wins.  A fairness slot takes the transaction of least score.  Both answer the
first item of least key in the order in which the items were received, and
neither breaks ties: an announcement enters its score with eight bytes of the
node id modulo the prime, and transactions often have one score.

The sum of the input and output counts is a 32-bit one; where it overflows
there is no result.
-/

open BestScan MachineInt PairHash

/-- `SCORE_FP_BASIS`. -/
def scoreFpBasis : Nat :=
  1000000

/-- A transaction of a batch. -/
structure TxForBatch where
  txId : Bytes32
  premium : UInt64
  numInputs : UInt32
  numOutputs : UInt32
  feeTotal : UInt64
  deriving DecidableEq

/-- `compute_score_fp`, in 128-bit words. -/
def computeScoreFp (tx : TxForBatch) : Option Nat := do
  let ioSum ← checkedAddU32 tx.numInputs tx.numOutputs
  let complexityWeightFp := 1000000 + ioSum.toNat * 100000
  return (checkedDiv128 (saturatingMul128 tx.premium.toNat scoreFpBasis)
    complexityWeightFp).getD 0

/-- The announcement of a batch. -/
structure BatchAnnouncement where
  batchRoot : Bytes32
  nodeId : Bytes32
  timestamp : UInt64
  deriving DecidableEq

/-- `tiebreak_score`. -/
def tiebreakScore (hash : PairHash) (ann : BatchAnnouncement) : UInt64 :=
  let batchRootLo := ann.batchRoot.limb 0
  let nodeIdLo := ann.nodeId.limb 0
  hash.hash2To1 batchRootLo nodeIdLo

/-- `select_winner`. -/
def selectWinner
    (hash : PairHash)
    (announcements : List BatchAnnouncement) : Option BatchAnnouncement :=
  minByKey (fun ann => (tiebreakScore hash ann).toNat) announcements

/-- A transaction with its score. -/
def scored (tx : TxForBatch) : Option (Nat × TxForBatch) :=
  (computeScoreFp tx).map fun score => (score, tx)

/-- `fairness_tx`: every score is computed. -/
def fairnessTx (txPool : List TxForBatch) : Option (Option TxForBatch) := do
  let keyed ← txPool.mapM scored
  return (minByKey Prod.fst keyed).map Prod.snd

/-- One node id wins for every order of the announcements. -/
def WinnerAgrees
    (hash : PairHash)
    (announcements : List BatchAnnouncement) : Prop :=
  ∃ winner,
    ∀ received,
      announcements.Perm received →
      (selectWinner hash received).map BatchAnnouncement.nodeId = some winner

/-- One transaction, or none, is taken for every order of the pool. -/
def FairnessAgrees (txPool : List TxForBatch) : Prop :=
  ∃ taken : Option Bytes32,
    ∀ received,
      txPool.Perm received →
      (fairnessTx received).map (Option.map TxForBatch.txId) = some taken

/-- No other node id has the first word of a winner's, modulo the prime. -/
def WinningWordsUnique
    (hash : PairHash)
    (announcements : List BatchAnnouncement) : Prop :=
  ∀ ann ∈ announcements,
    (∀ other ∈ announcements,
      tiebreakScore hash ann ≤ tiebreakScore hash other) →
    ∀ other ∈ announcements,
      fieldReduce (other.nodeId.limb 0) = fieldReduce (ann.nodeId.limb 0) →
      other.nodeId = ann.nodeId

/-- The score of a transaction, where it can be computed. -/
def scoreOf (tx : TxForBatch) : Nat :=
  (computeScoreFp tx).getD 0

/-- Every score can be computed, and one transaction has the least. -/
structure LeastScoreUnique (txPool : List TxForBatch) : Prop where
  fits :
    ∀ tx ∈ txPool, tx.numInputs.toNat + tx.numOutputs.toNat ≤ maxU32
  unique : LeastAgree scoreOf TxForBatch.txId txPool

/-!
## Announcements
-/

section Announcements

variable {hash : PairHash} {announcements : List BatchAnnouncement}

/-- The pairs that are hashed for the announcements. -/
def announcedPairs
    (announcements : List BatchAnnouncement) : List (UInt64 × UInt64) :=
  announcements.map fun ann =>
    hashedPair (ann.batchRoot.limb 0) (ann.nodeId.limb 0)

/-- For one batch, equal scores are equal words of the node ids. -/
theorem tiebreakScore_eq_iff
    (sameRoot :
      ∀ ann ∈ announcements, ∀ other ∈ announcements,
        ann.batchRoot = other.batchRoot)
    (collisionFree : hash.InjectiveOn (announcedPairs announcements))
    {ann other : BatchAnnouncement}
    (listed : ann ∈ announcements)
    (listed' : other ∈ announcements) :
    tiebreakScore hash ann = tiebreakScore hash other ↔
      fieldReduce (ann.nodeId.limb 0) = fieldReduce (other.nodeId.limb 0) := by
  rw [tiebreakScore, tiebreakScore,
    collisionFree.hash2To1_eq_iff (List.mem_map_of_mem listed)
      (List.mem_map_of_mem listed'),
    sameRoot ann listed other listed']
  exact and_iff_right rfl

/-- The winner is settled exactly when the winning words are. -/
theorem winnerAgrees_iff
    (nonempty : announcements ≠ [])
    (sameRoot :
      ∀ ann ∈ announcements, ∀ other ∈ announcements,
        ann.batchRoot = other.batchRoot)
    (collisionFree : hash.InjectiveOn (announcedPairs announcements)) :
    WinnerAgrees hash announcements ↔
      WinningWordsUnique hash announcements := by
  have agrees_iff :
      WinnerAgrees hash announcements ↔
        LeastAgree (fun ann => (tiebreakScore hash ann).toNat)
          BatchAnnouncement.nodeId announcements := by
    rw [← label_minByKey_perm_iff]
    constructor
    · rintro ⟨winner, always⟩ received reordered
      exact
        (always received reordered).trans
          (always announcements (.refl _)).symm
    · intro always
      cases found : selectWinner hash announcements with
      | none =>
          exact absurd (minByKey_eq_none_iff.mp found) nonempty
      | some ann =>
          refine ⟨ann.nodeId, fun received reordered => ?_⟩
          exact (always received reordered).trans (congrArg _ found)
  rw [agrees_iff]
  apply forall₂_congr
  intro ann listed
  simp only [UInt64.le_iff_toNat_le]
  apply forall_congr'
  intro _
  apply forall₂_congr
  intro other listed'
  rw [UInt64.toNat_inj,
    tiebreakScore_eq_iff sameRoot collisionFree listed' listed]

end Announcements

/-!
## The transaction of a fairness slot
-/

section Fairness

variable {txPool : List TxForBatch}

/-- A score is computed unless the counts overflow. -/
theorem isSome_computeScoreFp (tx : TxForBatch) :
    (computeScoreFp tx).isSome = true ↔
      tx.numInputs.toNat + tx.numOutputs.toNat ≤ maxU32 := by
  rw [← isSome_checkedAddU32, computeScoreFp]
  cases checkedAddU32 tx.numInputs tx.numOutputs with
  | none =>
      rfl
  | some ioSum =>
      rfl

/-- Scoring a pool scores each transaction, or fails. -/
theorem mapM_scored (txPool : List TxForBatch) :
    txPool.mapM scored =
      if ∀ tx ∈ txPool, (computeScoreFp tx).isSome = true then
        some (txPool.map fun tx => (scoreOf tx, tx))
      else
        none := by
  induction txPool with
  | nil =>
      rfl
  | cons tx rest inductionHypothesis =>
      rw [List.mapM_cons, inductionHypothesis, scored]
      cases isScore : computeScoreFp tx with
      | none =>
          simp [isScore]
      | some score =>
          have own : scoreOf tx = score := by
            rw [scoreOf, isScore, Option.getD_some]
          simp only [List.forall_mem_cons, isScore, Option.isSome_some,
            true_and, List.map_cons, own]
          split
          · rfl
          · rfl

/-- Where all scores are computed, the first transaction of the least is taken. -/
theorem fairnessTx_eq (txPool : List TxForBatch) :
    fairnessTx txPool =
      if ∀ tx ∈ txPool, (computeScoreFp tx).isSome = true then
        some (minByKey scoreOf txPool)
      else
        none := by
  rw [fairnessTx, mapM_scored]
  split
  · change some _ = some _
    rw [minByKey_map, Option.map_map]
    congr 1
    exact Option.map_id'
  · rfl

/-- The taken transaction is settled exactly when the least score is. -/
theorem fairnessAgrees_iff :
    FairnessAgrees txPool ↔ LeastScoreUnique txPool := by
  have computed_iff :
      (∀ tx ∈ txPool, (computeScoreFp tx).isSome = true) ↔
        ∀ tx ∈ txPool, tx.numInputs.toNat + tx.numOutputs.toNat ≤ maxU32 :=
    forall₂_congr fun tx _ => isSome_computeScoreFp tx
  have taken
      (fits :
        ∀ tx ∈ txPool, tx.numInputs.toNat + tx.numOutputs.toNat ≤ maxU32)
      {received : List TxForBatch}
      (reordered : txPool.Perm received) :
      fairnessTx received = some (minByKey scoreOf received) := by
    rw [fairnessTx_eq, if_pos]
    exact fun tx listed =>
      computed_iff.mpr fits tx (reordered.mem_iff.mpr listed)
  constructor
  · rintro ⟨winner, always⟩
    have fits :
        ∀ tx ∈ txPool, tx.numInputs.toNat + tx.numOutputs.toNat ≤ maxU32 := by
      have answered := always txPool (.refl _)
      rw [fairnessTx_eq] at answered
      split at answered
      · rename_i computed
        exact computed_iff.mp computed
      · cases answered
    refine ⟨fits, label_minByKey_perm_iff.mp fun received reordered => ?_⟩
    have answer := always received reordered
    have answer' := always txPool (.refl _)
    rw [taken fits reordered, Option.map_some, Option.some_inj] at answer
    rw [taken fits (.refl _), Option.map_some, Option.some_inj] at answer'
    exact answer.trans answer'.symm
  · rintro ⟨fits, unique⟩
    refine ⟨(minByKey scoreOf txPool).map TxForBatch.txId, ?_⟩
    intro received reordered
    rw [taken fits reordered, Option.map_some]
    exact congrArg some (label_minByKey_perm_iff.mpr unique received reordered)

end Fairness

/--
For one batch, and with no collision among the hashed words, the winner and the
fairness transaction are the same for every order of what was received exactly
when the winner's first word is no other's and one transaction has the least
score.
-/
theorem winner_and_fairness_agree_iff
    {hash : PairHash}
    {announcements : List BatchAnnouncement}
    (nonempty : announcements ≠ [])
    (sameRoot :
      ∀ ann ∈ announcements, ∀ other ∈ announcements,
        ann.batchRoot = other.batchRoot)
    (collisionFree : hash.InjectiveOn (announcedPairs announcements))
    (txPool : List TxForBatch) :
    WinnerAgrees hash announcements ∧ FairnessAgrees txPool ↔
      WinningWordsUnique hash announcements ∧ LeastScoreUnique txPool :=
  and_congr (winnerAgrees_iff nonempty sameRoot collisionFree)
    fairnessAgrees_iff

/-- An announcement of one batch, with two words of the node id. -/
def sampleAnnouncement (first others : UInt64) : BatchAnnouncement where
  batchRoot := Bytes32.zero
  nodeId := Bytes32.ofLimbs fun index => if index = 0 then first else others
  timestamp := 0

/-- A transaction with two inputs and two outputs. -/
def sampleTx (byte : UInt8) (premium : UInt64) : TxForBatch where
  txId := Bytes32.endingIn byte
  premium
  numInputs := 2
  numOutputs := 2
  feeTotal := 40 + premium

/-- Two aggregators and two transactions with different scores. -/
theorem winner_and_fairness_agree_sample :
    WinnerAgrees sampleHash [sampleAnnouncement 1 0, sampleAnnouncement 2 0] ∧
        FairnessAgrees [sampleTx 1 0, sampleTx 2 10] ↔
      WinningWordsUnique sampleHash
          [sampleAnnouncement 1 0, sampleAnnouncement 2 0] ∧
        LeastScoreUnique [sampleTx 1 0, sampleTx 2 10] :=
  winner_and_fairness_agree_iff (by simp) (by decide) (by decide) _

/-- The score of a sample announcement reads the first word only. -/
theorem tiebreakScore_sampleAnnouncement
    (hash : PairHash)
    (first others : UInt64) :
    tiebreakScore hash (sampleAnnouncement first others) =
      hash.hash2To1 (Bytes32.zero.limb 0) first := by
  rw [tiebreakScore, sampleAnnouncement, Bytes32.limb_ofLimbs, if_pos rfl]

/-- Of two sample announcements with one first word, the first wins. -/
theorem selectWinner_sampleAnnouncement
    (hash : PairHash)
    (first others others' : UInt64) :
    selectWinner hash
        [sampleAnnouncement first others, sampleAnnouncement first others'] =
      some (sampleAnnouncement first others) := by
  apply minByKey_cons_of_least
  intro other listed
  rw [List.mem_singleton.mp listed, tiebreakScore_sampleAnnouncement,
    tiebreakScore_sampleAnnouncement]

/--
Two node ids with one first word tie, whatever the hash, and so do two
transactions without premium: the order in which they were received decides.
-/
theorem winner_and_fairness_disagree :
    (∀ hash,
        ¬ WinnerAgrees hash
            [sampleAnnouncement 7 0, sampleAnnouncement 7 1]) ∧
      ¬ FairnessAgrees [sampleTx 1 0, sampleTx 2 0] := by
  constructor
  · rintro hash ⟨winner, always⟩
    have received := always _ (.refl _)
    have swapped := always _ (.swap _ _ [])
    rw [selectWinner_sampleAnnouncement, Option.map_some] at received swapped
    exact absurd (swapped.trans received.symm) (by decide)
  · rw [fairnessAgrees_iff]
    rintro ⟨_, unique⟩
    have sameId :=
      unique (sampleTx 1 0) (by decide) (by decide) (sampleTx 2 0) (by decide)
        (by decide)
    exact absurd sameId (by decide)

end ScalarCore
