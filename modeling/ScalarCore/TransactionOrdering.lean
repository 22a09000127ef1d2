import ScalarCore.EpochOrchestrator
import ScalarCore.KeyedSort

namespace ScalarCore

/-!
# Transaction ids and their order

A transaction id is the hash of the parts of a transaction, one after the other.
Within an epoch the transactions are ordered by a hash of their ids before their
ids enter the tree of the UTXO set, so that every node builds the same tree.
-/

open KeyedSort

/-- `DOMAIN_TX_ORDER`. -/
def domainTxOrder : List UInt8 :=
  asciiBytes "scalar_tx_order"

/-- `DOMAIN_TXID`. -/
def domainTxid : List UInt8 :=
  asciiBytes "scalar_txid"

/-- A transaction to be ordered. -/
structure TxEntry where
  txHash : Bytes32
  txData : List UInt8
  deriving DecidableEq

/-- The key that a transaction is ordered by. -/
structure TxOrderingKey where
  txid : Bytes32
  orderingKey : Bytes32
  deriving DecidableEq

/-- The arguments of `compute_txid`. -/
structure TxidArguments where
  inputNullifiers : List Bytes32
  outputCommitments : List Bytes32
  feeTotal : UInt64
  epochId : UInt64
  cryptoVersion : UInt8
  deriving DecidableEq

/-- The bytes that `compute_txid` hashes. -/
def txidPreimage (tx : TxidArguments) : List UInt8 :=
  domainTxid ++ tx.inputNullifiers.flatMap Bytes32.bytes ++
    tx.outputCommitments.flatMap Bytes32.bytes ++
    toLeBytes tx.feeTotal ++ toLeBytes tx.epochId ++ [tx.cryptoVersion]

variable (blake3 : List UInt8 → Bytes32)

/-- `compute_txid`. -/
def computeTxid (tx : TxidArguments) : Bytes32 :=
  blake3 (txidPreimage tx)

/-- `compute_tx_ordering_key`. -/
def computeTxOrderingKey (txid : Bytes32) (epochId : UInt64) : Bytes32 :=
  blake3 (domainTxOrder ++ txid.bytes ++ toLeBytes epochId)

/-- `sort_transactions_canonical`, over some unstable sort. -/
def sortTransactionsCanonical
    (unstable : UnstableSort (TxOrderingKey × TxEntry) Bytes32)
    (txs : List TxEntry)
    (epochId : UInt64) : List TxEntry :=
  let keyed :=
    txs.map fun tx =>
      ({ txid := tx.txHash
         orderingKey := computeTxOrderingKey blake3 tx.txHash epochId },
        tx)
  (unstable.sort (fun entry => entry.1.orderingKey) keyed).map Prod.snd

/-- `process_epoch_transactions`; absent where an insertion panics. -/
def UtxoSetEpochSmt.processEpochTransactions
    {Digest : Type}
    (hash : ImtHash Bytes32 Digest)
    (unstable : UnstableSort (TxOrderingKey × TxEntry) Bytes32)
    (set : UtxoSetEpochSmt Digest)
    (txs : List TxEntry)
    (epochId : UInt64) : Option (UtxoSetEpochSmt Digest) := do
  let orderedTxs := sortTransactionsCanonical blake3 unstable txs epochId
  let set ←
    orderedTxs.foldlM (fun set tx => set.insertUtxo hash tx.txHash epochId) set
  some { set with currentEpoch := epochId }

/-!
## Transaction ids
-/

/-- Two transactions agree but for where their nullifiers end. -/
structure SameUpToSplit (tx tx' : TxidArguments) : Prop where
  nodes :
    tx.inputNullifiers ++ tx.outputCommitments =
      tx'.inputNullifiers ++ tx'.outputCommitments
  feeTotal : tx.feeTotal = tx'.feeTotal
  epochId : tx.epochId = tx'.epochId
  cryptoVersion : tx.cryptoVersion = tx'.cryptoVersion

/-- The preimage tells everything but where the nullifiers end. -/
theorem txidPreimage_eq_iff
    {tx tx' : TxidArguments} :
    txidPreimage tx = txidPreimage tx' ↔ SameUpToSplit tx tx' := by
  have arranged (tx : TxidArguments) :
      txidPreimage tx =
        domainTxid ++
          ((tx.inputNullifiers ++ tx.outputCommitments).flatMap Bytes32.bytes ++
            (toLeBytes tx.feeTotal ++
              (toLeBytes tx.epochId ++ [tx.cryptoVersion]))) := by
    simp only [txidPreimage, List.flatMap_append, List.append_assoc]
  constructor
  · intro same
    rw [arranged, arranged, List.append_cancel_left_eq] at same
    obtain ⟨sameNodes, sameRest⟩ := List.append_inj' same (by simp)
    obtain ⟨sameFee, sameRest⟩ := List.append_inj sameRest (by simp)
    obtain ⟨sameEpoch, sameVersion⟩ := List.append_inj sameRest (by simp)
    exact {
      nodes := Bytes32.flatMap_bytes_injective sameNodes
      feeTotal := toLeBytes_injective sameFee
      epochId := toLeBytes_injective sameEpoch
      cryptoVersion := List.singleton_inj.mp sameVersion
    }
  · intro same
    rw [arranged, arranged, same.nodes, same.feeTotal, same.epochId,
      same.cryptoVersion]

/-- Knowing the number of nullifiers, the split is known. -/
theorem sameUpToSplit_and_length_iff
    {tx tx' : TxidArguments} :
    SameUpToSplit tx tx' ∧
        tx.inputNullifiers.length = tx'.inputNullifiers.length ↔
      tx = tx' := by
  constructor
  · rintro ⟨same, sameLength⟩
    obtain ⟨sameNullifiers, sameCommitments⟩ :=
      List.append_inj same.nodes sameLength
    cases tx
    cases tx'
    simp only [TxidArguments.mk.injEq]
    exact
      ⟨sameNullifiers, sameCommitments, same.feeTotal, same.epochId,
        same.cryptoVersion⟩
  · rintro rfl
    exact ⟨⟨rfl, rfl, rfl, rfl⟩, rfl⟩

/--
The bytes hashed for a transaction id determine the transaction but for where its
nullifiers end, so they determine it together with the number of nullifiers; and
two ids are equal exactly then or where the hash collides on them.
-/
theorem txid_determines (tx tx' : TxidArguments) :
    (txidPreimage tx = txidPreimage tx' ↔ SameUpToSplit tx tx') ∧
      (txidPreimage tx = txidPreimage tx' ∧
          tx.inputNullifiers.length = tx'.inputNullifiers.length ↔
        tx = tx') ∧
      (computeTxid blake3 tx = computeTxid blake3 tx' ↔
        SameUpToSplit tx tx' ∨
          (txidPreimage tx ≠ txidPreimage tx' ∧
            blake3 (txidPreimage tx) = blake3 (txidPreimage tx'))) := by
  refine ⟨txidPreimage_eq_iff, ?_, ?_⟩
  · rw [txidPreimage_eq_iff, sameUpToSplit_and_length_iff]
  · rw [← txidPreimage_eq_iff, computeTxid, computeTxid]
    by_cases same : txidPreimage tx = txidPreimage tx'
    · exact iff_of_true (congrArg blake3 same) (.inl same)
    · rw [or_iff_right same, and_iff_right same]

/-- An output commitment read as a nullifier gives the same preimage. -/
theorem txidPreimage_not_injective :
    ¬Function.Injective txidPreimage := by
  intro injective
  have same :
      txidPreimage ⟨[Bytes32.zero], [Bytes32.endingIn 1], 40, 1, 3⟩ =
        txidPreimage ⟨[Bytes32.zero, Bytes32.endingIn 1], [], 40, 1, 3⟩ :=
    txidPreimage_eq_iff.mpr ⟨rfl, rfl, rfl, rfl⟩
  cases injective same

/-!
## The order of an epoch
-/

variable {blake3}

/-- The ordering keys of the transactions determine their ids. -/
def DistinctOrderingKeys
    (blake3 : List UInt8 → Bytes32)
    (txs : List TxEntry)
    (epochId : UInt64) : Prop :=
  ∀ tx ∈ txs, ∀ tx' ∈ txs,
    computeTxOrderingKey blake3 tx.txHash epochId =
        computeTxOrderingKey blake3 tx'.txHash epochId →
      tx.txHash = tx'.txHash

/-- Whatever the order of arrival, the ids come in the same order. -/
theorem map_txHash_sortTransactionsCanonical
    {txs txs' : List TxEntry}
    {epochId : UInt64}
    (distinct : DistinctOrderingKeys blake3 txs epochId)
    (same : txs.Perm txs')
    (unstable unstable' : UnstableSort (TxOrderingKey × TxEntry) Bytes32) :
    (sortTransactionsCanonical blake3 unstable txs epochId).map TxEntry.txHash =
      (sortTransactionsCanonical blake3 unstable' txs' epochId).map
        TxEntry.txHash := by
  rw [sortTransactionsCanonical, sortTransactionsCanonical, List.map_map,
    List.map_map]
  apply unstable.map_eq_of_perm unstable' (same.map _)
  intro left isLeft right isRight sameKey
  obtain ⟨tx, isTx, rfl⟩ := List.mem_map.mp isLeft
  obtain ⟨tx', isTx', rfl⟩ := List.mem_map.mp isRight
  exact distinct tx isTx tx' isTx' sameKey

/--
The set after an epoch, with its root, its count and the order of its leaves, does
not depend on the order in which the transactions arrived.
-/
theorem processEpochTransactions_perm
    {Digest : Type}
    (hash : ImtHash Bytes32 Digest)
    (set : UtxoSetEpochSmt Digest)
    {txs txs' : List TxEntry}
    {epochId : UInt64}
    (distinct : DistinctOrderingKeys blake3 txs epochId)
    (same : txs.Perm txs')
    (unstable unstable' : UnstableSort (TxOrderingKey × TxEntry) Bytes32) :
    set.processEpochTransactions blake3 hash unstable txs epochId =
      set.processEpochTransactions blake3 hash unstable' txs' epochId := by
  have sameIds := map_txHash_sortTransactionsCanonical distinct same unstable unstable'
  have byIds (txs : List TxEntry) :
      txs.foldlM (fun set tx => set.insertUtxo hash tx.txHash epochId) set =
        (txs.map TxEntry.txHash).foldlM
          (fun set txHash => set.insertUtxo hash txHash epochId) set := by
    rw [List.foldlM_map]
  rw [UtxoSetEpochSmt.processEpochTransactions,
    UtxoSetEpochSmt.processEpochTransactions, byIds, byIds, sameIds]

/-- Reads the 32 bytes after the ordering domain, so that no ids collide. -/
def hashedTxid (message : List UInt8) : Bytes32 where
  bytes := ((message.drop 15) ++ List.replicate 32 0).take 32
  length_eq := by simp

/-- The leaf of a commitment is the commitment. -/
def commitmentImtHash : ImtHash Bytes32 Bytes32 where
  hashLeaf commitment _ := commitment
  hashNode left _ := left
  emptyLeaf := Bytes32.zero

/-- Two transactions with one id, and one with another, in two orders. -/
theorem processEpochTransactions_perm_three :
    (UtxoSetEpochSmt.new commitmentImtHash).processEpochTransactions hashedTxid
        commitmentImtHash .stable
        [⟨Bytes32.zero, [1]⟩, ⟨Bytes32.endingIn 1, []⟩, ⟨Bytes32.zero, [2]⟩] 5 =
      (UtxoSetEpochSmt.new commitmentImtHash).processEpochTransactions hashedTxid
        commitmentImtHash .stable
        [⟨Bytes32.endingIn 1, []⟩, ⟨Bytes32.zero, [1]⟩, ⟨Bytes32.zero, [2]⟩] 5 := by
  have isTxid (txid : Bytes32) : computeTxOrderingKey hashedTxid txid 5 = txid := by
    have dropped :
        (domainTxOrder ++ txid.bytes ++ toLeBytes 5).drop 15 =
          txid.bytes ++ toLeBytes 5 := by
      rw [List.append_assoc]
      exact List.drop_left' rfl
    apply Bytes32.ext
    change (List.drop 15 _ ++ _).take 32 = txid.bytes
    rw [dropped, List.append_assoc, ← txid.length_eq, List.take_left]
  apply processEpochTransactions_perm _ _ _ (.swap _ _ _)
  intro tx _ tx' _ sameKey
  rwa [isTxid, isTxid] at sameKey

end ScalarCore
