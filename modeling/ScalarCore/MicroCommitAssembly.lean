import ScalarCore.BestScan
import ScalarCore.CollisionFree
import ScalarCore.OrderingTree
import ScalarCore.TransactionOrdering

namespace ScalarCore

/-!
# Assembling a commitment

A commitment is assembled from the pending transactions once they are many or old
enough.  Each of them has an inclusion proof under its root, so a quorum makes it a
legitimate one of its sub-epoch.  The signed payload also binds the raw payloads, and
with their number the whole sequence of transactions.

BLAKE3 and the signature scheme are parameters.
-/

open BestScan CollisionFree DuplicateLast MachineInt StateMachine

/-- `MICROCOMMITMENT_TRIGGER_TX`. -/
def microcommitmentTriggerTx : Nat :=
  41

/-- `MICROCOMMITMENT_TIMEOUT_S`. -/
def microcommitmentTimeoutS : UInt64 :=
  60

/-- The bytes of a `Vec<u8>`, whose length is a word. -/
structure RawPayload where
  bytes : List UInt8
  isVec : bytes.length ≤ maxU64
  deriving DecidableEq

/-- `PendingMcTx`. -/
structure PendingMcTx where
  txid : Bytes32
  rawPayload : RawPayload
  arrivalTimeS : UInt64
  deriving DecidableEq

/-- `McTriggerReason`. -/
inductive McTriggerReason where
  | txCount
  | timeout
  deriving Repr, DecidableEq

/-- `check_mc_trigger`. -/
def checkMcTrigger (pending : List PendingMcTx) (nowS : UInt64) : Option McTriggerReason :=
  if pending.length ≥ microcommitmentTriggerTx then
    some .txCount
  else
    match minByKey UInt64.toNat (pending.map PendingMcTx.arrivalTimeS) with
    | some oldest =>
        if saturatingSub nowS oldest ≥ microcommitmentTimeoutS then some .timeout else none
    | none =>
        none

/-- The length of a payload and its bytes. -/
def encodePayload (payload : RawPayload) : List UInt8 :=
  toLeBytes (UInt64.ofNat payload.bytes.length) ++ payload.bytes

/-- The bytes that `compute_da_commitment` hashes. -/
def daBytes (rawPayloads : List RawPayload) : List UInt8 :=
  asciiBytes "scalar.mc.da" ++ toLeBytes (UInt64.ofNat rawPayloads.length) ++
    rawPayloads.flatMap encodePayload

section Assembly

variable (blake3 : List UInt8 → Bytes32)

/-- `compute_da_commitment`. -/
def computeDaCommitment (rawPayloads : List RawPayload) : Bytes32 :=
  blake3 (daBytes rawPayloads)

/-- `compute_subepoch_seed`. -/
def computeSubepochSeed (committedManifestHash : Bytes32) (subepochId : UInt32) : Bytes32 :=
  blake3
    (asciiBytes "scalar_subepoch_seed" ++ committedManifestHash.bytes ++
      toLeBytesU32 subepochId)

/-- `compute_subepoch_score`. -/
def computeSubepochScore (nodeIdFull subepochSeed : Bytes32) : Bytes32 :=
  blake3 (asciiBytes "scalar_subepoch_score" ++ nodeIdFull.bytes ++ subepochSeed.bytes)

/-- `select_subepoch_aggregator`. -/
def selectSubepochAggregator
    (eligibleNodes : List Bytes32)
    (subepochSeed : Bytes32) : Option Bytes32 :=
  minByKey (fun id => computeSubepochScore blake3 id subepochSeed) eligibleNodes

/-- The arguments of `assemble_micro_commitment`. -/
structure McAssembly where
  pending : List PendingMcTx
  subepochId : UInt64
  mcSequenceId : UInt32
  epochId : UInt64
  committedManifestHash : Bytes32
  localSubepochIndex : UInt32
  eligibleNodes : List Bytes32

namespace McAssembly

/-- The ordering keys of the pending transactions. -/
def orderingKeys (assembly : McAssembly) : List Bytes32 :=
  assembly.pending.map fun tx => computeTxOrderingKey blake3 tx.txid assembly.epochId

/-- `assemble_micro_commitment`. -/
def assembleMicroCommitment (assembly : McAssembly) : Option MicroCommitment :=
  if assembly.pending.isEmpty then
    none
  else do
    let txMerkleRoot :=
      (mcOrderingHash blake3).computeTxMerkleRoot (assembly.orderingKeys blake3)
    let daCommitment :=
      computeDaCommitment blake3 (assembly.pending.map PendingMcTx.rawPayload)
    let subepochSeed :=
      computeSubepochSeed blake3 assembly.committedManifestHash assembly.localSubepochIndex
    let aggregatorId ← selectSubepochAggregator blake3 assembly.eligibleNodes subepochSeed
    some
      (MicroCommitment.new assembly.subepochId assembly.mcSequenceId txMerkleRoot
        daCommitment aggregatorId)

end McAssembly

end Assembly

variable {blake3 : List UInt8 → Bytes32} {assembly assembly' : McAssembly}
  {mc mc' : MicroCommitment}

/-!
## When a commitment is assembled
-/

/-- A commitment is due when many transactions are pending or one has waited long. -/
theorem checkMcTrigger_isSome_iff {pending : List PendingMcTx} {nowS : UInt64} :
    (checkMcTrigger pending nowS).isSome = true ↔
      41 ≤ pending.length ∨
        ∃ tx ∈ pending, tx.arrivalTimeS.toNat + 60 ≤ nowS.toNat := by
  rw [checkMcTrigger]
  by_cases many : pending.length ≥ microcommitmentTriggerTx
  · rw [if_pos many]
    exact iff_of_true rfl (Or.inl many)
  · rw [if_neg many]
    refine Iff.trans ?_ (or_iff_right many).symm
    have waited (arrival : UInt64) :
        saturatingSub nowS arrival ≥ microcommitmentTimeoutS ↔
          arrival.toNat + 60 ≤ nowS.toNat := by
      have timeout : microcommitmentTimeoutS.toNat = 60 := rfl
      rw [ge_iff_le, UInt64.le_iff_toNat_le, toNat_saturatingSub, timeout]
      omega
    cases found : minByKey UInt64.toNat (pending.map PendingMcTx.arrivalTimeS) with
    | none =>
        rw [minByKey_eq_none_iff, List.map_eq_nil_iff] at found
        subst found
        exact iff_of_false Bool.false_ne_true (by rintro ⟨_, listed, _⟩; cases listed)
    | some oldest =>
        obtain ⟨isArrival, isOldest⟩ := minByKey_spec found
        obtain ⟨first, isPending, rfl⟩ := List.mem_map.mp isArrival
        dsimp only
        split
        · next old =>
            exact iff_of_true rfl ⟨first, isPending, (waited _).mp old⟩
        · next young =>
            refine iff_of_false Bool.false_ne_true ?_
            rintro ⟨tx, listed, old⟩
            rw [waited] at young
            have order := isOldest _ (List.mem_map_of_mem listed)
            omega

theorem assembleMicroCommitment_eq_some_iff :
    assembly.assembleMicroCommitment blake3 = some mc ↔
      assembly.pending ≠ [] ∧
        ∃ aggregatorId,
          selectSubepochAggregator blake3 assembly.eligibleNodes
              (computeSubepochSeed blake3 assembly.committedManifestHash
                assembly.localSubepochIndex) =
            some aggregatorId ∧
          mc =
            MicroCommitment.new assembly.subepochId assembly.mcSequenceId
              ((mcOrderingHash blake3).computeTxMerkleRoot (assembly.orderingKeys blake3))
              (computeDaCommitment blake3 (assembly.pending.map PendingMcTx.rawPayload))
              aggregatorId := by
  rw [McAssembly.assembleMicroCommitment]
  by_cases empty : assembly.pending = []
  · rw [if_pos (List.isEmpty_iff.mpr empty)]
    exact iff_of_false nofun fun assembled => assembled.1 empty
  · rw [if_neg (by rwa [List.isEmpty_iff]), and_iff_right empty]
    simp only [Option.bind_eq_bind, Option.bind_eq_some_iff, Option.some_inj]
    exact exists_congr fun _ => and_congr_right fun _ => eq_comm

/-!
## What a commitment shows of its transactions
-/

/-- A commitment with submitted signatures. -/
def signed (mc : MicroCommitment) (sigs : List (Bytes32 × List UInt8)) : MicroCommitment :=
  run MicroCommitment.applySig mc sigs

/-- Signatures change nothing else. -/
theorem signed_eq (mc : MicroCommitment) (sigs : List (Bytes32 × List UInt8)) :
    ∃ quorumSignatures, signed mc sigs = { mc with quorumSignatures } := by
  have kept (mc' : MicroCommitment) (call : Bytes32 × List UInt8)
      (isSigned : ∃ quorumSignatures, mc' = { mc with quorumSignatures }) :
      ∃ quorumSignatures,
        (MicroCommitment.applySig mc' call).1 = { mc with quorumSignatures } := by
    obtain ⟨quorumSignatures, rfl⟩ := isSigned
    rw [MicroCommitment.applySig, MicroCommitment.addQuorumSig]
    dsimp only
    split
    · exact ⟨_, rfl⟩
    · exact ⟨_, rfl⟩
  exact run_invariant kept ⟨mc.quorumSignatures, rfl⟩ sigs

/-- What an assembled commitment says of its transactions. -/
structure Commits
    (blake3 : List UInt8 → Bytes32)
    (assembly : McAssembly)
    (mc : MicroCommitment) : Prop where
  unsigned : mc.quorumSignatures = []
  aggregator :
    mc.aggregatorId ∈ assembly.eligibleNodes ∧
      ∀ node ∈ assembly.eligibleNodes,
        computeSubepochScore blake3 mc.aggregatorId
            (computeSubepochSeed blake3 assembly.committedManifestHash
              assembly.localSubepochIndex) ≤
          computeSubepochScore blake3 node
            (computeSubepochSeed blake3 assembly.committedManifestHash
              assembly.localSubepochIndex)
  conditionA :
    ∀ index tx,
      assembly.pending[index]? = some tx →
      ∃ siblings,
        (mcOrderingHash blake3).merkleProof (assembly.orderingKeys blake3) index =
            some siblings ∧
          ∀ verifySignature sigs validatorSet candidates,
            (signed mc sigs).verifyQuorum blake3 verifySignature validatorSet = true →
            { mc := signed mc sigs, inclusionProof := ⟨siblings⟩ } ∈ candidates →
            CgWindow.conditionA blake3 verifySignature
                { orderingKey := computeTxOrderingKey blake3 tx.txid assembly.epochId
                  targetSubepochId := assembly.subepochId
                  validatorSet }
                candidates =
              true

/--
When a commitment is due and some node is eligible, it is assembled with the eligible
node of least score.  Each pending transaction has an inclusion proof, with which it
meets the first condition of the commit window as soon as a quorum has signed.
-/
theorem assembled_commits
    {nowS : UInt64}
    (due : (checkMcTrigger assembly.pending nowS).isSome = true)
    (eligible : assembly.eligibleNodes ≠ []) :
    ∃ mc, assembly.assembleMicroCommitment blake3 = some mc ∧ Commits blake3 assembly mc := by
  have nonempty : assembly.pending ≠ [] := by
    rw [checkMcTrigger_isSome_iff] at due
    rintro isEmpty
    rw [isEmpty] at due
    rcases due with many | ⟨_, listed, _⟩
    · exact absurd many (by decide)
    · cases listed
  have selects :
      selectSubepochAggregator blake3 assembly.eligibleNodes
          (computeSubepochSeed blake3 assembly.committedManifestHash
            assembly.localSubepochIndex) ≠
        none := by
    rw [selectSubepochAggregator, Ne, minByKey_eq_none_iff]
    exact eligible
  obtain ⟨aggregatorId, selected⟩ := Option.ne_none_iff_exists'.mp selects
  refine
    ⟨_, assembleMicroCommitment_eq_some_iff.mpr ⟨nonempty, aggregatorId, selected, rfl⟩,
      rfl, minByKey_spec selected, ?_⟩
  intro index tx isPending
  have found :
      (assembly.orderingKeys blake3)[index]? =
        some (computeTxOrderingKey blake3 tx.txid assembly.epochId) := by
    rw [McAssembly.orderingKeys, List.getElem?_map, isPending, Option.map_some]
  obtain ⟨siblings, isProof, accepted⟩ :=
    OrderingHash.verifyInclusion_merkleProof (mcOrderingHash blake3) found
  refine ⟨siblings, isProof, ?_⟩
  intro verifySignature sigs validatorSet candidates quorum listed
  refine List.any_eq_true.mpr ⟨_, listed, ?_⟩
  dsimp only
  rw [quorum]
  obtain ⟨quorumSignatures, same⟩ :=
    signed_eq
      (MicroCommitment.new assembly.subepochId assembly.mcSequenceId
        ((mcOrderingHash blake3).computeTxMerkleRoot (assembly.orderingKeys blake3))
        (computeDaCommitment blake3 (assembly.pending.map PendingMcTx.rawPayload))
        aggregatorId)
      sigs
  rw [same]
  simp only [MicroCommitment.new, MicroCommitment.containsOrderingKey, decide_true,
    Bool.and_true, Bool.true_and]
  exact accepted

/-- A hash that mixes the bytes of a message into one byte. -/
def mixHash (message : List UInt8) : Bytes32 :=
  .endingIn (message.foldl (fun mixed byte => (mixed ^^^ byte) * 37 + 11) 7)

/-- Three pending transactions with different payloads. -/
def sampleAssembly
    (firstArrivalS : UInt64)
    (eligibleNodes : List Bytes32) : McAssembly where
  pending :=
    [⟨.endingIn 9, ⟨[1, 2], by decide⟩, firstArrivalS⟩,
      ⟨.endingIn 5, ⟨[], by decide⟩, 70⟩, ⟨.endingIn 7, ⟨[3], by decide⟩, 90⟩]
  subepochId := 1
  mcSequenceId := 2
  epochId := 3
  committedManifestHash := .endingIn 8
  localSubepochIndex := 4
  eligibleNodes

/-- Three nodes, of which the second has the least score. -/
def sampleNodes : List Bytes32 :=
  [.endingIn 4, .endingIn 5, .endingIn 6]

/-- A commitment is assembled once one transaction has waited for a minute. -/
theorem assembled_commits_timeout :
    ∃ mc,
      (sampleAssembly 40 sampleNodes).assembleMicroCommitment mixHash = some mc ∧
        Commits mixHash (sampleAssembly 40 sampleNodes) mc :=
  assembled_commits
    (show (checkMcTrigger (sampleAssembly 40 sampleNodes).pending 100).isSome = true by
      decide)
    (by decide)

/-!
## What the signed payload binds
-/

/-- The bytes of an ordering key. -/
def orderBytes (epochId : UInt64) (tx : PendingMcTx) : List UInt8 :=
  domainTxOrder ++ tx.txid.bytes ++ toLeBytes epochId

/-- The bytes of a leaf. -/
def leafBytes (key : Bytes32) : List UInt8 :=
  asciiBytes "scalar.mc.merkle.leaf" ++ key.bytes

/-- The bytes of a node. -/
def nodeBytes (pair : Bytes32 × Bytes32) : List UInt8 :=
  asciiBytes "scalar.mc.merkle.node" ++ pair.1.bytes ++ pair.2.bytes

/-- The bytes of the payload that validators sign. -/
def signBytes (mc : MicroCommitment) : List UInt8 :=
  microcommitmentSignDomain ++ toLeBytes mc.subepochId ++ toLeBytesU32 mc.mcSequenceId ++
    mc.txMerkleRoot.bytes ++ mc.daCommitment.bytes ++ mc.aggregatorId.bytes

/-- The leaves of the tree over the ordering keys. -/
def McAssembly.leaves
    (blake3 : List UInt8 → Bytes32)
    (assembly : McAssembly) : List Bytes32 :=
  (assembly.orderingKeys blake3).map (mcMerkleLeaf blake3)

/-- The messages that are hashed for a commitment and its payload. -/
def McAssembly.messages
    (blake3 : List UInt8 → Bytes32)
    (assembly : McAssembly)
    (mc : MicroCommitment) : List (List UInt8) :=
  [signBytes mc, daBytes (assembly.pending.map PendingMcTx.rawPayload)] ++
    assembly.pending.map (orderBytes assembly.epochId) ++
    (assembly.orderingKeys blake3).map leafBytes ++
    (allPairs (mcMerkleNode blake3) (assembly.leaves blake3)).map nodeBytes

theorem top_leaves (nonempty : assembly.pending ≠ []) :
    top (mcMerkleNode blake3) (assembly.leaves blake3) =
      some ((mcOrderingHash blake3).computeTxMerkleRoot (assembly.orderingKeys blake3)) := by
  have nonemptyKeys : assembly.orderingKeys blake3 ≠ [] := by
    simpa [McAssembly.orderingKeys] using nonempty
  have isTop :
      top (mcOrderingHash blake3).node
          ((assembly.orderingKeys blake3).map (mcOrderingHash blake3).leaf) =
        some ((mcOrderingHash blake3).computeTxMerkleRoot (assembly.orderingKeys blake3)) :=
    OrderingHash.top_eq_root nonemptyKeys
  exact isTop

theorem nodeBytes_injective : Function.Injective nodeBytes := by
  rintro ⟨left, right⟩ ⟨left', right'⟩ same
  obtain ⟨sameLeft, sameRight⟩ :=
    List.append_inj same (by simp [Bytes32.length_eq])
  exact
    Prod.mk_inj.mpr
      ⟨Bytes32.ext (List.append_cancel_left sameLeft), Bytes32.ext sameRight⟩

theorem leafBytes_injective : Function.Injective leafBytes :=
  fun _ _ same => Bytes32.ext (List.append_cancel_left same)

theorem prefixCode_encodePayload : PrefixCode encodePayload where
  nonempty payload isEmpty := by
    have noBytes := congrArg List.length (List.append_eq_nil_iff.mp isEmpty).1
    rw [length_toLeBytes] at noBytes
    cases noBytes
  splits := by
    intro payload payload' rest rest' same
    rw [encodePayload, encodePayload, List.append_assoc, List.append_assoc] at same
    obtain ⟨sameCount, sameBytes⟩ := List.append_inj same (by simp)
    have sameLength : payload.bytes.length = payload'.bytes.length := by
      have counted := congrArg UInt64.toNat (toLeBytes_injective sameCount)
      rwa [toNat_ofNat_of_le payload.isVec, toNat_ofNat_of_le payload'.isVec] at counted
    cases payload
    cases payload'
    congr 1
    exact List.append_inj_left sameBytes sameLength

/-- The payloads are known from what is hashed for them. -/
theorem daBytes_injective : Function.Injective daBytes := by
  intro rawPayloads rawPayloads' same
  obtain ⟨_, samePayloads⟩ := List.append_inj same (by simp)
  exact prefixCode_encodePayload.flatMap_injective samePayloads

/-- The signed bytes show the fields of a commitment. -/
theorem eq_of_signBytes
    (same : signBytes mc = signBytes mc')
    (unsigned : mc.quorumSignatures = mc'.quorumSignatures) :
    mc = mc' := by
  cases mc
  cases mc'
  simp only [signBytes, List.append_assoc, List.append_cancel_left_eq] at same
  obtain ⟨sameSubepoch, same⟩ := List.append_inj same (by simp)
  obtain ⟨sameSequence, same⟩ := List.append_inj same (by simp)
  obtain ⟨sameRoot, same⟩ := List.append_inj same (by simp [Bytes32.length_eq])
  obtain ⟨sameDa, sameAggregator⟩ := List.append_inj same (by simp [Bytes32.length_eq])
  have sameId := congrArg fromLeBytesU32 sameSequence
  rw [fromLeBytesU32_toLeBytesU32, fromLeBytesU32_toLeBytesU32] at sameId
  simp only at unsigned
  rw [toLeBytes_injective sameSubepoch, sameId,
    Bytes32.ext sameRoot, Bytes32.ext sameDa, Bytes32.ext sameAggregator, unsigned]

/-- The transactions are known from what is hashed for their ordering keys. -/
theorem txids_eq_of_orderBytes
    {epochId epochId' : UInt64}
    {pending pending' : List PendingMcTx}
    (nonempty : pending ≠ [])
    (same : pending.map (orderBytes epochId) = pending'.map (orderBytes epochId')) :
    epochId = epochId' ∧
      pending.map PendingMcTx.txid = pending'.map PendingMcTx.txid := by
  have split {tx tx' : PendingMcTx} (same : orderBytes epochId tx = orderBytes epochId' tx') :
      tx.txid = tx'.txid ∧ epochId = epochId' := by
    obtain ⟨sameTxid, sameEpoch⟩ := List.append_inj' same (by simp)
    exact ⟨Bytes32.ext (List.append_cancel_left sameTxid), toLeBytes_injective sameEpoch⟩
  induction pending generalizing pending' with
  | nil =>
      exact absurd rfl nonempty
  | cons tx rest inductionHypothesis =>
      cases pending' with
      | nil =>
          cases same
      | cons tx' rest' =>
          rw [List.map_cons, List.map_cons, List.cons_eq_cons] at same
          obtain ⟨sameTxid, sameEpoch⟩ := split same.1
          refine ⟨sameEpoch, ?_⟩
          rw [List.map_cons, List.map_cons, sameTxid]
          congr 1
          by_cases last : rest = []
          · subst last
            rw [List.map_eq_nil_iff.mp same.2.symm]
          · exact (inductionHypothesis last same.2).2

/--
Two assembled commitments with one signed payload are the same, and are assembled from
the same transactions with the same raw bytes in the same order, as long as no two of
the messages hashed for them collide.
-/
theorem signed_payload_binds
    (assembled : assembly.assembleMicroCommitment blake3 = some mc)
    (assembled' : assembly'.assembleMicroCommitment blake3 = some mc')
    (collisionFree :
      Set.InjOn blake3
        {message |
          message ∈ assembly.messages blake3 mc ∨
            message ∈ assembly'.messages blake3 mc'})
    (samePayload : mc.mcSignPayload blake3 = mc'.mcSignPayload blake3) :
    mc = mc' ∧
      assembly.epochId = assembly'.epochId ∧
      assembly.pending.map PendingMcTx.txid = assembly'.pending.map PendingMcTx.txid ∧
      assembly.pending.map PendingMcTx.rawPayload =
        assembly'.pending.map PendingMcTx.rawPayload := by
  obtain ⟨nonempty, aggregatorId, _, isMc⟩ :=
    assembleMicroCommitment_eq_some_iff.mp assembled
  obtain ⟨nonempty', aggregatorId', _, isMc'⟩ :=
    assembleMicroCommitment_eq_some_iff.mp assembled'
  have unsigned : mc.quorumSignatures = mc'.quorumSignatures := by
    rw [isMc, isMc']
    rfl
  have sameMc : mc = mc' :=
    eq_of_signBytes
      (collisionFree (Or.inl (by simp [McAssembly.messages]))
        (Or.inr (by simp [McAssembly.messages])) samePayload)
      unsigned
  have sameHashes := sameMc
  rw [isMc, isMc'] at sameHashes
  have samePayloads :
      assembly.pending.map PendingMcTx.rawPayload =
        assembly'.pending.map PendingMcTx.rawPayload :=
    daBytes_injective
      (collisionFree (Or.inl (by simp [McAssembly.messages]))
        (Or.inr (by simp [McAssembly.messages]))
        (congrArg MicroCommitment.daCommitment sameHashes))
  have sameLength : (assembly.leaves blake3).length = (assembly'.leaves blake3).length := by
    have counted := congrArg List.length samePayloads
    simpa [McAssembly.leaves, McAssembly.orderingKeys] using counted
  have sameTop :
      top (mcMerkleNode blake3) (assembly.leaves blake3) =
        top (mcMerkleNode blake3) (assembly'.leaves blake3) := by
    calc top (mcMerkleNode blake3) (assembly.leaves blake3)
      _ = some ((mcOrderingHash blake3).computeTxMerkleRoot (assembly.orderingKeys blake3)) :=
        top_leaves nonempty
      _ = some ((mcOrderingHash blake3).computeTxMerkleRoot
            (assembly'.orderingKeys blake3)) :=
        congrArg some (congrArg MicroCommitment.txMerkleRoot sameHashes)
      _ = top (mcMerkleNode blake3) (assembly'.leaves blake3) :=
        (top_leaves nonempty').symm
  have nodesApart :
      Set.InjOn (fun pair : Bytes32 × Bytes32 => mcMerkleNode blake3 pair.1 pair.2)
        {pair |
          pair ∈ allPairs (mcMerkleNode blake3) (assembly.leaves blake3) ∨
            pair ∈ allPairs (mcMerkleNode blake3) (assembly'.leaves blake3)} := by
    have hashed {pair : Bytes32 × Bytes32}
        (isPair :
          pair ∈ allPairs (mcMerkleNode blake3) (assembly.leaves blake3) ∨
            pair ∈ allPairs (mcMerkleNode blake3) (assembly'.leaves blake3)) :
        nodeBytes pair ∈ {message |
          message ∈ assembly.messages blake3 mc ∨ message ∈ assembly'.messages blake3 mc'} :=
      isPair.imp
        (fun listed => List.mem_append_right _ (List.mem_map_of_mem listed))
        (fun listed => List.mem_append_right _ (List.mem_map_of_mem listed))
    intro pair isPair pair' isPair' same
    exact nodeBytes_injective (collisionFree (hashed isPair) (hashed isPair') same)
  have sameLeaves : assembly.leaves blake3 = assembly'.leaves blake3 :=
    eq_of_top nodesApart (fun _ listed => Or.inl listed) (fun _ listed => Or.inr listed)
      sameLength sameTop
  have sameKeys : assembly.orderingKeys blake3 = assembly'.orderingKeys blake3 := by
    apply List.map_injective_iff.mpr leafBytes_injective
    refine eq_of_map collisionFree ?_ ?_ ?_
    · exact fun message listed =>
        Or.inl (List.mem_append_left _ (List.mem_append_right _ listed))
    · exact fun message listed =>
        Or.inr (List.mem_append_left _ (List.mem_append_right _ listed))
    · rw [List.map_map, List.map_map]
      exact sameLeaves
  have sameOrder :
      assembly.pending.map (orderBytes assembly.epochId) =
        assembly'.pending.map (orderBytes assembly'.epochId) := by
    refine eq_of_map collisionFree ?_ ?_ ?_
    · exact fun message listed =>
        Or.inl (List.mem_append_left _
          (List.mem_append_left _ (List.mem_append_right _ listed)))
    · exact fun message listed =>
        Or.inr (List.mem_append_left _
          (List.mem_append_left _ (List.mem_append_right _ listed)))
    · rw [List.map_map, List.map_map]
      exact sameKeys
  obtain ⟨sameEpoch, sameTxids⟩ := txids_eq_of_orderBytes nonempty sameOrder
  exact ⟨sameMc, sameEpoch, sameTxids, samePayloads⟩

/-- What the second node assembles for the three transactions. -/
def sampleCommitment : MicroCommitment :=
  .new 1 2 (.endingIn 210) (.endingIn 57) (.endingIn 5)

/-- The signed payload shows neither arrivals nor the order of the nodes. -/
theorem signed_payload_binds_arrival :
    (sampleAssembly 40 sampleNodes).pending.map PendingMcTx.txid =
        (sampleAssembly 0 sampleNodes.reverse).pending.map PendingMcTx.txid ∧
      (sampleAssembly 40 sampleNodes).pending.map PendingMcTx.rawPayload =
        (sampleAssembly 0 sampleNodes.reverse).pending.map PendingMcTx.rawPayload := by
  have assembled :
      (sampleAssembly 40 sampleNodes).assembleMicroCommitment mixHash =
        some sampleCommitment := by
    decide +kernel
  have assembled' :
      (sampleAssembly 0 sampleNodes.reverse).assembleMicroCommitment mixHash =
        some sampleCommitment := by
    decide +kernel
  have apart :
      (((sampleAssembly 40 sampleNodes).messages mixHash sampleCommitment).map
        mixHash).Nodup := by
    decide +kernel
  have collisionFree :
      Set.InjOn mixHash
        {message |
          message ∈ (sampleAssembly 40 sampleNodes).messages mixHash sampleCommitment ∨
            message ∈
              (sampleAssembly 0 sampleNodes.reverse).messages mixHash sampleCommitment} :=
    fun _ listed _ listed' same =>
      List.inj_on_of_nodup_map apart (listed.elim id id) (listed'.elim id id) same
  exact (signed_payload_binds assembled assembled' collisionFree rfl).2.2

end ScalarCore
