import Mathlib.Data.Option.Basic
import ScalarCore.Dmm

namespace ScalarCore

/-!
# Agreement on the deterministic minimal manifest

Nodes that hold the same data build the same manifest.  The order of anchors
and transactions does not matter; the node list follows the order of the
previous manifest, so it is ascending as long as that one is.
-/

/-- Node entries stand in strictly ascending order of their ids. -/
def AscendingNodes (nodeList : List PrevNodeEntry) : Prop :=
  nodeList.Pairwise fun earlier later =>
    earlier.nodeIdFull < later.nodeIdFull

instance (nodeList : List PrevNodeEntry) :
    Decidable (AscendingNodes nodeList) :=
  inferInstanceAs (Decidable (nodeList.Pairwise _))

/-- Two references to one manifest, each with its nodes ascending by id. -/
structure SameManifest (first second : CommittedManifestRef) : Prop where
  manifestHash : first.manifestHash = second.manifestHash
  epochId : first.epochId = second.epochId
  nodeList : first.nodeList.Perm second.nodeList
  firstAscending : AscendingNodes first.nodeList
  secondAscending : AscendingNodes second.nodeList

/-- The same anchors in any order, at most one for each node. -/
structure SameAnchors (first second : LocalHeartbeatData) : Prop where
  epochK : first.epochK = second.epochK
  anchors : first.anchors.Perm second.anchors
  oneEach : (first.anchors.map AnchorData.nodeIdFull).Nodup

/-- The same amounts, and the same transactions in any order. -/
structure SameConfig (first second : DmmConfig) : Prop where
  eActiveSscl : first.eActiveSscl = second.eActiveSscl
  feePoolSscl : first.feePoolSscl = second.feePoolSscl
  txids : first.txids.Perm second.txids

/-- Ascending lists with the same entries are equal. -/
theorem SameManifest.nodeList_eq
    {first second : CommittedManifestRef}
    (same : SameManifest first second) :
    first.nodeList = second.nodeList := by
  refine
    List.Perm.eq_of_pairwise ?_ same.firstAscending same.secondAscending
      same.nodeList
  intro entry entry' _ _ below above
  exact absurd above (lt_asymm below)

/-- With one anchor for each node, the anchor found is the one there is. -/
theorem findValidAnchor_eq_some_iff
    {data : LocalHeartbeatData}
    (oneEach : (data.anchors.map AnchorData.nodeIdFull).Nodup)
    {nodeIdFull : Bytes32}
    {anchor : AnchorData} :
    data.findValidAnchor nodeIdFull = some anchor ↔
      anchor ∈ data.anchors ∧ anchor.nodeIdFull = nodeIdFull := by
  constructor
  · intro found
    exact
      ⟨List.mem_of_find?_eq_some found, by simpa using List.find?_some found⟩
  · rintro ⟨listed, rfl⟩
    cases found : data.findValidAnchor anchor.nodeIdFull with
    | none =>
        have notListed := List.find?_eq_none.mp found anchor listed
        simp at notListed
    | some other =>
        have otherListed := List.mem_of_find?_eq_some found
        have sameNode : other.nodeIdFull = anchor.nodeIdFull := by
          simpa using List.find?_some found
        rw [List.inj_on_of_nodup_map oneEach otherListed listed sameNode]

/-- The anchor of a node does not depend on the order of the anchors. -/
theorem SameAnchors.findValidAnchor_eq
    {first second : LocalHeartbeatData}
    (same : SameAnchors first second)
    (nodeIdFull : Bytes32) :
    first.findValidAnchor nodeIdFull =
      second.findValidAnchor nodeIdFull := by
  have secondOneEach :
      (second.anchors.map AnchorData.nodeIdFull).Nodup :=
    (same.anchors.map AnchorData.nodeIdFull).nodup_iff.mp same.oneEach
  apply Option.ext
  intro anchor
  rw [findValidAnchor_eq_some_iff same.oneEach,
    findValidAnchor_eq_some_iff secondOneEach, same.anchors.mem_iff]

/-- The transaction root does not depend on the order of the transactions. -/
theorem computeTxSetRoot_perm
    (blake3 : List UInt8 → Bytes32)
    {txids txids' : List Bytes32}
    (same : txids.Perm txids') :
    computeTxSetRoot blake3 txids = computeTxSetRoot blake3 txids' := by
  rw [computeTxSetRoot, computeTxSetRoot, mergeSort_eq_of_perm same]

/-- Anchored nodes keep the ids and the order of the previous manifest. -/
theorem pairwise_anchoredNodes
    {nodeList : List PrevNodeEntry}
    (ascending : AscendingNodes nodeList)
    (localData : LocalHeartbeatData) :
    (anchoredNodes localData nodeList).Pairwise fun earlier later =>
      earlier.nodeIdFull < later.nodeIdFull := by
  apply ascending.filterMap
  intro earlier later below entry anchored entry' anchored'
  simp only [Option.map_eq_some_iff] at anchored anchored'
  obtain ⟨_, _, rfl⟩ := anchored
  obtain ⟨_, _, rfl⟩ := anchored'
  exact below

/-- A manifest that is built carries its own hash. -/
theorem verifyManifestHash_buildDmm
    {blake3 : List UInt8 → Bytes32}
    {epochK : UInt64}
    {prevManifest : Option CommittedManifestRef}
    {localHeartbeatData : LocalHeartbeatData}
    {config : DmmConfig}
    {manifest : EpochRewardManifest}
    (built :
      buildDmm blake3 epochK prevManifest localHeartbeatData config =
        .ok manifest) :
    verifyManifestHash blake3 manifest = true := by
  unfold buildDmm at built
  cases prevManifest with
  | none =>
      cases built
  | some prev =>
      simp only at built
      split at built
      · cases built
      · cases built
        simp [verifyManifestHash, computeManifestHash]

/-- The node list of a manifest that is built ascends with the previous one. -/
theorem pairwise_nodeList_buildDmm
    {blake3 : List UInt8 → Bytes32}
    {epochK : UInt64}
    {prev : CommittedManifestRef}
    (ascending : AscendingNodes prev.nodeList)
    {localHeartbeatData : LocalHeartbeatData}
    {config : DmmConfig}
    {manifest : EpochRewardManifest}
    (built :
      buildDmm blake3 epochK (some prev) localHeartbeatData config =
        .ok manifest) :
    manifest.nodeList.Pairwise fun earlier later =>
      earlier.nodeIdFull < later.nodeIdFull := by
  simp only [buildDmm] at built
  split at built
  · cases built
  · cases built
    rw [List.pairwise_map]
    exact pairwise_anchoredNodes ascending localHeartbeatData

/--
Nodes that hold the same data, in any order of anchors and transactions and
with the previous manifest's nodes ascending, build the same manifest with the
same hash, and its nodes are strictly ascending.
-/
theorem buildDmm_agreement
    (blake3 : List UInt8 → Bytes32)
    (epochK : UInt64)
    {firstPrev secondPrev : Option CommittedManifestRef}
    {firstData secondData : LocalHeartbeatData}
    {firstConfig secondConfig : DmmConfig}
    (samePrev : Option.Rel SameManifest firstPrev secondPrev)
    (sameAnchors : SameAnchors firstData secondData)
    (sameConfig : SameConfig firstConfig secondConfig) :
    buildDmm blake3 epochK firstPrev firstData firstConfig =
        buildDmm blake3 epochK secondPrev secondData secondConfig ∧
      ∀ manifest,
        buildDmm blake3 epochK firstPrev firstData firstConfig =
            .ok manifest →
        manifest.nodeList.Pairwise fun earlier later =>
          earlier.nodeIdFull < later.nodeIdFull := by
  cases samePrev with
  | none =>
      refine ⟨rfl, fun manifest built => ?_⟩
      cases built
  | @some first second same =>
      have sameNodes :
          anchoredNodes firstData first.nodeList =
            anchoredNodes secondData second.nodeList := by
        simp only [anchoredNodes, same.nodeList_eq,
          sameAnchors.findValidAnchor_eq]
      constructor
      · simp only [buildDmm, same.manifestHash, sameNodes,
          sameConfig.eActiveSscl,
          computeTxSetRoot_perm blake3 sameConfig.txids]
      · intro manifest built
        exact pairwise_nodeList_buildDmm same.firstAscending built

/-- A hash for evaluation: the last 32 bytes of a message. -/
def lastBytes (message : List UInt8) : Bytes32 where
  bytes := (List.replicate 32 0 ++ message).drop message.length
  length_eq := by
    rw [List.length_drop, List.length_append, List.length_replicate,
      Nat.add_sub_cancel]

/-- A previous manifest with the nodes whose ids end in given bytes. -/
def manifestOfNodes (endings : List UInt8) : CommittedManifestRef where
  manifestHash := Bytes32.replicate 66
  nodeList :=
    endings.map fun byte => {
      nodeIdFull := Bytes32.endingIn byte
      uptimeWeightFp := 800000
    }
  epochId := 9

/-- Anchors of the nodes whose ids end in given bytes. -/
def anchorsOfNodes (endings : List UInt8) : LocalHeartbeatData where
  anchors :=
    endings.map fun byte => {
      nodeIdFull := Bytes32.endingIn byte
      hbCount := 4320
      chainHead := Bytes32.replicate byte
      uptimeWeightFp := 800000
    }
  epochK := 10

/-- The first epoch's emission and the transactions ending in given bytes. -/
def configOfTxids (endings : List UInt8) : DmmConfig where
  eActiveSscl := 12600000000000
  feePoolSscl := 0
  txids := endings.map Bytes32.endingIn

/-- Two nodes with their anchors and transactions in opposite orders. -/
theorem buildDmm_agreement_twoNodes :
    buildDmm lastBytes 10
        (some (manifestOfNodes [1, 2])) (anchorsOfNodes [1, 2])
        (configOfTxids [5, 6]) =
      buildDmm lastBytes 10
        (some (manifestOfNodes [1, 2])) (anchorsOfNodes [2, 1])
        (configOfTxids [6, 5]) := by
  have sameManifest :
      SameManifest (manifestOfNodes [1, 2]) (manifestOfNodes [1, 2]) :=
    ⟨rfl, rfl, List.Perm.refl _, by decide, by decide⟩
  have sameAnchors :
      SameAnchors (anchorsOfNodes [1, 2]) (anchorsOfNodes [2, 1]) :=
    ⟨rfl, List.Perm.swap _ _ _, by decide⟩
  have sameConfig : SameConfig (configOfTxids [5, 6]) (configOfTxids [6, 5]) :=
    ⟨rfl, rfl, List.Perm.swap _ _ _⟩
  exact (buildDmm_agreement _ 10 (.some sameManifest) sameAnchors sameConfig).1

/--
With the previous manifest's nodes in the other order, the manifest has another
hash, and its node list is not ascending.
-/
theorem buildDmm_disagreement :
    let build (prev : CommittedManifestRef) :=
      buildDmm lastBytes 10 (some prev)
        (anchorsOfNodes [1, 2]) (configOfTxids [])
    (manifestOfNodes [1, 2]).nodeList.Perm (manifestOfNodes [2, 1]).nodeList ∧
      ∃ first second,
        build (manifestOfNodes [1, 2]) = .ok first ∧
          build (manifestOfNodes [2, 1]) = .ok second ∧
          first.manifestHash ≠ second.manifestHash ∧
          ¬ second.nodeList.Pairwise fun earlier later =>
            earlier.nodeIdFull < later.nodeIdFull := by
  refine ⟨List.Perm.swap _ _ _, _, _, rfl, rfl, ?_, ?_⟩
  · decide +kernel
  · decide

end ScalarCore
