import ScalarCore.Dmm
import ScalarCore.FloorShares

namespace ScalarCore

/-!
# What the deterministic minimal manifest pays

The emission is shared by weight among the nodes of the previous manifest that
have an anchor.  The divisor is the clamped total of the weights, so the shares
stay within the emission as long as the total is not clamped.
-/

open FloorShares MachineInt

variable {blake3 : List UInt8 → Bytes32} {epochK : UInt64}
  {prev : CommittedManifestRef} {localData : LocalHeartbeatData}
  {config : DmmConfig} {manifest : EpochRewardManifest}

/-- The rewards of a manifest, over the integers. -/
def EpochRewardManifest.rewards (manifest : EpochRewardManifest) : List Nat :=
  manifest.nodeList.map fun entry => entry.rewardSscl.toNat

/-- The nodes that a manifest pays. -/
def EpochRewardManifest.nodeIds (manifest : EpochRewardManifest) : List Bytes32 :=
  manifest.nodeList.map NodeRewardEntry.nodeIdFull

/-- The weights of the nodes that have an anchor, over the integers. -/
def anchoredWeights
    (localData : LocalHeartbeatData)
    (nodeList : List PrevNodeEntry) : List Nat :=
  (anchoredNodes localData nodeList).map fun entry => entry.uptimeWeightFp.toNat

/-- The nodes of the previous manifest that have an anchor. -/
def anchoredIds
    (localData : LocalHeartbeatData)
    (nodeList : List PrevNodeEntry) : List Bytes32 :=
  (nodeList.map PrevNodeEntry.nodeIdFull).filter fun nodeIdFull =>
    (localData.findValidAnchor nodeIdFull).isSome

/-- The divisor of the shares: the clamped total of the weights, at least 1. -/
def weightDivisor (weights : List Nat) : Nat :=
  max 1 (min weights.sum maxU64)

/-- The anchored nodes come in the order of the previous manifest. -/
theorem map_nodeIdFull_anchoredNodes
    (localData : LocalHeartbeatData)
    (nodeList : List PrevNodeEntry) :
    (anchoredNodes localData nodeList).map NodeRewardEntry.nodeIdFull =
      anchoredIds localData nodeList := by
  induction nodeList with
  | nil =>
      rfl
  | cons entry rest inductionHypothesis =>
      rw [anchoredNodes, anchoredIds] at inductionHypothesis
      rw [anchoredNodes, anchoredIds, List.filterMap_cons, List.map_cons]
      cases found : localData.findValidAnchor entry.nodeIdFull with
      | none =>
          rw [List.filter_cons_of_neg (by rw [found]; exact Bool.false_ne_true)]
          exact inductionHypothesis
      | some anchor =>
          rw [List.filter_cons_of_pos (by rw [found]; rfl)]
          exact congrArg (entry.nodeIdFull :: ·) inductionHypothesis

/-- A reward within the divisor is an exact share. -/
theorem toNat_computeRewardForNode
    {eActiveSscl wIFp wEffectiveFp : UInt64}
    (positive : 0 < wEffectiveFp.toNat)
    (covered : wIFp.toNat ≤ wEffectiveFp.toNat) :
    (computeRewardForNode eActiveSscl wIFp wEffectiveFp).toNat =
      eActiveSscl.toNat * wIFp.toNat / wEffectiveFp.toNat := by
  have isPositive : wEffectiveFp ≠ 0 := by
    rintro rfl
    exact absurd positive (lt_irrefl _)
  have noClamp : eActiveSscl.toNat * wIFp.toNat ≤ maxU128 := by
    have product :
        eActiveSscl.toNat * wIFp.toNat ≤ (2 ^ 64 - 1) * (2 ^ 64 - 1) :=
      Nat.mul_le_mul (Nat.le_pred_of_lt eActiveSscl.toNat_lt)
        (Nat.le_pred_of_lt wIFp.toNat_lt)
    unfold maxU128
    omega
  rw [computeRewardForNode, if_neg isPositive, saturatingMul128_eq noClamp]
  apply toNat_ofNat_of_le
  exact
    (share_le covered eActiveSscl.toNat).trans
      (Nat.le_pred_of_lt eActiveSscl.toNat_lt)

/-- What the fields of a built manifest are. -/
structure BuiltFrom
    (prev : CommittedManifestRef)
    (localData : LocalHeartbeatData)
    (config : DmmConfig)
    (manifest : EpochRewardManifest) : Prop where
  nodeIds : manifest.nodeIds = anchoredIds localData prev.nodeList
  rewards :
    manifest.rewards =
      shares config.eActiveSscl.toNat
        (weightDivisor (anchoredWeights localData prev.nodeList))
        (anchoredWeights localData prev.nodeList)
  total :
    manifest.totalEmissionSscl.toNat = min manifest.rewards.sum maxU64

/-- The effective weight is the divisor of the shares. -/
theorem toNat_effectiveWeight (entries : List NodeRewardEntry) :
    let wTotalFp :=
      entries.foldl
        (fun total entry => saturatingAdd total entry.uptimeWeightFp) 0
    (if wTotalFp = 0 then 1 else wTotalFp).toNat =
      weightDivisor (entries.map fun entry => entry.uptimeWeightFp.toNat) := by
  intro wTotalFp
  have total :
      wTotalFp.toNat =
        min (entries.map fun entry => entry.uptimeWeightFp.toNat).sum maxU64 := by
    rw [toNat_foldl_saturatingAdd, UInt64.toNat_zero, Nat.zero_add]
  rw [weightDivisor, ← total]
  split
  · next zero =>
      rw [zero]
      rfl
  · next positive =>
      have nonzero : wTotalFp.toNat ≠ 0 :=
        fun isZero => positive (UInt64.toNat_inj.mp isZero)
      omega

/-- A weight is within the divisor, clamped or not. -/
theorem le_weightDivisor
    {weights : List Nat}
    {weight : Nat}
    (listed : weight ∈ weights)
    (isWord : weight ≤ maxU64) :
    weight ≤ weightDivisor weights :=
  le_max_of_le_right (le_min (List.le_sum_of_mem listed) isWord)

/-- A previous manifest with a hash is all that a manifest needs. -/
theorem exists_buildDmm
    (hasHash : prev.manifestHash ≠ Bytes32.zero)
    (blake3 : List UInt8 → Bytes32)
    (epochK : UInt64)
    (localData : LocalHeartbeatData)
    (config : DmmConfig) :
    ∃ manifest,
      buildDmm blake3 epochK (some prev) localData config = .ok manifest := by
  rw [buildDmm, if_neg hasHash]
  exact ⟨_, rfl⟩

theorem buildDmm_spec
    (built :
      buildDmm blake3 epochK (some prev) localData config = .ok manifest) :
    BuiltFrom prev localData config manifest := by
  rw [buildDmm] at built
  split at built
  · cases built
  · cases built
    constructor
    · rw [EpochRewardManifest.nodeIds, List.map_map,
        ← map_nodeIdFull_anchoredNodes]
      rfl
    · rw [EpochRewardManifest.rewards, shares, anchoredWeights, List.map_map,
        List.map_map]
      apply List.map_congr_left
      intro entry listed
      have divisor := toNat_effectiveWeight (anchoredNodes localData prev.nodeList)
      have covered :=
        le_weightDivisor
          (List.mem_map_of_mem (f := fun entry => entry.uptimeWeightFp.toNat) listed)
          (Nat.le_pred_of_lt entry.uptimeWeightFp.toNat_lt)
      rw [← divisor] at covered
      rw [Function.comp_apply, Function.comp_apply, ← divisor]
      apply toNat_computeRewardForNode _ covered
      rw [divisor]
      exact Nat.lt_of_lt_of_le Nat.one_pos (le_max_left _ _)
    · rw [toNat_foldl_saturatingAdd, UInt64.toNat_zero, Nat.zero_add]
      rfl

/-- A manifest pays its total, which is within the emission. -/
structure PaysWithin
    (config : DmmConfig)
    (manifest : EpochRewardManifest) : Prop where
  paid : manifest.rewards.sum = manifest.totalEmissionSscl.toNat
  within : manifest.totalEmissionSscl ≤ config.eActiveSscl

/--
A manifest lists the anchored nodes of the previous manifest, each as often as
listed there, and pays no more than the emission when the weights of these nodes
add up to a word.
-/
theorem buildDmm_pays
    (built :
      buildDmm blake3 epochK (some prev) localData config = .ok manifest) :
    manifest.nodeIds = anchoredIds localData prev.nodeList ∧
      ((prev.nodeList.map PrevNodeEntry.nodeIdFull).Nodup →
        manifest.nodeIds.Nodup) ∧
      ((anchoredWeights localData prev.nodeList).sum ≤ maxU64 →
        PaysWithin config manifest) := by
  have spec := buildDmm_spec built
  refine ⟨spec.nodeIds, ?_, ?_⟩
  · intro distinct
    rw [spec.nodeIds]
    exact distinct.filter _
  · intro fits
    have covered :
        (anchoredWeights localData prev.nodeList).sum ≤
          weightDivisor (anchoredWeights localData prev.nodeList) :=
      le_max_of_le_right (le_min le_rfl fits)
    have within : manifest.rewards.sum ≤ config.eActiveSscl.toNat := by
      rw [spec.rewards]
      exact sum_shares_le covered _
    have isWord : manifest.rewards.sum ≤ maxU64 :=
      within.trans (Nat.le_pred_of_lt config.eActiveSscl.toNat_lt)
    have paid := spec.total
    rw [Nat.min_eq_left isWord] at paid
    exact ⟨paid.symm, by rw [UInt64.le_iff_toNat_le, paid]; exact within⟩

/-- A manifest of given nodes, the hash of it being 7. -/
def sampleManifest (nodes : List Bytes32) : CommittedManifestRef where
  manifestHash := Bytes32.endingIn 7
  nodeList := nodes.map fun node => { nodeIdFull := node, uptimeWeightFp := 0 }
  epochId := 9

/-- Anchors of given nodes, each with one weight. -/
def sampleAnchors (nodes : List Bytes32) (weight : UInt64) : LocalHeartbeatData where
  anchors :=
    nodes.map fun node => {
      nodeIdFull := node
      hbCount := 1
      chainHead := Bytes32.zero
      uptimeWeightFp := weight
    }
  epochK := 10

/-- The emission is 1000. -/
def sampleConfig : DmmConfig where
  eActiveSscl := 1000
  feePoolSscl := 0
  txids := []

theorem hasHash_sampleManifest (nodes : List Bytes32) :
    (sampleManifest nodes).manifestHash ≠ Bytes32.zero :=
  (by decide : Bytes32.endingIn 7 ≠ Bytes32.zero)

/-- Three nodes, two of them with anchors. -/
theorem buildDmm_pays_two :
    ∃ manifest,
      buildDmm (fun _ => Bytes32.endingIn 7) 10
            (some (sampleManifest (List.map Bytes32.endingIn [1, 2, 3])))
            (sampleAnchors (List.map Bytes32.endingIn [3, 1]) 800000)
            sampleConfig =
          .ok manifest ∧
        manifest.nodeIds = List.map Bytes32.endingIn [1, 3] ∧
        manifest.nodeIds.Nodup ∧
        PaysWithin sampleConfig manifest := by
  obtain ⟨manifest, built⟩ :=
    exists_buildDmm (hasHash_sampleManifest (List.map Bytes32.endingIn [1, 2, 3]))
      (fun _ => Bytes32.endingIn 7) 10
      (sampleAnchors (List.map Bytes32.endingIn [3, 1]) 800000) sampleConfig
  obtain ⟨nodeIds, distinct, pays⟩ := buildDmm_pays built
  exact
    ⟨manifest, built, nodeIds.trans (by decide), distinct (by decide),
      pays (by decide)⟩

/-- Two largest weights are paid twice the emission; a node listed twice stays so. -/
theorem buildDmm_not_pays :
    (¬∃ blake3, ∀ prev localData config manifest,
        buildDmm blake3 10 (some prev) localData config = .ok manifest →
          PaysWithin config manifest) ∧
      ¬∃ blake3, ∀ prev localData config manifest,
        buildDmm blake3 10 (some prev) localData config = .ok manifest →
          manifest.nodeIds.Nodup := by
  constructor
  · rintro ⟨blake3, pays⟩
    let nodes := List.map Bytes32.endingIn [1, 2]
    let localData := sampleAnchors nodes (UInt64.ofNat maxU64)
    obtain ⟨manifest, built⟩ :=
      exists_buildDmm (hasHash_sampleManifest nodes) blake3 10 localData
        sampleConfig
    have spec := buildDmm_spec built
    have rewards : manifest.rewards = [1000, 1000] :=
      spec.rewards.trans (by decide)
    have total := spec.total
    have within := (pays _ _ _ _ built).within
    rw [UInt64.le_iff_toNat_le, total, rewards] at within
    exact absurd within (by decide)
  · rintro ⟨blake3, distinct⟩
    let nodes := List.map Bytes32.endingIn [1, 1]
    let localData := sampleAnchors nodes 800000
    obtain ⟨manifest, built⟩ :=
      exists_buildDmm (hasHash_sampleManifest nodes) blake3 10 localData
        sampleConfig
    have once := distinct _ _ _ _ built
    rw [(buildDmm_spec built).nodeIds] at once
    exact absurd once (by decide)

end ScalarCore
