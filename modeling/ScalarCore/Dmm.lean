import ScalarCore.Bytes
import ScalarCore.MachineInt

namespace ScalarCore

/-!
# The deterministic minimal manifest

The fallback manifest of an epoch, built from the manifest committed for the
previous epoch and the anchors a node has observed.  The nodes of the previous
manifest that have an anchor share the emission by weight, in the order in
which the previous manifest lists them.

BLAKE3 is a parameter; what it is applied to is spelled out byte by byte.
-/

open MachineInt

/-- Reward of one node in a manifest. -/
structure NodeRewardEntry where
  nodeIdFull : Bytes32
  rewardSscl : UInt64
  uptimeWeightFp : UInt64
  deriving DecidableEq

/-- Status of an epoch. -/
inductive EpochStatus where
  | open
  | finalized
  | deferred
  deriving Repr, DecidableEq

/-- The reward manifest of an epoch. -/
structure EpochRewardManifest where
  epochId : UInt64
  nodeList : List NodeRewardEntry
  specVersion : UInt8
  totalEmissionSscl : UInt64
  deferred : Bool
  seedK : Bytes32
  manifestHash : Bytes32
  rewardRoot : Bytes32
  networkHealthDigest : Bytes32
  status : EpochStatus
  txSetRoot : Bytes32
  deriving DecidableEq

/-- Version of the manifest format. -/
def specVersionManifest : UInt8 :=
  0x01

/-- A node of the previous manifest. -/
structure PrevNodeEntry where
  nodeIdFull : Bytes32
  uptimeWeightFp : UInt64
  deriving DecidableEq

/-- The verified manifest of the previous epoch, nodes ascending by id. -/
structure CommittedManifestRef where
  manifestHash : Bytes32
  nodeList : List PrevNodeEntry
  epochId : UInt64

/-- A valid anchor of one node. -/
structure AnchorData where
  nodeIdFull : Bytes32
  hbCount : UInt64
  chainHead : Bytes32
  uptimeWeightFp : UInt64
  deriving DecidableEq

/-- The anchors a node has collected in an epoch. -/
structure LocalHeartbeatData where
  anchors : List AnchorData
  epochK : UInt64

/-- The first anchor of a node. -/
def LocalHeartbeatData.findValidAnchor
    (data : LocalHeartbeatData)
    (nodeIdFull : Bytes32) : Option AnchorData :=
  data.anchors.find? fun anchor => anchor.nodeIdFull == nodeIdFull

/-- Errors of the construction. -/
inductive DmmError where
  | bootstrapRequired
  | manifestHashMismatch
  | noEligibleNodes
  deriving Repr, DecidableEq

/-- The amounts and transactions that enter the manifest. -/
structure DmmConfig where
  eActiveSscl : UInt64
  feePoolSscl : UInt64
  txids : List Bytes32

/-- Domain separator of the epoch seed. -/
def domainSeed : List UInt8 :=
  asciiBytes "scalar_seed"

/-- The bytes hashed for one node. -/
def NodeRewardEntry.toBytes (entry : NodeRewardEntry) : List UInt8 :=
  entry.nodeIdFull.bytes ++ toLeBytes entry.rewardSscl ++
    toLeBytes entry.uptimeWeightFp

/-- The reward of a node by its share of the weight. -/
def computeRewardForNode
    (eActiveSscl wIFp wEffectiveFp : UInt64) : UInt64 :=
  if wEffectiveFp = 0 then
    0
  else
    UInt64.ofNat
      (saturatingMul128 eActiveSscl.toNat wIFp.toNat / wEffectiveFp.toNat)

/-- The nodes of the previous manifest that have an anchor, rewards still 0. -/
def anchoredNodes
    (localData : LocalHeartbeatData)
    (nodeList : List PrevNodeEntry) : List NodeRewardEntry :=
  nodeList.filterMap fun entry =>
    (localData.findValidAnchor entry.nodeIdFull).map fun anchor => {
      nodeIdFull := entry.nodeIdFull
      rewardSscl := 0
      uptimeWeightFp := anchor.uptimeWeightFp
    }

section Hashing

variable (blake3 : List UInt8 → Bytes32)

/-- Root of a set of transactions, sorted before hashing. -/
def computeTxSetRoot (txids : List Bytes32) : Bytes32 :=
  blake3 (txids.mergeSort.flatMap Bytes32.bytes)

/-- Root of the rewards, in the order of the node list. -/
def computeRewardRoot (nodeList : List NodeRewardEntry) : Bytes32 :=
  blake3 (nodeList.flatMap NodeRewardEntry.toBytes)

/-- Digest of what was observed of the network. -/
def computeNetworkHealthDigest
    (epochK anchorCount totalWeightFp : UInt64) : Bytes32 :=
  blake3
    (toLeBytes epochK ++ toLeBytes anchorCount ++ toLeBytes totalWeightFp)

/-- Seed of the epoch after a committed manifest. -/
def computeSeedK (committedManifestHash : Bytes32) : Bytes32 :=
  blake3 (domainSeed ++ committedManifestHash.bytes)

/-- Hash of a manifest, over everything but the hash and the status. -/
def computeManifestHash (manifest : EpochRewardManifest) : Bytes32 :=
  blake3
    (toLeBytes manifest.epochId ++ [manifest.specVersion] ++
      toLeBytes manifest.totalEmissionSscl ++
      [if manifest.deferred then 1 else 0] ++ manifest.seedK.bytes ++
      manifest.rewardRoot.bytes ++ manifest.networkHealthDigest.bytes ++
      manifest.txSetRoot.bytes ++
      toLeBytes (UInt64.ofNat manifest.nodeList.length) ++
      manifest.nodeList.flatMap NodeRewardEntry.toBytes)

/-- Whether a manifest carries its own hash. -/
def verifyManifestHash (manifest : EpochRewardManifest) : Bool :=
  manifest.manifestHash == computeManifestHash blake3 manifest

/-- Build the manifest of an epoch. -/
def buildDmm
    (epochK : UInt64)
    (prevManifest : Option CommittedManifestRef)
    (localHeartbeatData : LocalHeartbeatData)
    (config : DmmConfig) : Except DmmError EpochRewardManifest :=
  match prevManifest with
  | none => .error .bootstrapRequired
  | some prev =>
      if prev.manifestHash = Bytes32.zero then
        .error .manifestHashMismatch
      else
        let anchored := anchoredNodes localHeartbeatData prev.nodeList
        let wTotalFp :=
          anchored.foldl
            (fun total entry => saturatingAdd total entry.uptimeWeightFp) 0
        let wEffectiveFp := if wTotalFp = 0 then 1 else wTotalFp
        let dmmNodeList :=
          anchored.map fun entry =>
            { entry with
              rewardSscl :=
                computeRewardForNode config.eActiveSscl entry.uptimeWeightFp
                  wEffectiveFp }
        let totalEmissionSscl :=
          dmmNodeList.foldl
            (fun total entry => saturatingAdd total entry.rewardSscl) 0
        let manifest : EpochRewardManifest := {
          epochId := epochK
          nodeList := dmmNodeList
          specVersion := specVersionManifest
          totalEmissionSscl := totalEmissionSscl
          deferred := true
          seedK := computeSeedK blake3 prev.manifestHash
          manifestHash := Bytes32.zero
          rewardRoot := computeRewardRoot blake3 dmmNodeList
          networkHealthDigest :=
            computeNetworkHealthDigest blake3 epochK
              (UInt64.ofNat dmmNodeList.length) wTotalFp
          status := .deferred
          txSetRoot := computeTxSetRoot blake3 config.txids
        }
        .ok
          { manifest with
            manifestHash := computeManifestHash blake3 manifest }

end Hashing

end ScalarCore
