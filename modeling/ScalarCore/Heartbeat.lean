import ScalarCore.Bytes

namespace ScalarCore

/-!
# Heartbeats

A heartbeat of a node is sent as 148 bytes.  It carries the hash of the node's
previous heartbeat, taken over all fields of that one but its own previous
hash, and a code computed with a key that the node shares with the verifier.
-/

/-- Heartbeats of an epoch. -/
def epochHbCount : UInt32 :=
  4320

/-- A heartbeat of a node. -/
@[ext] structure HeartbeatUnit where
  nodeId : Bytes4
  seqNum : UInt32
  timestamp : UInt32
  smtRoot : Bytes32
  imtFrontier : Bytes32
  imtCount : UInt64
  prevHash : Bytes32
  mac : Bytes32
  deriving DecidableEq

/-- A `[u8; 148]`: the wire format of a heartbeat. -/
structure Bytes148 where
  bytes : List UInt8
  length_eq : bytes.length = 148
  deriving DecidableEq

namespace Bytes148

/-- `length` bytes from an offset on. -/
def slice (value : Bytes148) (offset length : Nat) : List UInt8 :=
  (value.bytes.drop offset).take length

/-- A slice within the array has its length. -/
theorem length_slice
    {value : Bytes148}
    {offset length : Nat}
    (within : offset + length ≤ 148) :
    (value.slice offset length).length = length := by
  rw [slice, List.length_take, List.length_drop, value.length_eq]
  omega

/-- The `[u8; 4]` at an offset. -/
def slice4
    (value : Bytes148)
    (offset : Nat)
    (within : offset + 4 ≤ 148) : Bytes4 where
  bytes := value.slice offset 4
  length_eq := length_slice within

/-- The `[u8; 32]` at an offset. -/
def slice32
    (value : Bytes148)
    (offset : Nat)
    (within : offset + 32 ≤ 148) : Bytes32 where
  bytes := value.slice offset 32
  length_eq := length_slice within

end Bytes148

/-- Domain separator of the hashes of heartbeats. -/
def domainBeacon : List UInt8 :=
  asciiBytes "scalar_beacon"

namespace HeartbeatUnit

/-- The fields of a heartbeat in the order of the wire format. -/
def wireBytes (hb : HeartbeatUnit) : List UInt8 :=
  hb.nodeId.bytes ++ toLeBytesU32 hb.seqNum ++ toLeBytesU32 hb.timestamp ++
    hb.smtRoot.bytes ++ hb.imtFrontier.bytes ++ toLeBytes hb.imtCount ++
    hb.prevHash.bytes ++ hb.mac.bytes

theorem length_wireBytes (hb : HeartbeatUnit) :
    hb.wireBytes.length = 148 := by
  simp [wireBytes, hb.nodeId.length_eq, hb.smtRoot.length_eq,
    hb.imtFrontier.length_eq, hb.prevHash.length_eq, hb.mac.length_eq]

/-- The wire format of a heartbeat. -/
def toBytes (hb : HeartbeatUnit) : Bytes148 where
  bytes := hb.wireBytes
  length_eq := hb.length_wireBytes

/-- The heartbeat that an array encodes. -/
def fromBytes (b : Bytes148) : HeartbeatUnit where
  nodeId := b.slice4 0 (by decide)
  seqNum := fromLeBytesU32 (b.slice 4 4)
  timestamp := fromLeBytesU32 (b.slice 8 4)
  smtRoot := b.slice32 12 (by decide)
  imtFrontier := b.slice32 44 (by decide)
  imtCount := fromLeBytes (b.slice 76 8)
  prevHash := b.slice32 84 (by decide)
  mac := b.slice32 116 (by decide)

/-- Where the fields of a heartbeat stand in the wire format. -/
structure Layout (b : Bytes148) (hb : HeartbeatUnit) : Prop where
  nodeId : b.slice 0 4 = hb.nodeId.bytes
  seqNum : b.slice 4 4 = toLeBytesU32 hb.seqNum
  timestamp : b.slice 8 4 = toLeBytesU32 hb.timestamp
  smtRoot : b.slice 12 32 = hb.smtRoot.bytes
  imtFrontier : b.slice 44 32 = hb.imtFrontier.bytes
  imtCount : b.slice 76 8 = toLeBytes hb.imtCount
  prevHash : b.slice 84 32 = hb.prevHash.bytes
  mac : b.slice 116 32 = hb.mac.bytes

/-- Every field is written where it is read. -/
theorem layout_toBytes (hb : HeartbeatUnit) : Layout hb.toBytes hb := by
  have slices (offset length : Nat) :
      hb.toBytes.slice offset length =
        (hb.wireBytes.drop offset).take length :=
    rfl
  have skipped
      {field : List UInt8}
      {offset : Nat}
      (short : field.length ≤ offset) :
      field.drop offset = [] :=
    List.drop_eq_nil_of_le short
  constructor <;>
    simp [slices, wireBytes, List.drop_append, skipped,
      hb.nodeId.length_eq, hb.smtRoot.length_eq, hb.imtFrontier.length_eq,
      hb.prevHash.length_eq, hb.mac.length_eq]

/-- An array with the fields of a heartbeat is decoded to it. -/
theorem fromBytes_of_layout
    {b : Bytes148}
    {hb : HeartbeatUnit}
    (layout : Layout b hb) :
    fromBytes b = hb := by
  apply HeartbeatUnit.ext
  · exact Bytes4.ext layout.nodeId
  · rw [fromBytes, layout.seqNum, fromLeBytesU32_toLeBytesU32]
  · rw [fromBytes, layout.timestamp, fromLeBytesU32_toLeBytesU32]
  · exact Bytes32.ext layout.smtRoot
  · exact Bytes32.ext layout.imtFrontier
  · rw [fromBytes, layout.imtCount, fromLeBytes_toLeBytes]
  · exact Bytes32.ext layout.prevHash
  · exact Bytes32.ext layout.mac

/-- Decoding the wire format of a heartbeat gives the heartbeat back. -/
theorem fromBytes_toBytes (hb : HeartbeatUnit) :
    fromBytes hb.toBytes = hb :=
  fromBytes_of_layout hb.layout_toBytes

end HeartbeatUnit

section Hashing

variable (blake3 : List UInt8 → Bytes32)

/-- The code of a heartbeat under the key of an epoch. -/
def computeHeartbeatMac
    (nodeKeyEpoch : Bytes32)
    (nodeId : Bytes4)
    (seqNum timestamp : UInt32)
    (smtRoot imtFrontier : Bytes32)
    (imtCount : UInt64)
    (prevHash : Bytes32) : Bytes32 :=
  blake3
    (domainBeacon ++ nodeKeyEpoch.bytes ++ nodeId.bytes ++
      toLeBytesU32 seqNum ++ toLeBytesU32 timestamp ++ smtRoot.bytes ++
      imtFrontier.bytes ++ toLeBytes imtCount ++ prevHash.bytes)

/-- The hash that the next heartbeat of the node carries. -/
def computePrevHash (hb : HeartbeatUnit) : Bytes32 :=
  blake3
    (domainBeacon ++ hb.nodeId.bytes ++ toLeBytesU32 hb.seqNum ++
      toLeBytesU32 hb.timestamp ++ hb.smtRoot.bytes ++ hb.imtFrontier.bytes ++
      toLeBytes hb.imtCount ++ hb.mac.bytes)

end Hashing

end ScalarCore
