import ScalarCore.EpochAnchorWire
import ScalarCore.HeartbeatService

namespace ScalarCore

/-!
# State beacons

A beacon carries an epoch, the root of that epoch and four bytes of a keyed hash of both.
The broadcaster computes and checks these bytes under the zero key, not under its own.
So what it accepts are the beacons that anyone can make: one string of bytes for each
epoch and root.
-/

open MachineInt

/-- `STATE_BEACON_WIRE_SIZE`. -/
def stateBeaconWireSize : Nat :=
  44

/-- `StateBeacon`. -/
@[ext] structure StateBeacon where
  epochId : UInt64
  smtRoot : Bytes32
  mac : Bytes4
  deriving DecidableEq

/-- `StateBeaconBroadcaster`. -/
structure StateBeaconBroadcaster where
  nodeKeyEpoch : Bytes32
  broadcastCount : UInt64
  receivedValidCount : UInt64
  receivedInvalidCount : UInt64
  deriving DecidableEq

/-- A call of the broadcaster. -/
inductive BeaconCall where
  | createBeacon (epochId : UInt64) (smtRoot : Bytes32)
  | receiveAndVerifyBeacon (beaconBytes : List UInt8)
  deriving DecidableEq

/-- What a call returns. -/
inductive BeaconAnswer where
  | created (bytes : List UInt8)
  | received (beacon : Option StateBeacon)
  deriving DecidableEq

section Beacons

variable (blake3 : List UInt8 → Bytes32)

/-- `compute_beacon_mac`. -/
def computeBeaconMac
    (nodeKeyEpoch : Bytes32)
    (epochId : UInt64)
    (smtRoot : Bytes32) : Bytes4 where
  bytes :=
    (blake3
      (domainBeacon ++ nodeKeyEpoch.bytes ++ toLeBytes epochId ++ smtRoot.bytes)).bytes.take 4
  length_eq := by rw [List.length_take, Bytes32.length_eq]; rfl

namespace StateBeacon

/-- `new`. -/
def new (epochId : UInt64) (smtRoot nodeKey : Bytes32) : StateBeacon where
  epochId
  smtRoot
  mac :=
    computeBeaconMac blake3 (deriveNodeKeyEpoch blake3 nodeKey epochId) epochId smtRoot

/-- `verify`. -/
def verify (beacon : StateBeacon) (nodeKey : Bytes32) : Bool :=
  let nodeKeyEpoch := deriveNodeKeyEpoch blake3 nodeKey beacon.epochId
  let expectedMac := computeBeaconMac blake3 nodeKeyEpoch beacon.epochId beacon.smtRoot
  decide (beacon.mac = expectedMac)

/-- `to_bytes`. -/
def toBytes (beacon : StateBeacon) : List UInt8 :=
  toLeBytes beacon.epochId ++ beacon.smtRoot.bytes ++ beacon.mac.bytes

/-- `from_bytes`. -/
def fromBytes
    (bytes : List UInt8)
    (wireSize : bytes.length = stateBeaconWireSize) : StateBeacon where
  epochId := fromLeBytes (byteSlice bytes 0 8)
  smtRoot := ⟨byteSlice bytes 8 32, length_byteSlice (by rw [wireSize]; decide)⟩
  mac := ⟨byteSlice bytes 40 4, length_byteSlice (by rw [wireSize]; decide)⟩

end StateBeacon

namespace StateBeaconBroadcaster

/-- `new`. -/
def new (nodeKeyEpoch : Bytes32) : StateBeaconBroadcaster where
  nodeKeyEpoch
  broadcastCount := 0
  receivedValidCount := 0
  receivedInvalidCount := 0

/-- `create_beacon`; a counter that does not fit stops the process. -/
def createBeacon
    (broadcaster : StateBeaconBroadcaster)
    (epochId : UInt64)
    (smtRoot : Bytes32) : Option (StateBeaconBroadcaster × List UInt8) := do
  let nodeKey := Bytes32.zero
  let beacon := StateBeacon.new blake3 epochId smtRoot nodeKey
  let broadcastCount ← checkedAdd broadcaster.broadcastCount 1
  some ({ broadcaster with broadcastCount }, beacon.toBytes)

/-- `receive_and_verify_beacon`. -/
def receiveAndVerifyBeacon
    (broadcaster : StateBeaconBroadcaster)
    (beaconBytes : List UInt8) : Option (StateBeaconBroadcaster × Option StateBeacon) :=
  if wireSize : beaconBytes.length = stateBeaconWireSize then
    let beacon := StateBeacon.fromBytes beaconBytes wireSize
    let nodeKey := Bytes32.zero
    if !beacon.verify blake3 nodeKey then do
      let receivedInvalidCount ← checkedAdd broadcaster.receivedInvalidCount 1
      some ({ broadcaster with receivedInvalidCount }, none)
    else do
      let receivedValidCount ← checkedAdd broadcaster.receivedValidCount 1
      some ({ broadcaster with receivedValidCount }, some beacon)
  else do
    let receivedInvalidCount ← checkedAdd broadcaster.receivedInvalidCount 1
    some ({ broadcaster with receivedInvalidCount }, none)

/-- Perform a call. -/
def perform
    (broadcaster : StateBeaconBroadcaster) :
    BeaconCall → Option (StateBeaconBroadcaster × BeaconAnswer)
  | .createBeacon epochId smtRoot =>
      (broadcaster.createBeacon blake3 epochId smtRoot).map fun next =>
        (next.1, .created next.2)
  | .receiveAndVerifyBeacon beaconBytes =>
      (broadcaster.receiveAndVerifyBeacon blake3 beaconBytes).map fun next =>
        (next.1, .received next.2)

/-- Perform calls one after the other. -/
def performAll :
    StateBeaconBroadcaster → List BeaconCall →
      Option (StateBeaconBroadcaster × List BeaconAnswer)
  | broadcaster, [] => some (broadcaster, [])
  | broadcaster, call :: rest => do
      let (broadcaster, answer) ← broadcaster.perform blake3 call
      let (broadcaster, answers) ← performAll broadcaster rest
      some (broadcaster, answer :: answers)

end StateBeaconBroadcaster

/-- The one string of bytes that is accepted for an epoch and a root. -/
def publicBeacon (epochId : UInt64) (smtRoot : Bytes32) : StateBeacon :=
  .new blake3 epochId smtRoot .zero

/-- The answer to a call, whatever was called before and whoever is asked. -/
def Answers : BeaconCall → BeaconAnswer → Prop
  | .createBeacon epochId smtRoot, .created bytes =>
      bytes = (publicBeacon blake3 epochId smtRoot).toBytes
  | .receiveAndVerifyBeacon beaconBytes, .received result =>
      ∀ beacon,
        result = some beacon ↔
          beacon = publicBeacon blake3 beacon.epochId beacon.smtRoot ∧
            beaconBytes = beacon.toBytes
  | _, _ =>
      False

end Beacons

/-- The answers that a counter counts. -/
def countsCreated : BeaconAnswer → Bool
  | .created _ => true
  | .received _ => false

def countsValid : BeaconAnswer → Bool
  | .received (some _) => true
  | _ => false

def countsInvalid : BeaconAnswer → Bool
  | .received none => true
  | _ => false

/-- The counters have counted answers on from a state. -/
structure CountsOn
    (before : StateBeaconBroadcaster)
    (answers : List BeaconAnswer)
    (after : StateBeaconBroadcaster) : Prop where
  broadcast :
    after.broadcastCount.toNat =
      before.broadcastCount.toNat + answers.countP countsCreated
  valid :
    after.receivedValidCount.toNat =
      before.receivedValidCount.toNat + answers.countP countsValid
  invalid :
    after.receivedInvalidCount.toNat =
      before.receivedInvalidCount.toNat + answers.countP countsInvalid

variable {blake3 : List UInt8 → Bytes32}

namespace StateBeacon

@[simp] theorem length_toBytes (beacon : StateBeacon) :
    beacon.toBytes.length = stateBeaconWireSize := by
  simp [toBytes, Bytes32.length_eq, beacon.mac.length_eq, stateBeaconWireSize]

/-- A string of the wire size is read as the beacon that is written so. -/
theorem fromBytes_eq_iff
    {bytes : List UInt8}
    {wireSize : bytes.length = stateBeaconWireSize}
    {beacon : StateBeacon} :
    fromBytes bytes wireSize = beacon ↔ bytes = beacon.toBytes := by
  constructor
  · rintro rfl
    have split := byteSlice_append_drop bytes
    have all : bytes.drop 44 = [] :=
      List.drop_eq_nil_of_le wireSize.le
    rw [toBytes, fromBytes]
    dsimp only
    rw [toLeBytes_fromLeBytes (length_byteSlice (by rw [wireSize]; decide))]
    calc bytes
      _ = byteSlice bytes 0 8 ++
            (byteSlice bytes 8 32 ++ (byteSlice bytes 40 4 ++ bytes.drop 44)) := by
        rw [split 40 4, split 8 32, split 0 8, List.drop_zero]
      _ = byteSlice bytes 0 8 ++ byteSlice bytes 8 32 ++ byteSlice bytes 40 4 := by
        rw [all, List.append_nil, List.append_assoc]
  · rintro rfl
    have skipped
        {field : List UInt8}
        {offset : Nat}
        (short : field.length ≤ offset) :
        field.drop offset = [] :=
      List.drop_eq_nil_of_le short
    apply StateBeacon.ext
    · have slice : byteSlice beacon.toBytes 0 8 = toLeBytes beacon.epochId := by
        simp [byteSlice, toBytes]
      rw [fromBytes, slice, fromLeBytes_toLeBytes]
    · apply Bytes32.ext
      simp [fromBytes, byteSlice, toBytes, List.drop_append, skipped,
        beacon.smtRoot.length_eq]
    · apply Bytes4.ext
      simp [fromBytes, byteSlice, toBytes, List.drop_append, skipped,
        beacon.smtRoot.length_eq, beacon.mac.length_eq]

/-- A beacon is valid under a key when it is made with that key. -/
theorem verify_iff {beacon : StateBeacon} {nodeKey : Bytes32} :
    beacon.verify blake3 nodeKey = true ↔
      beacon = new blake3 beacon.epochId beacon.smtRoot nodeKey := by
  rw [verify, decide_eq_true_iff, StateBeacon.ext_iff]
  exact ⟨fun sameMac => ⟨rfl, rfl, sameMac⟩, fun same => same.2.2⟩

end StateBeacon

namespace StateBeaconBroadcaster

variable {broadcaster : StateBeaconBroadcaster}

/-- The calls that the counters still have room for. -/
def Room (broadcaster : StateBeaconBroadcaster) (calls : Nat) : Prop :=
  broadcaster.broadcastCount.toNat + calls ≤ maxU64 ∧
    broadcaster.receivedValidCount.toNat + calls ≤ maxU64 ∧
    broadcaster.receivedInvalidCount.toNat + calls ≤ maxU64

theorem exists_checkedAdd_one {count : UInt64} (below : count.toNat + 1 ≤ maxU64) :
    ∃ count', checkedAdd count 1 = some count' ∧ count'.toNat = count.toNat + 1 :=
  ⟨_, checkedAdd_eq_some_iff.mpr (toNat_ofNat_of_le below), toNat_ofNat_of_le below⟩

/-- A call is answered as always, and counted. -/
theorem perform_spec
    (room : broadcaster.Room 1)
    (call : BeaconCall) :
    ∃ next answer,
      broadcaster.perform blake3 call = some (next, answer) ∧
        Answers blake3 call answer ∧ CountsOn broadcaster [answer] next := by
  obtain ⟨broadcastCount, isBroadcast, broadcast⟩ := exists_checkedAdd_one room.1
  obtain ⟨receivedValidCount, isValid, valid⟩ := exists_checkedAdd_one room.2.1
  obtain ⟨receivedInvalidCount, isInvalid, invalid⟩ := exists_checkedAdd_one room.2.2
  cases call with
  | createBeacon epochId smtRoot =>
      refine
        ⟨{ broadcaster with broadcastCount },
          .created (publicBeacon blake3 epochId smtRoot).toBytes, ?_, rfl,
          { broadcast := broadcast, valid := rfl, invalid := rfl }⟩
      simp [perform, createBeacon, isBroadcast, publicBeacon]
  | receiveAndVerifyBeacon beaconBytes =>
      by_cases wireSize : beaconBytes.length = stateBeaconWireSize
      · by_cases isPublic : (StateBeacon.fromBytes beaconBytes wireSize).verify blake3 .zero
        · refine
            ⟨{ broadcaster with receivedValidCount },
              .received (some (StateBeacon.fromBytes beaconBytes wireSize)), ?_, ?_,
              { broadcast := rfl, valid := valid, invalid := rfl }⟩
          · simp [perform, receiveAndVerifyBeacon, wireSize, isPublic, isValid]
          · intro beacon
            rw [Option.some_inj, ← @StateBeacon.fromBytes_eq_iff _ wireSize _]
            refine ⟨fun same => ⟨?_, same⟩, And.right⟩
            rw [← same]
            exact StateBeacon.verify_iff.mp isPublic
        · refine
            ⟨{ broadcaster with receivedInvalidCount }, .received none, ?_, ?_,
              { broadcast := rfl, valid := rfl, invalid := invalid }⟩
          · simp [perform, receiveAndVerifyBeacon, wireSize, isPublic, isInvalid]
          · intro beacon
            refine iff_of_false nofun ?_
            rintro ⟨same, isBytes⟩
            rw [← @StateBeacon.fromBytes_eq_iff _ wireSize _] at isBytes
            rw [isBytes] at isPublic
            exact isPublic (StateBeacon.verify_iff.mpr same)
      · refine
          ⟨{ broadcaster with receivedInvalidCount }, .received none, ?_, ?_,
            { broadcast := rfl, valid := rfl, invalid := invalid }⟩
        · simp [perform, receiveAndVerifyBeacon, wireSize, isInvalid]
        · intro beacon
          refine iff_of_false nofun ?_
          rintro ⟨_, rfl⟩
          exact wireSize beacon.length_toBytes

theorem performAll_spec
    {calls : List BeaconCall}
    (room : broadcaster.Room calls.length) :
    ∃ next answers,
      broadcaster.performAll blake3 calls = some (next, answers) ∧
        List.Forall₂ (Answers blake3) calls answers ∧
        CountsOn broadcaster answers next := by
  induction calls generalizing broadcaster with
  | nil =>
      exact
        ⟨broadcaster, [], rfl, .nil, { broadcast := rfl, valid := rfl, invalid := rfl }⟩
  | cons call rest inductionHypothesis =>
      obtain ⟨roomBroadcast, roomValid, roomInvalid⟩ := room
      rw [List.length_cons] at roomBroadcast roomValid roomInvalid
      obtain ⟨middle, answer, performed, isAnswer, counts⟩ :=
        @perform_spec blake3 broadcaster ⟨by omega, by omega, by omega⟩ call
      have atMost (isCounted : BeaconAnswer → Bool) : [answer].countP isCounted ≤ 1 :=
        List.countP_le_length
      have broadcastOne := atMost countsCreated
      have validOne := atMost countsValid
      have invalidOne := atMost countsInvalid
      obtain ⟨isBroadcast, isValid, isInvalid⟩ := counts
      obtain ⟨next, answers, performedRest, areAnswers, countsRest⟩ :=
        @inductionHypothesis middle ⟨by omega, by omega, by omega⟩
      have both (isCounted : BeaconAnswer → Bool) :
          (answer :: answers).countP isCounted =
            [answer].countP isCounted + answers.countP isCounted := by
        rw [← List.countP_append, List.singleton_append]
      refine
        ⟨next, answer :: answers, by simp [performAll, performed, performedRest],
          .cons isAnswer areAnswers, ?_⟩
      exact
        { broadcast := by rw [countsRest.broadcast, both]; omega
          valid := by rw [countsRest.valid, both]; omega
          invalid := by rw [countsRest.invalid, both]; omega }

/--
Whatever key a broadcaster has and whatever it was called with before, it makes the
public beacon of an epoch and a root, accepts exactly the bytes of public beacons, as
the beacons that they are, and counts what it made, accepted and rejected.
-/
theorem beacon_relays
    (nodeKeyEpoch : Bytes32)
    {calls : List BeaconCall}
    (fits : calls.length ≤ maxU64) :
    ∃ broadcaster answers,
      (new nodeKeyEpoch).performAll blake3 calls = some (broadcaster, answers) ∧
        List.Forall₂ (Answers blake3) calls answers ∧
        CountsOn (new nodeKeyEpoch) answers broadcaster := by
  apply performAll_spec
  refine ⟨?_, ?_, ?_⟩ <;> rw [new, UInt64.toNat_zero, Nat.zero_add] <;> exact fits

/-- A beacon that another broadcaster made, and no bytes at all. -/
def sampleCalls : List BeaconCall :=
  [.receiveAndVerifyBeacon (publicBeacon (fun _ => .zero) 7 .zero).toBytes,
    .receiveAndVerifyBeacon []]

/-- The first is accepted and counted. -/
theorem beacon_relays_sample :
    ∃ broadcaster answers,
      (new (.endingIn 1)).performAll (fun _ => .zero) sampleCalls =
        some (broadcaster, answers) ∧
        answers[0]? = some (.received (some (publicBeacon (fun _ => .zero) 7 .zero))) := by
  have fits : sampleCalls.length ≤ maxU64 :=
    show 2 ≤ maxU64 by decide
  obtain ⟨broadcaster, answers, performed, areAnswers, _⟩ :=
    beacon_relays (.endingIn 1) fits
  refine ⟨broadcaster, answers, performed, ?_⟩
  obtain ⟨answer, rest, isAnswer, _, rfl⟩ := List.forall₂_cons_left_iff.mp areAnswers
  cases answer with
  | created bytes =>
      cases isAnswer
  | received result =>
      rw [List.getElem?_cons_zero, (isAnswer (publicBeacon _ 7 .zero)).mpr ⟨rfl, rfl⟩]

end StateBeaconBroadcaster

end ScalarCore
