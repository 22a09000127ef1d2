import ScalarCore.Heartbeat
import ScalarCore.KeyedWrites

namespace ScalarCore

/-!
# Heartbeats of an epoch

The tracker counts the heartbeats recorded for a node and an epoch and keeps
the last one.  It looks at neither their sequence numbers nor whether one was
recorded before, so its count is that of the different numbers only while none
is repeated.
-/

open KeyedWrites

/-- The count and the last heartbeat of each node in each epoch. -/
structure EpochTracker where
  counts : Finmap fun _ : Bytes4 × UInt64 => UInt32
  lastHb : Finmap fun _ : Bytes4 × UInt64 => HeartbeatUnit

/-- A call of `record_heartbeat`. -/
structure RecordCall where
  hb : HeartbeatUnit
  epochId : UInt64
  deriving DecidableEq

/-- What a call records under. -/
def RecordCall.key (call : RecordCall) : Bytes4 × UInt64 :=
  (call.hb.nodeId, call.epochId)

namespace EpochTracker

/-- `new`. -/
def new : EpochTracker where
  counts := ∅
  lastHb := ∅

/-- `hb_count`. -/
def hbCount
    (tracker : EpochTracker)
    (nodeId : Bytes4)
    (epochId : UInt64) : UInt32 :=
  (tracker.counts.lookup (nodeId, epochId)).getD 0

/-- `record_heartbeat`; the count is that of a machine word. -/
def recordHeartbeat
    (tracker : EpochTracker)
    (hb : HeartbeatUnit)
    (epochId : UInt64) : EpochTracker where
  counts :=
    tracker.counts.insert (hb.nodeId, epochId)
      (tracker.hbCount hb.nodeId epochId + 1)
  lastHb := tracker.lastHb.insert (hb.nodeId, epochId) hb

/-- `is_end_epoch`. -/
def isEndEpoch
    (tracker : EpochTracker)
    (nodeId : Bytes4)
    (epochId : UInt64) : Bool :=
  decide (tracker.hbCount nodeId epochId ≥ epochHbCount)

/-- `last_heartbeat`. -/
def lastHeartbeat
    (tracker : EpochTracker)
    (nodeId : Bytes4)
    (epochId : UInt64) : Option HeartbeatUnit :=
  tracker.lastHb.lookup (nodeId, epochId)

/-- The tracker after calls in order. -/
def afterCalls (calls : List RecordCall) : EpochTracker :=
  calls.foldl
    (fun tracker call => tracker.recordHeartbeat call.hb call.epochId) new

/-- The heartbeats that calls record for a node in an epoch, in order. -/
def recordedFor
    (calls : List RecordCall)
    (nodeId : Bytes4)
    (epochId : UInt64) : List HeartbeatUnit :=
  (calls.filter fun call => call.key = (nodeId, epochId)).map RecordCall.hb

variable {calls : List RecordCall} {nodeId : Bytes4} {epochId : UInt64}

@[simp] theorem afterCalls_concat (calls : List RecordCall) (call : RecordCall) :
    afterCalls (calls ++ [call]) =
      (afterCalls calls).recordHeartbeat call.hb call.epochId :=
  List.foldl_concat _ _ _ _

/-- Recording adds one to the count of its node in its epoch. -/
theorem hbCount_recordHeartbeat
    (tracker : EpochTracker)
    (call : RecordCall) :
    (tracker.recordHeartbeat call.hb call.epochId).hbCount nodeId epochId =
      if call.key = (nodeId, epochId) then
        tracker.hbCount nodeId epochId + 1
      else
        tracker.hbCount nodeId epochId := by
  rw [hbCount, recordHeartbeat, getD_lookup_insert]
  by_cases same : call.key = (nodeId, epochId)
  · obtain ⟨rfl, rfl⟩ := Prod.mk.inj same
    rw [if_pos rfl, if_pos same]
  · have different : (nodeId, epochId) ≠ (call.hb.nodeId, call.epochId) :=
      Ne.symm same
    rw [if_neg same, if_neg different, hbCount]

/-- A call records one more heartbeat for its node in its epoch. -/
theorem recordedFor_concat (calls : List RecordCall) (call : RecordCall) :
    recordedFor (calls ++ [call]) nodeId epochId =
      if call.key = (nodeId, epochId) then
        recordedFor calls nodeId epochId ++ [call.hb]
      else
        recordedFor calls nodeId epochId := by
  by_cases same : call.key = (nodeId, epochId)
  · simp [recordedFor, List.filter_append, same]
  · simp [recordedFor, List.filter_append, same]

/-- The count is the number of calls, as a machine word. -/
theorem hbCount_afterCalls (calls : List RecordCall) :
    ((afterCalls calls).hbCount nodeId epochId).toNat =
      (recordedFor calls nodeId epochId).length % 2 ^ 32 := by
  induction calls using List.reverseRecOn with
  | nil =>
      rfl
  | append_singleton calls call inductionHypothesis =>
      rw [afterCalls_concat, hbCount_recordHeartbeat, recordedFor_concat]
      by_cases same : call.key = (nodeId, epochId)
      · rw [if_pos same, if_pos same, UInt32.toNat_add, inductionHypothesis,
          List.length_append, List.length_singleton]
        exact Nat.mod_add_mod _ _ _
      · rw [if_neg same, if_neg same, inductionHypothesis]

/-- The last heartbeats are those that the calls write last. -/
theorem lastHb_afterCalls (calls : List RecordCall) :
    (afterCalls calls).lastHb =
      writeAll RecordCall.key RecordCall.hb ∅ calls := by
  induction calls using List.reverseRecOn with
  | nil =>
      rfl
  | append_singleton calls call inductionHypothesis =>
      have written :
          writeAll RecordCall.key RecordCall.hb ∅ (calls ++ [call]) =
            (writeAll RecordCall.key RecordCall.hb ∅ calls).insert call.key
              call.hb :=
        List.foldl_concat _ _ _ _
      rw [afterCalls_concat, written, ← inductionHypothesis]
      rfl

/-- The last heartbeat is the one recorded last. -/
theorem lastHeartbeat_afterCalls (calls : List RecordCall) :
    (afterCalls calls).lastHeartbeat nodeId epochId =
      (recordedFor calls nodeId epochId).getLast? := by
  rw [lastHeartbeat, lastHb_afterCalls, lookup_writeAll, Finmap.lookup_empty,
    Option.or_none, lastFor, recordedFor, List.getLast?_map]

/-- An epoch ends with as many calls as it has heartbeats. -/
theorem isEndEpoch_iff (calls : List RecordCall) :
    (afterCalls calls).isEndEpoch nodeId epochId = true ↔
      epochHbCount.toNat ≤
        (recordedFor calls nodeId epochId).length % 2 ^ 32 := by
  rw [isEndEpoch, decide_eq_true_iff, ge_iff_le, UInt32.le_iff_toNat_le,
    hbCount_afterCalls]

/-- The sequence numbers recorded for a node in an epoch. -/
def seqNumsFor
    (calls : List RecordCall)
    (nodeId : Bytes4)
    (epochId : UInt64) : List UInt32 :=
  (recordedFor calls nodeId epochId).map HeartbeatUnit.seqNum

/-- The number of different sequence numbers recorded. -/
def distinctSeqNums
    (calls : List RecordCall)
    (nodeId : Bytes4)
    (epochId : UInt64) : Nat :=
  (seqNumsFor calls nodeId epochId).toFinset.card

theorem length_seqNumsFor :
    (seqNumsFor calls nodeId epochId).length =
      (recordedFor calls nodeId epochId).length :=
  List.length_map _

/-- As many numbers as calls are different when none is repeated. -/
theorem length_eq_distinct_iff :
    (recordedFor calls nodeId epochId).length =
        distinctSeqNums calls nodeId epochId ↔
      (seqNumsFor calls nodeId epochId).Nodup := by
  rw [← length_seqNumsFor, distinctSeqNums, eq_comm]
  exact
    Multiset.toFinset_card_eq_card_iff_nodup
      (m := (seqNumsFor calls nodeId epochId : Multiset UInt32))

/-- The last heartbeat is one of greatest sequence number. -/
def LastIsGreatest
    (calls : List RecordCall)
    (nodeId : Bytes4)
    (epochId : UInt64) : Prop :=
  ∀ last,
    (afterCalls calls).lastHeartbeat nodeId epochId = some last →
    ∀ hb ∈ recordedFor calls nodeId epochId, hb.seqNum ≤ last.seqNum

/-- The epoch ends only after as many different sequence numbers as it has. -/
def EndsAfterDistinct
    (calls : List RecordCall)
    (nodeId : Bytes4)
    (epochId : UInt64) : Prop :=
  (afterCalls calls).isEndEpoch nodeId epochId = true →
    epochHbCount.toNat ≤ distinctSeqNums calls nodeId epochId

/--
The tracker counts calls and keeps the last one, in every order of the calls
the same count; it counts different sequence numbers where none is repeated.
-/
structure CountsCalls
    (calls : List RecordCall)
    (nodeId : Bytes4)
    (epochId : UInt64) : Prop where
  count :
    ((afterCalls calls).hbCount nodeId epochId).toNat =
      (recordedFor calls nodeId epochId).length % 2 ^ 32
  last :
    (afterCalls calls).lastHeartbeat nodeId epochId =
      (recordedFor calls nodeId epochId).getLast?
  ends :
    (afterCalls calls).isEndEpoch nodeId epochId = true ↔
      epochHbCount.toNat ≤
        (recordedFor calls nodeId epochId).length % 2 ^ 32
  anyOrder : ∀ calls' : List RecordCall,
    calls'.Perm calls →
      (afterCalls calls').hbCount nodeId epochId =
          (afterCalls calls).hbCount nodeId epochId ∧
        (afterCalls calls').isEndEpoch nodeId epochId =
          (afterCalls calls).isEndEpoch nodeId epochId
  distinct :
    (recordedFor calls nodeId epochId).length < 2 ^ 32 →
      (((afterCalls calls).hbCount nodeId epochId).toNat =
          distinctSeqNums calls nodeId epochId ↔
        (seqNumsFor calls nodeId epochId).Nodup)
  greatest :
    LastIsGreatest calls nodeId epochId ↔
      ∀ last,
        (seqNumsFor calls nodeId epochId).getLast? = some last →
        ∀ seqNum ∈ seqNumsFor calls nodeId epochId, seqNum ≤ last
  endsAfterDistinct :
    (seqNumsFor calls nodeId epochId).Nodup →
      EndsAfterDistinct calls nodeId epochId

/-- The same calls in another order record as many heartbeats. -/
theorem hbCount_perm
    {calls' : List RecordCall}
    (reordered : calls'.Perm calls) :
    (afterCalls calls').hbCount nodeId epochId =
      (afterCalls calls).hbCount nodeId epochId := by
  have sameLength :
      (recordedFor calls' nodeId epochId).length =
        (recordedFor calls nodeId epochId).length :=
    ((reordered.filter _).map _).length_eq
  rw [← UInt32.toNat_inj, hbCount_afterCalls, hbCount_afterCalls, sameLength]

/-- The last heartbeat has the last sequence number. -/
theorem lastIsGreatest_iff :
    LastIsGreatest calls nodeId epochId ↔
      ∀ last,
        (seqNumsFor calls nodeId epochId).getLast? = some last →
        ∀ seqNum ∈ seqNumsFor calls nodeId epochId, seqNum ≤ last := by
  unfold LastIsGreatest seqNumsFor
  rw [lastHeartbeat_afterCalls, List.getLast?_map]
  constructor
  · intro greatest last isLast seqNum listed
    obtain ⟨lastHb, isLastHb, rfl⟩ := Option.map_eq_some_iff.mp isLast
    obtain ⟨hb, isRecorded, rfl⟩ := List.mem_map.mp listed
    exact greatest lastHb isLastHb hb isRecorded
  · intro greatest last isLast hb isRecorded
    exact
      greatest last.seqNum (Option.map_eq_some_iff.mpr ⟨last, isLast, rfl⟩)
        hb.seqNum (List.mem_map_of_mem isRecorded)

/-- The tracker counts calls. -/
theorem epochTracker_counts_calls
    (calls : List RecordCall)
    (nodeId : Bytes4)
    (epochId : UInt64) :
    CountsCalls calls nodeId epochId where
  count := hbCount_afterCalls calls
  last := lastHeartbeat_afterCalls calls
  ends := isEndEpoch_iff calls
  anyOrder _ reordered := by
    have sameCount :
        (afterCalls _).hbCount nodeId epochId =
          (afterCalls calls).hbCount nodeId epochId :=
      hbCount_perm reordered
    exact ⟨sameCount, by rw [isEndEpoch, isEndEpoch, sameCount]⟩
  distinct few := by
    rw [hbCount_afterCalls, Nat.mod_eq_of_lt few, length_eq_distinct_iff]
  greatest := lastIsGreatest_iff
  endsAfterDistinct different ended := by
    rw [← length_eq_distinct_iff.mpr different]
    exact ((isEndEpoch_iff calls).mp ended).trans (Nat.mod_le _ _)

/-- A heartbeat of a node with some sequence number, in the first epoch. -/
def recordSeqNum (seqNum : UInt32) : RecordCall where
  hb :=
    { nodeId := Bytes4.replicate 1
      seqNum
      timestamp := 0
      smtRoot := Bytes32.zero
      imtFrontier := Bytes32.zero
      imtCount := 0
      prevHash := Bytes32.zero
      mac := Bytes32.zero }
  epochId := 0

/-- One heartbeat recorded again and again. -/
theorem recordedFor_replicate (count : Nat) (seqNum : UInt32) :
    recordedFor (List.replicate count (recordSeqNum seqNum))
        (Bytes4.replicate 1) 0 =
      List.replicate count (recordSeqNum seqNum).hb := by
  have isFor : (recordSeqNum seqNum).key = (Bytes4.replicate 1, 0) := rfl
  simp [recordedFor, isFor]

/--
A replay is counted, an older heartbeat recorded later is the last one, and one
heartbeat recorded often enough ends the epoch.
-/
theorem replays_advance_epoch :
    (¬ ∀ calls nodeId epochId,
        ((afterCalls calls).hbCount nodeId epochId).toNat =
          distinctSeqNums calls nodeId epochId) ∧
      (¬ ∀ calls nodeId epochId, LastIsGreatest calls nodeId epochId) ∧
      ¬ ∀ calls nodeId epochId, EndsAfterDistinct calls nodeId epochId := by
  refine ⟨?_, ?_, ?_⟩
  · intro always
    have replayed :=
      always [recordSeqNum 1, recordSeqNum 1] (Bytes4.replicate 1) 0
    exact absurd replayed (by decide)
  · intro always
    have reversed :=
      lastIsGreatest_iff.mp
        (always [recordSeqNum 2, recordSeqNum 1] (Bytes4.replicate 1) 0) 1 rfl
        2 (by decide)
    exact absurd reversed (by decide)
  · intro always
    have ended :=
      always (List.replicate 4320 (recordSeqNum 1)) (Bytes4.replicate 1) 0
    have isEnd :
        epochHbCount.toNat ≤
          distinctSeqNums (List.replicate 4320 (recordSeqNum 1))
            (Bytes4.replicate 1) 0 := by
      apply ended
      rw [isEndEpoch_iff, recordedFor_replicate, List.length_replicate]
      decide
    rw [distinctSeqNums, seqNumsFor, recordedFor_replicate,
      List.map_replicate, List.toFinset_replicate_of_ne_zero (by decide),
      Finset.card_singleton] at isEnd
    exact absurd isEnd (by decide)

end EpochTracker

end ScalarCore
