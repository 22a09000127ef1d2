import ScalarCore.DmmRequestLimiter
import ScalarCore.MachineInt
import ScalarCore.SlidingWindow

namespace ScalarCore

/-!
# The relay node

A relay passes a message on when its sequence number is above the last one of its
node and fewer than ten messages of the node are younger than a minute.  As long as
the clock does not run back, this limits every minute, whatever messages come.
-/

open KeyedWrites MachineInt SlidingWindow StateMachine

/-- `RelayNode`. -/
structure RelayNode where
  seqNums : Finmap fun _ : Bytes32 => UInt64
  rateLimits : Finmap fun _ : Bytes32 => List UInt64
  phase2RunCount : UInt64

/-- The arguments of `validate_and_relay`; the payload is not looked at. -/
structure RelayMessage where
  nodeId : Bytes32
  seqNum : UInt64
  timestampMs : UInt64
  deriving DecidableEq

namespace RelayNode

/-- `new`. -/
def new : RelayNode where
  seqNums := ∅
  rateLimits := ∅
  phase2RunCount := 0

/-- `rate_limits.entry(node_id).or_default()`. -/
def timestamps (relay : RelayNode) (nodeId : Bytes32) : List UInt64 :=
  (relay.rateLimits.lookup nodeId).getD []

/-- The sequence number is not above the last one of the node. -/
def replayed (relay : RelayNode) (message : RelayMessage) : Bool :=
  match relay.seqNums.lookup message.nodeId with
  | some lastSeq => decide (message.seqNum ≤ lastSeq)
  | none => false

/-- The timestamps of the node that are younger than a minute. -/
def retained (relay : RelayNode) (message : RelayMessage) : List UInt64 :=
  (relay.timestamps message.nodeId).filter fun ts =>
    decide (saturatingSub message.timestampMs ts < 60000)

/-- `validate_and_relay`. -/
def validateAndRelay
    (relay : RelayNode)
    (message : RelayMessage) :
    RelayNode × Except String Unit :=
  if relay.replayed message then
    (relay, .error "Phase 1 Failed: seq_num is not strictly monotonic")
  else if (relay.retained message).length ≥ 10 then
    -- the old timestamps are dropped all the same
    ({ relay with
        rateLimits := relay.rateLimits.insert message.nodeId (relay.retained message) },
      .error "Phase 1 Failed: Rate limit exceeded (10 per minute)")
  else
    ({ seqNums := relay.seqNums.insert message.nodeId message.seqNum
       rateLimits :=
         relay.rateLimits.insert message.nodeId
           (relay.retained message ++ [message.timestampMs])
       phase2RunCount := relay.phase2RunCount + 1 },
      .ok ())

/-- The messages that are passed on. -/
def relayed (relay : RelayNode) (messages : List RelayMessage) : List RelayMessage :=
  accepted Except.isOk validateAndRelay relay messages

/-- The messages of one node. -/
def messagesOf (nodeId : Bytes32) (messages : List RelayMessage) : List RelayMessage :=
  messages.filter fun message => decide (message.nodeId = nodeId)

/-- The times of the messages of one node. -/
def timesOf (nodeId : Bytes32) (messages : List RelayMessage) : List Nat :=
  (messagesOf nodeId messages).map fun message => message.timestampMs.toNat

theorem messagesOf_append_self (messages : List RelayMessage) (message : RelayMessage) :
    messagesOf message.nodeId (messages ++ [message]) =
      messagesOf message.nodeId messages ++ [message] := by
  rw [messagesOf, List.filter_append, List.filter_cons_of_pos (by simp), List.filter_nil]
  rfl

theorem messagesOf_append_other
    {nodeId : Bytes32}
    (messages : List RelayMessage)
    {message : RelayMessage}
    (other : message.nodeId ≠ nodeId) :
    messagesOf nodeId (messages ++ [message]) = messagesOf nodeId messages := by
  rw [messagesOf, List.filter_append, List.filter_cons_of_neg (by simpa using other),
    List.filter_nil, List.append_nil]
  rfl

/-- What the relay knows of a node agrees with the messages it passed on by now. -/
structure Consistent
    (relay : RelayNode)
    (passed : List RelayMessage)
    (now : Nat) :
    Prop where
  covers :
    ∀ nodeId,
      Covers 60000 now ((relay.timestamps nodeId).map UInt64.toNat) (timesOf nodeId passed)
  last :
    ∀ nodeId, ∀ message ∈ messagesOf nodeId passed,
      ∃ lastSeq, relay.seqNums.lookup nodeId = some lastSeq ∧ message.seqNum ≤ lastSeq
  increasing :
    ∀ nodeId, (messagesOf nodeId passed).Pairwise fun earlier later =>
      earlier.seqNum < later.seqNum
  bounded : ∀ nodeId, WindowBounded 60000 10 (timesOf nodeId passed)

theorem consistent_new (now : Nat) : Consistent new [] now where
  covers _ := covers_nil 60000 now
  last _ _ listed := absurd listed List.not_mem_nil
  increasing _ := List.Pairwise.nil
  bounded _ := windowBounded_nil 60000 10

/-- The clock may go on. -/
theorem Consistent.mono
    {relay : RelayNode}
    {passed : List RelayMessage}
    {now later : Nat}
    (consistent : Consistent relay passed now)
    (inOrder : now ≤ later) :
    Consistent relay passed later where
  covers nodeId := (consistent.covers nodeId).mono inOrder
  last := consistent.last
  increasing := consistent.increasing
  bounded := consistent.bounded

theorem map_toNat_retained (relay : RelayNode) (message : RelayMessage) :
    (relay.retained message).map UInt64.toNat =
      recent 60000 message.timestampMs.toNat
        ((relay.timestamps message.nodeId).map UInt64.toNat) := by
  have minute : (60000 : UInt64).toNat = 60000 := rfl
  rw [retained, recent, List.filter_map]
  congr 1
  apply List.filter_congr
  intro ts _
  rw [Function.comp_apply, decide_eq_decide, UInt64.lt_iff_toNat_lt, toNat_saturatingSub, minute]

theorem timestamps_insert
    (relay : RelayNode)
    (nodeId other : Bytes32)
    (kept : List UInt64) :
    ((relay.rateLimits.insert nodeId kept).lookup other).getD [] =
      if other = nodeId then kept else relay.timestamps other :=
  getD_lookup_insert relay.rateLimits nodeId other kept []

/-- A refused message only drops old timestamps. -/
theorem Consistent.retained
    {relay : RelayNode}
    {passed : List RelayMessage}
    {message : RelayMessage}
    (consistent : Consistent relay passed message.timestampMs.toNat) :
    Consistent
      { relay with
        rateLimits := relay.rateLimits.insert message.nodeId (relay.retained message) }
      passed message.timestampMs.toNat where
  covers nodeId := by
    rw [timestamps, timestamps_insert]
    split
    · next isNode =>
        rw [map_toNat_retained, isNode]
        exact (consistent.covers message.nodeId).recent
    · exact consistent.covers nodeId
  last := consistent.last
  increasing := consistent.increasing
  bounded := consistent.bounded

/-- A message that is passed on is the last of its node, and one of ten in its minute. -/
theorem Consistent.passOn
    {relay : RelayNode}
    {passed : List RelayMessage}
    {message : RelayMessage}
    (consistent : Consistent relay passed message.timestampMs.toNat)
    (fresh : relay.replayed message = false)
    (below : (relay.retained message).length < 10) :
    Consistent
      { seqNums := relay.seqNums.insert message.nodeId message.seqNum
        rateLimits :=
          relay.rateLimits.insert message.nodeId
            (relay.retained message ++ [message.timestampMs])
        phase2RunCount := relay.phase2RunCount + 1 }
      (passed ++ [message]) message.timestampMs.toNat := by
  have above : ∀ earlier ∈ messagesOf message.nodeId passed, earlier.seqNum < message.seqNum := by
    intro earlier listed
    obtain ⟨lastSeq, isLast, atMost⟩ := consistent.last message.nodeId earlier listed
    rw [replayed, isLast] at fresh
    exact UInt64.lt_of_le_of_lt atMost (UInt64.not_le.mp (of_decide_eq_false fresh))
  have few :
      (recent 60000 message.timestampMs.toNat (timesOf message.nodeId passed)).length < 10 := by
    rw [← consistent.covers message.nodeId _ (Nat.le_refl _), ← map_toNat_retained,
      List.length_map]
    exact below
  constructor
  case covers =>
    intro nodeId
    by_cases isNode : nodeId = message.nodeId
    · rw [timestamps, timestamps_insert, if_pos isNode, isNode, timesOf, messagesOf_append_self,
        List.map_append, List.map_append, map_toNat_retained]
      exact (consistent.covers message.nodeId).recent.append _
    · rw [timestamps, timestamps_insert, if_neg isNode, timesOf,
        messagesOf_append_other passed (Ne.symm isNode)]
      exact consistent.covers nodeId
  case last =>
    intro nodeId
    by_cases isNode : nodeId = message.nodeId
    · rw [isNode, messagesOf_append_self]
      intro other listed
      refine ⟨message.seqNum, Finmap.lookup_insert _, ?_⟩
      obtain earlier | isLast := List.mem_append.mp listed
      · exact UInt64.le_of_lt (above other earlier)
      · rw [List.mem_singleton.mp isLast]
        exact UInt64.le_refl _
    · rw [messagesOf_append_other passed (Ne.symm isNode), Finmap.lookup_insert_of_ne _ isNode]
      exact consistent.last nodeId
  case increasing =>
    intro nodeId
    by_cases isNode : nodeId = message.nodeId
    · rw [isNode, messagesOf_append_self]
      refine List.pairwise_append.mpr ⟨consistent.increasing _, List.pairwise_singleton _ _, ?_⟩
      intro earlier listed last isLast
      rw [List.mem_singleton.mp isLast]
      exact above earlier listed
    · rw [messagesOf_append_other passed (Ne.symm isNode)]
      exact consistent.increasing nodeId
  case bounded =>
    intro nodeId
    by_cases isNode : nodeId = message.nodeId
    · rw [isNode, timesOf, messagesOf_append_self, List.map_append]
      exact (consistent.bounded message.nodeId).append few
    · rw [timesOf, messagesOf_append_other passed (Ne.symm isNode)]
      exact consistent.bounded nodeId

/-- One call keeps what the relay knows in step with the messages it passed on. -/
theorem Consistent.validateAndRelay
    {relay : RelayNode}
    {passed : List RelayMessage}
    {message : RelayMessage}
    (consistent : Consistent relay passed message.timestampMs.toNat) :
    Consistent (relay.validateAndRelay message).1
      (passed ++ if (relay.validateAndRelay message).2.isOk then [message] else [])
      message.timestampMs.toNat := by
  unfold RelayNode.validateAndRelay
  split
  · rw [if_neg (by exact Bool.false_ne_true), List.append_nil]
    exact consistent
  · next fresh =>
      split
      · rw [if_neg (by exact Bool.false_ne_true), List.append_nil]
        exact consistent.retained
      · next below =>
          rw [if_pos (by rfl)]
          exact consistent.passOn (Bool.not_eq_true _ ▸ fresh) (Nat.not_le.mp below)

/-- The messages come in the order of their timestamps. -/
def InOrder (messages : List RelayMessage) : Prop :=
  messages.Pairwise fun earlier later => earlier.timestampMs ≤ later.timestampMs

/-- Along a run the relay stays in step with the messages it passed on. -/
theorem Consistent.run
    {relay : RelayNode}
    {passed messages : List RelayMessage}
    {now : Nat}
    (consistent : Consistent relay passed now)
    (inOrder : InOrder messages)
    (later : ∀ message ∈ messages, now ≤ message.timestampMs.toNat) :
    ∃ now', Consistent (run RelayNode.validateAndRelay relay messages)
      (passed ++ relay.relayed messages) now' := by
  induction messages generalizing relay passed now with
  | nil =>
      refine ⟨now, ?_⟩
      rw [relayed, accepted_nil, List.append_nil]
      exact consistent
  | cons message rest inductionHypothesis =>
      obtain ⟨restLater, restInOrder⟩ := List.pairwise_cons.mp inOrder
      have stepped :=
        (consistent.mono (later message List.mem_cons_self)).validateAndRelay
      have after :=
        inductionHypothesis stepped restInOrder fun other listed =>
          UInt64.le_iff_toNat_le.mp (restLater other listed)
      rw [List.append_assoc] at after
      rw [run_cons]
      cases answer : (relay.validateAndRelay message).2.isOk with
      | true =>
          rw [answer, if_pos rfl] at after
          rw [relayed, accepted_cons_of_ok answer]
          exact after
      | false =>
          rw [answer, if_neg Bool.false_ne_true] at after
          rw [relayed, accepted_cons_of_refused answer]
          exact after

/-- What is asked of the messages that a relay passes on. -/
structure WithinLimits (passed : List RelayMessage) : Prop where
  /-- The sequence numbers of a node are strictly increasing. -/
  increasing :
    ∀ nodeId, (messagesOf nodeId passed).Pairwise fun earlier later =>
      earlier.seqNum < later.seqNum
  /-- In a half-open minute there are ten messages of a node at most. -/
  bounded :
    ∀ (nodeId : Bytes32) (start : Nat),
      ((timesOf nodeId passed).filter fun time =>
        decide (start ≤ time ∧ time < start + 60000)).length ≤ 10

/-- The limits hold for every run of a new relay whose clock does not run back. -/
theorem withinLimits_relayed
    {messages : List RelayMessage}
    (inOrder : InOrder messages) :
    WithinLimits (new.relayed messages) := by
  obtain ⟨now, consistent⟩ :=
    (consistent_new 0).run inOrder fun _ _ => Nat.zero_le _
  exact ⟨consistent.increasing, consistent.bounded⟩

end RelayNode

open DmmRequestRateLimiter (LimitHolds StretchesWithinLimit)
open RelayNode (InOrder)
open Stretches (NeverReturns)

/-- A node that uses up epoch 1, asks once in epoch 2, and asks in epoch 1 again. -/
def returningRequests : List DmmRequest :=
  List.replicate 10 ⟨.replicate 1, 1⟩ ++ [⟨.replicate 1, 2⟩, ⟨.replicate 1, 1⟩]

/-- The node is answered eleven times in epoch 1. -/
theorem returningRequests_exceed :
    ¬ ((∀ epoch requests, LimitHolds epoch requests) ∧
      ∀ messages, InOrder messages →
        RelayNode.WithinLimits (RelayNode.new.relayed messages)) := by
  rintro ⟨always, -⟩
  have counted :=
    DmmRequestRateLimiter.count_answered_new 1 returningRequests ⟨.replicate 1, 1⟩
  have eleven :
      ((Stretches.stretches DmmRequest.epoch returningRequests).map fun stretch =>
        min 10 (stretch.count ⟨.replicate 1, 1⟩)).sum = 11 := by
    decide
  have atMost := always 1 returningRequests ⟨.replicate 1, 1⟩
  rw [counted, eleven] at atMost
  exact absurd atMost (by decide)

/--
The limiter's bound holds exactly when the stretches of one epoch, with ten of each
request counted in a stretch, hold ten of each request at most, as they do when no
epoch is entered a second time; and the relay's limits hold along every run whose
clock does not run back.
-/
theorem request_limits_iff
    (epoch : UInt64)
    (requests : List DmmRequest)
    (messages : List RelayMessage) :
    (LimitHolds epoch requests ↔ StretchesWithinLimit requests) ∧
      (NeverReturns DmmRequest.epoch requests → LimitHolds epoch requests) ∧
      (InOrder messages → RelayNode.WithinLimits (RelayNode.new.relayed messages)) :=
  ⟨DmmRequestRateLimiter.limitHolds_iff epoch requests,
    DmmRequestRateLimiter.limitHolds_of_neverReturns epoch,
    RelayNode.withinLimits_relayed⟩

/-- Two messages in one millisecond, the second with the sequence number of the first. -/
def repeatedMessages : List RelayMessage :=
  [⟨.replicate 1, 10, 1000⟩, ⟨.replicate 1, 10, 1000⟩]

/-- The limits hold for the requests of one epoch and for the repeated message. -/
theorem request_limits_repeated :
    NeverReturns DmmRequest.epoch (List.replicate 11 (⟨.replicate 1, 1⟩ : DmmRequest)) ∧
      LimitHolds 1 (List.replicate 11 ⟨.replicate 1, 1⟩) ∧
      InOrder repeatedMessages ∧
      RelayNode.WithinLimits (RelayNode.new.relayed repeatedMessages) := by
  have oneEpoch :
      NeverReturns DmmRequest.epoch
        (List.replicate 11 (⟨.replicate 1, 1⟩ : DmmRequest)) := by
    intro request request' request'' listed _
    have first := List.eq_of_mem_replicate (listed.subset (List.mem_cons_self ..))
    have second :=
      List.eq_of_mem_replicate (listed.subset (List.mem_cons_of_mem _ (List.mem_cons_self ..)))
    rw [first, second]
  have inOrder : InOrder repeatedMessages := by
    unfold InOrder
    decide
  have limits := request_limits_iff 1 (List.replicate 11 ⟨.replicate 1, 1⟩) repeatedMessages
  exact ⟨oneEpoch, limits.2.1 oneEpoch, inOrder, limits.2.2 inOrder⟩

end ScalarCore
