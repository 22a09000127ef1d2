import ScalarCore.Spacing
import ScalarCore.TimeSecurity

namespace ScalarCore

/-!
# Heartbeats through the gossip layer

The gossip layer forwards the heartbeats that its rate limiter lets through, and counts
them.  The limiter takes the timestamps as they are sent: what it lets through of a node
depends on the timestamps of that node only, and a node whose heartbeat is dated near the
end of time is not forwarded again.
-/

open MachineInt Spacing

/-- The arguments of `process_incoming_heartbeat`. -/
structure IncomingHeartbeat where
  nodeId : Bytes4
  timestamp : UInt32
  deriving DecidableEq

/-- `GossipDecision`. -/
inductive GossipDecision where
  | forward
  | rateLimited (nodeId : Bytes4) (reason : String)
  deriving DecidableEq

/-- `should_forward`. -/
def GossipDecision.shouldForward : GossipDecision → Bool
  | .forward => true
  | .rateLimited _ _ => false

/-- `GossipLayer`; `stats` are its three counters. -/
structure GossipLayer where
  rateLimiter : HeartbeatRateLimiter
  receivedCount : UInt64
  rejectedCount : UInt64
  forwardedCount : UInt64

namespace GossipLayer

/-- `new`. -/
def new : GossipLayer where
  rateLimiter := .new
  receivedCount := 0
  rejectedCount := 0
  forwardedCount := 0

/-- `process_incoming_heartbeat`; a counter that does not fit stops the process. -/
def processIncomingHeartbeat
    (layer : GossipLayer)
    (heartbeat : IncomingHeartbeat) : Option (GossipLayer × GossipDecision) := do
  let receivedCount ← checkedAdd layer.receivedCount 1
  let (rateLimiter, inTime) :=
    layer.rateLimiter.checkAndUpdate heartbeat.nodeId heartbeat.timestamp
  if !inTime then
    let rejectedCount ← checkedAdd layer.rejectedCount 1
    some
      ({ layer with rateLimiter, receivedCount, rejectedCount },
        .rateLimited heartbeat.nodeId "T-4: interval terlalu pendek (< 300s)")
  else
    let forwardedCount ← checkedAdd layer.forwardedCount 1
    some ({ layer with rateLimiter, receivedCount, forwardedCount }, .forward)

/-- Process heartbeats one after the other. -/
def processAll :
    GossipLayer → List IncomingHeartbeat → Option (GossipLayer × List GossipDecision)
  | layer, [] => some (layer, [])
  | layer, heartbeat :: rest => do
      let (layer, decision) ← layer.processIncomingHeartbeat heartbeat
      let (layer, decisions) ← processAll layer rest
      return (layer, decision :: decisions)

end GossipLayer

/-- The timestamps of a node's heartbeats. -/
def timesOf (nodeId : Bytes4) (heartbeats : List IncomingHeartbeat) : List Nat :=
  (heartbeats.filter fun heartbeat => heartbeat.nodeId = nodeId).map fun heartbeat =>
    heartbeat.timestamp.toNat

/-- The heartbeats that are forwarded. -/
def forwardedOf
    (heartbeats : List IncomingHeartbeat)
    (decisions : List GossipDecision) : List IncomingHeartbeat :=
  ((heartbeats.zip decisions).filter fun decided => decided.2.shouldForward).map Prod.fst

/-- What a gossip layer has done with heartbeats. -/
structure Forwards
    (heartbeats : List IncomingHeartbeat)
    (layer : GossipLayer)
    (decisions : List GossipDecision) : Prop where
  answered : decisions.length = heartbeats.length
  received : layer.receivedCount.toNat = heartbeats.length
  forwarded : layer.forwardedCount.toNat = (forwardedOf heartbeats decisions).length
  rejected :
    layer.rejectedCount.toNat + layer.forwardedCount.toNat = layer.receivedCount.toNat
  perNode :
    ∀ nodeId,
      timesOf nodeId (forwardedOf heartbeats decisions) =
        spaced 300 none (timesOf nodeId heartbeats)
  apart :
    ∀ nodeId,
      (timesOf nodeId (forwardedOf heartbeats decisions)).IsChain
        fun time later => time + 300 ≤ later
  few : ∀ nodeId, (timesOf nodeId (forwardedOf heartbeats decisions)).length ≤ 14316558

namespace GossipLayer

variable {layer : GossipLayer} {heartbeat : IncomingHeartbeat}

/-- The timestamp that the limiter has for a node. -/
def lastOf (layer : GossipLayer) (nodeId : Bytes4) : Option Nat :=
  (layer.rateLimiter.lastHbTimestamp.lookup nodeId).map UInt32.toNat

/-- The limiter lets a heartbeat through when it is late enough. -/
theorem isTooEarly_eq_false_iff :
    layer.rateLimiter.isTooEarly heartbeat.nodeId heartbeat.timestamp = false ↔
      LateEnough 300 (layer.lastOf heartbeat.nodeId) heartbeat.timestamp.toNat := by
  rw [HeartbeatRateLimiter.isTooEarly, LateEnough, lastOf]
  cases layer.rateLimiter.lastHbTimestamp.lookup heartbeat.nodeId with
  | none =>
      exact iff_of_true rfl fun last isLast => (Option.not_mem_none last isLast).elim
  | some lastTs =>
      have interval : tHbMinIntervalS.toNat = 300 := rfl
      simp only [Option.map_some, Option.mem_some_iff, forall_eq']
      by_cases backwards : heartbeat.timestamp < lastTs
      · rw [if_pos backwards]
        have order := UInt32.lt_iff_toNat_lt.mp backwards
        exact iff_of_false Bool.true_eq_false.mp (by omega)
      · rw [if_neg backwards]
        have order := UInt32.le_iff_toNat_le.mp (UInt32.not_lt.mp backwards)
        rw [decide_eq_false_iff_not, UInt32.not_lt, UInt32.le_iff_toNat_le, interval,
          UInt32.toNat_sub_of_le _ _ (UInt32.not_lt.mp backwards)]
        omega

/-- What a heartbeat does to the layer: it is forwarded and noted, or only counted. -/
theorem processIncomingHeartbeat_cases
    (heartbeat : IncomingHeartbeat)
    (fits : layer.receivedCount.toNat < maxU64)
    (counts :
      layer.rejectedCount.toNat + layer.forwardedCount.toNat =
        layer.receivedCount.toNat) :
    ∃ next decision,
      layer.processIncomingHeartbeat heartbeat = some (next, decision) ∧
        next.receivedCount.toNat = layer.receivedCount.toNat + 1 ∧
        next.rejectedCount.toNat + next.forwardedCount.toNat =
          next.receivedCount.toNat ∧
        ((LateEnough 300 (layer.lastOf heartbeat.nodeId) heartbeat.timestamp.toNat ∧
            decision.shouldForward = true ∧
            next.forwardedCount.toNat = layer.forwardedCount.toNat + 1 ∧
            ∀ nodeId,
              next.lastOf nodeId =
                if nodeId = heartbeat.nodeId then
                  some heartbeat.timestamp.toNat
                else
                  layer.lastOf nodeId) ∨
          (¬LateEnough 300 (layer.lastOf heartbeat.nodeId) heartbeat.timestamp.toNat ∧
            decision.shouldForward = false ∧
            next.forwardedCount.toNat = layer.forwardedCount.toNat ∧
            ∀ nodeId, next.lastOf nodeId = layer.lastOf nodeId)) := by
  have addOne (count : UInt64) (below : count.toNat < maxU64) :
      ∃ count', checkedAdd count 1 = some count' ∧ count'.toNat = count.toNat + 1 := by
    have isSum := toNat_ofNat_of_le (Nat.succ_le_of_lt below)
    exact ⟨_, checkedAdd_eq_some_iff.mpr isSum, isSum⟩
  obtain ⟨receivedCount, isReceived, received⟩ := addOne _ fits
  by_cases late :
      LateEnough 300 (layer.lastOf heartbeat.nodeId) heartbeat.timestamp.toNat
  · have inTime := isTooEarly_eq_false_iff.mpr late
    obtain ⟨forwardedCount, isForwarded, forwarded⟩ :=
      addOne layer.forwardedCount (by omega)
    refine
      ⟨{ layer with
          rateLimiter := layer.rateLimiter.note heartbeat.nodeId heartbeat.timestamp
          receivedCount
          forwardedCount }, .forward, ?_, received, ?_,
        Or.inl ⟨late, rfl, forwarded, ?_⟩⟩
    · simp [processIncomingHeartbeat, HeartbeatRateLimiter.checkAndUpdate, inTime,
        isReceived, isForwarded]
    · dsimp only
      omega
    · intro nodeId
      rw [lastOf, HeartbeatRateLimiter.note]
      by_cases same : nodeId = heartbeat.nodeId
      · rw [if_pos same, same, Finmap.lookup_insert, Option.map_some]
      · rw [if_neg same, Finmap.lookup_insert_of_ne _ same, lastOf]
  · have tooEarly :
        layer.rateLimiter.isTooEarly heartbeat.nodeId heartbeat.timestamp = true := by
      rw [← Bool.not_eq_false, isTooEarly_eq_false_iff]
      exact late
    obtain ⟨rejectedCount, isRejected, rejected⟩ :=
      addOne layer.rejectedCount (by omega)
    refine
      ⟨{ layer with receivedCount, rejectedCount },
        .rateLimited heartbeat.nodeId "T-4: interval terlalu pendek (< 300s)", ?_,
        received, ?_, Or.inr ⟨late, rfl, rfl, fun _ => rfl⟩⟩
    · simp [processIncomingHeartbeat, HeartbeatRateLimiter.checkAndUpdate, tooEarly,
        isReceived, isRejected]
    · dsimp only
      omega

/-- A layer forwards what is late enough after what it has noted. -/
theorem processAll_spec
    {heartbeats : List IncomingHeartbeat}
    (fits : layer.receivedCount.toNat + heartbeats.length ≤ maxU64)
    (counts :
      layer.rejectedCount.toNat + layer.forwardedCount.toNat =
        layer.receivedCount.toNat) :
    ∃ next decisions,
      layer.processAll heartbeats = some (next, decisions) ∧
        decisions.length = heartbeats.length ∧
        next.receivedCount.toNat = layer.receivedCount.toNat + heartbeats.length ∧
        next.forwardedCount.toNat =
          layer.forwardedCount.toNat + (forwardedOf heartbeats decisions).length ∧
        next.rejectedCount.toNat + next.forwardedCount.toNat =
          next.receivedCount.toNat ∧
        ∀ nodeId,
          timesOf nodeId (forwardedOf heartbeats decisions) =
            spaced 300 (layer.lastOf nodeId) (timesOf nodeId heartbeats) := by
  induction heartbeats generalizing layer with
  | nil =>
      exact ⟨layer, [], rfl, rfl, rfl, rfl, counts, fun _ => rfl⟩
  | cons heartbeat rest inductionHypothesis =>
      rw [List.length_cons] at fits
      obtain ⟨middle, decision, processed, received, middleCounts, noted⟩ :=
        processIncomingHeartbeat_cases heartbeat (by omega) counts
      obtain ⟨next, decisions, processedRest, answered, receivedAll, forwardedAll,
          nextCounts, perNode⟩ :=
        @inductionHypothesis middle (by omega) middleCounts
      refine
        ⟨next, decision :: decisions, by simp [processAll, processed, processedRest],
          by rw [List.length_cons, List.length_cons, answered],
          by rw [List.length_cons]; omega, ?_, nextCounts, ?_⟩
      · rcases noted with ⟨_, isForward, forwarded, _⟩ | ⟨_, isRejected, forwarded, _⟩
        · have listed :
              forwardedOf (heartbeat :: rest) (decision :: decisions) =
                heartbeat :: forwardedOf rest decisions := by
            simp [forwardedOf, isForward]
          rw [listed, List.length_cons]
          omega
        · have skipped :
              forwardedOf (heartbeat :: rest) (decision :: decisions) =
                forwardedOf rest decisions := by
            simp [forwardedOf, isRejected]
          rw [skipped]
          omega
      · intro nodeId
        specialize perNode nodeId
        rcases noted with ⟨late, isForward, _, lastOf⟩ | ⟨early, isRejected, _, lastOf⟩
        · rw [lastOf] at perNode
          by_cases same : heartbeat.nodeId = nodeId
          · subst same
            rw [if_pos rfl] at perNode
            simp only [forwardedOf, timesOf, List.zip_cons_cons, List.filter_cons,
              isForward, if_true, List.map_cons, decide_true] at perNode ⊢
            rw [spaced_cons_of_late late, perNode]
          · rw [if_neg (Ne.symm same)] at perNode
            simp only [forwardedOf, timesOf, List.zip_cons_cons, List.filter_cons,
              isForward, if_true, List.map_cons, same, decide_false,
              Bool.false_eq_true, if_false] at perNode ⊢
            exact perNode
        · rw [lastOf] at perNode
          by_cases same : heartbeat.nodeId = nodeId
          · subst same
            simp only [forwardedOf, timesOf, List.zip_cons_cons, List.filter_cons,
              isRejected, Bool.false_eq_true, if_false, if_true, List.map_cons,
              decide_true] at perNode ⊢
            rw [spaced_cons_of_early early, perNode]
          · simp only [forwardedOf, timesOf, List.zip_cons_cons, List.filter_cons,
              isRejected, Bool.false_eq_true, if_false, same, decide_false] at perNode ⊢
            exact perNode

/--
The counters of a gossip layer add up as long as they fit.  Of each node it forwards,
whatever other nodes send, those heartbeats that are dated five minutes after the last
one forwarded, so a limited number ever.
-/
theorem gossip_forwards
    {heartbeats : List IncomingHeartbeat}
    (fits : heartbeats.length ≤ maxU64) :
    ∃ layer decisions,
      new.processAll heartbeats = some (layer, decisions) ∧
        Forwards heartbeats layer decisions := by
  have fitsNew : new.receivedCount.toNat + heartbeats.length ≤ maxU64 := by
    rw [new, UInt64.toNat_zero, Nat.zero_add]
    exact fits
  obtain ⟨layer, decisions, processed, answered, received, forwarded, counts, perNode⟩ :=
    processAll_spec fitsNew rfl
  have none : ∀ nodeId, new.lastOf nodeId = none := by
    intro nodeId
    rw [lastOf, new, HeartbeatRateLimiter.new, Finmap.lookup_empty, Option.map_none]
  have greedy (nodeId : Bytes4) :
      timesOf nodeId (forwardedOf heartbeats decisions) =
        spaced 300 Option.none (timesOf nodeId heartbeats) := by
    rw [perNode, none]
  refine
    ⟨layer, decisions, processed,
      { answered
        received := by rw [received, new, UInt64.toNat_zero, Nat.zero_add]
        forwarded := by rw [forwarded, new, UInt64.toNat_zero, Nat.zero_add]
        rejected := counts
        perNode := greedy
        apart := fun nodeId => ?_
        few := fun nodeId => ?_ }⟩
  · rw [greedy]
    exact (isChain_spaced _).1
  · rw [greedy]
    have below : ∀ time ∈ timesOf nodeId heartbeats, time ≤ maxU32 := by
      intro time listed
      obtain ⟨heartbeat, _, rfl⟩ := List.mem_map.mp listed
      exact Nat.le_of_lt_succ heartbeat.timestamp.toNat_lt
    exact length_spaced_le (by decide) below

/-- Three heartbeats of one node, dated too closely for all of them. -/
def closeHeartbeats : List IncomingHeartbeat :=
  [⟨.replicate 1, 1000⟩, ⟨.replicate 1, 1299⟩, ⟨.replicate 1, 1300⟩]

/-- The first and the last of them are forwarded. -/
theorem gossip_forwards_close :
    ∃ layer decisions,
      new.processAll closeHeartbeats = some (layer, decisions) ∧
        timesOf (.replicate 1) (forwardedOf closeHeartbeats decisions) = [1000, 1300] := by
  have fits : closeHeartbeats.length ≤ maxU64 :=
    show 3 ≤ maxU64 by decide
  obtain ⟨layer, decisions, processed, forwards⟩ := gossip_forwards fits
  refine ⟨layer, decisions, processed, (forwards.perNode (.replicate 1)).trans ?_⟩
  decide +kernel

end GossipLayer

end ScalarCore
