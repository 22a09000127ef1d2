import Mathlib.Data.Finmap
import ScalarCore.Bytes
import ScalarCore.KeyedWrites
import ScalarCore.MachineInt
import ScalarCore.Smt
import ScalarCore.StateMachine

namespace ScalarCore

/-!
# Rate limits on anchors

A node anchors at most once an epoch and once in an hour, through a bounded
queue, and only when it is in the committed manifest.  Nodes outside the
manifest wait in a pool of registrations, a queue with a map beside it.
-/

open KeyedWrites MachineInt StateMachine

/-- `MAX_ANCHOR_QUEUE_SIZE`. -/
def maxAnchorQueueSize : Nat :=
  500

/-- `ANCHOR_RATE_LIMIT_S`. -/
def anchorRateLimitS : UInt64 :=
  3600

/-- `MAX_PENDING_REGISTRATION`. -/
def maxPendingRegistration : Nat :=
  1000

/-- Why an anchor is ignored. -/
inductive IgnoreReason where
  | duplicateThisEpoch
  | rateLimitTransmission
  | queueFull
  deriving DecidableEq

/-- Why an anchor is dropped. -/
inductive DropReason where
  | spamAnchor
  | pendingPoolFull
  deriving DecidableEq

/-- The answer to an anchor. -/
inductive AnchorDecision where
  | accept
  | ignore (reason : IgnoreReason)
  | drop (reason : DropReason)
  | pendingRegistration
  deriving DecidableEq

/-- What is kept of a node during one epoch. -/
structure NodeEpochState where
  anchorCount : UInt32
  spamAnchor : Bool
  deriving DecidableEq

/-- A node not seen in this epoch. -/
def NodeEpochState.new : NodeEpochState where
  anchorCount := 0
  spamAnchor := false

/-- What is kept of a node across epochs. -/
structure NodeTxState where
  lastTransmissionS : Option UInt64
  deriving DecidableEq

/-- A node that never transmitted. -/
def NodeTxState.new : NodeTxState where
  lastTransmissionS := none

/-- A queued anchor. -/
structure AnchorQueueEntry where
  nodeIdShort : Bytes4
  nodeIdFull : Bytes32
  receivedAtS : UInt64
  epochId : UInt64
  deriving DecidableEq

/-- The pool of nodes that wait for their registration, oldest first. -/
structure PendingRegistrationPool where
  queue : List Bytes32
  pending : Finmap fun _ : Bytes32 => UInt64

namespace PendingRegistrationPool

/-- The empty pool. -/
def new : PendingRegistrationPool where
  queue := []
  pending := ∅

/-- Drop the oldest entry of a full pool. -/
def evictOldest (pool : PendingRegistrationPool) : PendingRegistrationPool :=
  if maxPendingRegistration ≤ pool.queue.length then
    match pool.queue with
    | [] => pool
    | oldest :: rest =>
        { queue := rest
          pending := pool.pending.erase oldest }
  else
    pool

/-- `add`: the answer says whether the node was not pending before. -/
def add
    (pool : PendingRegistrationPool)
    (nodeIdFull : Bytes32)
    (epochId : UInt64) : PendingRegistrationPool × Bool :=
  if nodeIdFull ∈ pool.pending then
    (pool, false)
  else
    ({ queue := pool.evictOldest.queue ++ [nodeIdFull]
       pending := pool.evictOldest.pending.insert nodeIdFull epochId },
      true)

/-- Take one drained node out of both structures. -/
def remove
    (pool : PendingRegistrationPool)
    (nodeIdFull : Bytes32) : PendingRegistrationPool where
  queue := pool.queue.filter fun queued => decide (queued ≠ nodeIdFull)
  pending := pool.pending.erase nodeIdFull

/-- `drain_epoch`: the nodes that came in one epoch, in the order of the map. -/
def drainEpoch
    (order : IterationOrder)
    (pool : PendingRegistrationPool)
    (epochId : UInt64) : PendingRegistrationPool × List Bytes32 :=
  let drained :=
    (order.list pool.pending.keys).filter fun nodeIdFull =>
      decide (pool.pending.lookup nodeIdFull = some epochId)
  (drained.foldl remove pool, drained)

/-- The queue and the map hold the same ids, each once and within the limit. -/
structure WellFormed (pool : PendingRegistrationPool) : Prop where
  nodup : pool.queue.Nodup
  mem_iff : ∀ nodeIdFull, nodeIdFull ∈ pool.queue ↔ nodeIdFull ∈ pool.pending
  bounded : pool.queue.length ≤ maxPendingRegistration

theorem wellFormed_new : new.WellFormed where
  nodup := List.nodup_nil
  mem_iff nodeIdFull := by
    simp [new, Finmap.notMem_empty]
  bounded := Nat.zero_le _

/-- Taking the head of the queue out of both keeps them in step. -/
theorem WellFormed.evictOldest
    {pool : PendingRegistrationPool}
    (wellFormed : pool.WellFormed) :
    pool.evictOldest.WellFormed ∧
      pool.evictOldest.queue.length < maxPendingRegistration ∧
      ∀ nodeIdFull,
        nodeIdFull ∈ pool.evictOldest.pending → nodeIdFull ∈ pool.pending := by
  rcases wellFormed with ⟨nodup, memIff, bounded⟩
  rcases pool with ⟨queue, pending⟩
  rw [PendingRegistrationPool.evictOldest]
  split
  · rename_i full
    cases queue with
    | nil =>
        exact absurd full (by simp [maxPendingRegistration])
    | cons oldest rest =>
        rw [List.nodup_cons] at nodup
        have shorter : rest.length < maxPendingRegistration := bounded
        refine ⟨⟨nodup.2, fun nodeIdFull => ?_, shorter.le⟩, shorter, ?_⟩
        · rw [Finmap.mem_erase, ← memIff, List.mem_cons]
          constructor
          · intro queued
            exact ⟨fun isOldest => nodup.1 (isOldest ▸ queued), .inr queued⟩
          · rintro ⟨notOldest, isOldest | queued⟩
            · exact absurd isOldest notOldest
            · exact queued
        · intro nodeIdFull member
          exact (Finmap.mem_erase.mp member).2
  · rename_i notFull
    exact
      ⟨⟨nodup, memIff, bounded⟩, Nat.lt_of_not_le notFull,
        fun _ member => member⟩

/-- Adding a node keeps the queue and the map in step. -/
theorem WellFormed.add
    {pool : PendingRegistrationPool}
    (wellFormed : pool.WellFormed)
    (nodeIdFull : Bytes32)
    (epochId : UInt64) :
    (pool.add nodeIdFull epochId).1.WellFormed := by
  rw [PendingRegistrationPool.add]
  split
  · exact wellFormed
  · rename_i notPending
    rcases wellFormed.evictOldest with ⟨evicted, shorter, fromPool⟩
    have notQueued : nodeIdFull ∉ pool.evictOldest.queue := by
      intro queued
      exact notPending (fromPool _ ((evicted.mem_iff _).mp queued))
    refine ⟨?_, fun other => ?_, ?_⟩
    · exact List.nodup_append.mpr
        ⟨evicted.nodup, List.nodup_singleton _, fun queued member other same => by
          rw [List.mem_singleton] at same
          rintro rfl
          exact notQueued (same ▸ member)⟩
    · rw [List.mem_append, List.mem_singleton, Finmap.mem_insert,
        evicted.mem_iff, or_comm]
    · rw [List.length_append, List.length_singleton]
      exact shorter

/-- Removing a node keeps the queue and the map in step. -/
theorem WellFormed.remove
    {pool : PendingRegistrationPool}
    (wellFormed : pool.WellFormed)
    (nodeIdFull : Bytes32) :
    (pool.remove nodeIdFull).WellFormed where
  nodup := wellFormed.nodup.filter _
  mem_iff other := by
    rw [PendingRegistrationPool.remove, List.mem_filter, decide_eq_true_eq,
      Finmap.mem_erase, wellFormed.mem_iff, and_comm]
  bounded := (List.length_filter_le _ _).trans wellFormed.bounded

/-- Draining an epoch keeps the queue and the map in step. -/
theorem WellFormed.drainEpoch
    {pool : PendingRegistrationPool}
    (wellFormed : pool.WellFormed)
    (order : IterationOrder)
    (epochId : UInt64) :
    (pool.drainEpoch order epochId).1.WellFormed := by
  rw [PendingRegistrationPool.drainEpoch]
  generalize List.filter _ _ = drained
  induction drained generalizing pool with
  | nil =>
      exact wellFormed
  | cons nodeIdFull rest inductionHypothesis =>
      exact inductionHypothesis (wellFormed.remove nodeIdFull)

end PendingRegistrationPool

/-- The limiter. -/
structure AnchorRateLimiter where
  currentEpoch : UInt64
  nodeEpoch : Finmap fun _ : Bytes32 => NodeEpochState
  nodeTx : Finmap fun _ : Bytes32 => NodeTxState
  manifestNodes : Finset Bytes32
  anchorQueue : List AnchorQueueEntry
  pendingRegistration : PendingRegistrationPool

/-- The calls of the limiter that change it. -/
inductive AnchorOp where
  | updateManifest (manifestNodeIds : List Bytes32)
  | processAnchor (nodeIdFull : Bytes32) (nodeIdShort : Bytes4) (nowS : UInt64)
  | dequeue
  | advanceEpoch (newEpoch : UInt64)

/-- What a call returns. -/
inductive AnchorOutput where
  | unit
  | decision (decision : AnchorDecision)
  | dequeued (entry : Option AnchorQueueEntry)
  deriving DecidableEq

namespace AnchorRateLimiter

/-- A limiter at the genesis epoch. -/
def new (initialEpoch : UInt64) : AnchorRateLimiter where
  currentEpoch := initialEpoch
  nodeEpoch := ∅
  nodeTx := ∅
  manifestNodes := ∅
  anchorQueue := []
  pendingRegistration := PendingRegistrationPool.new

/-- `update_manifest`. -/
def updateManifest
    (limiter : AnchorRateLimiter)
    (manifestNodeIds : List Bytes32) : AnchorRateLimiter :=
  { limiter with manifestNodes := manifestNodeIds.toFinset }

/-- `advance_epoch`: the transmission times stay. -/
def advanceEpoch
    (limiter : AnchorRateLimiter)
    (newEpoch : UInt64) : AnchorRateLimiter :=
  { limiter with
    currentEpoch := newEpoch
    nodeEpoch := ∅
    anchorQueue := [] }

/-- `check_a2`: one anchor per node and epoch, one transmission per hour. -/
def checkA2
    (limiter : AnchorRateLimiter)
    (nodeIdFull : Bytes32)
    (nowS : UInt64) : AnchorRateLimiter × Option AnchorDecision :=
  let es := (limiter.nodeEpoch.lookup nodeIdFull).getD NodeEpochState.new
  let visited :=
    { limiter with nodeEpoch := limiter.nodeEpoch.insert nodeIdFull es }
  if es.spamAnchor then
    (visited, some (.drop .spamAnchor))
  else if 1 ≤ es.anchorCount then
    ({ visited with
       nodeEpoch :=
         visited.nodeEpoch.insert nodeIdFull { es with spamAnchor := true } },
      some (.ignore .duplicateThisEpoch))
  else
    let tx := (visited.nodeTx.lookup nodeIdFull).getD NodeTxState.new
    let opened := { visited with nodeTx := visited.nodeTx.insert nodeIdFull tx }
    if tx.lastTransmissionS.any fun lastTx =>
        saturatingSub nowS lastTx < anchorRateLimitS then
      (opened, some (.ignore .rateLimitTransmission))
    else
      ({ opened with
         nodeEpoch :=
           opened.nodeEpoch.insert nodeIdFull
             { es with anchorCount := es.anchorCount + 1 }
         nodeTx :=
           opened.nodeTx.insert nodeIdFull { lastTransmissionS := some nowS } },
        none)

/-- `check_a3`: a full queue takes no new entry. -/
def checkA3
    (limiter : AnchorRateLimiter)
    (entry : AnchorQueueEntry) : AnchorRateLimiter × AnchorDecision :=
  if limiter.anchorQueue.length < maxAnchorQueueSize then
    ({ limiter with anchorQueue := limiter.anchorQueue ++ [entry] }, .accept)
  else
    (limiter, .ignore .queueFull)

/-- `process_anchor`. -/
def processAnchor
    (limiter : AnchorRateLimiter)
    (nodeIdFull : Bytes32)
    (nodeIdShort : Bytes4)
    (nowS : UInt64) : AnchorRateLimiter × AnchorDecision :=
  if nodeIdFull ∉ limiter.manifestNodes then
    let (pool, added) :=
      limiter.pendingRegistration.add nodeIdFull limiter.currentEpoch
    ({ limiter with pendingRegistration := pool },
      if added then
        .pendingRegistration
      else
        .ignore .duplicateThisEpoch)
  else
    match limiter.checkA2 nodeIdFull nowS with
    | (checked, some decision) => (checked, decision)
    | (checked, none) =>
        checked.checkA3
          { nodeIdShort
            nodeIdFull
            receivedAtS := nowS
            epochId := limiter.currentEpoch }

/-- `dequeue`. -/
def dequeue
    (limiter : AnchorRateLimiter) :
    AnchorRateLimiter × Option AnchorQueueEntry :=
  ({ limiter with anchorQueue := limiter.anchorQueue.tail },
    limiter.anchorQueue.head?)

/-- One call. -/
def step (limiter : AnchorRateLimiter) :
    AnchorOp → AnchorRateLimiter × AnchorOutput
  | .updateManifest manifestNodeIds =>
      (limiter.updateManifest manifestNodeIds, .unit)
  | .processAnchor nodeIdFull nodeIdShort nowS =>
      let (after, decision) :=
        limiter.processAnchor nodeIdFull nodeIdShort nowS
      (after, .decision decision)
  | .dequeue =>
      let (after, entry) := limiter.dequeue
      (after, .dequeued entry)
  | .advanceEpoch newEpoch =>
      (limiter.advanceEpoch newEpoch, .unit)

/-- The anchors counted for a node in the current epoch. -/
def countOf (limiter : AnchorRateLimiter) (nodeIdFull : Bytes32) : UInt32 :=
  ((limiter.nodeEpoch.lookup nodeIdFull).getD NodeEpochState.new).anchorCount

/-- The last counted transmission of a node. -/
def lastTransmission
    (limiter : AnchorRateLimiter)
    (nodeIdFull : Bytes32) : Option UInt64 :=
  ((limiter.nodeTx.lookup nodeIdFull).getD NodeTxState.new).lastTransmissionS

/-- Two limiters that agree on what the limits of a node are read from. -/
structure SameBooks (before after : AnchorRateLimiter) : Prop where
  epoch : after.currentEpoch = before.currentEpoch
  count : ∀ nodeIdFull, after.countOf nodeIdFull = before.countOf nodeIdFull
  last :
    ∀ nodeIdFull,
      after.lastTransmission nodeIdFull = before.lastTransmission nodeIdFull

/-- What counting an anchor of a node at a time needs and does. -/
structure Counted
    (before after : AnchorRateLimiter)
    (nodeIdFull : Bytes32)
    (nowS : UInt64) : Prop where
  epoch : after.currentEpoch = before.currentEpoch
  notCounted : before.countOf nodeIdFull = 0
  hourPassed :
    ∀ lastTx,
      before.lastTransmission nodeIdFull = some lastTx →
      lastTx.toNat + anchorRateLimitS.toNat ≤ nowS.toNat
  count : after.countOf nodeIdFull = 1
  last : after.lastTransmission nodeIdFull = some nowS
  countOther :
    ∀ other, other ≠ nodeIdFull → after.countOf other = before.countOf other
  lastOther :
    ∀ other,
      other ≠ nodeIdFull →
      after.lastTransmission other = before.lastTransmission other

/-- What the check of rule A-2 leaves alone. -/
structure SameQueues (before after : AnchorRateLimiter) : Prop where
  manifestNodes : after.manifestNodes = before.manifestNodes
  anchorQueue : after.anchorQueue = before.anchorQueue
  pendingRegistration : after.pendingRegistration = before.pendingRegistration

/-- Storing entries that read the same changes no book. -/
theorem sameBooks_insert
    {before after : AnchorRateLimiter}
    {nodeIdFull : Bytes32}
    {es : NodeEpochState}
    (epoch : after.currentEpoch = before.currentEpoch)
    (nodeEpoch : after.nodeEpoch = before.nodeEpoch.insert nodeIdFull es)
    (sameCount : es.anchorCount = before.countOf nodeIdFull)
    (last :
      ∀ other, after.lastTransmission other = before.lastTransmission other) :
    SameBooks before after := by
  refine ⟨epoch, fun other => ?_, last⟩
  rw [countOf, nodeEpoch, getD_lookup_insert]
  split
  · rename_i same
    rw [same, sameCount]
  · rfl

/-- Rule A-2 either refuses, and changes no book, or counts the anchor. -/
theorem checkA2_cases
    (limiter : AnchorRateLimiter)
    (nodeIdFull : Bytes32)
    (nowS : UInt64) :
    SameQueues limiter (limiter.checkA2 nodeIdFull nowS).1 ∧
      ((∃ decision,
          (limiter.checkA2 nodeIdFull nowS).2 = some decision ∧
            decision ≠ .accept ∧
            SameBooks limiter (limiter.checkA2 nodeIdFull nowS).1) ∨
        (limiter.checkA2 nodeIdFull nowS).2 = none ∧
          Counted limiter (limiter.checkA2 nodeIdFull nowS).1 nodeIdFull
            nowS) := by
  simp only [checkA2]
  split
  · refine ⟨⟨rfl, rfl, rfl⟩, .inl ⟨_, rfl, by simp, ?_⟩⟩
    exact sameBooks_insert rfl rfl rfl fun _ => rfl
  split
  · refine ⟨⟨rfl, rfl, rfl⟩, .inl ⟨_, rfl, by simp, ?_⟩⟩
    exact sameBooks_insert rfl (Finmap.insert_insert _) rfl fun _ => rfl
  rename_i notCounted
  have countZero : limiter.countOf nodeIdFull = 0 := by
    rw [UInt32.not_le] at notCounted
    exact UInt32.lt_one_iff.mp notCounted
  split
  · refine ⟨⟨rfl, rfl, rfl⟩, .inl ⟨_, rfl, by simp, ?_⟩⟩
    refine sameBooks_insert rfl rfl rfl fun other => ?_
    rw [lastTransmission, getD_lookup_insert]
    split
    · rename_i same
      rw [same, lastTransmission]
    · rfl
  · rename_i spaced
    refine ⟨⟨rfl, rfl, rfl⟩, .inr ⟨rfl, rfl, countZero, ?_, ?_, ?_, ?_, ?_⟩⟩
    · intro lastTx isLast
      rw [lastTransmission] at isLast
      rw [isLast, Option.any_some, decide_eq_true_eq, UInt64.not_lt,
        UInt64.le_iff_toNat_le, toNat_saturatingSub] at spaced
      have positive : 0 < anchorRateLimitS.toNat := by
        decide
      omega
    · rw [countOf] at countZero
      simp [countOf, countZero]
    · simp [lastTransmission]
    · intro other different
      simp [countOf, different]
    · intro other different
      simp [lastTransmission, different]

/-- The queue takes an entry without touching the books. -/
theorem checkA3_sameBooks
    (limiter : AnchorRateLimiter)
    (entry : AnchorQueueEntry) :
    SameBooks limiter (limiter.checkA3 entry).1 := by
  rw [checkA3]
  split
  · exact ⟨rfl, fun _ => rfl, fun _ => rfl⟩
  · exact ⟨rfl, fun _ => rfl, fun _ => rfl⟩

/-- A counted anchor stays counted while the books stay. -/
theorem Counted.trans_sameBooks
    {before checked after : AnchorRateLimiter}
    {nodeIdFull : Bytes32}
    {nowS : UInt64}
    (counted : Counted before checked nodeIdFull nowS)
    (books : SameBooks checked after) :
    Counted before after nodeIdFull nowS where
  epoch := books.epoch.trans counted.epoch
  notCounted := counted.notCounted
  hourPassed := counted.hourPassed
  count := (books.count _).trans counted.count
  last := (books.last _).trans counted.last
  countOther other different :=
    (books.count _).trans (counted.countOther other different)
  lastOther other different :=
    (books.last _).trans (counted.lastOther other different)

/-- What one call can do, as far as the limits of the nodes are concerned. -/
inductive StepCases (before after : AnchorRateLimiter) :
    AnchorOp → AnchorOutput → Prop where
  /-- The call accepts nothing and changes no book. -/
  | kept
      {op : AnchorOp}
      {output : AnchorOutput}
      (notAccepted : output ≠ .decision .accept)
      (books : SameBooks before after) :
      StepCases before after op output
  /-- An anchor is counted, and accepted unless the queue is full. -/
  | counted
      {nodeIdFull : Bytes32}
      {nodeIdShort : Bytes4}
      {nowS : UInt64}
      {decision : AnchorDecision}
      (inManifest : nodeIdFull ∈ before.manifestNodes)
      (books : Counted before after nodeIdFull nowS) :
      StepCases before after (.processAnchor nodeIdFull nodeIdShort nowS)
        (.decision decision)
  /-- A new epoch starts: no anchor is counted in it yet. -/
  | advanced
      {newEpoch : UInt64}
      (epoch : after.currentEpoch = newEpoch)
      (last :
        ∀ nodeIdFull,
          after.lastTransmission nodeIdFull =
            before.lastTransmission nodeIdFull) :
      StepCases before after (.advanceEpoch newEpoch) .unit

/-- Every call is of one of these kinds. -/
theorem step_cases
    (limiter : AnchorRateLimiter)
    (op : AnchorOp) :
    StepCases limiter (limiter.step op).1 op (limiter.step op).2 := by
  cases op with
  | updateManifest manifestNodeIds =>
      exact .kept (by simp [step]) ⟨rfl, fun _ => rfl, fun _ => rfl⟩
  | dequeue =>
      exact .kept (by simp [step]) ⟨rfl, fun _ => rfl, fun _ => rfl⟩
  | advanceEpoch newEpoch =>
      exact .advanced rfl fun _ => rfl
  | processAnchor nodeIdFull nodeIdShort nowS =>
      simp only [step, processAnchor]
      split
      · refine .kept ?_ ⟨rfl, fun _ => rfl, fun _ => rfl⟩
        split <;> simp
      · rename_i notMissing
        have inManifest := not_not.mp notMissing
        rcases checkA2_cases limiter nodeIdFull nowS with
          ⟨_, ⟨decision, answer, notAccept, books⟩ | ⟨passed, counted⟩⟩
        · split
          · rename_i answer' checked
            rw [checked] at answer books
            cases answer
            exact .kept (by simpa using notAccept) books
          · rename_i checked
            rw [checked] at answer
            cases answer
        · split
          · rename_i checked
            rw [checked] at passed
            cases passed
          · rename_i checked
            rw [checked] at counted
            exact
              .counted inManifest
                (counted.trans_sameBooks (checkA3_sameBooks _ _))

/-- The collections are within their limits. -/
structure WithinLimits (limiter : AnchorRateLimiter) : Prop where
  queue : limiter.anchorQueue.length ≤ maxAnchorQueueSize
  pool : limiter.pendingRegistration.WellFormed

theorem withinLimits_new (initialEpoch : UInt64) :
    (new initialEpoch).WithinLimits where
  queue := Nat.zero_le _
  pool := PendingRegistrationPool.wellFormed_new

/-- The queue takes an entry only when it has room. -/
theorem WithinLimits.checkA3
    {limiter : AnchorRateLimiter}
    (within : limiter.WithinLimits)
    (entry : AnchorQueueEntry) :
    (limiter.checkA3 entry).1.WithinLimits := by
  rw [AnchorRateLimiter.checkA3]
  split
  · rename_i room
    refine ⟨?_, within.pool⟩
    rw [List.length_append, List.length_singleton]
    exact room
  · exact within

/-- Every call keeps the collections within their limits. -/
theorem WithinLimits.step
    {limiter : AnchorRateLimiter}
    (within : limiter.WithinLimits)
    (op : AnchorOp) :
    (limiter.step op).1.WithinLimits := by
  cases op with
  | updateManifest manifestNodeIds =>
      exact ⟨within.queue, within.pool⟩
  | dequeue =>
      refine ⟨?_, within.pool⟩
      exact
        (List.length_tail.trans_le (Nat.sub_le _ _)).trans within.queue
  | advanceEpoch newEpoch =>
      exact ⟨Nat.zero_le _, within.pool⟩
  | processAnchor nodeIdFull nodeIdShort nowS =>
      simp only [AnchorRateLimiter.step, processAnchor]
      split
      · exact ⟨within.queue, within.pool.add _ _⟩
      · have queues := (checkA2_cases limiter nodeIdFull nowS).1
        have checkedWithin :
            (limiter.checkA2 nodeIdFull nowS).1.WithinLimits := by
          refine ⟨?_, ?_⟩
          · rw [queues.anchorQueue]
            exact within.queue
          · rw [queues.pendingRegistration]
            exact within.pool
        split
        · rename_i checked
          rw [checked] at checkedWithin
          exact checkedWithin
        · rename_i checked
          rw [checked] at checkedWithin
          exact checkedWithin.checkA3 _

/-- An accepted anchor: its node, its epoch and when it came. -/
structure AcceptedAnchor where
  nodeIdFull : Bytes32
  epochId : UInt64
  nowS : UInt64
  deriving DecidableEq

/-- The anchor that a call is about, in the current epoch. -/
def anchorOf (limiter : AnchorRateLimiter) : AnchorOp → List AcceptedAnchor
  | .processAnchor nodeIdFull _ nowS =>
      [{ nodeIdFull, epochId := limiter.currentEpoch, nowS }]
  | _ => []

/-- The anchor that a call accepts, if it does. -/
def acceptedAnchor (limiter : AnchorRateLimiter) (op : AnchorOp) :
    List AcceptedAnchor :=
  if (limiter.step op).2 = .decision .accept then
    limiter.anchorOf op
  else
    []

/-- The anchors accepted along a run. -/
def acceptedAnchors : AnchorRateLimiter → List AnchorOp → List AcceptedAnchor :=
  recorded acceptedAnchor step

/-- Anchors of one node come in different epochs and an hour apart. -/
def Separated (earlier later : AcceptedAnchor) : Prop :=
  earlier.nodeIdFull = later.nodeIdFull →
    earlier.epochId ≠ later.epochId ∧
      earlier.nowS.toNat + anchorRateLimitS.toNat ≤ later.nowS.toNat

/-- The books cover the anchors accepted so far. -/
structure Covers
    (log : List AcceptedAnchor)
    (limiter : AnchorRateLimiter) : Prop where
  separated : log.Pairwise Separated
  notFuture :
    ∀ anchor ∈ log, anchor.epochId ≤ limiter.currentEpoch
  counted :
    ∀ anchor ∈ log,
      anchor.epochId = limiter.currentEpoch →
      limiter.countOf anchor.nodeIdFull ≠ 0
  transmitted :
    ∀ anchor ∈ log,
      ∃ lastTx,
        limiter.lastTransmission anchor.nodeIdFull = some lastTx ∧
          anchor.nowS ≤ lastTx

/-- Epochs only advance to later ones. -/
def EpochsIncrease (limiter : AnchorRateLimiter) : AnchorOp → Prop
  | .advanceEpoch newEpoch => limiter.currentEpoch < newEpoch
  | _ => True

/-- A call that accepts nothing puts nothing on record. -/
theorem acceptedAnchor_of_ne
    {limiter : AnchorRateLimiter}
    {op : AnchorOp}
    (notAccepted : (limiter.step op).2 ≠ .decision .accept) :
    limiter.acceptedAnchor op = [] :=
  if_neg notAccepted

/-- What is on record of a call is nothing, or the anchor of the call. -/
theorem acceptedAnchor_cases
    (limiter : AnchorRateLimiter)
    (op : AnchorOp) :
    limiter.acceptedAnchor op = [] ∨
      limiter.acceptedAnchor op = limiter.anchorOf op := by
  rw [acceptedAnchor]
  split
  · exact .inr rfl
  · exact .inl rfl

section Covering

variable
  {log : List AcceptedAnchor}
  {before after : AnchorRateLimiter}
  {nodeIdFull : Bytes32}
  {nowS : UInt64}

/-- Unchanged books cover what they covered. -/
theorem Covers.sameBooks
    (covers : Covers log before)
    (books : SameBooks before after) :
    Covers log after where
  separated := covers.separated
  notFuture anchor member := by
    rw [books.epoch]
    exact covers.notFuture anchor member
  counted anchor member sameEpoch := by
    rw [books.epoch] at sameEpoch
    rw [books.count]
    exact covers.counted anchor member sameEpoch
  transmitted anchor member := by
    rw [books.last]
    exact covers.transmitted anchor member

/-- Counting an anchor separates it from all those accepted before. -/
theorem Covers.separated_of_counted
    (covers : Covers log before)
    (counted : Counted before after nodeIdFull nowS)
    {anchor : AcceptedAnchor}
    (member : anchor ∈ log) :
    Separated anchor
      { nodeIdFull, epochId := before.currentEpoch, nowS } := by
  intro sameNode
  change anchor.nodeIdFull = nodeIdFull at sameNode
  constructor
  · intro sameEpoch
    have already := covers.counted anchor member sameEpoch
    rw [sameNode] at already
    exact already counted.notCounted
  · rcases covers.transmitted anchor member with ⟨lastTx, isLast, after⟩
    rw [sameNode] at isLast
    have passed := counted.hourPassed lastTx isLast
    rw [UInt64.le_iff_toNat_le] at after
    exact (Nat.add_le_add_right after _).trans passed

/-- Counting an anchor keeps those accepted before covered. -/
theorem Covers.counted_step
    (covers : Covers log before)
    (books : Counted before after nodeIdFull nowS) :
    Covers log after where
  separated := covers.separated
  notFuture anchor member := by
    rw [books.epoch]
    exact covers.notFuture anchor member
  counted anchor member sameEpoch := by
    by_cases sameNode : anchor.nodeIdFull = nodeIdFull
    · rw [sameNode, books.count]
      decide
    · rw [books.countOther _ sameNode]
      rw [books.epoch] at sameEpoch
      exact covers.counted anchor member sameEpoch
  transmitted anchor member := by
    rcases covers.transmitted anchor member with ⟨lastTx, isLast, notAfter⟩
    by_cases sameNode : anchor.nodeIdFull = nodeIdFull
    · rw [sameNode] at isLast
      refine
        ⟨nowS, by rw [sameNode, books.last], UInt64.le_trans notAfter ?_⟩
      rw [UInt64.le_iff_toNat_le]
      exact (Nat.le_add_right _ _).trans (books.hourPassed lastTx isLast)
    · exact ⟨lastTx, (books.lastOther _ sameNode).trans isLast, notAfter⟩

/-- A counted anchor that is accepted is covered with the earlier ones. -/
theorem Covers.accepted_step
    (covers : Covers log before)
    (books : Counted before after nodeIdFull nowS) :
    Covers
      (log ++ [{ nodeIdFull, epochId := before.currentEpoch, nowS }])
      after where
  separated := by
    refine
      List.pairwise_append.mpr
        ⟨covers.separated, List.pairwise_singleton _ _, ?_⟩
    intro earlier earlierMember later laterMember
    rw [List.mem_singleton.mp laterMember]
    exact covers.separated_of_counted books earlierMember
  notFuture anchor member := by
    rcases List.mem_append.mp member with old | new
    · exact (covers.counted_step books).notFuture anchor old
    · rw [List.mem_singleton.mp new, books.epoch]
      exact UInt64.le_refl _
  counted anchor member := by
    rcases List.mem_append.mp member with old | new
    · exact (covers.counted_step books).counted anchor old
    · rw [List.mem_singleton.mp new]
      intro _
      rw [books.count]
      decide
  transmitted anchor member := by
    rcases List.mem_append.mp member with old | new
    · exact (covers.counted_step books).transmitted anchor old
    · rw [List.mem_singleton.mp new]
      exact ⟨nowS, books.last, UInt64.le_refl _⟩

/-- A later epoch has no accepted anchor yet. -/
theorem Covers.advance
    (covers : Covers log before)
    (later : before.currentEpoch < after.currentEpoch)
    (last :
      ∀ nodeIdFull,
        after.lastTransmission nodeIdFull =
          before.lastTransmission nodeIdFull) :
    Covers log after where
  separated := covers.separated
  notFuture anchor member :=
    UInt64.le_of_lt
      (UInt64.lt_of_le_of_lt (covers.notFuture anchor member) later)
  counted anchor member sameEpoch := by
    have notFuture := covers.notFuture anchor member
    rw [sameEpoch] at notFuture
    exact absurd later (UInt64.not_lt.mpr notFuture)
  transmitted anchor member := by
    rw [last]
    exact covers.transmitted anchor member

end Covering

/-- Every call keeps the accepted anchors covered. -/
theorem Covers.step
    {log : List AcceptedAnchor}
    {limiter : AnchorRateLimiter}
    (covers : Covers log limiter)
    {op : AnchorOp}
    (increase : EpochsIncrease limiter op) :
    Covers (log ++ limiter.acceptedAnchor op) (limiter.step op).1 := by
  have kind := step_cases limiter op
  have onRecord := acceptedAnchor_cases limiter op
  have notOnRecord :
      (limiter.step op).2 ≠ .decision .accept →
        limiter.acceptedAnchor op = [] :=
    acceptedAnchor_of_ne
  generalize limiter.acceptedAnchor op = record at onRecord notOnRecord ⊢
  generalize limiter.step op = result at kind notOnRecord ⊢
  rcases result with ⟨after, output⟩
  cases kind with
  | kept notAccepted books =>
      rw [notOnRecord notAccepted, List.append_nil]
      exact covers.sameBooks books
  | counted inManifest books =>
      rcases onRecord with rfl | rfl
      · rw [List.append_nil]
        exact covers.counted_step books
      · exact covers.accepted_step books
  | advanced epoch last =>
      rw [notOnRecord (by simp), List.append_nil]
      refine covers.advance ?_ last
      rw [epoch]
      exact increase

/-- The manifest in force after a call. -/
def manifestAfter (manifest : List Bytes32) : AnchorOp → List Bytes32
  | .updateManifest manifestNodeIds => manifestNodeIds
  | _ => manifest

/-- Only `update_manifest` changes the manifest. -/
theorem manifestNodes_step
    {limiter : AnchorRateLimiter}
    {manifest : List Bytes32}
    (isManifest : limiter.manifestNodes = manifest.toFinset)
    (op : AnchorOp) :
    (limiter.step op).1.manifestNodes =
      (manifestAfter manifest op).toFinset := by
  cases op with
  | updateManifest manifestNodeIds =>
      rfl
  | dequeue =>
      exact isManifest
  | advanceEpoch newEpoch =>
      exact isManifest
  | processAnchor nodeIdFull nodeIdShort nowS =>
      have queues := (checkA2_cases limiter nodeIdFull nowS).1
      change _ = manifest.toFinset
      rw [← isManifest, ← queues.manifestNodes]
      simp only [step, processAnchor]
      split
      · exact queues.manifestNodes.symm
      · split
        · rename_i checked
          rw [checked]
        · rename_i checked
          rw [checked, checkA3]
          split <;> rfl

/-- The manifest of a run is the last one given. -/
theorem manifestNodes_run
    {limiter : AnchorRateLimiter}
    {manifest : List Bytes32}
    (isManifest : limiter.manifestNodes = manifest.toFinset)
    (ops : List AnchorOp) :
    (run step limiter ops).manifestNodes =
      (ops.foldl manifestAfter manifest).toFinset := by
  induction ops generalizing limiter manifest with
  | nil =>
      exact isManifest
  | cons op rest inductionHypothesis =>
      exact inductionHypothesis (manifestNodes_step isManifest op)

/-- Accepted nodes are in the manifest. -/
theorem mem_manifest_of_accept
    {limiter : AnchorRateLimiter}
    {nodeIdFull : Bytes32}
    {nodeIdShort : Bytes4}
    {nowS : UInt64}
    (accepted :
      (limiter.step (.processAnchor nodeIdFull nodeIdShort nowS)).2 =
        .decision .accept) :
    nodeIdFull ∈ limiter.manifestNodes := by
  have kind :=
    step_cases limiter (.processAnchor nodeIdFull nodeIdShort nowS)
  generalize
    limiter.step (.processAnchor nodeIdFull nodeIdShort nowS) = result
    at kind accepted
  rcases result with ⟨after, output⟩
  cases kind with
  | kept notAccepted books =>
      exact absurd accepted notAccepted
  | counted inManifest books =>
      exact inManifest

/-- What the limits promise for a run. -/
structure LimitsHold (initialEpoch : UInt64) (ops : List AnchorOp) : Prop where
  /-- Accepted anchors of one node differ in the epoch and are an hour apart. -/
  separated : (acceptedAnchors (new initialEpoch) ops).Pairwise Separated
  /-- Accepted nodes are in the manifest in force. -/
  inManifest :
    ∀ past nodeIdFull nodeIdShort nowS later,
      ops = past ++ .processAnchor nodeIdFull nodeIdShort nowS :: later →
      ((run step (new initialEpoch) past).step
          (.processAnchor nodeIdFull nodeIdShort nowS)).2 =
        .decision .accept →
      nodeIdFull ∈ past.foldl manifestAfter []
  /-- The queue and the pool are within their limits, and the pool is in step. -/
  withinLimits :
    ∀ past later,
      ops = past ++ later →
      (run step (new initialEpoch) past).WithinLimits

/--
The limits hold in every run whose epochs increase.  Nothing is assumed of the
times: a clock that goes back only makes the limiter refuse.
-/
theorem limits_hold
    (initialEpoch : UInt64)
    (ops : List AnchorOp)
    (increase : EveryStep step EpochsIncrease (new initialEpoch) ops) :
    LimitsHold initialEpoch ops where
  separated := by
    have covered :
        Covers ([] ++ acceptedAnchors (new initialEpoch) ops)
          (run step (new initialEpoch) ops) := by
      refine
        increase.recorded_invariant
          (fun log limiter op opIncreases covers => covers.step opIncreases)
          ⟨List.Pairwise.nil, ?_, ?_, ?_⟩
      all_goals
        intro anchor member
        cases member
    exact covered.separated
  inManifest past nodeIdFull nodeIdShort nowS later _ accepted := by
    have member := mem_manifest_of_accept accepted
    have isManifest :
        (new initialEpoch).manifestNodes = ([] : List Bytes32).toFinset :=
      rfl
    rwa [manifestNodes_run isManifest, List.mem_toFinset] at member
  withinLimits past later _ :=
    run_invariant (fun _ op within => within.step op)
      (withinLimits_new initialEpoch) past

/-- A node of the manifest anchors in two epochs, early, twice and in time. -/
def sampleOps : List AnchorOp :=
  let node := Bytes32.endingIn 1
  let short := Bytes4.replicate 1
  [.updateManifest [node],
    .processAnchor node short 0,
    .processAnchor node short 4000,
    .processAnchor (Bytes32.endingIn 2) short 4000,
    .advanceEpoch 6,
    .processAnchor node short 3599,
    .processAnchor node short 3600]

/-- The sample run keeps the limits. -/
theorem limits_hold_sample : LimitsHold 5 sampleOps :=
  limits_hold 5 sampleOps
    ⟨trivial, trivial, trivial, trivial, (by decide : (5 : UInt64) < 6),
      trivial, trivial, trivial⟩

end AnchorRateLimiter

end ScalarCore
