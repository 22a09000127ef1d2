import ScalarCore.Bytes
import ScalarCore.KeyedWrites
import ScalarCore.StateMachine
import ScalarCore.Stretches

namespace ScalarCore

/-!
# The limiter of DMM requests

The limiter counts the requests of each node and forgets all counts when a request
names another epoch than the last one.  In every stretch of requests for one epoch a
node is answered ten times at most; a later stretch of the same epoch begins anew.
-/

open KeyedWrites StateMachine Stretches

/-- `MAX_DMM_REQUESTS_PER_EPOCH`. -/
def maxDmmRequestsPerEpoch : UInt32 :=
  10

/-- `DmmRequestRateLimiter`. -/
structure DmmRequestRateLimiter where
  requestCounts : Finmap fun _ : Bytes4 => UInt32
  currentEpoch : UInt64

/-- The arguments of `check_and_record`. -/
structure DmmRequest where
  nodeIdShort : Bytes4
  epoch : UInt64
  deriving DecidableEq

namespace DmmRequestRateLimiter

/-- `new`. -/
def new (epoch : UInt64) : DmmRequestRateLimiter where
  requestCounts := ∅
  currentEpoch := epoch

/-- `request_count`. -/
def requestCount
    (limiter : DmmRequestRateLimiter)
    (nodeIdShort : Bytes4) :
    UInt32 :=
  (limiter.requestCounts.lookup nodeIdShort).getD 0

/-- The counts are cleared when the epoch is another one. -/
def enterEpoch
    (limiter : DmmRequestRateLimiter)
    (epoch : UInt64) :
    DmmRequestRateLimiter :=
  if epoch ≠ limiter.currentEpoch then
    { requestCounts := ∅, currentEpoch := epoch }
  else
    limiter

/-- `entry(node_id_short).or_insert(0)`, then the given count. -/
def setCount
    (limiter : DmmRequestRateLimiter)
    (nodeIdShort : Bytes4)
    (count : UInt32) :
    DmmRequestRateLimiter :=
  { limiter with requestCounts := limiter.requestCounts.insert nodeIdShort count }

/-- `check_and_record`. -/
def checkAndRecord
    (limiter : DmmRequestRateLimiter)
    (request : DmmRequest) :
    DmmRequestRateLimiter × Bool :=
  let limiter := limiter.enterEpoch request.epoch
  let count := limiter.requestCount request.nodeIdShort
  if count ≥ maxDmmRequestsPerEpoch then
    (limiter.setCount request.nodeIdShort count, false)
  else
    (limiter.setCount request.nodeIdShort (count + 1), true)

/-- The requests that are answered `true`. -/
def answered
    (limiter : DmmRequestRateLimiter)
    (requests : List DmmRequest) :
    List DmmRequest :=
  accepted id checkAndRecord limiter requests

/-- How often a node was answered since the epoch was entered. -/
def used
    (limiter : DmmRequestRateLimiter)
    (nodeIdShort : Bytes4) :
    Nat :=
  (limiter.requestCount nodeIdShort).toNat

@[simp] theorem used_of_empty
    {limiter : DmmRequestRateLimiter}
    (isEmpty : limiter.requestCounts = ∅)
    (nodeIdShort : Bytes4) :
    limiter.used nodeIdShort = 0 := by
  rw [used, requestCount, isEmpty, Finmap.lookup_empty]
  rfl

@[simp] theorem used_setCount
    (limiter : DmmRequestRateLimiter)
    (nodeIdShort other : Bytes4)
    (count : UInt32) :
    (limiter.setCount nodeIdShort count).used other =
      if other = nodeIdShort then count.toNat else limiter.used other := by
  rw [used, requestCount, setCount, getD_lookup_insert, apply_ite UInt32.toNat]
  rfl

theorem enterEpoch_of_eq
    {limiter : DmmRequestRateLimiter}
    {epoch : UInt64}
    (current : limiter.currentEpoch = epoch) :
    limiter.enterEpoch epoch = limiter :=
  if_neg (not_not.mpr current.symm)

theorem enterEpoch_of_ne
    {limiter : DmmRequestRateLimiter}
    {epoch : UInt64}
    (other : epoch ≠ limiter.currentEpoch) :
    limiter.enterEpoch epoch = new epoch :=
  if_pos other

@[simp] theorem currentEpoch_enterEpoch
    (limiter : DmmRequestRateLimiter)
    (epoch : UInt64) :
    (limiter.enterEpoch epoch).currentEpoch = epoch := by
  unfold enterEpoch
  split
  · rfl
  · next same =>
      exact (not_not.mp same).symm

@[simp] theorem enterEpoch_enterEpoch
    (limiter : DmmRequestRateLimiter)
    (epoch : UInt64) :
    (limiter.enterEpoch epoch).enterEpoch epoch = limiter.enterEpoch epoch :=
  enterEpoch_of_eq (currentEpoch_enterEpoch limiter epoch)

@[simp] theorem currentEpoch_checkAndRecord
    (limiter : DmmRequestRateLimiter)
    (request : DmmRequest) :
    (limiter.checkAndRecord request).1.currentEpoch = request.epoch := by
  rw [checkAndRecord]
  split <;> exact currentEpoch_enterEpoch limiter request.epoch

/-- A request meets the counts of its own epoch. -/
theorem checkAndRecord_enterEpoch
    (limiter : DmmRequestRateLimiter)
    (request : DmmRequest) :
    (limiter.enterEpoch request.epoch).checkAndRecord request =
      limiter.checkAndRecord request := by
  rw [checkAndRecord, enterEpoch_enterEpoch]
  rfl

/-- A request of the current epoch is answered below ten, and counted then. -/
theorem checkAndRecord_cases
    {limiter : DmmRequestRateLimiter}
    {request : DmmRequest}
    (current : limiter.currentEpoch = request.epoch) :
    (limiter.used request.nodeIdShort < 10 ∧
        (limiter.checkAndRecord request).2 = true ∧
        ∀ other,
          (limiter.checkAndRecord request).1.used other =
            if other = request.nodeIdShort then
              limiter.used request.nodeIdShort + 1
            else
              limiter.used other) ∨
      (10 ≤ limiter.used request.nodeIdShort ∧
        (limiter.checkAndRecord request).2 = false ∧
        ∀ other, (limiter.checkAndRecord request).1.used other = limiter.used other) := by
  have limit : maxDmmRequestsPerEpoch.toNat = 10 := rfl
  rw [checkAndRecord, enterEpoch_of_eq current]
  split
  · next reached =>
      have atLimit := UInt32.le_iff_toNat_le.mp reached
      refine Or.inr ⟨?_, rfl, fun other => ?_⟩
      · rwa [limit] at atLimit
      · rw [used_setCount]
        split
        · next isNode =>
            rw [isNode]
            rfl
        · rfl
  · next below =>
      have belowLimit := UInt32.not_le.mp below
      rw [UInt32.lt_iff_toNat_lt, limit] at belowLimit
      refine Or.inl ⟨belowLimit, rfl, fun other => ?_⟩
      have counted :
          (limiter.requestCount request.nodeIdShort + 1).toNat =
            limiter.used request.nodeIdShort + 1 := by
        rw [UInt32.toNat_add, UInt32.toNat_one, Nat.mod_eq_of_lt (by omega)]
        rfl
      rw [used_setCount, counted]

/-- A call keeps every node within its ten requests. -/
theorem used_checkAndRecord_le
    {limiter : DmmRequestRateLimiter}
    {request : DmmRequest}
    (current : limiter.currentEpoch = request.epoch)
    (within : ∀ nodeIdShort, limiter.used nodeIdShort ≤ 10)
    (nodeIdShort : Bytes4) :
    (limiter.checkAndRecord request).1.used nodeIdShort ≤ 10 := by
  obtain ⟨below, -, counts⟩ | ⟨-, -, counts⟩ := checkAndRecord_cases current
  · rw [counts]
    split
    · exact below
    · exact within nodeIdShort
  · rw [counts]
    exact within nodeIdShort

/-- Within a stretch a node is answered until it was ten times. -/
theorem count_answered_add_used
    {limiter : DmmRequestRateLimiter}
    {epoch : UInt64}
    {requests : List DmmRequest}
    (current : limiter.currentEpoch = epoch)
    (oneEpoch : ∀ request ∈ requests, request.epoch = epoch)
    (within : ∀ nodeIdShort, limiter.used nodeIdShort ≤ 10)
    (nodeIdShort : Bytes4) :
    (limiter.answered requests).count ⟨nodeIdShort, epoch⟩ + limiter.used nodeIdShort =
      min 10 (requests.count ⟨nodeIdShort, epoch⟩ + limiter.used nodeIdShort) := by
  induction requests generalizing limiter with
  | nil =>
      rw [answered, accepted_nil, List.count_nil, Nat.zero_add]
      exact (Nat.min_eq_right (within nodeIdShort)).symm
  | cons request rest inductionHypothesis =>
      have isEpoch := oneEpoch request List.mem_cons_self
      have restEpoch : ∀ other ∈ rest, other.epoch = epoch :=
        fun other listed => oneEpoch other (List.mem_cons_of_mem request listed)
      have nextCurrent : (limiter.checkAndRecord request).1.currentEpoch = epoch := by
        rw [currentEpoch_checkAndRecord, isEpoch]
      have isRequest :
          request = ⟨nodeIdShort, epoch⟩ ↔ request.nodeIdShort = nodeIdShort := by
        cases request
        rw [DmmRequest.mk.injEq]
        exact and_iff_left isEpoch
      have isCurrent := current.trans isEpoch.symm
      have later :=
        inductionHypothesis nextCurrent restEpoch (used_checkAndRecord_le isCurrent within)
      obtain ⟨below, answer, counts⟩ | ⟨reached, answer, counts⟩ :=
        checkAndRecord_cases isCurrent
      · rw [counts] at later
        rw [answered, accepted_cons_of_ok answer]
        change
          (request :: answered (limiter.checkAndRecord request).1 rest).count _ + _ = _
        rw [List.count_cons, List.count_cons]
        by_cases isNode : request.nodeIdShort = nodeIdShort
        · rw [if_pos isNode.symm, isNode] at later
          rw [if_pos (beq_iff_eq.mpr (isRequest.mpr isNode))]
          omega
        · rw [if_neg (Ne.symm isNode)] at later
          rw [if_neg (mt beq_iff_eq.mp (mt isRequest.mp isNode))]
          omega
      · rw [counts] at later
        rw [answered, accepted_cons_of_refused answer]
        change (answered (limiter.checkAndRecord request).1 rest).count _ + _ = _
        rw [List.count_cons]
        by_cases isNode : request.nodeIdShort = nodeIdShort
        · rw [isNode] at reached
          omega
        · rw [if_neg (mt beq_iff_eq.mp (mt isRequest.mp isNode))]
          omega

/-- A stretch of another epoch begins with empty counts. -/
theorem answered_enterEpoch
    (limiter : DmmRequestRateLimiter)
    {epoch : UInt64}
    {requests : List DmmRequest}
    (oneEpoch : ∀ request ∈ requests, request.epoch = epoch) :
    (limiter.enterEpoch epoch).answered requests = limiter.answered requests := by
  cases requests with
  | nil =>
      rfl
  | cons request rest =>
      obtain rfl := oneEpoch request List.mem_cons_self
      simp only [answered, accepted, checkAndRecord_enterEpoch]

theorem currentEpoch_run
    {limiter : DmmRequestRateLimiter}
    {epoch : UInt64}
    {requests : List DmmRequest}
    (nonempty : requests ≠ [])
    (oneEpoch : ∀ request ∈ requests, request.epoch = epoch) :
    (run checkAndRecord limiter requests).currentEpoch = epoch := by
  induction requests generalizing limiter with
  | nil =>
      exact absurd rfl nonempty
  | cons request rest inductionHypothesis =>
      cases rest with
      | nil =>
          rw [run_cons, run_nil, currentEpoch_checkAndRecord]
          exact oneEpoch request List.mem_cons_self
      | cons next later =>
          rw [run_cons]
          exact
            inductionHypothesis (List.cons_ne_nil next later)
              fun other listed => oneEpoch other (List.mem_cons_of_mem request listed)

/-- From empty counts a stretch answers each request ten times at most. -/
theorem count_answered_stretch
    {limiter : DmmRequestRateLimiter}
    {epoch : UInt64}
    {requests : List DmmRequest}
    (oneEpoch : ∀ request ∈ requests, request.epoch = epoch)
    (fresh : epoch ≠ limiter.currentEpoch ∨ limiter.requestCounts = ∅)
    (request : DmmRequest) :
    (limiter.answered requests).count request = min 10 (requests.count request) := by
  have emptied : (limiter.enterEpoch epoch).requestCounts = ∅ := by
    by_cases same : limiter.currentEpoch = epoch
    · rw [enterEpoch_of_eq same]
      exact fresh.resolve_left (not_not.mpr same.symm)
    · rw [enterEpoch_of_ne (Ne.symm same)]
      rfl
  rw [← answered_enterEpoch limiter oneEpoch]
  by_cases sameEpoch : request.epoch = epoch
  · have isRequest : request = ⟨request.nodeIdShort, epoch⟩ := by
      rw [← sameEpoch]
    have counted :=
      count_answered_add_used (currentEpoch_enterEpoch limiter epoch) oneEpoch
        (fun nodeIdShort => (used_of_empty emptied nodeIdShort).trans_le (Nat.zero_le 10))
        request.nodeIdShort
    rwa [used_of_empty emptied, Nat.add_zero, Nat.add_zero, ← isRequest] at counted
  · have absent : request ∉ requests := fun listed => sameEpoch (oneEpoch request listed)
    have notAnswered : request ∉ (limiter.enterEpoch epoch).answered requests :=
      fun listed => absent ((accepted_sublist _ _ _ _).subset listed)
    rw [List.count_eq_zero_of_not_mem absent, List.count_eq_zero_of_not_mem notAnswered,
      Nat.min_zero]

/-- In stretches of one epoch each, a request is answered ten times in each at most. -/
theorem count_answered_flatten
    {limiter : DmmRequestRateLimiter}
    {blocks : List (List DmmRequest)}
    (stretched : Stretched DmmRequest.epoch blocks)
    (fresh :
      ∀ block ∈ blocks.head?, ∀ request ∈ block,
        request.epoch ≠ limiter.currentEpoch ∨ limiter.requestCounts = ∅)
    (request : DmmRequest) :
    (limiter.answered blocks.flatten).count request =
      (blocks.map fun block => min 10 (block.count request)).sum := by
  induction blocks generalizing limiter with
  | nil =>
      rfl
  | cons block rest inductionHypothesis =>
      have nonempty := stretched.nonempty block List.mem_cons_self
      obtain ⟨first, inBlock⟩ := List.exists_mem_of_ne_nil block nonempty
      have oneEpoch : ∀ other ∈ block, other.epoch = first.epoch :=
        fun other listed => stretched.sameKey block List.mem_cons_self other listed first inBlock
      have inStretch := count_answered_stretch oneEpoch (fresh block rfl first inBlock) request
      have later :
          ((run checkAndRecord limiter block).answered rest.flatten).count request =
            (rest.map fun block => min 10 (block.count request)).sum := by
        refine inductionHypothesis stretched.tail ?_
        intro next isNext other inNext
        have turned :=
          (List.isChain_cons.mp stretched.turns).1 next isNext first inBlock other inNext
        rw [currentEpoch_run nonempty oneEpoch]
        exact Or.inl turned.symm
      rw [List.flatten_cons, answered, accepted_append, List.count_append, List.map_cons,
        List.sum_cons]
      exact congrArg₂ (· + ·) inStretch later

/-- How often a request is answered along a run of a new limiter. -/
theorem count_answered_new
    (epoch : UInt64)
    (requests : List DmmRequest)
    (request : DmmRequest) :
    ((new epoch).answered requests).count request =
      ((stretches DmmRequest.epoch requests).map fun stretch =>
        min 10 (stretch.count request)).sum := by
  have fresh :
      ∀ block ∈ (stretches DmmRequest.epoch requests).head?, ∀ request ∈ block,
        request.epoch ≠ (new epoch).currentEpoch ∨ (new epoch).requestCounts = ∅ :=
    fun _ _ _ _ => Or.inr rfl
  have counted :=
    count_answered_flatten (stretched_stretches DmmRequest.epoch requests) fresh request
  rwa [flatten_stretches] at counted

/-- Each node is answered ten times at most in each epoch of the run. -/
def LimitHolds (epoch : UInt64) (requests : List DmmRequest) : Prop :=
  ∀ request : DmmRequest, ((new epoch).answered requests).count request ≤ 10

/--
Of each request there are ten at most, when in each stretch of one epoch ten at most
are counted.
-/
def StretchesWithinLimit (requests : List DmmRequest) : Prop :=
  ∀ request : DmmRequest,
    ((stretches DmmRequest.epoch requests).map fun stretch =>
      min 10 (stretch.count request)).sum ≤ 10

theorem limitHolds_iff (epoch : UInt64) (requests : List DmmRequest) :
    LimitHolds epoch requests ↔ StretchesWithinLimit requests := by
  simp only [LimitHolds, StretchesWithinLimit, count_answered_new]

/-- The limit holds along every run that enters no epoch a second time. -/
theorem limitHolds_of_neverReturns
    (epoch : UInt64)
    {requests : List DmmRequest}
    (neverReturns : NeverReturns DmmRequest.epoch requests) :
    LimitHolds epoch requests := by
  rw [limitHolds_iff]
  intro request
  apply (stretched_stretches DmmRequest.epoch requests).sum_min_count_le
  rwa [flatten_stretches]

end DmmRequestRateLimiter

end ScalarCore
