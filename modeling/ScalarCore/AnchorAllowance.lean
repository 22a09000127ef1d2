import ScalarCore.AnchorRateLimit
import ScalarCore.RestartLog

namespace ScalarCore

/-!
# What uses up the allowance of a node

A node of the manifest has one anchor an epoch.  Rule A-2 counts it before rule
A-3 asks for room in the queue, so the allowance is used up by an anchor that
was accepted or met a full queue, and by no other.  A node outside the manifest
is refused while it is pending.
-/

open KeyedWrites MachineInt StateMachine

namespace AnchorRateLimiter

/-- A node of the manifest has been marked as a spammer in this epoch. -/
def spamOf (limiter : AnchorRateLimiter) (nodeIdFull : Bytes32) : Bool :=
  ((limiter.nodeEpoch.lookup nodeIdFull).getD NodeEpochState.new).spamAnchor

/-- The last counted transmission of a node was less than an hour ago. -/
def TooSoon (limiter : AnchorRateLimiter) (nodeIdFull : Bytes32) (nowS : UInt64) : Prop :=
  (limiter.lastTransmission nodeIdFull).any
    (fun lastTx => saturatingSub nowS lastTx < anchorRateLimitS) = true

instance (limiter : AnchorRateLimiter) (nodeIdFull : Bytes32) (nowS : UInt64) :
    Decidable (limiter.TooSoon nodeIdFull nowS) :=
  inferInstanceAs (Decidable (_ = true))

/-- The answer to an anchor, by what the limiter has on its books. -/
def decisionOf
    (limiter : AnchorRateLimiter)
    (nodeIdFull : Bytes32)
    (nowS : UInt64) : AnchorDecision :=
  if nodeIdFull ∉ limiter.manifestNodes then
    if nodeIdFull ∈ limiter.pendingRegistration.pending then
      .ignore .duplicateThisEpoch
    else
      .pendingRegistration
  else if limiter.spamOf nodeIdFull then
    .drop .spamAnchor
  else if 1 ≤ limiter.countOf nodeIdFull then
    .ignore .duplicateThisEpoch
  else if limiter.TooSoon nodeIdFull nowS then
    .ignore .rateLimitTransmission
  else if limiter.anchorQueue.length < maxAnchorQueueSize then
    .accept
  else
    .ignore .queueFull

/-- The answer of rule A-2. -/
theorem checkA2_answer
    (limiter : AnchorRateLimiter)
    (nodeIdFull : Bytes32)
    (nowS : UInt64) :
    (limiter.checkA2 nodeIdFull nowS).2 =
      if limiter.spamOf nodeIdFull then
        some (.drop .spamAnchor)
      else if 1 ≤ limiter.countOf nodeIdFull then
        some (.ignore .duplicateThisEpoch)
      else if limiter.TooSoon nodeIdFull nowS then
        some (.ignore .rateLimitTransmission)
      else
        none := by
  simp only [checkA2, apply_ite Prod.snd]
  rfl

/-- The answer of rule A-3. -/
theorem checkA3_answer
    (limiter : AnchorRateLimiter)
    (entry : AnchorQueueEntry) :
    (limiter.checkA3 entry).2 =
      if limiter.anchorQueue.length < maxAnchorQueueSize then
        .accept
      else
        .ignore .queueFull := by
  rw [checkA3, apply_ite Prod.snd]

/-- An anchor is answered as the books say. -/
theorem processAnchor_decision
    (limiter : AnchorRateLimiter)
    (nodeIdFull : Bytes32)
    (nodeIdShort : Bytes4)
    (nowS : UInt64) :
    (limiter.processAnchor nodeIdFull nodeIdShort nowS).2 =
      limiter.decisionOf nodeIdFull nowS := by
  rw [processAnchor, decisionOf]
  by_cases outside : nodeIdFull ∉ limiter.manifestNodes
  · rw [if_pos outside, if_pos outside]
    by_cases isPending : nodeIdFull ∈ limiter.pendingRegistration.pending
    · simp [PendingRegistrationPool.add, isPending]
    · simp [PendingRegistrationPool.add, isPending]
  · rw [if_neg outside, if_neg outside]
    have answer := limiter.checkA2_answer nodeIdFull nowS
    have queue := (checkA2_cases limiter nodeIdFull nowS).1.anchorQueue
    generalize limiter.checkA2 nodeIdFull nowS = result at answer queue ⊢
    obtain ⟨checked, refusal⟩ := result
    simp only at answer queue
    subst answer
    by_cases isMarked : limiter.spamOf nodeIdFull = true
    · simp only [isMarked, if_true]
    · by_cases isCounted : 1 ≤ limiter.countOf nodeIdFull
      · simp only [isMarked, isCounted, if_true, if_false, Bool.false_eq_true]
      · by_cases isEarly : limiter.TooSoon nodeIdFull nowS
        · simp only [isMarked, isCounted, isEarly, if_true, if_false, Bool.false_eq_true]
        · simp only [isMarked, isCounted, isEarly, if_false, Bool.false_eq_true,
            checkA3_answer, queue]

/-- Rule A-2 let the anchor through. -/
def PassedA2 (decision : AnchorDecision) : Prop :=
  decision = .accept ∨ decision = .ignore .queueFull

/-- Only an anchor that was let through was counted. -/
theorem passedA2_of_counted
    {limiter : AnchorRateLimiter}
    {nodeIdFull : Bytes32}
    {nowS : UInt64}
    (inManifest : nodeIdFull ∈ limiter.manifestNodes)
    (notMarked : limiter.spamOf nodeIdFull = false)
    (notCounted : limiter.countOf nodeIdFull = 0)
    (inTime : ¬limiter.TooSoon nodeIdFull nowS) :
    PassedA2 (limiter.decisionOf nodeIdFull nowS) := by
  rw [decisionOf, if_neg (not_not.mpr inManifest), notMarked, notCounted, if_neg (by decide),
    if_neg (by decide), if_neg inTime]
  split
  · exact Or.inl rfl
  · exact Or.inr rfl

/-- An hour has passed since the last transmission on the books. -/
theorem not_tooSoon_iff
    {limiter : AnchorRateLimiter}
    {nodeIdFull : Bytes32}
    {nowS : UInt64} :
    ¬limiter.TooSoon nodeIdFull nowS ↔
      ∀ lastTx, limiter.lastTransmission nodeIdFull = some lastTx →
        lastTx.toNat + anchorRateLimitS.toNat ≤ nowS.toNat := by
  have positive : 0 < anchorRateLimitS.toNat := by
    decide
  unfold TooSoon
  cases limiter.lastTransmission nodeIdFull with
  | none =>
      simp
  | some lastTx =>
      rw [Option.any_some, decide_eq_true_eq, UInt64.not_lt, UInt64.le_iff_toNat_le,
        toNat_saturatingSub]
      simp only [Option.some_inj, forall_eq']
      omega

/-- Whoever is marked as a spammer has been counted. -/
def MarkedAreCounted (limiter : AnchorRateLimiter) : Prop :=
  ∀ nodeIdFull, limiter.spamOf nodeIdFull = true → limiter.countOf nodeIdFull ≠ 0

/-- A node whose entry is written is marked only when it is counted. -/
theorem markedAreCounted_insert
    {before after : AnchorRateLimiter}
    {nodeIdFull : Bytes32}
    {es : NodeEpochState}
    (marked : before.MarkedAreCounted)
    (nodeEpoch : after.nodeEpoch = before.nodeEpoch.insert nodeIdFull es)
    (written : es.spamAnchor = true → es.anchorCount ≠ 0) :
    after.MarkedAreCounted := by
  intro other
  rw [spamOf, countOf, nodeEpoch, getD_lookup_insert]
  split
  · exact written
  · exact marked other

/-- Rule A-2 marks only nodes that it has counted. -/
theorem MarkedAreCounted.checkA2
    {limiter : AnchorRateLimiter}
    (marked : limiter.MarkedAreCounted)
    (nodeIdFull : Bytes32)
    (nowS : UInt64) :
    (limiter.checkA2 nodeIdFull nowS).1.MarkedAreCounted := by
  simp only [AnchorRateLimiter.checkA2]
  split
  · exact markedAreCounted_insert marked rfl (marked nodeIdFull)
  · rename_i notMarked
    split
    · rename_i counted
      refine markedAreCounted_insert marked (Finmap.insert_insert _) fun _ isZero => ?_
      simp only at isZero
      rw [isZero] at counted
      exact absurd counted (by decide)
    · split
      · exact markedAreCounted_insert marked rfl (marked nodeIdFull)
      · refine markedAreCounted_insert marked (Finmap.insert_insert _) fun isMarked => ?_
        exact absurd isMarked notMarked

/-- Every call marks only nodes that have been counted. -/
theorem MarkedAreCounted.step
    {limiter : AnchorRateLimiter}
    (marked : limiter.MarkedAreCounted)
    (op : AnchorOp) :
    (limiter.step op).1.MarkedAreCounted := by
  cases op with
  | updateManifest manifestNodeIds =>
      exact marked
  | dequeue =>
      exact marked
  | advanceEpoch newEpoch =>
      intro nodeIdFull isMarked
      exact absurd isMarked (by simp [AnchorRateLimiter.step, advanceEpoch, spamOf,
        Finmap.lookup_empty, NodeEpochState.new])
  | processAnchor nodeIdFull nodeIdShort nowS =>
      simp only [AnchorRateLimiter.step, processAnchor]
      split
      · exact marked
      · have checked := marked.checkA2 nodeIdFull nowS
        split
        · rename_i answer
          rw [answer] at checked
          exact checked
        · rename_i answer
          rw [answer] at checked
          rw [checkA3]
          split
          · exact checked
          · exact checked

/-- The limiter after a sequence of calls. -/
def afterOps (initialEpoch : UInt64) (ops : List AnchorOp) : AnchorRateLimiter :=
  run step (new initialEpoch) ops

/-- A call more. -/
theorem afterOps_concat
    (initialEpoch : UInt64)
    (ops : List AnchorOp)
    (op : AnchorOp) :
    afterOps initialEpoch (ops ++ [op]) = ((afterOps initialEpoch ops).step op).1 :=
  run_append step (new initialEpoch) ops [op]

/-- An anchor of a node at a time got an answer; the calls after it are given. -/
def Answered
    (initialEpoch : UInt64)
    (past : List AnchorOp)
    (nodeIdFull : Bytes32)
    (nowS : UInt64)
    (decision : AnchorDecision)
    (later : List AnchorOp) : Prop :=
  ∃ before nodeIdShort,
    past = before ++ .processAnchor nodeIdFull nodeIdShort nowS :: later ∧
      ((afterOps initialEpoch before).step
          (.processAnchor nodeIdFull nodeIdShort nowS)).2 = .decision decision

/-- No epoch starts in a sequence of calls. -/
def SameEpoch (ops : List AnchorOp) : Prop :=
  ∀ newEpoch, .advanceEpoch newEpoch ∉ ops

/-- An anchor of the node was accepted or met a full queue in the current epoch. -/
def AllowanceUsed
    (initialEpoch : UInt64)
    (past : List AnchorOp)
    (nodeIdFull : Bytes32) : Prop :=
  ∃ nowS decision later,
    Answered initialEpoch past nodeIdFull nowS decision later ∧
      PassedA2 decision ∧ SameEpoch later

/-- The node was put into the pool of registrations. -/
def Registered
    (initialEpoch : UInt64)
    (past : List AnchorOp)
    (nodeIdFull : Bytes32) : Prop :=
  ∃ nowS later, Answered initialEpoch past nodeIdFull nowS .pendingRegistration later

section History

variable
  {initialEpoch : UInt64} {past : List AnchorOp} {nodeIdFull : Bytes32}
  {nodeIdShort : Bytes4} {nowS : UInt64} {decision : AnchorDecision}
  {later : List AnchorOp}

/-- An answer stays given. -/
theorem Answered.concat
    (answered : Answered initialEpoch past nodeIdFull nowS decision later)
    (op : AnchorOp) :
    Answered initialEpoch (past ++ [op]) nodeIdFull nowS decision (later ++ [op]) := by
  obtain ⟨before, nodeIdShort, rfl, isAnswer⟩ := answered
  exact ⟨before, nodeIdShort, List.append_assoc _ _ _, isAnswer⟩

/-- The answer to the last call. -/
theorem answered_last
    (isAnswer : (afterOps initialEpoch past).decisionOf nodeIdFull nowS = decision) :
    Answered initialEpoch (past ++ [.processAnchor nodeIdFull nodeIdShort nowS]) nodeIdFull
      nowS decision [] := by
  refine ⟨past, nodeIdShort, rfl, ?_⟩
  rw [← isAnswer, ← processAnchor_decision _ _ nodeIdShort]
  rfl

/-- The allowance stays used until an epoch starts. -/
theorem AllowanceUsed.concat
    (used : AllowanceUsed initialEpoch past nodeIdFull)
    {op : AnchorOp}
    (noAdvance : ∀ newEpoch, op ≠ .advanceEpoch newEpoch) :
    AllowanceUsed initialEpoch (past ++ [op]) nodeIdFull := by
  obtain ⟨nowS, decision, later, answered, passed, sameEpoch⟩ := used
  refine ⟨nowS, decision, later ++ [op], answered.concat op, passed, fun newEpoch listed => ?_⟩
  rcases List.mem_append.mp listed with isLater | isLast
  · exact sameEpoch newEpoch isLater
  · exact noAdvance newEpoch (List.mem_singleton.mp isLast).symm

/-- An anchor that passes rule A-2 uses up the allowance. -/
theorem allowanceUsed_last
    (passed : PassedA2 ((afterOps initialEpoch past).decisionOf nodeIdFull nowS)) :
    AllowanceUsed initialEpoch (past ++ [.processAnchor nodeIdFull nodeIdShort nowS])
      nodeIdFull :=
  ⟨nowS, _, [], answered_last rfl, passed, fun _ => List.not_mem_nil⟩

/-- What the books of a node say of the past. -/
structure Explained
    (initialEpoch : UInt64)
    (past : List AnchorOp)
    (limiter : AnchorRateLimiter) : Prop where
  counted :
    ∀ nodeIdFull, limiter.countOf nodeIdFull ≠ 0 →
      AllowanceUsed initialEpoch past nodeIdFull
  transmitted :
    ∀ nodeIdFull lastTx, limiter.lastTransmission nodeIdFull = some lastTx →
      ∃ decision later,
        Answered initialEpoch past nodeIdFull lastTx decision later ∧ PassedA2 decision
  pending :
    ∀ nodeIdFull, nodeIdFull ∈ limiter.pendingRegistration.pending →
      Registered initialEpoch past nodeIdFull
  marked : limiter.MarkedAreCounted

end History

/-- Whoever becomes pending by an anchor is answered so. -/
theorem mem_pending_step
    {limiter : AnchorRateLimiter}
    {op : AnchorOp}
    {nodeIdFull : Bytes32}
    (isPending : nodeIdFull ∈ (limiter.step op).1.pendingRegistration.pending) :
    nodeIdFull ∈ limiter.pendingRegistration.pending ∨
      ∃ nodeIdShort nowS, op = .processAnchor nodeIdFull nodeIdShort nowS ∧
        limiter.decisionOf nodeIdFull nowS = .pendingRegistration := by
  cases op with
  | updateManifest manifestNodeIds =>
      exact Or.inl isPending
  | dequeue =>
      exact Or.inl isPending
  | advanceEpoch newEpoch =>
      exact Or.inl isPending
  | processAnchor anchored nodeIdShort nowS =>
      simp only [step, processAnchor] at isPending
      split at isPending
      · rename_i outside
        change nodeIdFull ∈
          (limiter.pendingRegistration.add anchored limiter.currentEpoch).1.pending
            at isPending
        rw [PendingRegistrationPool.add] at isPending
        split at isPending
        · exact Or.inl isPending
        · rename_i isNew
          rcases (Finmap.mem_insert.mp isPending) with rfl | wasPending
          · refine Or.inr ⟨nodeIdShort, nowS, rfl, ?_⟩
            rw [decisionOf, if_pos outside, if_neg isNew]
          · refine Or.inl ?_
            rw [PendingRegistrationPool.evictOldest] at wasPending
            split at wasPending
            · split at wasPending
              · exact wasPending
              · exact (Finmap.mem_erase.mp wasPending).2
            · exact wasPending
      · have queues := (checkA2_cases limiter anchored nowS).1.pendingRegistration
        split at isPending
        · rename_i answer
          rw [answer] at queues
          rw [queues] at isPending
          exact Or.inl isPending
        · rename_i answer
          rw [answer] at queues
          rw [checkA3] at isPending
          refine Or.inl ?_
          rw [← queues]
          split at isPending
          · exact isPending
          · exact isPending

/-- A counted anchor has passed rule A-2. -/
theorem passedA2_of_books
    {limiter after : AnchorRateLimiter}
    {nodeIdFull : Bytes32}
    {nowS : UInt64}
    (marked : limiter.MarkedAreCounted)
    (inManifest : nodeIdFull ∈ limiter.manifestNodes)
    (books : Counted limiter after nodeIdFull nowS) :
    PassedA2 (limiter.decisionOf nodeIdFull nowS) := by
  refine passedA2_of_counted inManifest ?_ books.notCounted
    (not_tooSoon_iff.mpr books.hourPassed)
  rw [← Bool.not_eq_true]
  exact fun isMarked => marked nodeIdFull isMarked books.notCounted

/-- A call counts only the node of an anchor that passes rule A-2. -/
theorem countOf_step
    {limiter : AnchorRateLimiter}
    {op : AnchorOp}
    {nodeIdFull : Bytes32}
    (marked : limiter.MarkedAreCounted)
    (isCounted : (limiter.step op).1.countOf nodeIdFull ≠ 0) :
    (limiter.countOf nodeIdFull ≠ 0 ∧ ∀ newEpoch, op ≠ .advanceEpoch newEpoch) ∨
      ∃ nodeIdShort nowS, op = .processAnchor nodeIdFull nodeIdShort nowS ∧
        PassedA2 (limiter.decisionOf nodeIdFull nowS) := by
  by_cases advances : ∃ newEpoch, op = .advanceEpoch newEpoch
  · obtain ⟨newEpoch, rfl⟩ := advances
    exact absurd (by simp [step, advanceEpoch, countOf, Finmap.lookup_empty,
      NodeEpochState.new]) isCounted
  · have noAdvance := not_exists.mp advances
    have kind := step_cases limiter op
    generalize limiter.step op = result at kind isCounted
    obtain ⟨after, output⟩ := result
    cases kind with
    | kept notAccepted books =>
        rw [books.count] at isCounted
        exact Or.inl ⟨isCounted, noAdvance⟩
    | @counted anchored nodeIdShort nowS decision inManifest books =>
        by_cases same : nodeIdFull = anchored
        · subst same
          exact Or.inr ⟨nodeIdShort, nowS, rfl, passedA2_of_books marked inManifest books⟩
        · rw [books.countOther _ same] at isCounted
          exact Or.inl ⟨isCounted, noAdvance⟩
    | @advanced newEpoch epoch last =>
        exact absurd rfl (noAdvance newEpoch)

/-- A call puts a transmission on the books only for an anchor that passes rule A-2. -/
theorem lastTransmission_step
    {limiter : AnchorRateLimiter}
    {op : AnchorOp}
    {nodeIdFull : Bytes32}
    {lastTx : UInt64}
    (marked : limiter.MarkedAreCounted)
    (isLast : (limiter.step op).1.lastTransmission nodeIdFull = some lastTx) :
    limiter.lastTransmission nodeIdFull = some lastTx ∨
      ∃ nodeIdShort, op = .processAnchor nodeIdFull nodeIdShort lastTx ∧
        PassedA2 (limiter.decisionOf nodeIdFull lastTx) := by
  have kind := step_cases limiter op
  generalize limiter.step op = result at kind isLast
  obtain ⟨after, output⟩ := result
  cases kind with
  | kept notAccepted books =>
      rw [books.last] at isLast
      exact Or.inl isLast
  | @counted anchored nodeIdShort nowS decision inManifest books =>
      by_cases same : nodeIdFull = anchored
      · subst same
        obtain rfl := Option.some_inj.mp (books.last.symm.trans isLast)
        exact Or.inr ⟨nodeIdShort, rfl, passedA2_of_books marked inManifest books⟩
      · rw [books.lastOther _ same] at isLast
        exact Or.inl isLast
  | advanced epoch last =>
      rw [last] at isLast
      exact Or.inl isLast

/-- What the books say of the past stays true with a call more. -/
theorem Explained.step
    {initialEpoch : UInt64}
    {past : List AnchorOp}
    (explained : Explained initialEpoch past (afterOps initialEpoch past))
    (op : AnchorOp) :
    Explained initialEpoch (past ++ [op]) (afterOps initialEpoch (past ++ [op])) := by
  rw [afterOps_concat]
  refine ⟨fun nodeIdFull isCounted => ?_, fun nodeIdFull lastTx isLast => ?_,
    fun nodeIdFull isPending => ?_, explained.marked.step op⟩
  · rcases countOf_step explained.marked isCounted with
      ⟨wasCounted, noAdvance⟩ | ⟨nodeIdShort, nowS, rfl, passed⟩
    · exact (explained.counted nodeIdFull wasCounted).concat noAdvance
    · exact allowanceUsed_last passed
  · rcases lastTransmission_step explained.marked isLast with
      wasLast | ⟨nodeIdShort, rfl, passed⟩
    · obtain ⟨decision, later, answered, passed⟩ :=
        explained.transmitted nodeIdFull lastTx wasLast
      exact ⟨decision, later ++ [op], answered.concat op, passed⟩
    · exact ⟨_, [], answered_last rfl, passed⟩
  · rcases mem_pending_step isPending with wasPending | ⟨nodeIdShort, nowS, rfl, isAnswer⟩
    · obtain ⟨nowS, later, answered⟩ := explained.pending nodeIdFull wasPending
      exact ⟨nowS, later ++ [op], answered.concat op⟩
    · exact ⟨nowS, [], answered_last isAnswer⟩

/-- The books of every run are explained by its past. -/
theorem explained_afterOps
    (initialEpoch : UInt64)
    (past : List AnchorOp) :
    Explained initialEpoch past (afterOps initialEpoch past) := by
  induction past using List.reverseRecOn with
  | nil =>
      refine ⟨fun nodeIdFull isCounted => ?_, fun nodeIdFull lastTx isLast => ?_,
        fun nodeIdFull isPending => ?_, fun nodeIdFull isMarked => ?_⟩
      · exact absurd (by simp [afterOps, new, countOf, NodeEpochState.new]) isCounted
      · exact absurd isLast (by simp [afterOps, new, lastTransmission, NodeTxState.new])
      · exact absurd isPending Finmap.notMem_empty
      · exact absurd isMarked (by simp [afterOps, new, spamOf, NodeEpochState.new])
  | append_singleton past op inductionHypothesis =>
      exact inductionHypothesis.step op

/-- A duplicate is pending outside the manifest, or counted. -/
theorem of_decisionOf_duplicate
    {limiter : AnchorRateLimiter}
    {nodeIdFull : Bytes32}
    {nowS : UInt64}
    (isDuplicate : limiter.decisionOf nodeIdFull nowS = .ignore .duplicateThisEpoch) :
    limiter.countOf nodeIdFull ≠ 0 ∨
      nodeIdFull ∉ limiter.manifestNodes ∧
        nodeIdFull ∈ limiter.pendingRegistration.pending := by
  by_cases outside : nodeIdFull ∉ limiter.manifestNodes
  · refine Or.inr ⟨outside, not_not.mp fun notPending => ?_⟩
    rw [decisionOf, if_pos outside, if_neg notPending] at isDuplicate
    cases isDuplicate
  · refine Or.inl fun notCounted => ?_
    have isZero : ¬(1 : UInt32) ≤ 0 := by
      decide
    rw [decisionOf, if_neg outside, notCounted, if_neg isZero] at isDuplicate
    split_ifs at isDuplicate
    all_goals cases isDuplicate

/-- Only a marked node is dropped as a spammer. -/
theorem of_decisionOf_spam
    {limiter : AnchorRateLimiter}
    {nodeIdFull : Bytes32}
    {nowS : UInt64}
    (isSpam : limiter.decisionOf nodeIdFull nowS = .drop .spamAnchor) :
    limiter.spamOf nodeIdFull = true := by
  by_contra notMarked
  rw [decisionOf, if_neg notMarked] at isSpam
  split_ifs at isSpam

/-- The answers of a run to an anchor, as far as they depend on the past of its node. -/
structure AllowanceKept
    (initialEpoch : UInt64)
    (past : List AnchorOp)
    (nodeIdFull : Bytes32)
    (nowS : UInt64)
    (decision : AnchorDecision) : Prop where
  duplicate :
    decision = .ignore .duplicateThisEpoch →
      AllowanceUsed initialEpoch past nodeIdFull ∨
        nodeIdFull ∉ (afterOps initialEpoch past).manifestNodes ∧
          Registered initialEpoch past nodeIdFull
  spam :
    decision = .drop .spamAnchor → AllowanceUsed initialEpoch past nodeIdFull
  able :
    nodeIdFull ∈ (afterOps initialEpoch past).manifestNodes →
      ¬AllowanceUsed initialEpoch past nodeIdFull →
      (∀ lastTx earlier later, Answered initialEpoch past nodeIdFull lastTx earlier later →
        PassedA2 earlier → lastTx.toNat + anchorRateLimitS.toNat ≤ nowS.toNat) →
      (afterOps initialEpoch past).anchorQueue.length < maxAnchorQueueSize →
      decision = .accept

/--
In every run a node of the manifest is answered as a duplicate or a spammer only
after an anchor of it passed rule A-2 in the same epoch, a node outside the
manifest only while it is pending.  Without such an anchor in the epoch the node
is accepted as soon as its interval has passed and the queue has room, whatever
its other anchors were answered.
-/
theorem allowance_kept
    (initialEpoch : UInt64)
    (past : List AnchorOp)
    (nodeIdFull : Bytes32)
    (nodeIdShort : Bytes4)
    (nowS : UInt64) :
    ∃ decision,
      ((afterOps initialEpoch past).step
          (.processAnchor nodeIdFull nodeIdShort nowS)).2 = .decision decision ∧
        AllowanceKept initialEpoch past nodeIdFull nowS decision := by
  have explained := explained_afterOps initialEpoch past
  refine ⟨(afterOps initialEpoch past).decisionOf nodeIdFull nowS, ?_, ?_⟩
  · rw [← processAnchor_decision _ _ nodeIdShort]
    rfl
  · refine ⟨fun isDuplicate => ?_, fun isSpam => ?_, fun inManifest unused spaced room => ?_⟩
    · rcases of_decisionOf_duplicate isDuplicate with isCounted | ⟨outside, isPending⟩
      · exact Or.inl (explained.counted nodeIdFull isCounted)
      · exact Or.inr ⟨outside, explained.pending nodeIdFull isPending⟩
    · exact explained.counted nodeIdFull
        (explained.marked nodeIdFull (of_decisionOf_spam isSpam))
    · have notCounted : (afterOps initialEpoch past).countOf nodeIdFull = 0 :=
        not_not.mp fun isCounted => unused (explained.counted nodeIdFull isCounted)
      have notMarked : (afterOps initialEpoch past).spamOf nodeIdFull = false := by
        rw [← Bool.not_eq_true]
        exact fun isMarked => explained.marked nodeIdFull isMarked notCounted
      have inTime : ¬(afterOps initialEpoch past).TooSoon nodeIdFull nowS := by
        refine not_tooSoon_iff.mpr fun lastTx isLast => ?_
        obtain ⟨earlier, later, answered, passed⟩ :=
          explained.transmitted nodeIdFull lastTx isLast
        exact spaced lastTx earlier later answered passed
      rw [decisionOf, if_neg (not_not.mpr inManifest), notMarked, notCounted,
        if_neg (by decide), if_neg (by decide), if_neg inTime, if_pos room]

/-- A node numbered by an index. -/
def nodeAt (index : Nat) : Bytes32 :=
  Bytes32.ofLimbs fun _ => UInt64.ofNat index

/-- Different indices below a word are different nodes. -/
theorem nodeAt_ne
    {index other : Nat}
    (differ : index ≠ other)
    (fits : index < 2 ^ 64)
    (otherFits : other < 2 ^ 64) :
    nodeAt index ≠ nodeAt other := by
  intro same
  have words := congrArg (fun node : Bytes32 => (node.limb 0).toNat) same
  simp only [nodeAt, Bytes32.limb_ofLimbs, UInt64.toNat_ofNat'] at words
  rw [Nat.mod_eq_of_lt fits, Nat.mod_eq_of_lt otherFits] at words
  exact differ words

/-- An anchor of a numbered node at time zero. -/
def anchorAt (index : Nat) : AnchorOp :=
  .processAnchor (nodeAt index) (Bytes4.replicate 0) 0

/-- A manifest of one node more than a number. -/
def fillManifest (size : Nat) : List Bytes32 :=
  (List.range (size + 1)).map nodeAt

/-- The nodes of the manifest below an index anchor in turn. -/
def fillQueue (size count : Nat) : List AnchorOp :=
  .updateManifest (fillManifest size) :: (List.range count).map anchorAt

/-- A limiter whose queue holds the nodes below an index, and that knows no other one. -/
structure Filled (size count : Nat) (limiter : AnchorRateLimiter) : Prop where
  manifest : limiter.manifestNodes = (fillManifest size).toFinset
  queue : limiter.anchorQueue.length = count
  marked : limiter.MarkedAreCounted
  notCounted : ∀ index, count ≤ index → index ≤ size → limiter.countOf (nodeAt index) = 0
  notSent :
    ∀ index, count ≤ index → index ≤ size → limiter.lastTransmission (nodeAt index) = none

/-- The queue grows by an accepted anchor. -/
theorem length_anchorQueue_of_accept
    {limiter : AnchorRateLimiter}
    {nodeIdFull : Bytes32}
    {nodeIdShort : Bytes4}
    {nowS : UInt64}
    (accepted : (limiter.processAnchor nodeIdFull nodeIdShort nowS).2 = .accept) :
    (limiter.processAnchor nodeIdFull nodeIdShort nowS).1.anchorQueue.length =
      limiter.anchorQueue.length + 1 := by
  rw [processAnchor] at accepted ⊢
  split at accepted
  · rename_i outside
    simp only at accepted
    split at accepted <;> cases accepted
  · rename_i inside
    rw [if_neg inside]
    have queue := (checkA2_cases limiter nodeIdFull nowS).1.anchorQueue
    have refusal := (checkA2_cases limiter nodeIdFull nowS).2
    generalize limiter.checkA2 nodeIdFull nowS = result at accepted queue refusal ⊢
    obtain ⟨checked, answer⟩ := result
    simp only at queue refusal
    rcases refusal with ⟨decision, rfl, notAccept, -⟩ | ⟨rfl, -⟩
    · exact absurd accepted notAccept
    · simp only at accepted ⊢
      rw [checkA3] at accepted ⊢
      split at accepted
      · rename_i room
        rw [if_pos room, List.length_append, List.length_singleton, queue]
      · cases accepted

/-- An anchor that passes rule A-2 is counted. -/
theorem counted_of_passedA2
    {limiter : AnchorRateLimiter}
    {nodeIdFull : Bytes32}
    {nodeIdShort : Bytes4}
    {nowS : UInt64}
    (inManifest : nodeIdFull ∈ limiter.manifestNodes)
    (passed : PassedA2 (limiter.decisionOf nodeIdFull nowS)) :
    Counted limiter (limiter.processAnchor nodeIdFull nodeIdShort nowS).1 nodeIdFull nowS := by
  have answer : (limiter.checkA2 nodeIdFull nowS).2 = none := by
    rw [checkA2_answer]
    rw [decisionOf, if_neg (not_not.mpr inManifest)] at passed
    split_ifs at passed ⊢
    all_goals first | rfl | (rcases passed with impossible | impossible <;> cases impossible)
  have counted : Counted limiter (limiter.checkA2 nodeIdFull nowS).1 nodeIdFull nowS := by
    rcases (checkA2_cases limiter nodeIdFull nowS).2 with ⟨decision, refused, -⟩ | ⟨-, books⟩
    · rw [answer] at refused
      cases refused
    · exact books
  rw [processAnchor, if_neg (not_not.mpr inManifest)]
  generalize limiter.checkA2 nodeIdFull nowS = result at answer counted ⊢
  obtain ⟨checked, refusal⟩ := result
  simp only at answer
  subst answer
  exact counted.trans_sameBooks (checkA3_sameBooks _ _)

namespace Filled

variable {size count : Nat} {limiter : AnchorRateLimiter}

/-- The nodes up to the size are in the manifest. -/
theorem mem_manifestNodes
    (filled : Filled size count limiter)
    {index : Nat}
    (fits : index ≤ size) :
    nodeAt index ∈ limiter.manifestNodes := by
  rw [filled.manifest, List.mem_toFinset]
  exact List.mem_map_of_mem (List.mem_range.mpr (Nat.lt_succ_of_le fits))

/-- The next node is answered by the room in the queue. -/
theorem decisionOf_nodeAt
    (filled : Filled size count limiter)
    {index : Nat}
    (isNew : count ≤ index)
    (fits : index ≤ size) :
    limiter.decisionOf (nodeAt index) 0 =
      if count < maxAnchorQueueSize then .accept else .ignore .queueFull := by
  have inManifest := filled.mem_manifestNodes fits
  have notCounted := filled.notCounted index isNew fits
  have notMarked : limiter.spamOf (nodeAt index) = false := by
    rw [← Bool.not_eq_true]
    exact fun isMarked => filled.marked _ isMarked notCounted
  have inTime : ¬limiter.TooSoon (nodeAt index) 0 := by
    rw [TooSoon, filled.notSent index isNew fits]
    decide
  rw [decisionOf, if_neg (not_not.mpr inManifest), notMarked, notCounted,
    if_neg (by decide), if_neg (by decide), if_neg inTime, filled.queue]

/-- The next node fills one more place of the queue. -/
theorem step
    (filled : Filled size count limiter)
    (small : size < 2 ^ 64)
    (fits : count ≤ size)
    (room : count < maxAnchorQueueSize) :
    Filled size (count + 1) (limiter.step (anchorAt count)).1 := by
  have accepted : limiter.decisionOf (nodeAt count) 0 = .accept := by
    rw [filled.decisionOf_nodeAt le_rfl fits, if_pos room]
  have books : Counted limiter (limiter.step (anchorAt count)).1 (nodeAt count) 0 :=
    counted_of_passedA2 (filled.mem_manifestNodes fits) (Or.inl accepted)
  have queue : (limiter.step (anchorAt count)).1.anchorQueue.length =
      limiter.anchorQueue.length + 1 :=
    length_anchorQueue_of_accept ((processAnchor_decision _ _ _ _).trans accepted)
  have different : ∀ index, count + 1 ≤ index → index ≤ size →
      nodeAt index ≠ nodeAt count := fun index later inside =>
    nodeAt_ne (by omega) (by omega) (by omega)
  refine ⟨manifestNodes_step filled.manifest _, ?_, filled.marked.step _,
    fun index later inside => ?_, fun index later inside => ?_⟩
  · rw [queue, filled.queue]
  · rw [books.countOther _ (different index later inside)]
    exact filled.notCounted index (by omega) inside
  · rw [books.lastOther _ (different index later inside)]
    exact filled.notSent index (by omega) inside

/-- Filling the queue in turn. -/
theorem afterOps_fillQueue
    (small : size < 2 ^ 64)
    (fits : count ≤ size)
    (room : count ≤ maxAnchorQueueSize) :
    Filled size count (afterOps 1 (fillQueue size count)) := by
  induction count with
  | zero =>
      exact ⟨rfl, rfl, (explained_afterOps 1 (fillQueue size 0)).marked, fun _ _ _ => rfl,
        fun _ _ _ => rfl⟩
  | succ count inductionHypothesis =>
      have split : fillQueue size (count + 1) = fillQueue size count ++ [anchorAt count] := by
        rw [fillQueue, List.range_succ, List.map_append]
        rfl
      rw [split, afterOps_concat]
      exact (inductionHypothesis (Nat.le_of_succ_le fits) (Nat.le_of_succ_le room)).step
        small (Nat.le_of_succ_le fits) room

end Filled

/-- The queue is filled, and one node more anchors. -/
def anchorOverfull (size : Nat) : List AnchorOp :=
  fillQueue size size ++ [anchorAt size]

section Overfull

variable {size : Nat} (small : size < 2 ^ 64) (isSize : size = maxAnchorQueueSize)

include small isSize

/-- The node beyond the room meets a full queue. -/
theorem decisionOf_overfull :
    (afterOps 1 (fillQueue size size)).decisionOf (nodeAt size) 0 = .ignore .queueFull := by
  rw [(Filled.afterOps_fillQueue small le_rfl isSize.le).decisionOf_nodeAt le_rfl le_rfl,
    if_neg isSize.not_lt]

/-- The node beyond the room is never accepted. -/
theorem not_accepted_overfull
    (nowS : UInt64)
    (later : List AnchorOp) :
    ¬Answered 1 (anchorOverfull size) (nodeAt size) nowS .accept later := by
  rintro ⟨before, nodeIdShort, split, isAnswer⟩
  rcases RestartLog.of_concat_eq split with ⟨rfl, isLast, -⟩ | ⟨rest, earlier, -⟩
  · obtain ⟨-, -, rfl⟩ := AnchorOp.processAnchor.inj isLast
    have decision := processAnchor_decision (afterOps 1 (fillQueue size size)) (nodeAt size)
      nodeIdShort 0
    rw [decisionOf_overfull small isSize] at decision
    have answer := AnchorOutput.decision.inj isAnswer
    cases decision.symm.trans answer
  · have listed : .processAnchor (nodeAt size) nodeIdShort nowS ∈ fillQueue size size := by
      rw [earlier]
      exact List.mem_append_right _ List.mem_cons_self
    rcases List.mem_cons.mp listed with isUpdate | isAnchor
    · cases isUpdate
    · obtain ⟨index, inRange, isNode⟩ := List.mem_map.mp isAnchor
      have below := List.mem_range.mp inRange
      exact nodeAt_ne (Nat.ne_of_lt below) (below.trans small) small
        (AnchorOp.processAnchor.inj isNode).1

/-- The node beyond the room has been counted all the same. -/
theorem countOf_overfull :
    (afterOps 1 (anchorOverfull size)).countOf (nodeAt size) = 1 := by
  have filled : Filled size size (afterOps 1 (fillQueue size size)) :=
    Filled.afterOps_fillQueue small le_rfl isSize.le
  rw [anchorOverfull, afterOps_concat]
  exact (counted_of_passedA2 (filled.mem_manifestNodes le_rfl)
    (Or.inr (decisionOf_overfull small isSize))).count

/-- The next anchor of the node beyond the room is refused. -/
theorem decisionOf_overfull_again :
    (afterOps 1 (anchorOverfull size)).decisionOf (nodeAt size) 0 =
        .ignore .duplicateThisEpoch ∨
      (afterOps 1 (anchorOverfull size)).decisionOf (nodeAt size) 0 = .drop .spamAnchor := by
  have filled : Filled size size (afterOps 1 (fillQueue size size)) :=
    Filled.afterOps_fillQueue small le_rfl isSize.le
  have inManifest : nodeAt size ∈ (afterOps 1 (anchorOverfull size)).manifestNodes := by
    have manifest := manifestNodes_step filled.manifest (anchorAt size)
    rw [anchorOverfull, afterOps_concat, manifest, List.mem_toFinset]
    exact List.mem_map_of_mem (List.mem_range.mpr (Nat.lt_succ_self size))
  rw [decisionOf, if_neg (not_not.mpr inManifest), countOf_overfull small isSize]
  split
  · exact Or.inr rfl
  · exact Or.inl (if_pos (by decide))

/-- The answer to the next anchor of the node beyond the room. -/
theorem step_overfull_again :
    ((afterOps 1 (anchorOverfull size)).step (anchorAt size)).2 =
        .decision (.ignore .duplicateThisEpoch) ∨
      ((afterOps 1 (anchorOverfull size)).step (anchorAt size)).2 =
        .decision (.drop .spamAnchor) := by
  have again := decisionOf_overfull_again small isSize
  rw [← processAnchor_decision _ _ (Bytes4.replicate 0)] at again
  exact again.imp (congrArg AnchorOutput.decision) (congrArg AnchorOutput.decision)

end Overfull

/-- A node outside the manifest anchors. -/
def anchorOutside : List AnchorOp :=
  [anchorAt 0]

/-- The node outside the manifest is never accepted. -/
theorem not_accepted_outside
    (nowS : UInt64)
    (later : List AnchorOp) :
    ¬Answered 1 anchorOutside (nodeAt 0) nowS .accept later := by
  rintro ⟨before, nodeIdShort, split, isAnswer⟩
  cases before with
  | nil =>
      have answer := AnchorOutput.decision.inj isAnswer
      rw [if_pos rfl] at answer
      cases answer
  | cons first rest =>
      have lengths := congrArg List.length split
      simp [anchorOutside] at lengths

/--
A pending node is answered as a duplicate, and a node that met a full queue is
refused for the rest of the epoch, though neither was accepted.
-/
theorem refused_without_accept :
    ((afterOps 1 anchorOutside).step (anchorAt 0)).2 =
        .decision (.ignore .duplicateThisEpoch) ∧
      (∀ nowS later, ¬Answered 1 anchorOutside (nodeAt 0) nowS .accept later) ∧
      (((afterOps 1 (anchorOverfull maxAnchorQueueSize)).step
            (anchorAt maxAnchorQueueSize)).2 = .decision (.ignore .duplicateThisEpoch) ∨
        ((afterOps 1 (anchorOverfull maxAnchorQueueSize)).step
            (anchorAt maxAnchorQueueSize)).2 = .decision (.drop .spamAnchor)) ∧
      ∀ nowS later,
        ¬Answered 1 (anchorOverfull maxAnchorQueueSize) (nodeAt maxAnchorQueueSize) nowS
          .accept later := by
  have small : maxAnchorQueueSize < 2 ^ 64 := by
    decide
  exact ⟨rfl, not_accepted_outside, step_overfull_again small rfl,
    not_accepted_overfull small rfl⟩

end AnchorRateLimiter

end ScalarCore
