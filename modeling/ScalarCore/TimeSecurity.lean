import ScalarCore.HeartbeatService

namespace ScalarCore

/-!
# The time rules of heartbeats

A heartbeat has to be of the epoch of its sequence number, within the tolerances
of the network time, and apart from the last one of its node.  The rate limiter
notes a heartbeat before the last rule is checked, so that one from the future
is noted and refused; likewise the verifier of heartbeats drops the state of a
node before it checks the code of a restart.  Every other refusal leaves no
trace.
-/

open KeyedWrites MachineInt StateMachine

/-- `T_HB_MIN_INTERVAL_S`. -/
def tHbMinIntervalS : UInt32 :=
  300

/-- `T_NMT_STALE_S`. -/
def tNmtStaleS : UInt32 :=
  120

/-- `verify_seq_num_in_epoch`. -/
def verifySeqNumInEpoch (seqNum : UInt32) (epochId : UInt64) : Bool :=
  epochFromSeqNum seqNum == epochId

/-- `is_nmt_fresh`. -/
def isNmtFresh (nmtLastUpdateS currentWallClockS : UInt64) : Bool :=
  decide
    (saturatingSub currentWallClockS nmtLastUpdateS ≤ tNmtStaleS.toUInt64)

/-- `check_past_timestamp`. -/
def checkPastTimestamp (hbTimestamp nmt : UInt32) : Bool :=
  decide (hbTimestamp ≥ saturatingSubU32 nmt tPastS)

/-- `check_future_timestamp`. -/
def checkFutureTimestamp (hbTimestamp nmt : UInt32) : Bool :=
  decide (hbTimestamp ≤ saturatingAddU32 nmt tFutureToleranceS)

/-- The timestamp of the last heartbeat of each node. -/
structure HeartbeatRateLimiter where
  lastHbTimestamp : Finmap fun _ : Bytes4 => UInt32

namespace HeartbeatRateLimiter

/-- `new`. -/
def new : HeartbeatRateLimiter where
  lastHbTimestamp := ∅

/-- Whether a timestamp is too early after the last one of its node. -/
def isTooEarly
    (limiter : HeartbeatRateLimiter)
    (nodeId : Bytes4)
    (hbTimestamp : UInt32) : Bool :=
  match limiter.lastHbTimestamp.lookup nodeId with
  | some lastTs =>
      if hbTimestamp < lastTs then
        true
      else
        decide (hbTimestamp - lastTs < tHbMinIntervalS)
  | none => false

/-- Note the timestamp of a node. -/
def note
    (limiter : HeartbeatRateLimiter)
    (nodeId : Bytes4)
    (hbTimestamp : UInt32) : HeartbeatRateLimiter where
  lastHbTimestamp := limiter.lastHbTimestamp.insert nodeId hbTimestamp

/-- `check_and_update`. -/
def checkAndUpdate
    (limiter : HeartbeatRateLimiter)
    (nodeId : Bytes4)
    (hbTimestamp : UInt32) : HeartbeatRateLimiter × Bool :=
  if limiter.isTooEarly nodeId hbTimestamp then
    (limiter, false)
  else
    (limiter.note nodeId hbTimestamp, true)

/-- A noted timestamp is a new one. -/
theorem note_ne
    {limiter : HeartbeatRateLimiter}
    {nodeId : Bytes4}
    {hbTimestamp : UInt32}
    (inTime : limiter.isTooEarly nodeId hbTimestamp = false) :
    limiter.note nodeId hbTimestamp ≠ limiter := by
  intro same
  have stored : limiter.lastHbTimestamp.lookup nodeId = some hbTimestamp :=
    insert_eq_self_iff.mp (congrArg lastHbTimestamp same)
  rw [isTooEarly, stored] at inTime
  simp [tHbMinIntervalS] at inTime

end HeartbeatRateLimiter

/-- Violations of the time rules. -/
inductive TimeSecurityViolation where
  | t1EpochBoundaryViolation
      (seqNum : UInt32)
      (expectedEpoch actualEpoch : UInt64)
  | t2PastTimestamp (hbTimestamp nmt : UInt32)
  | t3NmtStale (lastUpdateS currentS : UInt64)
  | t4RateLimitExceeded (nodeId : Bytes4)
  | t5FutureTimestamp (hbTimestamp nmt tolerance : UInt32)
  deriving DecidableEq

/-- The rate limiter with the time of the last update of the network time. -/
structure TimeSecurityChecker where
  rateLimiter : HeartbeatRateLimiter
  nmtLastUpdateWallS : UInt64

/-- A call of `check_all`. -/
structure TimeCheck where
  nodeId : Bytes4
  hbTimestamp : UInt32
  hbSeqNum : UInt32
  epochId : UInt64
  nmt : UInt32
  currentWallClockS : UInt64
  deriving DecidableEq

namespace TimeSecurityChecker

/-- `new`. -/
def new : TimeSecurityChecker where
  rateLimiter := .new
  nmtLastUpdateWallS := 0

/-- `check_all`. -/
def checkAll
    (checker : TimeSecurityChecker)
    (call : TimeCheck) :
    TimeSecurityChecker × Except TimeSecurityViolation Unit :=
  if verifySeqNumInEpoch call.hbSeqNum call.epochId = false then
    (checker,
      .error
        (.t1EpochBoundaryViolation call.hbSeqNum call.epochId
          (epochFromSeqNum call.hbSeqNum)))
  else if checkPastTimestamp call.hbTimestamp call.nmt = false then
    (checker, .error (.t2PastTimestamp call.hbTimestamp call.nmt))
  else if isNmtFresh checker.nmtLastUpdateWallS call.currentWallClockS =
      false then
    (checker,
      .error (.t3NmtStale checker.nmtLastUpdateWallS call.currentWallClockS))
  else
    -- The limiter has noted the timestamp when the last rule is checked.
    match checker.rateLimiter.checkAndUpdate call.nodeId call.hbTimestamp with
    | (rateLimiter, false) =>
        ({ checker with rateLimiter }, .error (.t4RateLimitExceeded call.nodeId))
    | (rateLimiter, true) =>
        if checkFutureTimestamp call.hbTimestamp call.nmt = false then
          ({ checker with rateLimiter },
            .error
              (.t5FutureTimestamp call.hbTimestamp call.nmt tFutureToleranceS))
        else
          ({ checker with rateLimiter }, .ok ())

/-- The heartbeat passes the rules up to the rate limit. -/
structure IsNoted
    (checker : TimeSecurityChecker)
    (call : TimeCheck) : Prop where
  epoch : verifySeqNumInEpoch call.hbSeqNum call.epochId = true
  past : checkPastTimestamp call.hbTimestamp call.nmt = true
  fresh :
    isNmtFresh checker.nmtLastUpdateWallS call.currentWallClockS = true
  inTime :
    checker.rateLimiter.isTooEarly call.nodeId call.hbTimestamp = false

/-- The checker with the timestamp of a heartbeat noted. -/
def noted
    (checker : TimeSecurityChecker)
    (call : TimeCheck) : TimeSecurityChecker :=
  { checker with
    rateLimiter := checker.rateLimiter.note call.nodeId call.hbTimestamp }

/-- The heartbeat is noted, and refused for being from the future. -/
def NotesFuture (checker : TimeSecurityChecker) (call : TimeCheck) : Prop :=
  IsNoted checker call ∧
    checkFutureTimestamp call.hbTimestamp call.nmt = false

variable {checker : TimeSecurityChecker} {call : TimeCheck}

/-- A noted heartbeat is refused only if it is from the future. -/
theorem checkAll_of_isNoted (isNoted : IsNoted checker call) :
    checkAll checker call =
      if checkFutureTimestamp call.hbTimestamp call.nmt = false then
        (checker.noted call,
          .error
            (.t5FutureTimestamp call.hbTimestamp call.nmt tFutureToleranceS))
      else
        (checker.noted call, .ok ()) := by
  simp only [checkAll, isNoted.epoch, isNoted.past, isNoted.fresh,
    HeartbeatRateLimiter.checkAndUpdate, isNoted.inTime, Bool.true_eq_false,
    Bool.false_eq_true, if_false]
  rfl

/-- Any other heartbeat is refused and changes nothing. -/
theorem checkAll_of_not_isNoted (notNoted : ¬ IsNoted checker call) :
    ∃ violation, checkAll checker call = (checker, .error violation) := by
  unfold checkAll
  split
  · exact ⟨_, rfl⟩
  · rename_i epoch
    split
    · exact ⟨_, rfl⟩
    · rename_i past
      split
      · exact ⟨_, rfl⟩
      · rename_i fresh
        rw [Bool.not_eq_false] at epoch past fresh
        have tooEarly :
            checker.rateLimiter.isTooEarly call.nodeId call.hbTimestamp =
              true := by
          by_contra inTime
          rw [Bool.not_eq_true] at inTime
          exact notNoted ⟨epoch, past, fresh, inTime⟩
        rw [HeartbeatRateLimiter.checkAndUpdate, if_pos tooEarly]
        exact ⟨_, rfl⟩

/-- A refusal leaves a trace exactly when it notes a time of the future. -/
theorem refusedWithoutTrace_checkAll_iff :
    RefusedWithoutTrace checkAll checker call ↔ ¬ NotesFuture checker call := by
  rw [refusedWithoutTrace_iff]
  by_cases isNoted : IsNoted checker call
  · rw [checkAll_of_isNoted isNoted, NotesFuture]
    by_cases future : checkFutureTimestamp call.hbTimestamp call.nmt = false
    · rw [if_pos future]
      refine iff_of_false ?_ (not_not_intro ⟨isNoted, future⟩)
      intro unchanged
      exact
        HeartbeatRateLimiter.note_ne isNoted.inTime
          (congrArg rateLimiter (unchanged _ rfl))
    · rw [if_neg future]
      refine iff_of_true ?_ (fun notes => future notes.2)
      intro violation refused
      cases refused
  · obtain ⟨violation, refused⟩ := checkAll_of_not_isNoted isNoted
    rw [refused]
    exact
      iff_of_true (fun _ _ => rfl) (fun notes => isNoted notes.1)

/-- Where none is noted, refused messages can be left out of a run. -/
theorem run_accepted
    {calls : List TimeCheck}
    (noneNoted :
      EveryStep checkAll (fun state call => ¬ NotesFuture state call) checker
        calls) :
    run checkAll checker (accepted Except.isOk checkAll checker calls) =
      run checkAll checker calls :=
  EveryStep.run_accepted
    ((everyStep_iff (fun _ _ => refusedWithoutTrace_checkAll_iff) checker
      calls).mpr noneNoted)

end TimeSecurityChecker

namespace HeartbeatVerifier

variable {blake3 : List UInt8 → Bytes32} {verifier : HeartbeatVerifier}
  {call : VerifyCall}

/-- A node that is known is not known once it is forgotten. -/
theorem erase_ne_of_restarts
    (restarts : Restarts verifier call.hb) :
    verifier.erase call.hb.nodeId ≠ verifier := by
  intro same
  have unknown : verifier.lookup call.hb.nodeId = none := by
    rw [← same]
    exact Finmap.lookup_erase _ _
  have passedFirst := restarts.2
  rw [lastSeqNum, unknown] at passedFirst
  exact absurd passedFirst (by decide)

/-- A refusal leaves a trace exactly when it forgets a node. -/
theorem refusedWithoutTrace_verify_iff :
    RefusedWithoutTrace (verify blake3) verifier call ↔
      ¬ Forgets blake3 verifier call := by
  rw [refusedWithoutTrace_iff]
  by_cases forgets : Forgets blake3 verifier call
  · rw [verify_of_forgets forgets]
    refine iff_of_false ?_ (not_not_intro forgets)
    intro unchanged
    exact erase_ne_of_restarts forgets.2.2 (unchanged _ rfl)
  · refine iff_of_true ?_ forgets
    intro failure refused
    by_cases passes : Passes blake3 verifier call
    · rw [verify_of_passes passes] at refused
      cases refused
    · obtain ⟨_, isRefused⟩ := verify_of_refused passes forgets
      rw [isRefused]

/-- Where no node is forgotten, refused messages can be left out of a run. -/
theorem run_accepted
    {calls : List VerifyCall}
    (noneForgotten :
      EveryStep (verify blake3)
        (fun state call => ¬ Forgets blake3 state call) verifier calls) :
    run (verify blake3) verifier
        (accepted Except.isOk (verify blake3) verifier calls) =
      run (verify blake3) verifier calls :=
  EveryStep.run_accepted
    ((everyStep_iff (fun _ _ => refusedWithoutTrace_verify_iff) verifier
      calls).mpr noneForgotten)

end HeartbeatVerifier

/-- A restart of a node with some code. -/
def forgedRestart (mac : Bytes32) : VerifyCall where
  hb :=
    { nodeId := Bytes4.replicate 1
      seqNum := 1
      timestamp := 0
      smtRoot := Bytes32.zero
      imtFrontier := Bytes32.zero
      imtCount := 0
      prevHash := Bytes32.zero
      mac }
  nmt := 0
  nodeKeyEpoch := Bytes32.zero
  epochId := 1

/-- A node that sent a second heartbeat is forgotten on a wrong code. -/
theorem forgets_forgedRestart
    {blake3 : List UInt8 → Bytes32}
    {mac : Bytes32}
    (wrong : ¬ HeartbeatVerifier.MacValid blake3 (forgedRestart mac)) :
    HeartbeatVerifier.Forgets blake3
      (HeartbeatVerifier.knowing ∅ (HeartbeatVerifier.secondCall blake3))
      (forgedRestart mac) := by
  have lastIsSecond :
      HeartbeatVerifier.lastSeqNum
          (HeartbeatVerifier.knowing ∅ (HeartbeatVerifier.secondCall blake3))
          (forgedRestart mac).hb.nodeId = 2 := by
    have sameNode : (forgedRestart mac).hb.nodeId = Bytes4.replicate 1 := rfl
    rw [HeartbeatVerifier.lastSeqNum, sameNode,
      HeartbeatVerifier.lookup_knowing]
    rfl
  refine ⟨?_, wrong, rfl, ?_⟩
  · rw [HeartbeatVerifier.inWindow_iff]
    exact ⟨Nat.zero_le _, Nat.zero_le _⟩
  · rw [lastIsSecond]
    decide

/-- A heartbeat of the first epoch, at a network time of 1000 seconds. -/
def checkedMessage (hbTimestamp : UInt32) : TimeCheck where
  nodeId := Bytes4.replicate 1
  hbTimestamp
  hbSeqNum := 1
  epochId := 0
  nmt := 1000
  currentWallClockS := 0

/--
Refused messages leave no trace in the two checkers exactly when the first is
not a restart in the window with a wrong code, and the second does not pass
every rule but the one against times of the future.
-/
theorem refusedWithoutTrace_both_iff
    (blake3 : List UInt8 → Bytes32)
    (verifier : HeartbeatVerifier)
    (call : VerifyCall)
    (checker : TimeSecurityChecker)
    (check : TimeCheck) :
    RefusedWithoutTrace (HeartbeatVerifier.verify blake3) verifier call ∧
        RefusedWithoutTrace TimeSecurityChecker.checkAll checker check ↔
      ¬ HeartbeatVerifier.Forgets blake3 verifier call ∧
        ¬ TimeSecurityChecker.NotesFuture checker check :=
  and_congr HeartbeatVerifier.refusedWithoutTrace_verify_iff
    TimeSecurityChecker.refusedWithoutTrace_checkAll_iff

/-- A restart with a wrong code forgets the node, a future time is noted. -/
theorem refusals_leave_traces :
    (¬ ∃ blake3 : List UInt8 → Bytes32,
        ∀ verifier call,
          RefusedWithoutTrace (HeartbeatVerifier.verify blake3) verifier
            call) ∧
      ¬ ∀ checker check,
        RefusedWithoutTrace TimeSecurityChecker.checkAll checker check := by
  constructor
  · intro ⟨blake3, always⟩
    have valid (mac : Bytes32) :
        HeartbeatVerifier.MacValid blake3 (forgedRestart mac) := by
      by_contra wrong
      exact
        HeartbeatVerifier.refusedWithoutTrace_verify_iff.mp (always _ _)
          (forgets_forgedRestart wrong)
    -- the expected code does not depend on the code that is sent
    have sameCode : Bytes32.zero = Bytes32.endingIn 1 :=
      (valid Bytes32.zero).trans (valid (Bytes32.endingIn 1)).symm
    exact absurd sameCode (by decide)
  · intro always
    have noted :
        TimeSecurityChecker.NotesFuture .new (checkedMessage 2000) :=
      ⟨⟨by decide, by decide, by decide, by decide⟩, by decide⟩
    exact
      TimeSecurityChecker.refusedWithoutTrace_checkAll_iff.mp
        (always .new (checkedMessage 2000)) noted

end ScalarCore
