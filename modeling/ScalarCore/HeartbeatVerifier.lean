import ScalarCore.Heartbeat
import ScalarCore.MachineInt
import ScalarCore.RestartLog
import ScalarCore.StateMachine

namespace ScalarCore

/-!
# Verification of heartbeats

A verifier keeps the last heartbeat of each node.  The next one has to carry a
higher sequence number and the hash of the last one; sequence number 1 restarts
the chain of a node that had passed it, and the state of the node is dropped
before the code of the restart is checked.

Time is a number of seconds in a 32-bit word, and the hash is a parameter.
-/

open MachineInt

/-- Seconds that a heartbeat may be ahead of the network median time. -/
def tFutureToleranceS : UInt32 :=
  60

/-- Seconds that a heartbeat may be behind the network median time. -/
def tPastS : UInt32 :=
  3600

/-- Errors of the verification. -/
inductive VerificationError where
  | timestampTooFuture (nmt hbTimestamp futureToleranceS : UInt32)
  | timestampTooOld (nmt hbTimestamp pastToleranceS : UInt32)
  | seqNumNotMonotonic (received last : UInt32)
  | prevHashMismatch (expected received : Bytes32)
  | macInvalid
  deriving DecidableEq

/-- What is kept of the last heartbeat of a node. -/
structure HeartbeatUnitState where
  lastSeqNum : UInt32
  lastHbBytes : Bytes148
  deriving DecidableEq

/-- The states of the nodes. -/
abbrev HeartbeatVerifier :=
  Finmap fun _ : Bytes4 => HeartbeatUnitState

/-- A call of `verify`. -/
structure VerifyCall where
  hb : HeartbeatUnit
  nmt : UInt32
  nodeKeyEpoch : Bytes32
  epochId : UInt64
  deriving DecidableEq

namespace HeartbeatVerifier

/-- The last sequence number of a node, zero where none is known. -/
def lastSeqNum (verifier : HeartbeatVerifier) (nodeId : Bytes4) : UInt32 :=
  ((verifier.lookup nodeId).map HeartbeatUnitState.lastSeqNum).getD 0

/-- The state kept after a heartbeat. -/
def stateOf (hb : HeartbeatUnit) : HeartbeatUnitState where
  lastSeqNum := hb.seqNum
  lastHbBytes := hb.toBytes

variable (blake3 : List UInt8 → Bytes32)

/-- The error of a heartbeat that does not carry the hash of the last one. -/
def prevHashError
    (verifier : HeartbeatVerifier)
    (hb : HeartbeatUnit) : Option VerificationError :=
  match verifier.lookup hb.nodeId with
  | some state =>
      let lastHb := HeartbeatUnit.fromBytes state.lastHbBytes
      let expectedPrev := computePrevHash blake3 lastHb
      if hb.prevHash ≠ expectedPrev then
        some (.prevHashMismatch expectedPrev hb.prevHash)
      else
        none
  | none => none

/-- The code that a heartbeat should carry. -/
def expectedMac (nodeKeyEpoch : Bytes32) (hb : HeartbeatUnit) : Bytes32 :=
  computeHeartbeatMac blake3 nodeKeyEpoch hb.nodeId hb.seqNum hb.timestamp
    hb.smtRoot hb.imtFrontier hb.imtCount hb.prevHash

/-- Verify a heartbeat and keep it. -/
def verify
    (verifier : HeartbeatVerifier)
    (call : VerifyCall) :
    HeartbeatVerifier × Except VerificationError Unit :=
  let hb := call.hb
  if hb.timestamp > saturatingAddU32 call.nmt tFutureToleranceS then
    (verifier,
      .error (.timestampTooFuture call.nmt hb.timestamp tFutureToleranceS))
  else if hb.timestamp < saturatingSubU32 call.nmt tPastS then
    (verifier, .error (.timestampTooOld call.nmt hb.timestamp tPastS))
  else
    let lastSeq := verifier.lastSeqNum hb.nodeId
    let isRestart := hb.seqNum = 1 ∧ lastSeq > 1
    if hb.seqNum ≤ lastSeq ∧ ¬ isRestart then
      (verifier, .error (.seqNumNotMonotonic hb.seqNum lastSeq))
    else
      -- A restart forgets the node, whether or not it is accepted below.
      let verifier : HeartbeatVerifier :=
        if isRestart then verifier.erase hb.nodeId else verifier
      match verifier.prevHashError blake3 hb with
      | some failure => (verifier, .error failure)
      | none =>
          if hb.mac ≠ expectedMac blake3 call.nodeKeyEpoch hb then
            (verifier, .error .macInvalid)
          else
            (verifier.insert hb.nodeId (stateOf hb), .ok ())

/-!
## One call
-/

/-- The heartbeat is close to the network median time. -/
def InWindow (call : VerifyCall) : Prop :=
  call.hb.timestamp ≤ saturatingAddU32 call.nmt tFutureToleranceS ∧
    saturatingSubU32 call.nmt tPastS ≤ call.hb.timestamp

/-- The code of the heartbeat is that of the key. -/
def MacValid (call : VerifyCall) : Prop :=
  call.hb.mac = expectedMac blake3 call.nodeKeyEpoch call.hb

/-- The heartbeat restarts the chain of its node. -/
def Restarts (verifier : HeartbeatVerifier) (hb : HeartbeatUnit) : Prop :=
  hb.seqNum = 1 ∧ 1 < verifier.lastSeqNum hb.nodeId

/-- The heartbeat continues the chain of its node, if one is known. -/
def Continues (verifier : HeartbeatVerifier) (hb : HeartbeatUnit) : Prop :=
  verifier.lastSeqNum hb.nodeId < hb.seqNum ∧
    ∀ state,
      verifier.lookup hb.nodeId = some state →
      hb.prevHash =
        computePrevHash blake3 (HeartbeatUnit.fromBytes state.lastHbBytes)

/-- The heartbeat passes all checks. -/
def Passes (verifier : HeartbeatVerifier) (call : VerifyCall) : Prop :=
  InWindow call ∧
    MacValid blake3 call ∧
    (Restarts verifier call.hb ∨ Continues blake3 verifier call.hb)

/-- The heartbeat is a restart with a wrong code. -/
def Forgets (verifier : HeartbeatVerifier) (call : VerifyCall) : Prop :=
  InWindow call ∧ ¬ MacValid blake3 call ∧ Restarts verifier call.hb

instance (call : VerifyCall) : Decidable (InWindow call) :=
  inferInstanceAs (Decidable (_ ∧ _))

instance (call : VerifyCall) : Decidable (MacValid blake3 call) :=
  inferInstanceAs (Decidable (_ = _))

instance (verifier : HeartbeatVerifier) (hb : HeartbeatUnit) :
    Decidable (Restarts verifier hb) :=
  inferInstanceAs (Decidable (_ ∧ _))

variable {blake3} {verifier : HeartbeatVerifier} {call : VerifyCall}

/-- The window in seconds, no end of which is clamped away. -/
theorem inWindow_iff :
    InWindow call ↔
      call.hb.timestamp.toNat ≤ call.nmt.toNat + 60 ∧
        call.nmt.toNat ≤ call.hb.timestamp.toNat + 3600 := by
  have future : tFutureToleranceS.toNat = 60 := rfl
  have past : tPastS.toNat = 3600 := rfl
  have timestampBound := call.hb.timestamp.toNat_lt
  rw [InWindow, UInt32.le_iff_toNat_le, UInt32.le_iff_toNat_le,
    toNat_saturatingAddU32, toNat_saturatingSubU32, future, past]
  unfold maxU32
  omega

/-- No hash is wrong exactly when the hash of the last heartbeat is carried. -/
theorem prevHashError_eq_none_iff
    {hb : HeartbeatUnit} :
    verifier.prevHashError blake3 hb = none ↔
      ∀ state,
        verifier.lookup hb.nodeId = some state →
        hb.prevHash =
          computePrevHash blake3
            (HeartbeatUnit.fromBytes state.lastHbBytes) := by
  unfold prevHashError
  cases found : verifier.lookup hb.nodeId with
  | none => simp
  | some state => simp

/-- Nothing is known of a node that is forgotten. -/
theorem prevHashError_erase (hb : HeartbeatUnit) :
    prevHashError blake3 (verifier.erase hb.nodeId) hb = none := by
  rw [prevHashError_eq_none_iff]
  intro state found
  rw [Finmap.lookup_erase] at found
  cases found

/-- A restart does not continue the chain. -/
theorem not_continues_of_restarts
    {hb : HeartbeatUnit}
    (restarts : Restarts verifier hb) :
    ¬ Continues blake3 verifier hb := by
  rintro ⟨higher, _⟩
  obtain ⟨isFirst, passedFirst⟩ := restarts
  rw [isFirst] at higher
  exact UInt32.lt_asymm higher passedFirst

/-- A call outside the window is refused. -/
theorem verify_of_not_inWindow
    (outside : ¬ InWindow call) :
    ∃ failure, verifier.verify blake3 call = (verifier, .error failure) := by
  unfold verify
  dsimp only
  by_cases future :
      call.hb.timestamp > saturatingAddU32 call.nmt tFutureToleranceS
  · exact ⟨_, if_pos future⟩
  · have past : call.hb.timestamp < saturatingSubU32 call.nmt tPastS := by
      by_contra notPast
      exact outside ⟨UInt32.not_lt.mp future, UInt32.not_lt.mp notPast⟩
    rw [if_neg future, if_pos past]
    exact ⟨_, rfl⟩

/-- A restart in the window is accepted, or forgets the node. -/
theorem verify_of_restarts
    (inWindow : InWindow call)
    (restarts : Restarts verifier call.hb) :
    verifier.verify blake3 call =
      if MacValid blake3 call then
        (verifier.insert call.hb.nodeId (stateOf call.hb), .ok ())
      else
        (verifier.erase call.hb.nodeId, .error .macInvalid) := by
  obtain ⟨notFuture, notPast⟩ := inWindow
  have isRestart :
      call.hb.seqNum = 1 ∧ verifier.lastSeqNum call.hb.nodeId > 1 :=
    restarts
  unfold verify
  dsimp only
  rw [if_neg (UInt32.not_lt.mpr notFuture),
    if_neg (UInt32.not_lt.mpr notPast),
    if_neg (fun refused => refused.2 isRestart), if_pos isRestart,
    prevHashError_erase]
  dsimp only
  rw [KeyedWrites.insert_erase, ite_not]
  rfl

/-- Any other call in the window is accepted when it passes all checks. -/
theorem verify_of_not_restarts
    (inWindow : InWindow call)
    (notRestart : ¬ Restarts verifier call.hb) :
    (MacValid blake3 call ∧ Continues blake3 verifier call.hb ∧
        verifier.verify blake3 call =
          (verifier.insert call.hb.nodeId (stateOf call.hb), .ok ())) ∨
      (¬ (MacValid blake3 call ∧ Continues blake3 verifier call.hb) ∧
        ∃ failure,
          verifier.verify blake3 call = (verifier, .error failure)) := by
  obtain ⟨notFuture, notPast⟩ := inWindow
  have noRestart :
      ¬ (call.hb.seqNum = 1 ∧ verifier.lastSeqNum call.hb.nodeId > 1) :=
    notRestart
  unfold verify
  dsimp only
  rw [if_neg (UInt32.not_lt.mpr notFuture),
    if_neg (UInt32.not_lt.mpr notPast)]
  by_cases higher : verifier.lastSeqNum call.hb.nodeId < call.hb.seqNum
  · rw [if_neg (fun refused => UInt32.not_le.mpr higher refused.1),
      if_neg noRestart]
    cases wrongHash : verifier.prevHashError blake3 call.hb with
    | some failure =>
        refine Or.inr ⟨?_, failure, rfl⟩
        rintro ⟨_, _, sameHash⟩
        rw [prevHashError_eq_none_iff.mpr sameHash] at wrongHash
        cases wrongHash
    | none =>
        have continues : Continues blake3 verifier call.hb :=
          ⟨higher, prevHashError_eq_none_iff.mp wrongHash⟩
        by_cases macValid : MacValid blake3 call
        · exact
            Or.inl
              ⟨macValid, continues, if_neg (not_not_intro macValid)⟩
        · exact
            Or.inr
              ⟨fun valid => macValid valid.1, _, if_pos macValid⟩
  · have refused :
        call.hb.seqNum ≤ verifier.lastSeqNum call.hb.nodeId ∧
          ¬ (call.hb.seqNum = 1 ∧ verifier.lastSeqNum call.hb.nodeId > 1) :=
      ⟨UInt32.not_lt.mp higher, noRestart⟩
    rw [if_pos refused]
    exact Or.inr ⟨fun valid => higher valid.2.1, _, rfl⟩

/-- A call that passes is accepted, and the heartbeat is kept. -/
theorem verify_of_passes
    (passes : Passes blake3 verifier call) :
    verifier.verify blake3 call =
      (verifier.insert call.hb.nodeId (stateOf call.hb), .ok ()) := by
  obtain ⟨inWindow, macValid, restarts | continues⟩ := passes
  · rw [verify_of_restarts inWindow restarts, if_pos macValid]
  · have notRestart : ¬ Restarts verifier call.hb :=
      fun restarts => not_continues_of_restarts restarts continues
    rcases verify_of_not_restarts inWindow notRestart with
      ⟨_, _, accepted⟩ | ⟨invalid, _⟩
    · exact accepted
    · exact absurd ⟨macValid, continues⟩ invalid

/-- A restart with a wrong code is refused, and the node is forgotten. -/
theorem verify_of_forgets
    (forgets : Forgets blake3 verifier call) :
    verifier.verify blake3 call =
      (verifier.erase call.hb.nodeId, .error .macInvalid) := by
  obtain ⟨inWindow, macInvalid, restarts⟩ := forgets
  rw [verify_of_restarts inWindow restarts, if_neg macInvalid]

/-- Every other call is refused and changes nothing. -/
theorem verify_of_refused
    (notPasses : ¬ Passes blake3 verifier call)
    (notForgets : ¬ Forgets blake3 verifier call) :
    ∃ failure, verifier.verify blake3 call = (verifier, .error failure) := by
  by_cases inWindow : InWindow call
  · by_cases restarts : Restarts verifier call.hb
    · by_cases macValid : MacValid blake3 call
      · exact absurd ⟨inWindow, macValid, Or.inl restarts⟩ notPasses
      · exact absurd ⟨inWindow, macValid, restarts⟩ notForgets
    · rcases verify_of_not_restarts inWindow restarts with
        ⟨macValid, continues, _⟩ | ⟨_, refused⟩
      · exact absurd ⟨inWindow, macValid, Or.inr continues⟩ notPasses
      · exact refused
  · exact verify_of_not_inWindow inWindow

/-!
## Runs
-/

/-- A heartbeat restarts its node, or continues from the one before. -/
def Follows
    (blake3 : List UInt8 → Bytes32)
    (prev hb : HeartbeatUnit) : Prop :=
  hb.seqNum = 1 ∨
    (prev.seqNum < hb.seqNum ∧ hb.prevHash = computePrevHash blake3 prev)

/-- The heartbeats accepted in a run. -/
def acceptedHeartbeats
    (blake3 : List UInt8 → Bytes32)
    (start : HeartbeatVerifier)
    (calls : List VerifyCall) : List HeartbeatUnit :=
  (StateMachine.accepted Except.isOk (verify blake3) start calls).map
    VerifyCall.hb

/-- No heartbeat is accepted twice, and each follows the last of its node. -/
structure AcceptedOnce
    (blake3 : List UInt8 → Bytes32)
    (accepted : List HeartbeatUnit) : Prop where
  once : accepted.Nodup
  chained :
    ∀ before hb after,
      accepted = before ++ hb :: after →
      ∀ prev,
        KeyedWrites.lastFor HeartbeatUnit.nodeId hb.nodeId before =
          some prev →
        Follows blake3 prev hb

/-- A verifier with the calls it has accepted. -/
abbrev Logged :=
  StateMachine.Logged HeartbeatVerifier VerifyCall

/-- The heartbeats that are accepted so far. -/
def heartbeats (logged : Logged) : List HeartbeatUnit :=
  logged.log.map VerifyCall.hb

/-- Verify a heartbeat and log the call when it is accepted. -/
def logStep (blake3 : List UInt8 → Bytes32) :
    Logged → VerifyCall → Logged × Except VerificationError Unit :=
  StateMachine.logStep Except.isOk (verify blake3)

/-- A heartbeat that starts the numbering of its node. -/
def IsFirst (hb : HeartbeatUnit) : Prop :=
  hb.seqNum = 1

/-- A heartbeat that was accepted before a restart of its node. -/
def Retired (accepted : List HeartbeatUnit) (hb : HeartbeatUnit) : Prop :=
  RestartLog.Retired HeartbeatUnit.nodeId IsFirst accepted hb

/--
A call with no replay across a restart.  A restart with a wrong code comes only
for nodes without an accepted heartbeat, a restart with the right one is a new
heartbeat, and the chain is not continued by a heartbeat from before a restart.
-/
structure Regular
    (blake3 : List UInt8 → Bytes32)
    (logged : Logged)
    (call : VerifyCall) : Prop where
  remembers :
    Forgets blake3 logged.state call →
    ∀ hb ∈ heartbeats logged, hb.nodeId ≠ call.hb.nodeId
  newRestart :
    InWindow call →
    MacValid blake3 call →
    Restarts logged.state call.hb →
    call.hb ∉ heartbeats logged
  notRetired :
    InWindow call →
    MacValid blake3 call →
    Continues blake3 logged.state call.hb →
    ¬ Retired (heartbeats logged) call.hb

/-- The verifier knows the last heartbeats, which are distinct and chained. -/
structure Consistent
    (blake3 : List UInt8 → Bytes32)
    (logged : Logged) : Prop where
  stored :
    ∀ nodeId last,
      KeyedWrites.lastFor HeartbeatUnit.nodeId nodeId (heartbeats logged) =
        some last →
      logged.state.lookup nodeId = some (stateOf last)
  ascending :
    RestartLog.Ascending HeartbeatUnit.nodeId
      (fun hb => hb.seqNum.toNat) IsFirst (heartbeats logged)
  linked :
    RestartLog.Linked HeartbeatUnit.nodeId (Follows blake3)
      (heartbeats logged)

variable {logged : Logged}

/-- An accepted call is logged and its heartbeat kept. -/
theorem logStep_of_passes
    (passes : Passes blake3 logged.state call) :
    (logStep blake3 logged call).1 =
      { state := logged.state.insert call.hb.nodeId (stateOf call.hb)
        log := logged.log ++ [call] } := by
  rw [logStep, StateMachine.logStep, verify_of_passes passes]
  rfl

/-- A restart with a wrong code drops the state of the node. -/
theorem logStep_of_forgets
    (forgets : Forgets blake3 logged.state call) :
    (logStep blake3 logged call).1 =
      { state := logged.state.erase call.hb.nodeId
        log := logged.log } := by
  rw [logStep, StateMachine.logStep, verify_of_forgets forgets]
  rfl

/-- Any other call changes nothing. -/
theorem logStep_of_refused
    (notPasses : ¬ Passes blake3 logged.state call)
    (notForgets : ¬ Forgets blake3 logged.state call) :
    (logStep blake3 logged call).1 = logged := by
  obtain ⟨failure, refused⟩ := verify_of_refused notPasses notForgets
  rw [logStep, StateMachine.logStep, refused]
  rfl

theorem heartbeats_concat (state : HeartbeatVerifier) :
    heartbeats { state, log := logged.log ++ [call] } =
      heartbeats logged ++ [call.hb] := by
  rw [heartbeats, List.map_append]
  rfl

/-- The last sequence number is that of the last accepted heartbeat. -/
theorem lastSeqNum_eq_of_lastFor
    {nodeId : Bytes4}
    {last : HeartbeatUnit}
    (consistent : Consistent blake3 logged)
    (isLast :
      KeyedWrites.lastFor HeartbeatUnit.nodeId nodeId (heartbeats logged) =
        some last) :
    lastSeqNum logged.state nodeId = last.seqNum := by
  rw [lastSeqNum, consistent.stored nodeId last isLast]
  rfl

/-- A heartbeat that continues the chain follows the last of its node. -/
theorem follows_of_continues
    {last : HeartbeatUnit}
    (consistent : Consistent blake3 logged)
    (continues : Continues blake3 logged.state call.hb)
    (isLast :
      KeyedWrites.lastFor HeartbeatUnit.nodeId call.hb.nodeId
        (heartbeats logged) = some last) :
    last.seqNum < call.hb.seqNum ∧
      call.hb.prevHash = computePrevHash blake3 last := by
  obtain ⟨higher, sameHash⟩ := continues
  rw [lastSeqNum_eq_of_lastFor consistent isLast] at higher
  have carried := sameHash _ (consistent.stored _ last isLast)
  rw [stateOf, HeartbeatUnit.fromBytes_toBytes] at carried
  exact ⟨higher, carried⟩

/-- A regular call that passes is one that the log admits. -/
theorem admits_of_passes
    (consistent : Consistent blake3 logged)
    (regular : Regular blake3 logged call)
    (passes : Passes blake3 logged.state call) :
    RestartLog.Admits HeartbeatUnit.nodeId (fun hb => hb.seqNum.toNat)
      IsFirst (heartbeats logged) call.hb := by
  obtain ⟨inWindow, macValid, restarts | continues⟩ := passes
  · exact .restart restarts.1 (regular.newRestart inWindow macValid restarts)
  · refine .ascent (regular.notRetired inWindow macValid continues) ?_
    intro last isLast
    exact
      UInt32.lt_iff_toNat_lt.mp
        (follows_of_continues consistent continues isLast).1

/-- Regular calls keep the log consistent. -/
theorem consistent_logStep
    (logged : Logged)
    (call : VerifyCall)
    (regular : Regular blake3 logged call)
    (consistent : Consistent blake3 logged) :
    Consistent blake3 (logStep blake3 logged call).1 := by
  by_cases passes : Passes blake3 logged.state call
  · have admits := admits_of_passes consistent regular passes
    rw [logStep_of_passes passes]
    constructor
    · intro nodeId last isLast
      rw [heartbeats_concat, KeyedWrites.lastFor_concat] at isLast
      by_cases same : call.hb.nodeId = nodeId
      · rw [if_pos same] at isLast
        cases isLast
        rw [← same, Finmap.lookup_insert]
      · rw [if_neg same] at isLast
        rw [Finmap.lookup_insert_of_ne _ (Ne.symm same)]
        exact consistent.stored nodeId last isLast
    · rw [heartbeats_concat]
      exact RestartLog.ascending_concat consistent.ascending admits
    · rw [heartbeats_concat]
      apply RestartLog.linked_concat consistent.linked
      intro last isLast
      obtain ⟨_, _, restarts | continues⟩ := passes
      · exact Or.inl restarts.1
      · exact Or.inr (follows_of_continues consistent continues isLast)
  · by_cases forgets : Forgets blake3 logged.state call
    · rw [logStep_of_forgets forgets]
      refine ⟨?_, consistent.ascending, consistent.linked⟩
      intro nodeId last isLast
      obtain ⟨listed, rfl⟩ := KeyedWrites.mem_of_lastFor isLast
      rw [Finmap.lookup_erase_ne (regular.remembers forgets last listed)]
      exact consistent.stored last.nodeId last isLast
    · rw [logStep_of_refused passes forgets]
      exact consistent

/-- Nothing is logged at the start. -/
theorem consistent_start (start : HeartbeatVerifier) :
    Consistent blake3 { state := start, log := [] } where
  stored _ _ isLast := by cases isLast
  ascending := RestartLog.ascending_nil
  linked := RestartLog.linked_nil

/-- The log of a run holds the accepted heartbeats. -/
theorem heartbeats_run
    (start : HeartbeatVerifier)
    (calls : List VerifyCall) :
    heartbeats
        (StateMachine.run (logStep blake3) { state := start, log := [] }
          calls) =
      acceptedHeartbeats blake3 start calls := by
  rw [logStep, StateMachine.run_logStep]
  rfl

/-!
## Replays
-/

/-- A first heartbeat continues the chain of an unknown node. -/
theorem continues_of_unknown
    {hb : HeartbeatUnit}
    (unknown : verifier.lookup hb.nodeId = none)
    (positive : 0 < hb.seqNum) :
    Continues blake3 verifier hb := by
  refine ⟨?_, ?_⟩
  · rw [lastSeqNum, unknown]
    exact positive
  · intro state found
    rw [unknown] at found
    cases found

/-- The number of an accepted heartbeat is not zero. -/
theorem seqNum_pos_of_passes
    (passes : Passes blake3 verifier call) :
    0 < call.hb.seqNum := by
  obtain ⟨_, _, restarts | continues⟩ := passes
  · rw [restarts.1]
    decide
  · exact UInt32.lt_of_le_of_lt UInt32.zero_le continues.1

/-- What is logged was in the window, with the right code. -/
theorem logged_logStep
    (logged : Logged)
    (call : VerifyCall)
    (sound :
      ∀ past ∈ logged.log,
        InWindow past ∧ MacValid blake3 past ∧ 0 < past.hb.seqNum) :
    ∀ past ∈ (logStep blake3 logged call).1.log,
      InWindow past ∧ MacValid blake3 past ∧ 0 < past.hb.seqNum := by
  by_cases passes : Passes blake3 logged.state call
  · rw [logStep_of_passes passes]
    intro past listed
    rcases List.mem_append.mp listed with wasListed | isCall
    · exact sound past wasListed
    · obtain rfl := List.mem_singleton.mp isCall
      exact ⟨passes.1, passes.2.1, seqNum_pos_of_passes passes⟩
  · by_cases forgets : Forgets blake3 logged.state call
    · rw [logStep_of_forgets forgets]
      exact sound
    · rw [logStep_of_refused passes forgets]
      exact sound

variable {start : HeartbeatVerifier} {past : List VerifyCall}

/-- A call that passes extends the accepted heartbeats. -/
theorem acceptedHeartbeats_concat
    (passes :
      Passes blake3
        (StateMachine.run (logStep blake3) { state := start, log := [] }
          past).state
        call) :
    acceptedHeartbeats blake3 start (past ++ [call]) =
      acceptedHeartbeats blake3 start past ++ [call.hb] := by
  rw [← heartbeats_run, ← heartbeats_run, StateMachine.run_append,
    StateMachine.run_cons, StateMachine.run_nil, logStep_of_passes passes,
    heartbeats_concat]

/-- A heartbeat that was accepted and passes again is accepted twice. -/
theorem not_acceptedOnce_of_replay
    (passes :
      Passes blake3
        (StateMachine.run (logStep blake3) { state := start, log := [] }
          past).state
        call)
    (listed :
      call.hb ∈
        heartbeats
          (StateMachine.run (logStep blake3) { state := start, log := [] }
            past)) :
    ¬ AcceptedOnce blake3
        (acceptedHeartbeats blake3 start (past ++ [call])) := by
  intro acceptedOnce
  have distinct := acceptedOnce.once
  rw [acceptedHeartbeats_concat passes, List.nodup_append] at distinct
  rw [heartbeats_run] at listed
  exact distinct.2.2 _ listed _ (List.mem_singleton_self _) rfl

/-- A new heartbeat with the right code is regular. -/
theorem regular_of_new
    (macValid : MacValid blake3 call)
    (isNew : call.hb ∉ heartbeats logged) :
    Regular blake3 logged call where
  remembers forgets := absurd macValid forgets.2.1
  newRestart _ _ _ := isNew
  notRetired _ _ _ retired := isNew (RestartLog.mem_of_retired retired)

/-- After a call that is not regular a run can be continued to accept one twice. -/
theorem irregular_breaks
    (irregular :
      ¬ Regular blake3
          (StateMachine.run (logStep blake3) { state := start, log := [] }
            past)
          call) :
    ∃ later,
      ¬ AcceptedOnce blake3
          (acceptedHeartbeats blake3 start (past ++ call :: later)) := by
  by_contra always
  simp only [not_exists, not_not] at always
  apply irregular
  constructor
  · intro forgets hb listed sameNode
    obtain ⟨replay, isLogged, rfl⟩ := List.mem_map.mp listed
    obtain ⟨inWindow, macValid, positive⟩ :=
      StateMachine.run_invariant logged_logStep
        (fun _ listed => absurd listed List.not_mem_nil) past replay isLogged
    have acceptedOnce := always [replay]
    rw [← List.singleton_append, ← List.append_assoc] at acceptedOnce
    have forgot := logStep_of_forgets forgets
    refine not_acceptedOnce_of_replay ?_ ?_ acceptedOnce
    · rw [StateMachine.run_append, StateMachine.run_cons,
        StateMachine.run_nil, forgot]
      refine ⟨inWindow, macValid, Or.inr (continues_of_unknown ?_ positive)⟩
      rw [sameNode, Finmap.lookup_erase]
    · rw [StateMachine.run_append, StateMachine.run_cons,
        StateMachine.run_nil, forgot]
      exact listed
  · intro inWindow macValid restarts listed
    exact
      not_acceptedOnce_of_replay ⟨inWindow, macValid, Or.inl restarts⟩ listed
        (always [])
  · intro inWindow macValid continues retired
    exact
      not_acceptedOnce_of_replay ⟨inWindow, macValid, Or.inr continues⟩
        (RestartLog.mem_of_retired retired) (always [])

/-- A call of one node, with the right code. -/
def signedCall
    (blake3 : List UInt8 → Bytes32)
    (seqNum timestamp : UInt32)
    (prevHash : Bytes32) : VerifyCall where
  hb :=
    { nodeId := Bytes4.replicate 1
      seqNum
      timestamp
      smtRoot := Bytes32.zero
      imtFrontier := Bytes32.zero
      imtCount := 0
      prevHash
      mac :=
        computeHeartbeatMac blake3 Bytes32.zero (Bytes4.replicate 1) seqNum
          timestamp Bytes32.zero Bytes32.zero 0 prevHash }
  nmt := 0
  nodeKeyEpoch := Bytes32.zero
  epochId := 1

/-- The first heartbeat of the node. -/
def firstCall (blake3 : List UInt8 → Bytes32) : VerifyCall :=
  signedCall blake3 1 0 Bytes32.zero

/-- The second heartbeat of the node. -/
def secondCall (blake3 : List UInt8 → Bytes32) : VerifyCall :=
  signedCall blake3 2 0 (computePrevHash blake3 (firstCall blake3).hb)

/-- The node restarts a second later. -/
def restartCall (blake3 : List UInt8 → Bytes32) : VerifyCall :=
  signedCall blake3 1 1 Bytes32.zero

theorem passes_signedCall
    {seqNum timestamp : UInt32}
    {prevHash : Bytes32}
    (soon : timestamp ≤ tFutureToleranceS)
    (inOrder :
      Restarts verifier (signedCall blake3 seqNum timestamp prevHash).hb ∨
        Continues blake3 verifier
          (signedCall blake3 seqNum timestamp prevHash).hb) :
    Passes blake3 verifier (signedCall blake3 seqNum timestamp prevHash) := by
  have latest : saturatingAddU32 0 tFutureToleranceS = tFutureToleranceS := by
    decide
  have earliest : saturatingSubU32 0 tPastS = 0 := by
    decide
  refine ⟨⟨?_, ?_⟩, rfl, inOrder⟩
  · exact latest.symm ▸ soon
  · exact earliest.symm ▸ UInt32.zero_le

theorem passes_firstCall : Passes blake3 ∅ (firstCall blake3) :=
  passes_signedCall (by decide)
    (Or.inr (continues_of_unknown rfl (by decide : (0 : UInt32) < 1)))

theorem passes_secondCall
    (found :
      verifier.lookup (Bytes4.replicate 1) =
        some (stateOf (firstCall blake3).hb)) :
    Passes blake3 verifier (secondCall blake3) := by
  refine passes_signedCall (by decide) (Or.inr ⟨?_, ?_⟩)
  · have lastIsFirst : lastSeqNum verifier (Bytes4.replicate 1) = 1 := by
      rw [lastSeqNum, found]
      rfl
    exact lastIsFirst.symm ▸ (by decide : (1 : UInt32) < 2)
  · intro state stored
    rw [← Option.some_inj.mp (found.symm.trans stored), stateOf,
      HeartbeatUnit.fromBytes_toBytes]
    rfl

/-- The first number of a node that passed it is a restart. -/
theorem passes_restart
    {timestamp : UInt32}
    (soon : timestamp ≤ tFutureToleranceS)
    (found :
      verifier.lookup (Bytes4.replicate 1) =
        some (stateOf (secondCall blake3).hb)) :
    Passes blake3 verifier
      (signedCall blake3 1 timestamp Bytes32.zero) := by
  refine passes_signedCall soon (Or.inl ⟨rfl, ?_⟩)
  have lastIsSecond : lastSeqNum verifier (Bytes4.replicate 1) = 2 := by
    rw [lastSeqNum, found]
    rfl
  exact lastIsSecond.symm ▸ (by decide : (1 : UInt32) < 2)

/-- The verifier that knows one heartbeat of the node. -/
def knowing (verifier : HeartbeatVerifier) (call : VerifyCall) :
    HeartbeatVerifier :=
  verifier.insert (Bytes4.replicate 1) (stateOf call.hb)

@[simp] theorem lookup_knowing :
    (verifier.knowing call).lookup (Bytes4.replicate 1) =
      some (stateOf call.hb) :=
  Finmap.lookup_insert _

theorem logStep_firstCall :
    (logStep blake3 { state := ∅, log := [] } (firstCall blake3)).1 =
      { state := knowing ∅ (firstCall blake3), log := [firstCall blake3] } :=
  logStep_of_passes passes_firstCall

/-- Both heartbeats are accepted. -/
theorem run_twoCalls :
    StateMachine.run (logStep blake3) { state := ∅, log := [] }
        [firstCall blake3, secondCall blake3] =
      { state := (knowing ∅ (firstCall blake3)).knowing (secondCall blake3)
        log := [firstCall blake3, secondCall blake3] } := by
  rw [StateMachine.run_cons, logStep_firstCall, StateMachine.run_cons,
    StateMachine.run_nil]
  exact logStep_of_passes (passes_secondCall lookup_knowing)

/-- A checksum in the place of the hash. -/
def checksum (bytes : List UInt8) : Bytes32 :=
  Bytes32.replicate bytes.sum

/--
No heartbeat is accepted twice, and each follows the last of its node, in every
run without a replay across a restart.
-/
theorem acceptedOnce_of_regular
    {start : HeartbeatVerifier}
    {calls : List VerifyCall}
    (regular :
      StateMachine.EveryStep (logStep blake3) (Regular blake3)
        { state := start, log := [] } calls) :
    AcceptedOnce blake3 (acceptedHeartbeats blake3 start calls) := by
  have consistent :=
    regular.run_invariant consistent_logStep (consistent_start start)
  rw [← heartbeats_run]
  exact ⟨consistent.ascending.nodup, consistent.linked⟩

/-- A node that sends two heartbeats and restarts with a new one. -/
theorem acceptedOnce_after_restart :
    AcceptedOnce checksum
      (acceptedHeartbeats checksum ∅
        ([firstCall checksum, secondCall checksum] ++
          [restartCall checksum])) := by
  apply acceptedOnce_of_regular
  rw [StateMachine.everyStep_append, run_twoCalls]
  refine ⟨⟨regular_of_new rfl ?_, regular_of_new rfl ?_, trivial⟩,
    regular_of_new rfl ?_, trivial⟩
  · exact List.not_mem_nil
  · rw [logStep_firstCall]
    decide
  · decide

/-- The first heartbeat is accepted again as a restart, whatever the hash. -/
theorem replay_broken :
    ¬ ∃ blake3,
        ∀ calls, AcceptedOnce blake3 (acceptedHeartbeats blake3 ∅ calls) := by
  rintro ⟨blake3, always⟩
  have acceptedOnce :=
    always ([firstCall blake3, secondCall blake3] ++ [firstCall blake3])
  refine not_acceptedOnce_of_replay ?_ ?_ acceptedOnce
  · rw [run_twoCalls]
    exact passes_restart UInt32.zero_le lookup_knowing
  · rw [run_twoCalls]
    exact List.mem_cons_self

end HeartbeatVerifier

end ScalarCore
