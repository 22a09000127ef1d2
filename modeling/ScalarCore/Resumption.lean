import ScalarCore.Heartbeat
import ScalarCore.StageMonitor

namespace ScalarCore

/-!
# Resumption of a node

A node that was offline syncs the epochs it missed, rebuilds its state, has it
validated by peers and then resumes.  The methods that start a phase overwrite
the one before without looking at it, and `resume` checks the quorum in the
validation phase only.  The order of the phases is therefore kept by the
caller, in the runs that are orderly.

Counters are those of machine words.
-/

/-- Peers that have to confirm the state. -/
def resumptionValidationQuorum : UInt32 :=
  2

/-- Most epochs that are synced. -/
def resumptionMaxAutoSyncEpochs : UInt64 :=
  100

/-- Why a resumption fails. -/
inductive ResumptionFailReason where
  | gapTooLarge (gapEpochs max : UInt64)
  | insufficientPeers (available required : UInt32)
  | validationQuorumFailed (confirmations required : UInt32)
  | invalidEpochAnchor (epochId : UInt64)
  deriving Repr, DecidableEq

/-- The phases of a resumption. -/
inductive ResumptionPhase where
  | detection
      (lastKnownSeqNum currentSeqNum : UInt32)
      (gapEpochs : UInt64)
  | sync (epochsToSync : List UInt64) (syncedCount : UInt32)
  | stateRebuild (epochsRebuilt : UInt32) (smtRoot : Bytes32)
  | validation
      (stateHash : Bytes32)
      (confirmations required : UInt32)
  | resumed (resumeSeqNum : UInt32) (resumeEpoch : UInt64)
  | failed (reason : ResumptionFailReason)
  deriving DecidableEq

/-- The name of a phase. -/
inductive PhaseKind where
  | detection
  | sync
  | stateRebuild
  | validation
  | resumed
  | failed
  deriving Repr, DecidableEq

/-- The name of the phase that is reached. -/
def ResumptionPhase.kind : ResumptionPhase → PhaseKind
  | .detection _ _ _ => .detection
  | .sync _ _ => .sync
  | .stateRebuild _ _ => .stateRebuild
  | .validation _ _ _ => .validation
  | .resumed _ _ => .resumed
  | .failed _ => .failed

/-- A node with the phase of its resumption. -/
structure ResumptionProtocol where
  nodeId : Bytes4
  phase : ResumptionPhase
  deriving DecidableEq

/-- The methods of the protocol. -/
inductive ResumptionOp where
  | startSync (epochsToSync : List UInt64)
  | recordEpochSynced
  | startStateRebuild (smtRoot : Bytes32)
  | recordEpochRebuilt
  | startValidation (stateHash : Bytes32)
  | recordPeerConfirmation (peerStateHash : Bytes32)
  | resume (resumeSeqNum : UInt32) (resumeEpoch : UInt64)
  deriving DecidableEq

/-- What a method answers. -/
inductive ResumptionAnswer where
  | done
  | quorum (reached : Bool)
  | result (result : Except ResumptionFailReason Unit)

/-- Number of whole epochs between two sequence numbers. -/
def computeGapEpochs (lastKnownSeqNum currentSeqNum : UInt32) : UInt64 :=
  if currentSeqNum ≤ lastKnownSeqNum then
    0
  else
    let gapHb := currentSeqNum - lastKnownSeqNum
    (gapHb / epochHbCount).toUInt64

namespace ResumptionProtocol

/-- The protocol of a node that detects a gap. -/
def new
    (nodeId : Bytes4)
    (lastKnownSeqNum currentSeqNum : UInt32) : ResumptionProtocol where
  nodeId
  phase :=
    .detection lastKnownSeqNum currentSeqNum
      (computeGapEpochs lastKnownSeqNum currentSeqNum)

/-- Start syncing, unless the gap is too large. -/
def startSync
    (protocol : ResumptionProtocol)
    (epochsToSync : List UInt64) :
    ResumptionProtocol × Except ResumptionFailReason Unit :=
  let gapEpochs := UInt64.ofNat epochsToSync.length
  if gapEpochs > resumptionMaxAutoSyncEpochs then
    let reason := .gapTooLarge gapEpochs resumptionMaxAutoSyncEpochs
    ({ protocol with phase := .failed reason }, .error reason)
  else
    ({ protocol with phase := .sync epochsToSync 0 }, .ok ())

/-- Count a synced epoch. -/
def recordEpochSynced (protocol : ResumptionProtocol) : ResumptionProtocol :=
  match protocol.phase with
  | .sync epochsToSync syncedCount =>
      { protocol with phase := .sync epochsToSync (syncedCount + 1) }
  | _ => protocol

/-- Start rebuilding the state. -/
def startStateRebuild
    (protocol : ResumptionProtocol)
    (smtRoot : Bytes32) : ResumptionProtocol :=
  { protocol with phase := .stateRebuild 0 smtRoot }

/-- Count a rebuilt epoch. -/
def recordEpochRebuilt (protocol : ResumptionProtocol) : ResumptionProtocol :=
  match protocol.phase with
  | .stateRebuild epochsRebuilt smtRoot =>
      { protocol with phase := .stateRebuild (epochsRebuilt + 1) smtRoot }
  | _ => protocol

/-- Start the validation by peers. -/
def startValidation
    (protocol : ResumptionProtocol)
    (stateHash : Bytes32) : ResumptionProtocol :=
  { protocol with
    phase := .validation stateHash 0 resumptionValidationQuorum }

/-- Count the confirmation of a peer; tell whether there is a quorum. -/
def recordPeerConfirmation
    (protocol : ResumptionProtocol)
    (peerStateHash : Bytes32) : ResumptionProtocol × Bool :=
  match protocol.phase with
  | .validation stateHash confirmations required =>
      let confirmations' :=
        if peerStateHash = stateHash then
          confirmations + 1
        else
          confirmations
      ({ protocol with
          phase := .validation stateHash confirmations' required },
        decide (confirmations' ≥ required))
  | _ => (protocol, false)

/-- Resume, unless a validation has no quorum. -/
def resume
    (protocol : ResumptionProtocol)
    (resumeSeqNum : UInt32)
    (resumeEpoch : UInt64) :
    ResumptionProtocol × Except ResumptionFailReason Unit :=
  let resumed : ResumptionProtocol :=
    { protocol with phase := .resumed resumeSeqNum resumeEpoch }
  match protocol.phase with
  | .validation _ confirmations required =>
      if confirmations < required then
        let reason := .validationQuorumFailed confirmations required
        ({ protocol with phase := .failed reason }, .error reason)
      else
        (resumed, .ok ())
  | _ => (resumed, .ok ())

/-- Whether the node has resumed. -/
def isResumed (protocol : ResumptionProtocol) : Bool :=
  decide (protocol.phase.kind = .resumed)

/-- Whether the resumption has failed. -/
def isFailed (protocol : ResumptionProtocol) : Bool :=
  decide (protocol.phase.kind = .failed)

/-- Call a method. -/
def step (protocol : ResumptionProtocol) :
    ResumptionOp → ResumptionProtocol × ResumptionAnswer
  | .startSync epochsToSync =>
      ((protocol.startSync epochsToSync).1,
        .result (protocol.startSync epochsToSync).2)
  | .recordEpochSynced => (protocol.recordEpochSynced, .done)
  | .startStateRebuild smtRoot => (protocol.startStateRebuild smtRoot, .done)
  | .recordEpochRebuilt => (protocol.recordEpochRebuilt, .done)
  | .startValidation stateHash => (protocol.startValidation stateHash, .done)
  | .recordPeerConfirmation peerStateHash =>
      ((protocol.recordPeerConfirmation peerStateHash).1,
        .quorum (protocol.recordPeerConfirmation peerStateHash).2)
  | .resume resumeSeqNum resumeEpoch =>
      ((protocol.resume resumeSeqNum resumeEpoch).1,
        .result (protocol.resume resumeSeqNum resumeEpoch).2)

/-- The name of the phase of a protocol. -/
def kind (protocol : ResumptionProtocol) : PhaseKind :=
  protocol.phase.kind

/-!
## One method
-/

variable {protocol : ResumptionProtocol}

/-- Counting keeps the phase. -/
theorem kind_recordEpochSynced :
    protocol.recordEpochSynced.kind = protocol.kind := by
  unfold recordEpochSynced kind
  split
  · next _ _ phase =>
      rw [phase]
      rfl
  · rfl

theorem kind_recordEpochRebuilt :
    protocol.recordEpochRebuilt.kind = protocol.kind := by
  unfold recordEpochRebuilt kind
  split
  · next _ _ phase =>
      rw [phase]
      rfl
  · rfl

theorem kind_recordPeerConfirmation (peerStateHash : Bytes32) :
    (protocol.recordPeerConfirmation peerStateHash).1.kind =
      protocol.kind := by
  unfold recordPeerConfirmation kind
  split
  · next _ _ _ phase =>
      rw [phase]
      rfl
  · rfl

/-- A validation asks for the quorum of the protocol. -/
def AsksForQuorum (protocol : ResumptionProtocol) : Prop :=
  ∀ stateHash confirmations required,
    protocol.phase = .validation stateHash confirmations required →
    required = resumptionValidationQuorum

/-- Every method keeps the quorum that is asked for. -/
theorem asksForQuorum_step
    (protocol : ResumptionProtocol)
    (op : ResumptionOp)
    (asks : protocol.AsksForQuorum) :
    (protocol.step op).1.AsksForQuorum := by
  intro stateHash confirmations required isValidation
  cases op with
  | startSync epochsToSync =>
      simp only [step, startSync] at isValidation
      split at isValidation <;> cases isValidation
  | recordEpochSynced =>
      simp only [step, recordEpochSynced] at isValidation
      split at isValidation
      · cases isValidation
      · exact asks _ _ _ isValidation
  | startStateRebuild smtRoot => cases isValidation
  | recordEpochRebuilt =>
      simp only [step, recordEpochRebuilt] at isValidation
      split at isValidation
      · cases isValidation
      · exact asks _ _ _ isValidation
  | startValidation newHash =>
      cases isValidation
      rfl
  | recordPeerConfirmation peerStateHash =>
      simp only [step, recordPeerConfirmation] at isValidation
      split at isValidation
      · next phase =>
          cases isValidation
          exact asks _ _ _ phase
      · exact asks _ _ _ isValidation
  | resume resumeSeqNum resumeEpoch =>
      simp only [step, resume] at isValidation
      split at isValidation
      · split at isValidation <;> cases isValidation
      · cases isValidation

/-- What a method does to the phase, as far as resuming depends on it. -/
theorem kind_step_cases
    (protocol : ResumptionProtocol)
    (op : ResumptionOp) :
    (protocol.step op).1.kind = protocol.kind ∨
      ((protocol.step op).1.kind ≠ .validation ∧
        (protocol.step op).1.kind ≠ .resumed) ∨
      (∃ stateHash,
        op = .startValidation stateHash ∧
          (protocol.step op).1.kind = .validation) ∨
      ∃ resumeSeqNum resumeEpoch,
        op = .resume resumeSeqNum resumeEpoch ∧
          (protocol.step op).1.kind = .resumed ∧
          ∀ stateHash confirmations required,
            protocol.phase = .validation stateHash confirmations required →
            required ≤ confirmations := by
  have elsewhere
      {kind : PhaseKind}
      (other : kind = .sync ∨ kind = .stateRebuild ∨ kind = .failed) :
      kind ≠ .validation ∧ kind ≠ .resumed := by
    rcases other with rfl | rfl | rfl <;> decide
  cases op with
  | startSync epochsToSync =>
      refine Or.inr (Or.inl (elsewhere ?_))
      simp only [step, startSync]
      split
      · exact Or.inr (Or.inr rfl)
      · exact Or.inl rfl
  | recordEpochSynced => exact Or.inl kind_recordEpochSynced
  | startStateRebuild smtRoot =>
      exact Or.inr (Or.inl (elsewhere (Or.inr (Or.inl rfl))))
  | recordEpochRebuilt => exact Or.inl kind_recordEpochRebuilt
  | startValidation stateHash =>
      exact Or.inr (Or.inr (Or.inl ⟨stateHash, rfl, rfl⟩))
  | recordPeerConfirmation peerStateHash =>
      exact Or.inl (kind_recordPeerConfirmation peerStateHash)
  | resume resumeSeqNum resumeEpoch =>
      simp only [step, resume]
      split
      · next phase =>
          split
          · exact Or.inr (Or.inl (elsewhere (Or.inr (Or.inr rfl))))
          · next enough =>
              refine
                Or.inr (Or.inr (Or.inr
                  ⟨resumeSeqNum, resumeEpoch, rfl, rfl, ?_⟩))
              intro stateHash confirmations required phase'
              rw [phase] at phase'
              cases phase'
              exact UInt32.not_lt.mp enough
      · next notValidation =>
          refine
            Or.inr (Or.inr (Or.inr
              ⟨resumeSeqNum, resumeEpoch, rfl, rfl, ?_⟩))
          intro stateHash confirmations required phase
          exact absurd phase (notValidation stateHash confirmations required)

/-- A protocol resumes by a call of `resume`; a validation has its quorum. -/
theorem of_resumes
    {op : ResumptionOp}
    (before : protocol.kind ≠ .resumed)
    (after : (protocol.step op).1.kind = .resumed) :
    ∃ resumeSeqNum resumeEpoch,
      op = .resume resumeSeqNum resumeEpoch ∧
        ∀ stateHash confirmations required,
          protocol.phase = .validation stateHash confirmations required →
          required ≤ confirmations := by
  rcases protocol.kind_step_cases op with
    sameKind | ⟨_, notResumed⟩ | ⟨_, _, isValidation⟩ |
      ⟨resumeSeqNum, resumeEpoch, isResume, _, enough⟩
  · exact absurd (sameKind.symm.trans after) before
  · exact absurd after notResumed
  · rw [isValidation] at after
    cases after
  · exact ⟨resumeSeqNum, resumeEpoch, isResume, enough⟩

/-- Outside the validation phase `resume` succeeds without any check. -/
theorem resumed_of_premature
    (premature : protocol.kind ≠ .validation)
    (resumeSeqNum : UInt32)
    (resumeEpoch : UInt64) :
    (protocol.resume resumeSeqNum resumeEpoch).1.kind = .resumed := by
  unfold resume
  dsimp only
  split
  · next phase =>
      rw [kind, phase] at premature
      exact absurd rfl premature
  · rfl

/-!
## Runs
-/

/-- The phases to pass after a failure. -/
def recoveryStages : List PhaseKind :=
  [.sync, .stateRebuild, .validation]

/-- The phases reached by the methods of a run. -/
def visited (protocol : ResumptionProtocol) (ops : List ResumptionOp) :
    List PhaseKind :=
  StageMonitor.visited kind step protocol ops

/--
The order of a resumption.  A node resumes by a call of `resume` in a
validation with a quorum, and after every failure the recovery phases are
passed before it has resumed.
-/
structure ResumesInOrder
    (start : ResumptionProtocol)
    (ops : List ResumptionOp) : Prop where
  validated :
    ∀ past op later,
      ops = past ++ op :: later →
      (StateMachine.run step start past).kind ≠ .resumed →
      (StateMachine.run step start (past ++ [op])).kind = .resumed →
      ∃ resumeSeqNum resumeEpoch stateHash confirmations required,
        op = .resume resumeSeqNum resumeEpoch ∧
          (StateMachine.run step start past).phase =
            .validation stateHash confirmations required ∧
          resumptionValidationQuorum ≤ confirmations
  recovered :
    ∀ past later,
      ops = past ++ later →
      (StateMachine.run step start past).kind = .resumed →
      ∀ before after,
        start.visited past = before ++ .failed :: after →
        recoveryStages.Sublist after

/-- A protocol with the phases it has to pass since its last failure. -/
abbrev Audited :=
  StageMonitor.Audited ResumptionProtocol PhaseKind

/-- A protocol that has not failed. -/
def Audited.start (protocol : ResumptionProtocol) : Audited where
  state := protocol
  owed := []

/-- Call a method and note the phase it reaches. -/
def auditStep : Audited → ResumptionOp → Audited × ResumptionAnswer :=
  StageMonitor.audit kind .failed recoveryStages step

/--
A method called in order: `resume` in a validation or when resumed already, and
`startValidation` not before the other phases owed since a failure were passed.
-/
def Orderly (audited : Audited) : ResumptionOp → Prop
  | .resume _ _ =>
      audited.state.kind = .validation ∨ audited.state.kind = .resumed
  | .startValidation _ =>
      audited.owed = [] ∨ audited.owed = [.validation]
  | _ => True

/-- Nothing is owed in a validation, or when resumed. -/
def Settled (audited : Audited) : Prop :=
  audited.state.kind = .validation ∨ audited.state.kind = .resumed →
  audited.owed = []

/-- A method that keeps the phase keeps what is settled. -/
theorem settled_of_sameKind
    {audited : Audited}
    {op : ResumptionOp}
    (settled : Settled audited)
    (sameKind : (audited.state.step op).1.kind = audited.state.kind) :
    Settled (auditStep audited op).1 := by
  intro validated
  change (audited.state.step op).1.kind = _ ∨
    (audited.state.step op).1.kind = _ at validated
  have notFailed : (audited.state.step op).1.kind ≠ .failed := by
    rintro isFailed
    rw [isFailed] at validated
    rcases validated with isValidation | isResumed
    · cases isValidation
    · cases isResumed
  rw [sameKind] at validated
  change StageMonitor.monitor _ _ audited.owed _ = []
  rw [settled validated, StageMonitor.monitor, if_neg notFailed]
  rfl

/-- An orderly method keeps what is settled. -/
theorem settled_step
    (audited : Audited)
    (op : ResumptionOp)
    (orderly : Orderly audited op)
    (settled : Settled audited) :
    Settled (auditStep audited op).1 := by
  rcases audited.state.kind_step_cases op with
    sameKind | ⟨notValidation, notResumed⟩ | ⟨stateHash, rfl, _⟩ |
      ⟨resumeSeqNum, resumeEpoch, rfl, isResumed, _⟩
  · exact settled_of_sameKind settled sameKind
  · rintro (isValidation | isResumed)
    · exact absurd isValidation notValidation
    · exact absurd isResumed notResumed
  · intro _
    change
      StageMonitor.monitor .failed recoveryStages audited.owed
          PhaseKind.validation = []
    rcases orderly with owesNothing | owesValidation
    · rw [owesNothing]
      rfl
    · rw [owesValidation]
      rfl
  · intro _
    have owesNothing := settled orderly
    change StageMonitor.monitor _ _ audited.owed
      (audited.state.step (.resume resumeSeqNum resumeEpoch)).1.kind = []
    rw [owesNothing, isResumed]
    rfl

/-- The audit of a run that starts without a failure. -/
theorem owed_eq_nil_iff
    (protocol : ResumptionProtocol)
    (ops : List ResumptionOp) :
    (StateMachine.run auditStep (.start protocol) ops).owed = [] ↔
      ∀ before after,
        protocol.visited ops = before ++ .failed :: after →
        recoveryStages.Sublist after := by
  rw [auditStep, StageMonitor.owed_run_audit,
    StageMonitor.foldl_monitor_eq_nil_iff]
  exact and_iff_right fun _ => List.nil_sublist _

/-- An orderly run owes nothing in a validation or when resumed. -/
theorem settled_run
    {protocol : ResumptionProtocol}
    {ops : List ResumptionOp}
    (orderly :
      StateMachine.EveryStep auditStep Orderly (.start protocol) ops) :
    Settled (StateMachine.run auditStep (.start protocol) ops) :=
  orderly.run_invariant settled_step fun _ => rfl

/-- An audited run reaches the protocol of the run. -/
theorem state_run_auditStep
    (protocol : ResumptionProtocol)
    (ops : List ResumptionOp) :
    (StateMachine.run auditStep (.start protocol) ops).state =
      StateMachine.run step protocol ops :=
  StageMonitor.state_run_audit _ ops

/--
A node resumes only after its state was validated, and after a failure only by
way of all phases, in every run whose methods are called in order.
-/
theorem resumesInOrder_of_orderly
    {nodeId : Bytes4}
    {lastKnownSeqNum currentSeqNum : UInt32}
    {ops : List ResumptionOp}
    (orderly :
      StateMachine.EveryStep auditStep Orderly
        (.start (new nodeId lastKnownSeqNum currentSeqNum)) ops) :
    ResumesInOrder (new nodeId lastKnownSeqNum currentSeqNum) ops := by
  constructor
  · rintro past op later rfl before after
    have opOrderly :=
      StateMachine.everyStep_iff_split.mp orderly past op later rfl
    rw [StateMachine.run_append] at after
    obtain ⟨resumeSeqNum, resumeEpoch, rfl, enough⟩ :=
      of_resumes before after
    have asks :
        (StateMachine.run step
          (new nodeId lastKnownSeqNum currentSeqNum) past).AsksForQuorum :=
      StateMachine.run_invariant asksForQuorum_step
        (fun _ _ _ isValidation => by cases isValidation) past
    rw [Orderly, state_run_auditStep] at opOrderly
    have isValidation := opOrderly.resolve_right before
    generalize StateMachine.run step
      (new nodeId lastKnownSeqNum currentSeqNum) past = reached at *
    cases phase : reached.phase with
    | validation stateHash confirmations required =>
        have quorum := enough _ _ _ phase
        rw [asks _ _ _ phase] at quorum
        exact
          ⟨resumeSeqNum, resumeEpoch, stateHash, confirmations, required,
            rfl, rfl, quorum⟩
    | detection _ _ _ => rw [kind, phase] at isValidation; cases isValidation
    | sync _ _ => rw [kind, phase] at isValidation; cases isValidation
    | stateRebuild _ _ => rw [kind, phase] at isValidation; cases isValidation
    | resumed _ _ => rw [kind, phase] at isValidation; cases isValidation
    | failed _ => rw [kind, phase] at isValidation; cases isValidation
  · rintro past later rfl isResumed
    have settled :=
      settled_run (StateMachine.everyStep_append.mp orderly).1
    rw [Settled, state_run_auditStep] at settled
    exact (owed_eq_nil_iff _ past).mp (settled (Or.inr isResumed))

/-- A validation that two peers confirm. -/
def confirmedValidation
    (stateHash : Bytes32)
    (resumeSeqNum : UInt32)
    (resumeEpoch : UInt64) : List ResumptionOp :=
  [.startValidation stateHash, .recordPeerConfirmation stateHash,
    .recordPeerConfirmation stateHash, .resume resumeSeqNum resumeEpoch]

/-- The phases of a confirmed validation. -/
theorem visited_confirmedValidation
    (protocol : ResumptionProtocol)
    (stateHash : Bytes32)
    (resumeSeqNum : UInt32)
    (resumeEpoch : UInt64) :
    protocol.visited
        (confirmedValidation stateHash resumeSeqNum resumeEpoch) =
      [.validation, .validation, .validation, .resumed] := by
  have twice : ¬ (0 + 1 + 1 : UInt32) < resumptionValidationQuorum := by
    decide
  simp only [visited, confirmedValidation, StageMonitor.visited, step,
    startValidation, recordPeerConfirmation, resume, ↓reduceIte, twice]
  rfl

/-- A confirmed validation ends resumed. -/
theorem kind_run_confirmedValidation
    (protocol : ResumptionProtocol)
    (stateHash : Bytes32)
    (resumeSeqNum : UInt32)
    (resumeEpoch : UInt64) :
    (StateMachine.run step protocol
        (confirmedValidation stateHash resumeSeqNum resumeEpoch)).kind =
      .resumed := by
  have twice : ¬ (0 + 1 + 1 : UInt32) < resumptionValidationQuorum := by
    decide
  simp only [confirmedValidation, StateMachine.run_cons,
    StateMachine.run_nil, step, startValidation, recordPeerConfirmation,
    resume, ↓reduceIte, twice]
  rfl

/-- Where the validation is started too early, a node resumes out of order. -/
theorem early_validation_breaks
    {start : ResumptionProtocol}
    {past : List ResumptionOp}
    {stateHash : Bytes32}
    (early :
      ¬ Orderly (StateMachine.run auditStep (.start start) past)
        (.startValidation stateHash))
    (resumeSeqNum : UInt32)
    (resumeEpoch : UInt64) :
    ¬ ResumesInOrder start
        (past ++
          confirmedValidation stateHash resumeSeqNum resumeEpoch) := by
  intro inOrder
  have isResumed :=
    kind_run_confirmedValidation (StateMachine.run step start past)
      stateHash resumeSeqNum resumeEpoch
  rw [← StateMachine.run_append] at isResumed
  have owesNothing :=
    (owed_eq_nil_iff start _).mpr
      (inOrder.recovered _ [] (List.append_nil _).symm isResumed)
  have within :
      (StateMachine.run auditStep (.start start) past).owed <:+
        recoveryStages :=
    StageMonitor.owed_run_audit_suffix List.nil_suffix past
  have later := visited_confirmedValidation
    (StateMachine.run step start past) stateHash resumeSeqNum resumeEpoch
  rw [← state_run_auditStep] at later
  rw [visited] at later
  rw [StateMachine.run_append, auditStep, StageMonitor.owed_run_audit,
    ← auditStep, later] at owesNothing
  rw [Orderly] at early
  generalize (StateMachine.run auditStep (.start start) past).owed = owed
    at within owesNothing early
  rw [recoveryStages, List.suffix_cons_iff, List.suffix_cons_iff,
    List.suffix_cons_iff, List.suffix_nil] at within
  rcases within with rfl | rfl | owesValidation | none
  · exact absurd owesNothing (by decide)
  · exact absurd owesNothing (by decide)
  · exact early (Or.inr owesValidation)
  · exact early (Or.inl none)

/-- A resumption that fails once and is then completed. -/
theorem resumesInOrder_after_failure :
    ResumesInOrder (new (Bytes4.replicate 1) 0 4320)
      [.startSync [0], .startStateRebuild Bytes32.zero,
        .startValidation Bytes32.zero, .resume 4320 1,
        .startSync [0], .startStateRebuild Bytes32.zero,
        .startValidation Bytes32.zero,
        .recordPeerConfirmation Bytes32.zero,
        .recordPeerConfirmation Bytes32.zero, .resume 4320 1] :=
  resumesInOrder_of_orderly
    ⟨trivial, trivial, Or.inl rfl, Or.inl rfl, trivial, trivial,
      Or.inr rfl, trivial, trivial, Or.inl rfl, trivial⟩

/-- A node resumes at once, without any validation. -/
theorem resumption_broken :
    ¬ ∀ nodeId lastKnownSeqNum currentSeqNum ops,
        ResumesInOrder (new nodeId lastKnownSeqNum currentSeqNum) ops := by
  intro always
  have inOrder :=
    always (Bytes4.replicate 1) 0 4320 [.resume 4320 1]
  obtain ⟨_, _, _, _, _, _, isValidation, _⟩ :=
    inOrder.validated [] (.resume 4320 1) [] rfl
      (fun isResumed => by cases isResumed) rfl
  cases isValidation

end ResumptionProtocol

end ScalarCore
