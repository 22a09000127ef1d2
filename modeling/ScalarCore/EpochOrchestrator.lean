import ScalarCore.ImtCompleteness
import ScalarCore.StateMachine

namespace ScalarCore

/-!
# Epoch transitions

The orchestrator owns two trees of commitments.  The tree of the epoch is reset
by a transition, the tree of the UTXO set never is.  A transition takes a
snapshot of the second, resets the first and moves to the next epoch; two flags
tell after a crash how far it came.

A call that panics is answered by `panicked`, in the state in which it stopped.
The epoch is a 64-bit word and wraps.
-/

open StateMachine

/-- `GENESIS_EPOCH_ID`. -/
def genesisEpochId : UInt64 :=
  0

/-- The state of the UTXO set committed at the end of an epoch. -/
structure UtxoSetState (Digest : Type) where
  utxoSetRoot : Digest
  snapshotEpoch : UInt64
  utxoCount : UInt64
  deriving DecidableEq

/-- The tree of all UTXO commitments. -/
structure UtxoSetEpochSmt (Digest : Type) where
  imt : IncrementalMerkleTree Digest
  currentEpoch : UInt64

/-- What the flags and the epoch tell of the state. -/
inductive AtomicityStatus where
  | consistent (epoch : UInt64)
  | smtArchivedImtNotReset (archivedEpoch : UInt64)
  | imtResetSmtNotArchived (currentEpoch : UInt64)
  | fresh
  deriving DecidableEq

/-- Errors of the orchestrator; the source keeps the debug text of a tree error. -/
inductive EpochTransitionError where
  | nonSequentialEpoch (expected got : UInt64)
  | inconsistentState
  | imtError (error : ImtError)
  deriving DecidableEq

/-- The owner of both trees. -/
structure EpochTransitionOrchestrator (Digest : Type) where
  imt : IncrementalMerkleTree Digest
  utxoSetSmt : UtxoSetEpochSmt Digest
  currentEpoch : UInt64
  smtArchivedThisEpoch : Bool
  imtResetThisEpoch : Bool

/-- What a call returns. -/
inductive EpochAnswer (Digest : Type) where
  | done
  | snapshot (state : UtxoSetState Digest)
  | error (error : EpochTransitionError)
  | panicked
  deriving DecidableEq

/-- The calls of normal operation. -/
inductive EpochCall where
  | processTransaction (commitment : Bytes32)
  | executeEpochTransition (newEpochId : UInt64)

variable {Digest : Type} [DecidableEq Digest]

namespace UtxoSetEpochSmt

variable (hash : ImtHash Bytes32 Digest)

/-- The genesis set. -/
def new : UtxoSetEpochSmt Digest where
  imt := .new hash
  currentEpoch := genesisEpochId

/-- `insert_utxo`; absent where the tree is full, where the source panics. -/
def insertUtxo
    (set : UtxoSetEpochSmt Digest)
    (commitment : Bytes32)
    (epoch : UInt64) : Option (UtxoSetEpochSmt Digest) :=
  match set.imt.append hash commitment with
  | .error _ => none
  | .ok (_, imt) => some { imt, currentEpoch := epoch }

/-- `take_snapshot`. -/
def takeSnapshot
    (set : UtxoSetEpochSmt Digest)
    (epochId : UInt64) : UtxoSetState Digest where
  utxoSetRoot := set.imt.root hash
  snapshotEpoch := epochId
  utxoCount := set.imt.count

end UtxoSetEpochSmt

namespace EpochTransitionOrchestrator

/-- `detect_atomicity_status`. -/
def detectAtomicityStatus (orchestrator : EpochTransitionOrchestrator Digest) :
    AtomicityStatus :=
  match orchestrator.smtArchivedThisEpoch, orchestrator.imtResetThisEpoch with
  | true, true => .consistent orchestrator.currentEpoch
  | true, false => .smtArchivedImtNotReset orchestrator.currentEpoch
  | false, true => .imtResetSmtNotArchived orchestrator.currentEpoch
  | false, false =>
      if orchestrator.currentEpoch = genesisEpochId ∧
          orchestrator.imt.count = 0 then
        .fresh
      else
        .consistent orchestrator.currentEpoch

variable (hash : ImtHash Bytes32 Digest)

/-- The orchestrator at genesis. -/
def new : EpochTransitionOrchestrator Digest where
  imt := .new hash
  utxoSetSmt := .new hash
  currentEpoch := genesisEpochId
  smtArchivedThisEpoch := false
  imtResetThisEpoch := false

/-- `process_transaction`. -/
def processTransaction
    (orchestrator : EpochTransitionOrchestrator Digest)
    (commitment : Bytes32) :
    EpochTransitionOrchestrator Digest × EpochAnswer Digest :=
  match orchestrator.detectAtomicityStatus with
  | .smtArchivedImtNotReset _ | .imtResetSmtNotArchived _ =>
      (orchestrator, .error .inconsistentState)
  | .consistent _ | .fresh =>
      match orchestrator.imt.append hash commitment with
      | .error error => (orchestrator, .error (.imtError error))
      | .ok (_, imt) =>
          let appended := { orchestrator with imt }
          match orchestrator.utxoSetSmt.insertUtxo hash commitment
              orchestrator.currentEpoch with
          | none => (appended, .panicked)
          | some utxoSetSmt => ({ appended with utxoSetSmt }, .done)

/-- `execute_epoch_transition`. -/
def executeEpochTransition
    (orchestrator : EpochTransitionOrchestrator Digest)
    (newEpochId : UInt64) :
    EpochTransitionOrchestrator Digest × EpochAnswer Digest :=
  if newEpochId ≠ orchestrator.currentEpoch + 1 then
    (orchestrator,
      .error
        (.nonSequentialEpoch (orchestrator.currentEpoch + 1) newEpochId))
  else
    let snapshot :=
      orchestrator.utxoSetSmt.takeSnapshot hash orchestrator.currentEpoch
    match orchestrator.imt.reset hash with
    | none => (orchestrator, .panicked)
    | some imt =>
        ({ orchestrator with
            imt
            currentEpoch := newEpochId
            smtArchivedThisEpoch := false
            imtResetThisEpoch := false },
          .snapshot snapshot)

/-- `recover_inconsistent_state`. -/
def recoverInconsistentState
    (orchestrator : EpochTransitionOrchestrator Digest) :
    EpochTransitionOrchestrator Digest × EpochAnswer Digest :=
  match orchestrator.detectAtomicityStatus with
  | .consistent _ | .fresh => (orchestrator, .done)
  | .smtArchivedImtNotReset _ =>
      match orchestrator.imt.reset hash with
      | none => (orchestrator, .panicked)
      | some imt =>
          ({ orchestrator with imt, imtResetThisEpoch := true }, .done)
  | .imtResetSmtNotArchived _ =>
      -- The snapshot is taken and dropped.
      ({ orchestrator with smtArchivedThisEpoch := true }, .done)

/-- One call of normal operation. -/
def step
    (orchestrator : EpochTransitionOrchestrator Digest) :
    EpochCall → EpochTransitionOrchestrator Digest × EpochAnswer Digest
  | .processTransaction commitment =>
      orchestrator.processTransaction hash commitment
  | .executeEpochTransition newEpochId =>
      orchestrator.executeEpochTransition hash newEpochId

/-- The state that a list of calls reaches from genesis. -/
def reached (calls : List EpochCall) : EpochTransitionOrchestrator Digest :=
  run (step hash) (new hash) calls

/-- A transition to the next epoch succeeds. -/
theorem executeEpochTransition_next
    (orchestrator : EpochTransitionOrchestrator Digest) :
    orchestrator.executeEpochTransition hash (orchestrator.currentEpoch + 1) =
      ({ imt := .new hash
         utxoSetSmt := orchestrator.utxoSetSmt
         currentEpoch := orchestrator.currentEpoch + 1
         smtArchivedThisEpoch := false
         imtResetThisEpoch := false },
        .snapshot
          (orchestrator.utxoSetSmt.takeSnapshot hash
            orchestrator.currentEpoch)) := by
  simp only [executeEpochTransition,
    IncrementalMerkleTree.reset_eq_some_new, ne_eq, not_true_eq_false,
    if_false]

/-- Outside a transition neither flag is set. -/
structure Settled (orchestrator : EpochTransitionOrchestrator Digest) : Prop where
  smtArchived : orchestrator.smtArchivedThisEpoch = false
  imtReset : orchestrator.imtResetThisEpoch = false

variable {hash}

/-- Calls of normal operation leave no flag set. -/
theorem Settled.step
    {orchestrator : EpochTransitionOrchestrator Digest}
    (settled : orchestrator.Settled)
    (call : EpochCall) :
    (orchestrator.step hash call).1.Settled := by
  cases call with
  | processTransaction commitment =>
      simp only [EpochTransitionOrchestrator.step, processTransaction]
      split
      · exact settled
      · exact settled
      all_goals
        split
        · exact settled
        · split <;> exact ⟨settled.smtArchived, settled.imtReset⟩
  | executeEpochTransition newEpochId =>
      simp only [EpochTransitionOrchestrator.step, executeEpochTransition]
      split
      · exact settled
      · split
        · exact settled
        · exact ⟨rfl, rfl⟩

/-- Reached states are settled. -/
theorem settled_reached (calls : List EpochCall) :
    (reached hash calls).Settled :=
  run_invariant (fun _ call settled => settled.step call) ⟨rfl, rfl⟩ calls

/-!
## Interrupted transitions
-/

/-- Where a transition is cut. -/
inductive Cut where
  | afterArchive
  | afterReset
  deriving DecidableEq

variable (hash) in
/-- The state that a cut transition leaves behind. -/
def cutAt (orchestrator : EpochTransitionOrchestrator Digest) :
    Cut → EpochTransitionOrchestrator Digest
  | .afterArchive => { orchestrator with smtArchivedThisEpoch := true }
  | .afterReset =>
      { orchestrator with
        imt := .new hash
        imtResetThisEpoch := true }

/-- The status by which a cut is detected. -/
def Cut.status (epoch : UInt64) : Cut → AtomicityStatus
  | .afterArchive => .smtArchivedImtNotReset epoch
  | .afterReset => .imtResetSmtNotArchived epoch

omit [DecidableEq Digest] in
/-- Both cuts are detected. -/
theorem detectAtomicityStatus_cutAt
    {orchestrator : EpochTransitionOrchestrator Digest}
    (settled : orchestrator.Settled)
    (cut : Cut) :
    (orchestrator.cutAt hash cut).detectAtomicityStatus =
      cut.status orchestrator.currentEpoch := by
  cases cut with
  | afterArchive =>
      simp [cutAt, detectAtomicityStatus, settled.imtReset, Cut.status]
  | afterReset =>
      simp [cutAt, detectAtomicityStatus, settled.smtArchived, Cut.status]

/-- Recovery resets the tree of the epoch, sets both flags and does no more. -/
theorem recoverInconsistentState_cutAt
    {orchestrator : EpochTransitionOrchestrator Digest}
    (settled : orchestrator.Settled)
    (cut : Cut) :
    (orchestrator.cutAt hash cut).recoverInconsistentState hash =
      ({ imt := .new hash
         utxoSetSmt := orchestrator.utxoSetSmt
         currentEpoch := orchestrator.currentEpoch
         smtArchivedThisEpoch := true
         imtResetThisEpoch := true },
        .done) := by
  rw [recoverInconsistentState, detectAtomicityStatus_cutAt settled]
  cases cut with
  | afterArchive =>
      simp only [Cut.status, IncrementalMerkleTree.reset_eq_some_new]
      rfl
  | afterReset =>
      rfl

variable (hash) in
/-- Recovery leads where the uninterrupted transition leads. -/
structure RecoveryCompletes
    (cut : Cut)
    (orchestrator : EpochTransitionOrchestrator Digest) : Prop where
  imt :
    ((orchestrator.cutAt hash cut).recoverInconsistentState hash).1.imt =
      (orchestrator.executeEpochTransition hash
        (orchestrator.currentEpoch + 1)).1.imt
  utxoSetSmt :
    ((orchestrator.cutAt hash cut).recoverInconsistentState
          hash).1.utxoSetSmt =
      (orchestrator.executeEpochTransition hash
        (orchestrator.currentEpoch + 1)).1.utxoSetSmt
  currentEpoch :
    ((orchestrator.cutAt hash cut).recoverInconsistentState
          hash).1.currentEpoch =
      (orchestrator.executeEpochTransition hash
        (orchestrator.currentEpoch + 1)).1.currentEpoch

/-- The next epoch is another one. -/
theorem add_one_ne (epoch : UInt64) : epoch + 1 ≠ epoch := by
  intro same
  have := congrArg UInt64.toNat same
  have := epoch.toNat_lt
  rw [UInt64.toNat_add] at *
  simp only [UInt64.reduceToNat] at *
  omega

/-- The recovered state stays in the epoch that was archived. -/
theorem currentEpoch_recovered_ne
    {orchestrator : EpochTransitionOrchestrator Digest}
    (settled : orchestrator.Settled)
    (cut : Cut) :
    ((orchestrator.cutAt hash cut).recoverInconsistentState
          hash).1.currentEpoch ≠
      (orchestrator.executeEpochTransition hash
        (orchestrator.currentEpoch + 1)).1.currentEpoch := by
  rw [recoverInconsistentState_cutAt settled, executeEpochTransition_next]
  exact (add_one_ne orchestrator.currentEpoch).symm

/-- Both trees are as after the uninterrupted transition. -/
theorem trees_recovered
    {orchestrator : EpochTransitionOrchestrator Digest}
    (settled : orchestrator.Settled)
    (cut : Cut) :
    ((orchestrator.cutAt hash cut).recoverInconsistentState hash).1.imt =
        (orchestrator.executeEpochTransition hash
          (orchestrator.currentEpoch + 1)).1.imt ∧
      ((orchestrator.cutAt hash cut).recoverInconsistentState
            hash).1.utxoSetSmt =
        (orchestrator.executeEpochTransition hash
          (orchestrator.currentEpoch + 1)).1.utxoSetSmt := by
  rw [recoverInconsistentState_cutAt settled, executeEpochTransition_next]
  exact ⟨rfl, rfl⟩

/-- A transaction after the recovery enters the epoch that was archived. -/
theorem processTransaction_recovered
    {orchestrator : EpochTransitionOrchestrator Digest}
    (settled : orchestrator.Settled)
    (cut : Cut)
    (commitment : Bytes32)
    (accepted :
      (((orchestrator.cutAt hash cut).recoverInconsistentState
        hash).1.processTransaction hash commitment).2 = .done) :
    (((orchestrator.cutAt hash cut).recoverInconsistentState
        hash).1.processTransaction hash commitment).1.utxoSetSmt.currentEpoch =
      orchestrator.currentEpoch := by
  rw [recoverInconsistentState_cutAt settled] at accepted ⊢
  simp only [processTransaction, detectAtomicityStatus,
    UtxoSetEpochSmt.insertUtxo] at accepted ⊢
  cases full : IncrementalMerkleTree.append hash (.new hash) commitment with
  | error error =>
      rw [full] at accepted
      cases accepted
  | ok appended =>
      rw [full] at accepted
      cases setFull : orchestrator.utxoSetSmt.imt.append hash commitment with
      | error error =>
          rw [setFull] at accepted
          cases accepted
      | ok entered =>
          rfl

/--
From no reachable state does recovery complete a cut transition: the epoch is
not advanced.
-/
theorem recovery_never_completes
    (calls : List EpochCall)
    (cut : Cut) :
    ¬ RecoveryCompletes hash cut (reached hash calls) :=
  fun completes =>
    currentEpoch_recovered_ne (settled_reached calls) cut
      completes.currentEpoch

/-- One transaction, and a crash after archiving. -/
theorem recovery_incomplete_sample :
    ¬ RecoveryCompletes (poseidonImtHash VerifierPy.t8Permutation)
        .afterArchive
        (reached (poseidonImtHash VerifierPy.t8Permutation)
          [.processTransaction (Bytes32.replicate 0xCC)]) := by
  intro completes
  exact currentEpoch_recovered_ne (settled_reached _) _ completes.currentEpoch

end EpochTransitionOrchestrator

end ScalarCore
