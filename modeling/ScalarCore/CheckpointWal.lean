import ScalarCore.Bytes
import ScalarCore.KeyedWrites
import ScalarCore.StateMachine

namespace ScalarCore

/-!
# The write-ahead log of checkpoints

A checkpoint is prepared with a snapshot of the node, inserted with the root of
its tree, and committed.  Repeating the last phase of an entry, or asking for one
that does not follow it, leaves the log as it is.
-/

open StateMachine

/-- The phases of an entry. -/
inductive WalPhase where
  | preparing
  | inserted
  | committed
  deriving Repr, DecidableEq

/-- The state of a node when a checkpoint is prepared. -/
structure CheckpointSnapshot where
  epochId : UInt64
  imtFrontierRoot : Bytes32
  imtCount : UInt64
  utxoSetRoot : Bytes32
  nullifierActiveRoot : Bytes32
  nullifierArchivedRoot : Bytes32
  totalSupplySscl : UInt64
  deriving DecidableEq

/-- The entry of a checkpoint; root and path are filled in when it is inserted. -/
structure CheckpointWalEntry where
  checkpointId : UInt64
  phase : WalPhase
  snapshot : CheckpointSnapshot
  writtenAtMs : UInt64
  smtRoot : Bytes32
  smtDataPath : String
  deriving DecidableEq

/-- What an accepted operation did. -/
inductive WalResult where
  | applied
  | alreadyInState
  deriving Repr, DecidableEq

/-- Why an operation is refused. -/
inductive WalError where
  | missingPrepare (checkpointId : UInt64)
  | invalidTransition (checkpointId : UInt64) (source target : WalPhase)
  deriving Repr, DecidableEq

/-- The log in memory. -/
structure CheckpointWal where
  entries : Finmap fun _ : UInt64 => CheckpointWalEntry

/-- A call of the log. -/
inductive WalCall where
  | prepare
      (checkpointId : UInt64)
      (snapshot : CheckpointSnapshot)
      (nowMs : UInt64)
  | inserted
      (checkpointId : UInt64)
      (smtRoot : Bytes32)
      (smtDataPath : String)
      (nowMs : UInt64)
  | commit (checkpointId nowMs : UInt64)
  deriving DecidableEq

namespace WalCall

/-- The checkpoint that a call is about. -/
def checkpointId : WalCall → UInt64
  | .prepare checkpointId _ _ => checkpointId
  | .inserted checkpointId _ _ _ => checkpointId
  | .commit checkpointId _ => checkpointId

/-- The phase that a call asks for. -/
def phase : WalCall → WalPhase
  | .prepare .. => .preparing
  | .inserted .. => .inserted
  | .commit .. => .committed

end WalCall

namespace CheckpointWal

/-- `new`. -/
def new : CheckpointWal where
  entries := ∅

/-- `get`. -/
def get (wal : CheckpointWal) (checkpointId : UInt64) :
    Option CheckpointWalEntry :=
  wal.entries.lookup checkpointId

/-- `get_snapshot`. -/
def getSnapshot (wal : CheckpointWal) (checkpointId : UInt64) :
    Option CheckpointSnapshot :=
  (wal.get checkpointId).map CheckpointWalEntry.snapshot

/-- `is_committed`. -/
def isCommitted (wal : CheckpointWal) (checkpointId : UInt64) : Bool :=
  ((wal.get checkpointId).map fun entry =>
    decide (entry.phase = .committed)).getD false

/-- Store an entry under a checkpoint. -/
def insert
    (wal : CheckpointWal)
    (checkpointId : UInt64)
    (entry : CheckpointWalEntry) : CheckpointWal where
  entries := wal.entries.insert checkpointId entry

/-- `prepare`. -/
def prepare
    (wal : CheckpointWal)
    (checkpointId : UInt64)
    (snapshot : CheckpointSnapshot)
    (nowMs : UInt64) : CheckpointWal × Except WalError WalResult :=
  match wal.get checkpointId with
  | some existing =>
      match existing.phase with
      | .preparing => (wal, .ok .alreadyInState)
      | .inserted | .committed =>
          (wal, .error (.invalidTransition checkpointId existing.phase .preparing))
  | none =>
      (wal.insert checkpointId {
          checkpointId
          phase := .preparing
          snapshot
          writtenAtMs := nowMs
          smtRoot := Bytes32.zero
          smtDataPath := ""
        },
        .ok .applied)

/-- `inserted`. -/
def inserted
    (wal : CheckpointWal)
    (checkpointId : UInt64)
    (smtRoot : Bytes32)
    (smtDataPath : String)
    (nowMs : UInt64) : CheckpointWal × Except WalError WalResult :=
  match wal.get checkpointId with
  | none => (wal, .error (.missingPrepare checkpointId))
  | some entry =>
      match entry.phase with
      | .inserted => (wal, .ok .alreadyInState)
      | .committed =>
          (wal, .error (.invalidTransition checkpointId .committed .inserted))
      | .preparing =>
          (wal.insert checkpointId {
              entry with
              phase := .inserted
              smtRoot
              smtDataPath
              writtenAtMs := nowMs
            },
            .ok .applied)

/-- `commit`. -/
def commit
    (wal : CheckpointWal)
    (checkpointId nowMs : UInt64) : CheckpointWal × Except WalError WalResult :=
  match wal.get checkpointId with
  | none => (wal, .error (.missingPrepare checkpointId))
  | some entry =>
      match entry.phase with
      | .committed => (wal, .ok .alreadyInState)
      | .preparing =>
          (wal, .error (.invalidTransition checkpointId .preparing .committed))
      | .inserted =>
          (wal.insert checkpointId {
              entry with
              phase := .committed
              writtenAtMs := nowMs
            },
            .ok .applied)

/-- Perform a call. -/
def step (wal : CheckpointWal) :
    WalCall → CheckpointWal × Except WalError WalResult
  | .prepare checkpointId snapshot nowMs =>
      wal.prepare checkpointId snapshot nowMs
  | .inserted checkpointId smtRoot smtDataPath nowMs =>
      wal.inserted checkpointId smtRoot smtDataPath nowMs
  | .commit checkpointId nowMs => wal.commit checkpointId nowMs

/-!
## One call
-/

variable {wal : CheckpointWal} {call : WalCall}
  {entry : CheckpointWalEntry}

@[simp] theorem get_new (checkpointId : UInt64) :
    new.get checkpointId = none :=
  Finmap.lookup_empty checkpointId

@[simp] theorem get_insert (checkpointId : UInt64) :
    (wal.insert checkpointId entry).get checkpointId = some entry :=
  Finmap.lookup_insert _

theorem get_insert_of_ne
    {checkpointId other : UInt64}
    (different : other ≠ checkpointId) :
    (wal.insert checkpointId entry).get other = wal.get other :=
  Finmap.lookup_insert_of_ne _ different

/-- The entry that a call writes over the one before it. -/
inductive Advances :
    Option CheckpointWalEntry → WalCall → CheckpointWalEntry → Prop where
  | prepare
      (checkpointId : UInt64)
      (snapshot : CheckpointSnapshot)
      (nowMs : UInt64) :
      Advances none (.prepare checkpointId snapshot nowMs) {
        checkpointId
        phase := .preparing
        snapshot
        writtenAtMs := nowMs
        smtRoot := Bytes32.zero
        smtDataPath := ""
      }
  | inserted
      (entry : CheckpointWalEntry)
      (isPreparing : entry.phase = .preparing)
      (checkpointId : UInt64)
      (smtRoot : Bytes32)
      (smtDataPath : String)
      (nowMs : UInt64) :
      Advances (some entry)
        (.inserted checkpointId smtRoot smtDataPath nowMs) {
          entry with
          phase := .inserted
          smtRoot
          smtDataPath
          writtenAtMs := nowMs
        }
  | commit
      (entry : CheckpointWalEntry)
      (isInserted : entry.phase = .inserted)
      (checkpointId nowMs : UInt64) :
      Advances (some entry) (.commit checkpointId nowMs) {
        entry with
        phase := .committed
        writtenAtMs := nowMs
      }

/--
What a call does: it writes the next entry of its checkpoint, or the log stays
as it was, because the entry is in the phase asked for or the call is refused.
-/
inductive StepKind (wal : CheckpointWal) (call : WalCall) : Prop where
  | applied
      (entry : CheckpointWalEntry)
      (advances : Advances (wal.get call.checkpointId) call entry)
      (result :
        wal.step call = (wal.insert call.checkpointId entry, .ok .applied))
  | alreadyInState
      (entry : CheckpointWalEntry)
      (present : wal.get call.checkpointId = some entry)
      (samePhase : entry.phase = call.phase)
      (result : wal.step call = (wal, .ok .alreadyInState))
  | refused
      (error : WalError)
      (result : wal.step call = (wal, .error error))

theorem step_kind (wal : CheckpointWal) (call : WalCall) :
    StepKind wal call := by
  cases call with
  | prepare checkpointId snapshot nowMs =>
      cases present : wal.get checkpointId with
      | none =>
          refine .applied _ ?_ (by simp only [step, prepare, present]; rfl)
          rw [WalCall.checkpointId, present]
          exact .prepare checkpointId snapshot nowMs
      | some entry =>
          cases phase : entry.phase with
          | preparing =>
              exact .alreadyInState entry present phase
                (by simp only [step, prepare, present, phase])
          | inserted =>
              exact .refused _ (by simp only [step, prepare, present, phase]; rfl)
          | committed =>
              exact .refused _ (by simp only [step, prepare, present, phase]; rfl)
  | inserted checkpointId smtRoot smtDataPath nowMs =>
      cases present : wal.get checkpointId with
      | none =>
          exact .refused _ (by simp only [step, inserted, present]; rfl)
      | some entry =>
          cases phase : entry.phase with
          | preparing =>
              refine .applied _ ?_
                (by simp only [step, inserted, present, phase]; rfl)
              rw [WalCall.checkpointId, present]
              exact .inserted entry phase checkpointId smtRoot smtDataPath nowMs
          | inserted =>
              exact .alreadyInState entry present phase
                (by simp only [step, inserted, present, phase])
          | committed =>
              exact .refused _ (by simp only [step, inserted, present, phase]; rfl)
  | commit checkpointId nowMs =>
      cases present : wal.get checkpointId with
      | none =>
          exact .refused _ (by simp only [step, commit, present]; rfl)
      | some entry =>
          cases phase : entry.phase with
          | preparing =>
              exact .refused _ (by simp only [step, commit, present, phase]; rfl)
          | inserted =>
              refine .applied _ ?_
                (by simp only [step, commit, present, phase]; rfl)
              rw [WalCall.checkpointId, present]
              exact .commit entry phase checkpointId nowMs
          | committed =>
              exact .alreadyInState entry present phase
                (by simp only [step, commit, present, phase])

/-- A call that has a next entry to write is applied. -/
theorem step_of_advances
    (advances : Advances (wal.get call.checkpointId) call entry) :
    wal.step call = (wal.insert call.checkpointId entry, .ok .applied) := by
  generalize present : wal.get call.checkpointId = before at advances
  cases advances with
  | prepare checkpointId snapshot nowMs =>
      rw [WalCall.checkpointId] at present
      simp only [step, prepare, present]
      rfl
  | inserted entry isPreparing checkpointId smtRoot smtDataPath nowMs =>
      rw [WalCall.checkpointId] at present
      simp only [step, inserted, present, isPreparing]
      rfl
  | commit entry isInserted checkpointId nowMs =>
      rw [WalCall.checkpointId] at present
      simp only [step, commit, present, isInserted]
      rfl

/-- A call for the phase that an entry is in leaves the log as it is. -/
theorem step_of_samePhase
    (present : wal.get call.checkpointId = some entry)
    (samePhase : entry.phase = call.phase) :
    wal.step call = (wal, .ok .alreadyInState) := by
  cases call with
  | prepare checkpointId snapshot nowMs =>
      rw [WalCall.checkpointId] at present
      rw [WalCall.phase] at samePhase
      simp only [step, prepare, present, samePhase]
  | inserted checkpointId smtRoot smtDataPath nowMs =>
      rw [WalCall.checkpointId] at present
      rw [WalCall.phase] at samePhase
      simp only [step, inserted, present, samePhase]
  | commit checkpointId nowMs =>
      rw [WalCall.checkpointId] at present
      rw [WalCall.phase] at samePhase
      simp only [step, commit, present, samePhase]

/-- The phase of a checkpoint. -/
def phaseOf (wal : CheckpointWal) (checkpointId : UInt64) : Option WalPhase :=
  (wal.get checkpointId).map CheckpointWalEntry.phase

/-- The phase of a checkpoint before and after a call. -/
inductive Moves : Option WalPhase → Option WalPhase → Prop where
  | stays (phase : Option WalPhase) : Moves phase phase
  | prepares : Moves none (some .preparing)
  | inserts : Moves (some .preparing) (some .inserted)
  | commits : Moves (some .inserted) (some .committed)

/-- What an entry keeps when it is written again. -/
structure Keeps (before after : CheckpointWalEntry) : Prop where
  snapshot : after.snapshot = before.snapshot
  root :
    before.phase ≠ .preparing →
    after.smtRoot = before.smtRoot ∧ after.smtDataPath = before.smtDataPath

/-- What a call may do to the log. -/
structure LawfulStep (wal : CheckpointWal) (call : WalCall) : Prop where
  moves :
    ∀ checkpointId,
      Moves (wal.phaseOf checkpointId)
        ((wal.step call).1.phaseOf checkpointId)
  keeps :
    ∀ checkpointId before,
      wal.get checkpointId = some before →
      ∃ after,
        (wal.step call).1.get checkpointId = some after ∧ Keeps before after
  unchanged : (wal.step call).2 ≠ .ok .applied → (wal.step call).1 = wal
  frame :
    ∀ checkpointId ≠ call.checkpointId,
      (wal.step call).1.get checkpointId = wal.get checkpointId

/-- The written entry is in the next phase, which is the one asked for. -/
theorem Advances.moves
    {before : Option CheckpointWalEntry}
    (advances : Advances before call entry) :
    Moves (before.map CheckpointWalEntry.phase) (some entry.phase) ∧
      entry.phase = call.phase := by
  cases advances with
  | prepare =>
      exact ⟨.prepares, rfl⟩
  | inserted entry isPreparing =>
      rw [Option.map_some, isPreparing]
      exact ⟨.inserts, rfl⟩
  | commit entry isInserted =>
      rw [Option.map_some, isInserted]
      exact ⟨.commits, rfl⟩

theorem Advances.keeps
    {before : CheckpointWalEntry}
    (advances : Advances (some before) call entry) :
    Keeps before entry := by
  cases advances with
  | inserted _ isPreparing =>
      exact ⟨rfl, fun beyond => absurd isPreparing beyond⟩
  | commit =>
      exact ⟨rfl, fun _ => ⟨rfl, rfl⟩⟩

theorem Keeps.refl (entry : CheckpointWalEntry) : Keeps entry entry :=
  ⟨rfl, fun _ => ⟨rfl, rfl⟩⟩

/-- A call that leaves the log as it was is lawful. -/
theorem lawfulStep_of_eq (same : (wal.step call).1 = wal) :
    LawfulStep wal call where
  moves checkpointId := by
    rw [same]
    exact .stays _
  keeps checkpointId before present :=
    ⟨before, by rw [same, present], .refl before⟩
  unchanged _ := same
  frame _ _ := by rw [same]

theorem lawfulStep (wal : CheckpointWal) (call : WalCall) :
    LawfulStep wal call := by
  cases step_kind wal call with
  | applied entry advances result =>
      constructor
      · intro checkpointId
        rw [result, phaseOf, phaseOf]
        by_cases same : checkpointId = call.checkpointId
        · rw [same, get_insert]
          exact advances.moves.1
        · rw [get_insert_of_ne same]
          exact .stays _
      · intro checkpointId before present
        rw [result]
        by_cases same : checkpointId = call.checkpointId
        · subst same
          rw [present] at advances
          exact ⟨entry, get_insert _, advances.keeps⟩
        · exact ⟨before, by rw [get_insert_of_ne same, present], .refl before⟩
      · intro notApplied
        exact absurd (congrArg Prod.snd result) notApplied
      · intro checkpointId different
        rw [result, get_insert_of_ne different]
  | alreadyInState entry present samePhase result =>
      exact lawfulStep_of_eq (congrArg Prod.fst result)
  | refused error result =>
      exact lawfulStep_of_eq (congrArg Prod.fst result)

/-!
## Sequences of calls
-/

/-- A call is successful unless it is refused. -/
def successful (wal : CheckpointWal) (call : WalCall) : List WalCall :=
  if (wal.step call).2.isOk then [call] else []

/-- The successful calls of a sequence. -/
def successfulCalls : CheckpointWal → List WalCall → List WalCall :=
  recorded successful step

/-- The snapshot that a call prepares a checkpoint with. -/
def preparedSnapshot (checkpointId : UInt64) :
    WalCall → Option CheckpointSnapshot
  | .prepare called snapshot _ =>
      if called = checkpointId then some snapshot else none
  | .inserted .. | .commit .. => none

/-- The root and the path that a call inserts a checkpoint with. -/
def insertedRoot (checkpointId : UInt64) :
    WalCall → Option (Bytes32 × String)
  | .inserted called smtRoot smtDataPath _ =>
      if called = checkpointId then some (smtRoot, smtDataPath) else none
  | .prepare .. | .commit .. => none

/-- The root and the path of an entry that has been inserted. -/
def rootOf (entry : CheckpointWalEntry) : Option (Bytes32 × String) :=
  if entry.phase = .preparing then
    none
  else
    some (entry.smtRoot, entry.smtDataPath)

/-- Every entry is as its first successful calls have made it. -/
structure HoldsFirst (calls : List WalCall) (wal : CheckpointWal) : Prop where
  snapshots :
    ∀ checkpointId,
      wal.getSnapshot checkpointId =
        calls.findSome? (preparedSnapshot checkpointId)
  roots :
    ∀ checkpointId,
      (wal.get checkpointId).bind rootOf =
        calls.findSome? (insertedRoot checkpointId)

/-- A call says nothing about other checkpoints. -/
theorem says_nothing_of_ne
    {checkpointId : UInt64}
    (different : checkpointId ≠ call.checkpointId) :
    preparedSnapshot checkpointId call = none ∧
      insertedRoot checkpointId call = none := by
  cases call with
  | prepare called _ _ =>
      exact ⟨if_neg fun same => different same.symm, rfl⟩
  | inserted called _ _ _ =>
      exact ⟨rfl, if_neg fun same => different same.symm⟩
  | commit called _ =>
      exact ⟨rfl, rfl⟩

theorem findSome?_concat
    {Found : Type}
    (found : WalCall → Option Found)
    (calls : List WalCall)
    (call : WalCall) :
    (calls ++ [call]).findSome? found = (calls.findSome? found).or (found call) := by
  rw [List.findSome?_append, List.findSome?_singleton]

/-- What a call writes is what it says first about the checkpoint. -/
theorem Advances.first
    {before : Option CheckpointWalEntry}
    (advances : Advances before call entry) :
    some entry.snapshot =
        (before.map CheckpointWalEntry.snapshot).or
          (preparedSnapshot call.checkpointId call) ∧
      rootOf entry =
        (before.bind rootOf).or (insertedRoot call.checkpointId call) := by
  cases advances with
  | prepare checkpointId snapshot nowMs =>
      refine ⟨?_, rfl⟩
      exact (if_pos rfl).symm
  | inserted before isPreparing checkpointId smtRoot smtDataPath nowMs =>
      refine ⟨rfl, ?_⟩
      rw [Option.bind_some, rootOf, rootOf, if_pos isPreparing]
      exact (if_pos rfl).symm
  | commit before isInserted checkpointId nowMs =>
      refine ⟨rfl, ?_⟩
      rw [Option.bind_some, rootOf, rootOf, isInserted]
      rfl

/-- A call for the phase an entry is in says nothing first. -/
theorem says_nothing_first
    (present : wal.get call.checkpointId = some entry)
    (samePhase : entry.phase = call.phase) :
    wal.getSnapshot call.checkpointId =
        (wal.getSnapshot call.checkpointId).or
          (preparedSnapshot call.checkpointId call) ∧
      (wal.get call.checkpointId).bind rootOf =
        ((wal.get call.checkpointId).bind rootOf).or
          (insertedRoot call.checkpointId call) := by
  rw [getSnapshot, present, Option.map_some, Option.bind_some, rootOf, samePhase]
  cases call with
  | prepare called snapshot nowMs =>
      exact ⟨rfl, rfl⟩
  | inserted called smtRoot smtDataPath nowMs =>
      exact ⟨rfl, rfl⟩
  | commit called nowMs =>
      exact ⟨rfl, rfl⟩

theorem HoldsFirst.step
    {calls : List WalCall}
    (holds : HoldsFirst calls wal)
    (call : WalCall) :
    HoldsFirst (calls ++ wal.successful call) (wal.step call).1 := by
  cases step_kind wal call with
  | applied entry advances result =>
      have logged : wal.successful call = [call] := by
        rw [successful, result]
        rfl
      obtain ⟨firstSnapshot, firstRoot⟩ := advances.first
      rw [logged, result]
      constructor
      · intro checkpointId
        rw [findSome?_concat, ← holds.snapshots, getSnapshot]
        by_cases same : checkpointId = call.checkpointId
        · rw [same, get_insert]
          exact firstSnapshot
        · rw [get_insert_of_ne same, (says_nothing_of_ne same).1, Option.or_none]
          rfl
      · intro checkpointId
        rw [findSome?_concat, ← holds.roots]
        by_cases same : checkpointId = call.checkpointId
        · rw [same, get_insert]
          exact firstRoot
        · rw [get_insert_of_ne same, (says_nothing_of_ne same).2, Option.or_none]
  | alreadyInState entry present samePhase result =>
      have logged : wal.successful call = [call] := by
        rw [successful, result]
        rfl
      obtain ⟨noSnapshot, noRoot⟩ := says_nothing_first present samePhase
      rw [logged, result]
      constructor
      · intro checkpointId
        rw [findSome?_concat, ← holds.snapshots]
        by_cases same : checkpointId = call.checkpointId
        · rw [same]
          exact noSnapshot
        · rw [(says_nothing_of_ne same).1, Option.or_none]
      · intro checkpointId
        rw [findSome?_concat, ← holds.roots]
        by_cases same : checkpointId = call.checkpointId
        · rw [same]
          exact noRoot
        · rw [(says_nothing_of_ne same).2, Option.or_none]
  | refused error result =>
      have logged : wal.successful call = [] := by
        rw [successful, result]
        rfl
      rw [logged, result, List.append_nil]
      exact holds

theorem holdsFirst_new : HoldsFirst [] new where
  snapshots checkpointId := by
    rw [getSnapshot, get_new]
    rfl
  roots checkpointId := by
    rw [get_new]
    rfl

/--
Along every sequence of calls the entries only move forward, one phase at a
time, and hold the snapshot and the root of the first successful calls.
-/
theorem checkpointWal_lawful (calls : List WalCall) :
    EveryStep step LawfulStep new calls ∧
      HoldsFirst (successfulCalls new calls) (run step new calls) := by
  have everyCall : EveryStep step LawfulStep new calls :=
    everyStep_of_forall lawfulStep new calls
  refine ⟨everyCall, ?_⟩
  have reached :=
    everyCall.recorded_invariant
      (fun log wal call _ (holds : HoldsFirst log wal) => holds.step call)
      holdsFirst_new
  rwa [List.nil_append] at reached

end CheckpointWal

end ScalarCore
