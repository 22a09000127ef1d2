import ScalarCore.FileCheckpointWal

namespace ScalarCore

/-!
# What the checkpoint files lose

Where a write fails the files stay behind the memory.  They are never ahead of
it: a stored entry has the snapshot of the entry in memory, in the same phase or
in an earlier one, and every call leaves it so.
-/

open CheckpointWal

namespace WalPhase

/-- The place of a phase in the order of phases. -/
def rank : WalPhase → Nat
  | .preparing => 0
  | .inserted => 1
  | .committed => 2

end WalPhase

/-- An entry may be written over another one of its checkpoint. -/
structure Precedes (before after : CheckpointWalEntry) : Prop where
  snapshot : after.snapshot = before.snapshot
  phase : before.phase.rank ≤ after.phase.rank

namespace Precedes

theorem refl (entry : CheckpointWalEntry) : Precedes entry entry :=
  ⟨rfl, Nat.le_refl _⟩

theorem trans
    {first second third : CheckpointWalEntry}
    (left : Precedes first second)
    (right : Precedes second third) : Precedes first third :=
  ⟨right.snapshot.trans left.snapshot, left.phase.trans right.phase⟩

/-- The entry that a call writes comes after the one before it. -/
theorem of_advances
    {before entry : CheckpointWalEntry}
    {call : WalCall}
    (advances : Advances (some before) call entry) : Precedes before entry := by
  refine ⟨advances.keeps.snapshot, ?_⟩
  cases advances with
  | inserted _ isPreparing =>
      rw [isPreparing]
      exact Nat.zero_le _
  | commit _ isInserted =>
      rw [isInserted]
      exact Nat.le_succ 1

end Precedes

namespace CheckpointWal

/-- The snapshot that a call brings is one of those allowed. -/
def Brings (allowed : UInt64 → CheckpointSnapshot → Prop) : WalCall → Prop
  | .prepare checkpointId snapshot _ => allowed checkpointId snapshot
  | .inserted .. | .commit .. => True

/-- An entry that a call writes has an allowed snapshot. -/
theorem Advances.allowed
    {allowed : UInt64 → CheckpointSnapshot → Prop}
    {call : WalCall}
    {before : Option CheckpointWalEntry}
    {entry : CheckpointWalEntry}
    (brings : Brings allowed call)
    (allowedBefore : ∀ entry, before = some entry → allowed call.checkpointId entry.snapshot)
    (advances : Advances before call entry) :
    allowed call.checkpointId entry.snapshot := by
  cases advances with
  | prepare =>
      exact brings
  | inserted entry =>
      exact allowedBefore entry rfl
  | commit entry =>
      exact allowedBefore entry rfl

/-!
## The phase of a checkpoint after a call for it
-/

variable (wal : CheckpointWal) (checkpointId : UInt64)

theorem phaseOf_prepare (snapshot : CheckpointSnapshot) (nowMs : UInt64) :
    (wal.step (.prepare checkpointId snapshot nowMs)).1.phaseOf checkpointId =
      some ((wal.phaseOf checkpointId).getD .preparing) := by
  rw [step, prepare, phaseOf, phaseOf]
  cases present : wal.get checkpointId with
  | none =>
      dsimp only
      rw [get_insert]
      rfl
  | some entry =>
      cases phase : entry.phase <;> simp [phase, present]

theorem phaseOf_inserted (smtRoot : Bytes32) (smtDataPath : String) (nowMs : UInt64) :
    (wal.step (.inserted checkpointId smtRoot smtDataPath nowMs)).1.phaseOf checkpointId =
      (wal.phaseOf checkpointId).map fun phase =>
        if phase = .preparing then .inserted else phase := by
  rw [step, inserted, phaseOf, phaseOf]
  cases present : wal.get checkpointId with
  | none =>
      simp [present]
  | some entry =>
      cases phase : entry.phase with
      | preparing =>
          simp [phase]
      | inserted =>
          simp [phase, present]
      | committed =>
          simp [phase, present]

theorem phaseOf_commit (nowMs : UInt64) :
    (wal.step (.commit checkpointId nowMs)).1.phaseOf checkpointId =
      (wal.phaseOf checkpointId).map fun phase =>
        if phase = .inserted then .committed else phase := by
  rw [step, commit, phaseOf, phaseOf]
  cases present : wal.get checkpointId with
  | none =>
      simp [present]
  | some entry =>
      cases phase : entry.phase with
      | inserted =>
          simp [phase]
      | preparing =>
          simp [phase, present]
      | committed =>
          simp [phase, present]

variable {wal checkpointId}

theorem isCommitted_iff :
    wal.isCommitted checkpointId = true ↔ wal.phaseOf checkpointId = some .committed := by
  rw [isCommitted, phaseOf]
  cases wal.get checkpointId with
  | none =>
      simp
  | some entry =>
      simp

end CheckpointWal

namespace FileCheckpointWal

variable {codec : EntryCodec} {wal : FileCheckpointWal} {directory directory' : Directory}

/-- What a directory stores is only written over by later entries. -/
def Onward (codec : EntryCodec) (directory directory' : Directory) : Prop :=
  ∀ checkpointId entry,
    stored codec directory checkpointId = some entry →
    ∃ entry',
      stored codec directory' checkpointId = some entry' ∧ Precedes entry entry'

theorem Onward.refl (directory : Directory) : Onward codec directory directory :=
  fun _ entry isStored => ⟨entry, isStored, .refl entry⟩

theorem Onward.trans
    {third : Directory}
    (left : Onward codec directory directory')
    (right : Onward codec directory' third) : Onward codec directory third := by
  intro checkpointId entry isStored
  obtain ⟨entry', isStored', precedes⟩ := left checkpointId entry isStored
  obtain ⟨entry'', isStored'', precedes'⟩ := right checkpointId entry' isStored'
  exact ⟨entry'', isStored'', precedes.trans precedes'⟩

theorem SameWalFiles.onward
    (same : SameWalFiles directory directory') : Onward codec directory directory' := by
  intro checkpointId entry isStored
  exact ⟨entry, (same.stored checkpointId).trans isStored, .refl entry⟩

/-- The files of a directory are those of entries with allowed snapshots. -/
structure StoresAllowed
    (codec : EntryCodec)
    (allowed : UInt64 → CheckpointSnapshot → Prop)
    (directory : Directory) : Prop where
  wellNamed : WellNamed codec directory
  allowed :
    ∀ checkpointId entry,
      stored codec directory checkpointId = some entry →
      allowed checkpointId entry.snapshot

/-- The files are not ahead of the memory. -/
structure Behind
    (codec : EntryCodec)
    (allowed : UInt64 → CheckpointSnapshot → Prop)
    (wal : FileCheckpointWal) : Prop where
  wellNamed : WellNamed codec wal.walDir
  inMemory :
    ∀ checkpointId entry,
      wal.inner.get checkpointId = some entry →
      entry.checkpointId = checkpointId ∧ allowed checkpointId entry.snapshot
  behind :
    ∀ checkpointId entry,
      stored codec wal.walDir checkpointId = some entry →
      ∃ entry',
        wal.inner.get checkpointId = some entry' ∧ Precedes entry entry'

variable {allowed : UInt64 → CheckpointSnapshot → Prop}

theorem Behind.storesAllowed (behind : Behind codec allowed wal) :
    StoresAllowed codec allowed wal.walDir where
  wellNamed := behind.wellNamed
  allowed checkpointId entry isStored := by
    obtain ⟨entry', present, precedes⟩ := behind.behind checkpointId entry isStored
    rw [← precedes.snapshot]
    exact (behind.inMemory checkpointId entry' present).2

/-- A log that has just been opened is not behind. -/
theorem Synced.behind
    (synced : Synced codec wal)
    (stores : StoresAllowed codec allowed wal.walDir) : Behind codec allowed wal where
  wellNamed := synced.wellNamed
  inMemory checkpointId entry present := by
    rw [synced.same] at present
    exact
      ⟨checkpointId_of_stored synced.wellNamed present,
        stores.allowed checkpointId entry present⟩
  behind checkpointId entry isStored :=
    ⟨entry, (synced.same checkpointId).trans isStored, .refl entry⟩

/-- In memory a call does what it does without files. -/
@[simp] theorem inner_step_phase
    (wal : FileCheckpointWal)
    (call : WalCall)
    (fault : Option PersistFault) :
    (wal.step codec (.phase call fault)).1.inner = (wal.inner.step call).1 := by
  rw [FileCheckpointWal.step_phase]
  unfold persistApplied
  cases (wal.inner.step call).2 with
  | error error =>
      rfl
  | ok result =>
      cases result with
      | alreadyInState =>
          rfl
      | applied =>
          dsimp only
          cases (wal.inner.step call).1.get call.checkpointId with
          | none =>
              rfl
          | some entry =>
              dsimp only
              rcases persistEntry codec wal.walDir entry fault with ⟨walDir, error | _⟩
              · rfl
              · rfl

/-- A call leaves the files behind the memory, and they have only moved on. -/
theorem Behind.step_phase
    (behind : Behind codec allowed wal)
    {call : WalCall}
    (brings : Brings allowed call)
    (fault : Option PersistFault) :
    Behind codec allowed (wal.step codec (.phase call fault)).1 ∧
      Onward codec wal.walDir (wal.step codec (.phase call fault)).1.walDir := by
  cases wal.inner.step_kind call with
  | applied entry advances result =>
      have named : entry.checkpointId = call.checkpointId :=
        checkpointId_of_advances
          (fun before present => (behind.inMemory _ before present).1) advances
      have isAllowed : allowed call.checkpointId entry.snapshot :=
        advances.allowed brings fun before present => (behind.inMemory _ before present).2
      have inMemory (checkpointId : UInt64) (entry' : CheckpointWalEntry)
          (present :
            (wal.inner.insert call.checkpointId entry).get checkpointId = some entry') :
          entry'.checkpointId = checkpointId ∧ allowed checkpointId entry'.snapshot := by
        by_cases same : checkpointId = call.checkpointId
        · subst same
          rw [get_insert, Option.some_inj] at present
          subst present
          exact ⟨named, isAllowed⟩
        · rw [get_insert_of_ne same] at present
          exact behind.inMemory checkpointId entry' present
      -- The written entry comes after the one in memory, and so after the stored one.
      have later (stored' : CheckpointWalEntry)
          (isStored : stored codec wal.walDir call.checkpointId = some stored') :
          Precedes stored' entry := by
        obtain ⟨before, present, precedes⟩ := behind.behind _ stored' isStored
        rw [present] at advances
        exact precedes.trans (.of_advances advances)
      have ahead (checkpointId : UInt64) (stored' : CheckpointWalEntry)
          (isStored : stored codec wal.walDir checkpointId = some stored') :
          ∃ entry',
            (wal.inner.insert call.checkpointId entry).get checkpointId = some entry' ∧
              Precedes stored' entry' := by
        by_cases same : checkpointId = call.checkpointId
        · subst same
          exact ⟨entry, get_insert _, later stored' isStored⟩
        · rw [get_insert_of_ne same]
          exact behind.behind checkpointId stored' isStored
      rw [step_applied codec advances fault]
      cases persist_kind codec wal.walDir entry fault with
      | written directory' _ persisted wellNamed storedAfter =>
          rw [persisted]
          refine ⟨⟨wellNamed behind.wellNamed, inMemory, ?_⟩, ?_⟩
          · intro checkpointId stored' isStored
            rw [storedAfter, named] at isStored
            by_cases same : checkpointId = call.checkpointId
            · rw [if_pos same, Option.some_inj] at isStored
              rw [same, ← isStored]
              exact ⟨entry, get_insert _, .refl entry⟩
            · rw [if_neg same] at isStored
              exact ahead checkpointId stored' isStored
          · intro checkpointId stored' isStored
            rw [storedAfter, named]
            by_cases same : checkpointId = call.checkpointId
            · subst same
              rw [if_pos rfl]
              exact ⟨entry, rfl, later stored' isStored⟩
            · rw [if_neg same]
              exact ⟨stored', isStored, .refl stored'⟩
      | failed directory' _ _ persisted same =>
          rw [persisted]
          refine ⟨⟨same.wellNamed behind.wellNamed, inMemory, ?_⟩, same.onward⟩
          intro checkpointId stored' isStored
          rw [same.stored] at isStored
          exact ahead checkpointId stored' isStored
  | alreadyInState entry present samePhase result =>
      rw [FileCheckpointWal.step_phase, result]
      exact ⟨behind, .refl _⟩
  | refused error result =>
      rw [FileCheckpointWal.step_phase, result]
      exact ⟨behind, .refl _⟩

/-- The calls that a process makes before it stops leave the files behind its memory. -/
theorem Behind.run_phases
    (behind : Behind codec allowed wal)
    (calls : List (WalCall × Option PersistFault))
    (brings : ∀ call ∈ calls, Brings allowed call.1) :
    Behind codec allowed
        (StateMachine.run (step codec) wal (calls.map fun call => .phase call.1 call.2)) ∧
      Onward codec wal.walDir
        (StateMachine.run (step codec) wal
          (calls.map fun call => .phase call.1 call.2)).walDir := by
  induction calls generalizing wal with
  | nil =>
      exact ⟨behind, .refl _⟩
  | cons call rest inductionHypothesis =>
      rw [List.forall_mem_cons] at brings
      obtain ⟨behind', onward⟩ := behind.step_phase brings.1 call.2
      obtain ⟨behind'', onward'⟩ := inductionHypothesis behind' brings.2
      exact ⟨behind'', onward.trans onward'⟩

end FileCheckpointWal

/-!
## An encoding that always succeeds
-/

namespace PlainCodec

/-- The bytes of an entry: its phase, its words, its roots, and its path at the end. -/
def toAllocvec (entry : CheckpointWalEntry) : List UInt8 :=
  UInt8.ofNat entry.phase.rank ::
    (toLeBytes entry.checkpointId ++
    (toLeBytes entry.snapshot.epochId ++
    (entry.snapshot.imtFrontierRoot.bytes ++
    (toLeBytes entry.snapshot.imtCount ++
    (entry.snapshot.utxoSetRoot.bytes ++
    (entry.snapshot.nullifierActiveRoot.bytes ++
    (entry.snapshot.nullifierArchivedRoot.bytes ++
    (toLeBytes entry.snapshot.totalSupplySscl ++
    (toLeBytes entry.writtenAtMs ++
    (entry.smtRoot.bytes ++ entry.smtDataPath.toByteArray.data.toList))))))))))

/-- Take a word from the front. -/
def takeWord (bytes : List UInt8) : UInt64 × List UInt8 :=
  (fromLeBytes (bytes.take 8), bytes.drop 8)

/-- Take a root from the front. -/
def takeRoot (bytes : List UInt8) : Option (Bytes32 × List UInt8) :=
  if enough : 32 ≤ bytes.length then
    some (⟨bytes.take 32, List.length_take_of_le enough⟩, bytes.drop 32)
  else
    none

/-- The phase of a place. -/
def takePhase : UInt8 → Option WalPhase
  | 0 => some .preparing
  | 1 => some .inserted
  | 2 => some .committed
  | _ => none

/-- Read the bytes of an entry. -/
def fromBytes : List UInt8 → Option CheckpointWalEntry
  | [] => none
  | place :: bytes => do
      let phase ← takePhase place
      let (checkpointId, bytes) := takeWord bytes
      let (epochId, bytes) := takeWord bytes
      let (imtFrontierRoot, bytes) ← takeRoot bytes
      let (imtCount, bytes) := takeWord bytes
      let (utxoSetRoot, bytes) ← takeRoot bytes
      let (nullifierActiveRoot, bytes) ← takeRoot bytes
      let (nullifierArchivedRoot, bytes) ← takeRoot bytes
      let (totalSupplySscl, bytes) := takeWord bytes
      let (writtenAtMs, bytes) := takeWord bytes
      let (smtRoot, bytes) ← takeRoot bytes
      let smtDataPath ← String.fromUTF8? bytes.toByteArray
      let snapshot : CheckpointSnapshot := {
        epochId
        imtFrontierRoot
        imtCount
        utxoSetRoot
        nullifierActiveRoot
        nullifierArchivedRoot
        totalSupplySscl
      }
      some { checkpointId, phase, snapshot, writtenAtMs, smtRoot, smtDataPath }

@[simp] theorem takeWord_append (word : UInt64) (rest : List UInt8) :
    takeWord (toLeBytes word ++ rest) = (word, rest) := by
  have eight := length_toLeBytes word
  rw [takeWord, List.take_left' eight, List.drop_left' eight, fromLeBytes_toLeBytes]

@[simp] theorem takeRoot_append (root : Bytes32) (rest : List UInt8) :
    takeRoot (root.bytes ++ rest) = some (root, rest) := by
  have enough : 32 ≤ (root.bytes ++ rest).length := by
    rw [List.length_append, root.length_eq]
    exact Nat.le_add_right 32 _
  rw [takeRoot, dif_pos enough]
  simp only [List.take_left' root.length_eq, List.drop_left' root.length_eq]

@[simp] theorem takePhase_rank (phase : WalPhase) :
    takePhase (UInt8.ofNat phase.rank) = some phase := by
  cases phase <;> rfl

@[simp] theorem fromUTF8?_toByteArray (text : String) :
    String.fromUTF8? text.toByteArray.data.toList.toByteArray = some text := by
  have same : text.toByteArray.data.toList.toByteArray = text.toByteArray :=
    ByteArray.ext (by rw [List.data_toByteArray, Array.toArray_toList])
  rw [same, String.fromUTF8?, dif_pos text.isValidUTF8]
  rfl

end PlainCodec

/-- Fields of fixed width, one after another. -/
def plainCodec : EntryCodec where
  toAllocvec entry := some (PlainCodec.toAllocvec entry)
  fromBytes := PlainCodec.fromBytes
  fromBytes_toAllocvec := by
    rintro entry _ ⟨⟩
    simp [PlainCodec.toAllocvec, PlainCodec.fromBytes]

end ScalarCore
