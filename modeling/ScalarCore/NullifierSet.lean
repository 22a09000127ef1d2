import ScalarCore.Smt

namespace ScalarCore

/-!
# The two-layer nullifier set

Nullifiers enter the active tree.  A checkpoint moves those more than three
epochs old to the archive, in three stages: it writes the batch to the
write-ahead log, moves it, and marks the log entry committed.  Both calls to
the log can fail, and the state at an early return is the one reached so far.
-/

/-- Number of epochs a nullifier stays active. -/
def nsActiveWindowEpochs : UInt64 :=
  3

/-- Errors of a checkpoint. -/
inductive CheckpointError where
  | proofGenerationFailed
  | proofVerificationFailed
  | walWriteFailed
  deriving Repr, DecidableEq

/-- Progress of a log entry. -/
inductive WalStatus where
  | preparing
  | committed
  deriving Repr, DecidableEq

/-- A write-ahead log entry. -/
structure WalEntry where
  epoch : UInt64
  status : WalStatus
  nullifiersToArchive : List Bytes32
  deriving DecidableEq

/--
A write-ahead log.  Nothing is known of its state, so either call can fail at
any point of a run.
-/
structure WalBackend (Wal : Type) where
  write : Wal → WalEntry → Wal × Except CheckpointError Unit
  commit : Wal → UInt64 → Wal × Except CheckpointError Unit

/-- The log in memory, which never fails. -/
def inMemoryWal : WalBackend (Option WalEntry) where
  write _ entry := (some entry, .ok ())
  commit pending epoch :=
    (pending.map fun entry =>
        if entry.epoch = epoch then
          { entry with status := .committed }
        else
          entry,
      .ok ())

/-- State of the archive. -/
structure CheckpointProof (Digest : Type) where
  archivedSmtRoot : Digest
  smtDepth : UInt8
  fromEpoch : UInt64
  toEpoch : UInt64
  totalArchivedCount : UInt64

/-- The archive before the first checkpoint. -/
def CheckpointProof.genesis {Digest : Type} (hash : SmtHash Digest) :
    CheckpointProof Digest where
  archivedSmtRoot := hash.emptyRoot
  smtDepth := 32
  fromEpoch := 0
  toEpoch := 0
  totalArchivedCount := 0

/-- The nullifier set. -/
structure NullifierSet
    {Digest : Type}
    [DecidableEq Digest]
    (hash : SmtHash Digest)
    (Wal : Type) where
  active : SparseMerkleTree hash
  activeSinceEpoch : UInt64
  checkpointProof : CheckpointProof Digest
  checkpointEpoch : UInt64
  archived : Finset Bytes32
  wal : Wal

namespace NullifierSet

variable {Digest : Type} [DecidableEq Digest] {hash : SmtHash Digest}
  {Wal : Type}

variable (hash) in
/-- The empty set over a log. -/
def newWithWal (wal : Wal) : NullifierSet hash Wal where
  active := .new hash
  activeSinceEpoch := 0
  checkpointProof := .genesis hash
  checkpointEpoch := 0
  archived := ∅
  wal := wal

/-- Root of the active layer. -/
def activeRoot (set : NullifierSet hash Wal) : Digest :=
  set.active.root

/-- Root of the archive. -/
def archivedSmtRoot (set : NullifierSet hash Wal) : Digest :=
  set.checkpointProof.archivedSmtRoot

/-- Number of active nullifiers. -/
def activeCount (set : NullifierSet hash Wal) : Nat :=
  set.active.len

/-- Number of archived nullifiers. -/
def archivedCount (set : NullifierSet hash Wal) : Nat :=
  set.archived.card

/-- Whether a nullifier has been used. -/
def isSpent (set : NullifierSet hash Wal) (nullifier : Bytes32) : Bool :=
  set.active.contains nullifier || decide (nullifier ∈ set.archived)

/-- Enter a nullifier, unless it has been used. -/
def insert
    (set : NullifierSet hash Wal)
    (nullifier : Bytes32)
    (epochId : UInt64) : NullifierSet hash Wal :=
  if set.active.contains nullifier || decide (nullifier ∈ set.archived) then
    set
  else
    { set with active := set.active.insert nullifier epochId }

/-- The batch of a checkpoint: what the hash map yields first, sorted. -/
def toArchive
    (set : NullifierSet hash Wal)
    (order : IterationOrder)
    (currentEpoch : UInt64) : List Bytes32 :=
  ((set.active.nullifiersOlderThan order currentEpoch
      nsActiveWindowEpochs).take maxNullifiersPerCheckpoint).mergeSort

/-- The atomic pass of a checkpoint, first into the archive. -/
def archive
    (set : NullifierSet hash Wal)
    (currentEpoch : UInt64)
    (batch : List Bytes32) : NullifierSet hash Wal :=
  let archived := batch.foldl (fun done nullifier => Insert.insert nullifier done)
    set.archived
  { set with
    archived := archived
    checkpointProof := {
      archivedSmtRoot :=
        computeArchivedRoot hash set.checkpointProof.archivedSmtRoot batch
      smtDepth := 32
      fromEpoch := set.checkpointEpoch
      toEpoch := currentEpoch
      totalArchivedCount := UInt64.ofNat archived.card
    }
    checkpointEpoch := currentEpoch
    activeSinceEpoch := currentEpoch
    active := batch.foldl SparseMerkleTree.remove set.active }

/-- Run a checkpoint; the result is the number of nullifiers archived. -/
def checkpoint
    (backend : WalBackend Wal)
    (order : IterationOrder)
    (set : NullifierSet hash Wal)
    (currentEpoch : UInt64) :
    NullifierSet hash Wal × Except CheckpointError Nat :=
  let batch := set.toArchive order currentEpoch
  if batch = [] then
    (set, .ok 0)
  else
    let walEntry := {
      epoch := currentEpoch
      status := .preparing
      nullifiersToArchive := batch
    }
    match backend.write set.wal walEntry with
    | (wal, .error failure) => ({ set with wal }, .error failure)
    | (wal, .ok ()) =>
        let moved := set.archive currentEpoch batch
        match backend.commit wal currentEpoch with
        | (wal, .error failure) => ({ moved with wal }, .error failure)
        | (wal, .ok ()) => ({ moved with wal }, .ok batch.length)

/-- The operations of a node, with the hash map's order where it matters. -/
inductive Op where
  | insert (nullifier : Bytes32) (epochId : UInt64)
  | checkpoint (order : IterationOrder) (currentEpoch : UInt64)

/-- The answer to an operation. -/
inductive Answer where
  | inserted
  | checkpointed (result : Except CheckpointError Nat)

/-- Whether an operation returned without an error. -/
def Answer.isOk : Answer → Bool
  | .inserted => true
  | .checkpointed (.ok _) => true
  | .checkpointed (.error _) => false

/-- Perform one operation. -/
def step
    (backend : WalBackend Wal)
    (set : NullifierSet hash Wal) :
    Op → NullifierSet hash Wal × Answer
  | .insert nullifier epochId => (set.insert nullifier epochId, .inserted)
  | .checkpoint order currentEpoch =>
      let outcome := checkpoint backend order set currentEpoch
      (outcome.1, .checkpointed outcome.2)

@[simp] theorem step_insert
    (backend : WalBackend Wal)
    (set : NullifierSet hash Wal)
    (nullifier : Bytes32)
    (epochId : UInt64) :
    step backend set (.insert nullifier epochId) =
      (set.insert nullifier epochId, .inserted) :=
  rfl

@[simp] theorem step_checkpoint
    (backend : WalBackend Wal)
    (set : NullifierSet hash Wal)
    (order : IterationOrder)
    (currentEpoch : UInt64) :
    step backend set (.checkpoint order currentEpoch) =
      ((checkpoint backend order set currentEpoch).1,
        .checkpointed (checkpoint backend order set currentEpoch).2) :=
  rfl

/-- A batch holds active nullifiers that are old enough. -/
theorem mem_leaves_of_mem_toArchive
    {set : NullifierSet hash Wal}
    {order : IterationOrder}
    {currentEpoch : UInt64}
    {nullifier : Bytes32}
    (selected : nullifier ∈ set.toArchive order currentEpoch) :
    nullifier ∈ set.active.leaves := by
  rw [toArchive, List.mem_mergeSort] at selected
  obtain ⟨epoch, stored, _⟩ :=
    SparseMerkleTree.mem_nullifiersOlderThan.mp (List.mem_of_mem_take selected)
  exact Finmap.mem_of_lookup_eq_some stored

/-- A batch is sorted. -/
theorem pairwise_toArchive
    (set : NullifierSet hash Wal)
    (order : IterationOrder)
    (currentEpoch : UInt64) :
    (set.toArchive order currentEpoch).Pairwise (· ≤ ·) :=
  List.pairwise_mergeSort' _ _

/-- Removing a batch leaves the entries of the other nullifiers. -/
theorem lookup_foldl_remove
    (batch : List Bytes32)
    (tree : SparseMerkleTree hash)
    (nullifier : Bytes32) :
    (batch.foldl SparseMerkleTree.remove tree).leaves.lookup nullifier =
      if nullifier ∈ batch then
        none
      else
        tree.leaves.lookup nullifier := by
  induction batch generalizing tree with
  | nil =>
      simp
  | cons first rest inductionHypothesis =>
      rw [List.foldl_cons, inductionHypothesis,
        SparseMerkleTree.leaves_remove]
      by_cases inRest : nullifier ∈ rest
      · simp [inRest]
      · by_cases isFirst : nullifier = first
        · subst isFirst
          simp [inRest]
        · simp [inRest, isFirst, Finmap.lookup_erase_ne isFirst]

/-- The archive gains a batch. -/
theorem mem_foldl_insert
    (batch : List Bytes32)
    (archived : Finset Bytes32)
    (nullifier : Bytes32) :
    nullifier ∈
        batch.foldl (fun done archiving => Insert.insert archiving done)
          archived ↔
      nullifier ∈ archived ∨ nullifier ∈ batch := by
  induction batch generalizing archived with
  | nil =>
      simp
  | cons first rest inductionHypothesis =>
      rw [List.foldl_cons, inductionHypothesis, Finset.mem_insert,
        List.mem_cons]
      tauto

/-- The active layer loses the batch and keeps its other entries. -/
theorem lookup_archive
    (set : NullifierSet hash Wal)
    (currentEpoch : UInt64)
    (batch : List Bytes32)
    (nullifier : Bytes32) :
    (set.archive currentEpoch batch).active.leaves.lookup nullifier =
      if nullifier ∈ batch then
        none
      else
        set.active.leaves.lookup nullifier :=
  lookup_foldl_remove batch set.active nullifier

theorem mem_leaves_archive
    {set : NullifierSet hash Wal}
    {currentEpoch : UInt64}
    {batch : List Bytes32}
    {nullifier : Bytes32} :
    nullifier ∈ (set.archive currentEpoch batch).active.leaves ↔
      nullifier ∈ set.active.leaves ∧ nullifier ∉ batch := by
  rw [← Finmap.lookup_isSome, ← Finmap.lookup_isSome, lookup_archive]
  by_cases selected : nullifier ∈ batch
  · simp [selected]
  · simp [selected]

theorem mem_archived_archive
    {set : NullifierSet hash Wal}
    {currentEpoch : UInt64}
    {batch : List Bytes32}
    {nullifier : Bytes32} :
    nullifier ∈ (set.archive currentEpoch batch).archived ↔
      nullifier ∈ set.archived ∨ nullifier ∈ batch :=
  mem_foldl_insert batch set.archived nullifier

/--
What a checkpoint does.  Either the layers stay as they were, because nothing
is old enough or the log refused the batch, or the batch is moved, whether or
not the log confirms it.
-/
theorem checkpoint_cases
    (backend : WalBackend Wal)
    (order : IterationOrder)
    (set : NullifierSet hash Wal)
    (currentEpoch : UInt64) :
    (∃ wal result,
        checkpoint backend order set currentEpoch = ({ set with wal }, result) ∧
          (set.toArchive order currentEpoch = [] ∨
            ∃ failure, result = .error failure)) ∨
      ∃ wal result,
        checkpoint backend order set currentEpoch =
            ({ set.archive currentEpoch (set.toArchive order currentEpoch) with
                wal },
              result) ∧
          set.toArchive order currentEpoch ≠ [] := by
  unfold checkpoint
  by_cases nothing : set.toArchive order currentEpoch = []
  · left
    exact ⟨set.wal, .ok 0, by simp [nothing], Or.inl nothing⟩
  · simp only [nothing, if_false]
    split
    · next wal failure _ =>
        left
        exact ⟨wal, .error failure, rfl, Or.inr ⟨failure, rfl⟩⟩
    · next wal _ =>
        right
        split
        · next wal' failure _ =>
            exact ⟨wal', .error failure, rfl, nothing⟩
        · next wal' _ =>
            exact ⟨wal', _, rfl, nothing⟩

end NullifierSet

end ScalarCore
