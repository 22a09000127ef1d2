import ScalarCore.NullifierSet

namespace ScalarCore

/-!
# No nullifier is ever lost

Along every run, whatever the write-ahead log answers and whatever order the
hash maps have, the two layers stay disjoint and together hold exactly the
nullifiers inserted so far.
-/

namespace NullifierSet

variable {Digest : Type} [DecidableEq Digest] {hash : SmtHash Digest}
  {Wal : Type}

/-- The nullifier an operation inserts. -/
def Op.inserted? : Op → Option Bytes32
  | .insert nullifier _ => some nullifier
  | .checkpoint _ _ => none

/-- The nullifiers a sequence of operations inserts. -/
def insertedBy (ops : List Op) : Finset Bytes32 :=
  (ops.filterMap Op.inserted?).toFinset

/-- The layers are disjoint and hold the nullifiers inserted by `ops`. -/
structure Tracks (ops : List Op) (set : NullifierSet hash Wal) : Prop where
  disjoint :
    ∀ nullifier ∈ set.active.leaves, nullifier ∉ set.archived
  covers :
    ∀ nullifier,
      nullifier ∈ set.active.leaves ∨ nullifier ∈ set.archived ↔
        nullifier ∈ insertedBy ops

theorem mem_insertedBy_append
    {past : List Op}
    {op : Op}
    {nullifier : Bytes32} :
    nullifier ∈ insertedBy (past ++ [op]) ↔
      nullifier ∈ insertedBy past ∨ op.inserted? = some nullifier := by
  simp [insertedBy, List.filterMap_append]

/-- A nullifier is spent when one of the layers holds it. -/
theorem isSpent_iff
    {set : NullifierSet hash Wal}
    {nullifier : Bytes32} :
    set.isSpent nullifier = true ↔
      nullifier ∈ set.active.leaves ∨ nullifier ∈ set.archived := by
  simp [isSpent]

/-- A nullifier is unspent when neither layer holds it. -/
theorem isSpent_eq_false_iff
    {set : NullifierSet hash Wal}
    {nullifier : Bytes32} :
    set.isSpent nullifier = false ↔
      nullifier ∉ set.active.leaves ∧ nullifier ∉ set.archived := by
  simp [isSpent]

/-- Nothing is spent at the start. -/
theorem isSpent_newWithWal
    (wal : Wal)
    (nullifier : Bytes32) :
    (newWithWal hash wal).isSpent nullifier = false := by
  simp [isSpent, newWithWal, Finmap.notMem_empty]

/-- Inserting a spent nullifier changes nothing. -/
theorem insert_of_spent
    {set : NullifierSet hash Wal}
    {nullifier : Bytes32}
    (spent : set.isSpent nullifier = true)
    (epochId : UInt64) :
    set.insert nullifier epochId = set :=
  if_pos spent

/-- Inserting any other nullifier enters it in the active layer. -/
theorem insert_of_unspent
    {set : NullifierSet hash Wal}
    {nullifier : Bytes32}
    (unspent : set.isSpent nullifier = false)
    (epochId : UInt64) :
    set.insert nullifier epochId =
      { set with active := set.active.insert nullifier epochId } :=
  if_neg (Bool.eq_false_iff.mp unspent)

/-- Inserting spends the nullifier and no other. -/
theorem isSpent_insert
    (set : NullifierSet hash Wal)
    (nullifier : Bytes32)
    (epochId : UInt64)
    (other : Bytes32) :
    (set.insert nullifier epochId).isSpent other =
      (set.isSpent other || decide (other = nullifier)) := by
  rw [Bool.eq_iff_iff, Bool.or_eq_true, isSpent_iff, isSpent_iff,
    decide_eq_true_iff]
  cases spent : set.isSpent nullifier with
  | true =>
      rw [insert_of_spent spent]
      constructor
      · exact Or.inl
      · rintro (wasSpent | rfl)
        · exact wasSpent
        · exact isSpent_iff.mp spent
  | false =>
      rw [insert_of_unspent spent, SparseMerkleTree.leaves_insert,
        Finmap.mem_insert]
      tauto

/-- Inserting keeps the layers disjoint and adds the nullifier. -/
theorem Tracks.insert
    {past : List Op}
    {set : NullifierSet hash Wal}
    (tracks : Tracks past set)
    (nullifier : Bytes32)
    (epochId : UInt64) :
    Tracks (past ++ [.insert nullifier epochId])
      (set.insert nullifier epochId) := by
  constructor
  · cases spent : set.isSpent nullifier with
    | true =>
        rw [insert_of_spent spent]
        exact tracks.disjoint
    | false =>
        have fresh := (isSpent_eq_false_iff.mp spent).2
        rw [insert_of_unspent spent]
        intro other active
        rcases Finmap.mem_insert.mp active with rfl | wasActive
        · exact fresh
        · exact tracks.disjoint other wasActive
  · intro other
    rw [mem_insertedBy_append, ← tracks.covers, ← isSpent_iff, ← isSpent_iff,
      isSpent_insert, Bool.or_eq_true, decide_eq_true_iff, Op.inserted?,
      Option.some.injEq, eq_comm (a := nullifier)]

/-- Moving active nullifiers to the archive loses and duplicates none. -/
theorem Tracks.archive
    {past : List Op}
    {set : NullifierSet hash Wal}
    (tracks : Tracks past set)
    (currentEpoch : UInt64)
    (batch : List Bytes32)
    (active : ∀ nullifier ∈ batch, nullifier ∈ set.active.leaves) :
    Tracks past (set.archive currentEpoch batch) := by
  constructor
  · intro nullifier stillActive
    obtain ⟨wasActive, notMoved⟩ := mem_leaves_archive.mp stillActive
    rw [mem_archived_archive]
    rintro (archived | moved)
    · exact tracks.disjoint nullifier wasActive archived
    · exact notMoved moved
  · intro nullifier
    rw [mem_leaves_archive, mem_archived_archive, ← tracks.covers]
    by_cases moved : nullifier ∈ batch
    · simp [moved, active nullifier moved]
    · simp [moved]

/-- Checkpoints keep the layers disjoint and complete, failed or not. -/
theorem Tracks.checkpoint
    {past : List Op}
    {set : NullifierSet hash Wal}
    (tracks : Tracks past set)
    (backend : WalBackend Wal)
    (order : IterationOrder)
    (currentEpoch : UInt64) :
    Tracks past
      (NullifierSet.checkpoint backend order set currentEpoch).1 := by
  rcases checkpoint_cases backend order set currentEpoch with
    ⟨wal, result, outcome, _⟩ | ⟨wal, result, outcome, _⟩
  · rw [outcome]
    exact ⟨tracks.disjoint, tracks.covers⟩
  · have moved :=
      tracks.archive currentEpoch (set.toArchive order currentEpoch)
        fun nullifier selected => mem_leaves_of_mem_toArchive selected
    rw [outcome]
    exact ⟨moved.disjoint, moved.covers⟩

/-- One operation extends what the layers hold by what it inserts. -/
theorem Tracks.step
    (backend : WalBackend Wal)
    (past : List Op)
    (set : NullifierSet hash Wal)
    (op : Op)
    (tracks : Tracks past set) :
    Tracks (past ++ [op]) (NullifierSet.step backend set op).1 := by
  cases op with
  | insert nullifier epochId =>
      exact tracks.insert nullifier epochId
  | checkpoint order currentEpoch =>
      have kept := tracks.checkpoint backend order currentEpoch
      refine ⟨kept.disjoint, fun nullifier => ?_⟩
      have insertsNothing :
          nullifier ∈ insertedBy (past ++ [.checkpoint order currentEpoch]) ↔
            nullifier ∈ insertedBy past := by
        simp [mem_insertedBy_append, Op.inserted?]
      exact (kept.covers nullifier).trans insertsNothing.symm

/-- The empty set has no nullifiers. -/
theorem Tracks.newWithWal (wal : Wal) :
    Tracks [] (NullifierSet.newWithWal hash wal) where
  disjoint _ _ := Finset.notMem_empty _
  covers nullifier := by
    simp [NullifierSet.newWithWal, insertedBy, Finmap.notMem_empty]

/-- Along every run the layers hold what was inserted. -/
theorem Tracks.run
    (backend : WalBackend Wal)
    (wal : Wal)
    (ops : List Op) :
    Tracks ops
      (StateMachine.run (NullifierSet.step backend)
        (NullifierSet.newWithWal hash wal) ops) :=
  StateMachine.run_history (Tracks.step backend) (Tracks.newWithWal wal) ops

/-- The counts of disjoint layers add up. -/
theorem Tracks.count
    {ops : List Op}
    {set : NullifierSet hash Wal}
    (tracks : Tracks ops set) :
    set.activeCount + set.archivedCount = (insertedBy ops).card := by
  have disjoint : Disjoint set.active.leaves.keys set.archived := by
    rw [Finset.disjoint_left]
    intro nullifier active
    exact tracks.disjoint nullifier (Finmap.mem_keys.mp active)
  have union :
      set.active.leaves.keys ∪ set.archived = insertedBy ops := by
    ext nullifier
    rw [Finset.mem_union, Finmap.mem_keys]
    exact tracks.covers nullifier
  rw [activeCount, archivedCount, SparseMerkleTree.len,
    ← Finset.card_union_of_disjoint disjoint, union]

/--
Zero gap: at every reachable state the layers are disjoint, a nullifier is
spent exactly when it was inserted, the counts add up to the number of inserted
nullifiers, and what is spent stays spent.
-/
theorem zero_gap
    (backend : WalBackend Wal)
    (wal : Wal)
    (ops : List Op) :
    let reached :=
      StateMachine.run (NullifierSet.step backend)
        (NullifierSet.newWithWal hash wal) ops
    (∀ nullifier,
        reached.active.contains nullifier = true →
        nullifier ∉ reached.archived) ∧
      (∀ nullifier,
        reached.isSpent nullifier = true ↔ nullifier ∈ insertedBy ops) ∧
      reached.activeCount + reached.archivedCount = (insertedBy ops).card ∧
      ∀ nullifier later,
        reached.isSpent nullifier = true →
        (StateMachine.run (NullifierSet.step backend) reached
          later).isSpent nullifier = true := by
  intro reached
  have tracks : Tracks ops reached := Tracks.run backend wal ops
  refine ⟨?_, ?_, tracks.count, ?_⟩
  · intro nullifier active
    exact
      tracks.disjoint nullifier (SparseMerkleTree.contains_iff.mp active)
  · intro nullifier
    rw [isSpent_iff]
    exact tracks.covers nullifier
  · intro nullifier later spent
    have laterTracks :
        Tracks (ops ++ later)
          (StateMachine.run (NullifierSet.step backend) reached later) := by
      rw [← StateMachine.run_append]
      exact Tracks.run backend wal (ops ++ later)
    rw [isSpent_iff, laterTracks.covers]
    have inserted := (tracks.covers nullifier).mp (isSpent_iff.mp spent)
    simp only [insertedBy, List.filterMap_append, List.toFinset_append,
      Finset.mem_union]
    exact Or.inl inserted

end NullifierSet

end ScalarCore
