import ScalarCore.NullifierArchive

namespace ScalarCore

/-!
# Failed checkpoints of the nullifier set

A checkpoint asks the log twice, before and after it moves its batch.  Where the
log refuses the batch nothing has moved yet; where it refuses the commit, the
batch stays moved although the checkpoint fails.
-/

namespace NullifierSet

variable {Digest : Type} [DecidableEq Digest] {hash : SmtHash Digest}
  {Wal : Type} {backend : WalBackend Wal} {order : IterationOrder}
  {set : NullifierSet hash Wal} {currentEpoch : UInt64}

/-- Two sets agree in everything but the log. -/
structure SameLayers (before after : NullifierSet hash Wal) : Prop where
  active : after.active.leaves = before.active.leaves
  activeRoot : after.activeRoot = before.activeRoot
  archived : after.archived = before.archived
  checkpointProof : after.checkpointProof = before.checkpointProof
  checkpointEpoch : after.checkpointEpoch = before.checkpointEpoch
  activeSinceEpoch : after.activeSinceEpoch = before.activeSinceEpoch

/-- A checkpoint that fails leaves the layers as they were. -/
def Atomic
    (backend : WalBackend Wal)
    (order : IterationOrder)
    (set : NullifierSet hash Wal)
    (currentEpoch : UInt64) : Prop :=
  ∀ failure,
    (set.checkpoint backend order currentEpoch).2 = .error failure →
    SameLayers set (set.checkpoint backend order currentEpoch).1

/-- The log entry that a checkpoint writes. -/
def walEntry
    (set : NullifierSet hash Wal)
    (order : IterationOrder)
    (currentEpoch : UInt64) : WalEntry where
  epoch := currentEpoch
  status := .preparing
  nullifiersToArchive := set.toArchive order currentEpoch

/-- The log accepts the batch of a checkpoint and then refuses to commit it. -/
def CommitRefused
    (backend : WalBackend Wal)
    (order : IterationOrder)
    (set : NullifierSet hash Wal)
    (currentEpoch : UInt64) : Prop :=
  ∃ wal wal' failure,
    backend.write set.wal (set.walEntry order currentEpoch) = (wal, .ok ()) ∧
      backend.commit wal currentEpoch = (wal', .error failure)

/-- There is a batch exactly when some active nullifier is old enough. -/
theorem toArchive_eq_nil_iff :
    set.toArchive order currentEpoch = [] ↔ set.eligible currentEpoch = ∅ := by
  have selected := set.perm_nullifiersOlderThan order currentEpoch
  have someTaken : maxNullifiersPerCheckpoint ≠ 0 := by
    decide
  rw [toArchive, ← List.length_eq_zero_iff, List.length_mergeSort,
    List.length_eq_zero_iff, List.take_eq_nil_iff, or_iff_right someTaken,
    ← List.length_eq_zero_iff, selected.length_eq, Finset.length_sort,
    Finset.card_eq_zero]

theorem sameLayers_wal (wal : Wal) : SameLayers set { set with wal } :=
  ⟨rfl, rfl, rfl, rfl, rfl, rfl⟩

/-- Moving a batch changes the active layer. -/
theorem not_sameLayers_archive
    (something : set.toArchive order currentEpoch ≠ [])
    {after : NullifierSet hash Wal}
    (moved :
      after.active =
        (set.archive currentEpoch (set.toArchive order currentEpoch)).active) :
    ¬SameLayers set after := by
  intro same
  obtain ⟨nullifier, selected⟩ := List.exists_mem_of_ne_nil _ something
  have stillActive := mem_leaves_of_mem_toArchive selected
  rw [← same.active, moved] at stillActive
  exact (mem_leaves_archive.mp stillActive).2 selected

/-- With a batch to move, only a refused commit breaks a checkpoint in two. -/
theorem atomic_iff_of_toArchive
    (something : set.toArchive order currentEpoch ≠ []) :
    Atomic backend order set currentEpoch ↔
      ¬CommitRefused backend order set currentEpoch := by
  rcases written : backend.write set.wal (set.walEntry order currentEpoch) with
    ⟨wal, failure | ⟨⟩⟩
  · have outcome :
        set.checkpoint backend order currentEpoch =
          ({ set with wal }, .error failure) := by
      rw [walEntry] at written
      simp only [checkpoint, something, if_false, written]
    refine iff_of_true ?_ ?_
    · intro _ _
      rw [outcome]
      exact sameLayers_wal wal
    · rintro ⟨_, _, _, isWritten, _⟩
      cases written.symm.trans isWritten
  · rcases committed : backend.commit wal currentEpoch with
      ⟨wal', failure | ⟨⟩⟩
    · have outcome :
          set.checkpoint backend order currentEpoch =
            ({ set.archive currentEpoch (set.toArchive order currentEpoch) with
                wal := wal' },
              .error failure) := by
        rw [walEntry] at written
        simp only [checkpoint, something, if_false, written, committed]
      refine iff_of_false ?_ (not_not_intro ⟨wal, wal', failure, written, committed⟩)
      intro atomic
      have same := atomic failure (by rw [outcome])
      rw [outcome] at same
      exact absurd same (not_sameLayers_archive something rfl)
    · have outcome :
          (set.checkpoint backend order currentEpoch).2 =
            .ok (set.toArchive order currentEpoch).length := by
        rw [walEntry] at written
        simp only [checkpoint, something, if_false, written, committed]
      refine iff_of_true ?_ ?_
      · intro failure failed
        cases outcome.symm.trans failed
      · rintro ⟨_, _, _, isWritten, refused⟩
        cases written.symm.trans isWritten
        cases committed.symm.trans refused

/--
A failed checkpoint leaves the layers as they were exactly when no nullifier was
old enough to move or the log did not refuse to commit a batch that it took.
-/
theorem checkpoint_atomic_iff
    (backend : WalBackend Wal)
    (order : IterationOrder)
    (set : NullifierSet hash Wal)
    (currentEpoch : UInt64) :
    Atomic backend order set currentEpoch ↔
      set.eligible currentEpoch = ∅ ∨
        ¬CommitRefused backend order set currentEpoch := by
  have nothing_iff :
      set.toArchive order currentEpoch = [] ↔ set.eligible currentEpoch = ∅ :=
    toArchive_eq_nil_iff
  rw [← nothing_iff]
  by_cases nothing : set.toArchive order currentEpoch = []
  · refine iff_of_true ?_ (.inl nothing)
    intro failure failed
    rw [checkpoint, if_pos nothing] at failed
    cases failed
  · rw [or_iff_right nothing, atomic_iff_of_toArchive nothing]

/-- A log that takes every batch and commits none. -/
def neverCommits : WalBackend Unit where
  write _ _ := ((), .ok ())
  commit _ _ := ((), .error .walWriteFailed)

/-- A nullifier of epoch 1 is archived at epoch 10 by a checkpoint that fails. -/
theorem checkpoint_not_atomic :
    ¬Atomic neverCommits .ascending
      ((newWithWal symbolicSmtHash ()).insert Bytes32.zero 1) 10 := by
  have older :
      ((newWithWal symbolicSmtHash ()).insert Bytes32.zero 1).eligible 10 =
        {Bytes32.zero} := by
    rw [eligible_insert (isSpent_newWithWal _ _), eligible_newWithWal]
    decide
  rw [atomic_iff_of_toArchive, not_not]
  · exact ⟨(), (), .walWriteFailed, rfl, rfl⟩
  · rw [Ne, toArchive_eq_nil_iff, older]
    exact Finset.singleton_ne_empty _

end NullifierSet

end ScalarCore
