import ScalarCore.HashChain
import ScalarCore.NullifierZeroGap

namespace ScalarCore

/-!
# What the archived root represents

Each checkpoint absorbs its sorted batch into the archived root.  The root is a
hash chain over the batches, so it fixes in which batches the nullifiers were
archived and not only which ones were.
-/

namespace NullifierSet

variable {Digest : Type} [DecidableEq Digest] {hash : SmtHash Digest}
  {Wal : Type}

/-- The active nullifiers old enough to be archived. -/
def eligible
    (set : NullifierSet hash Wal)
    (currentEpoch : UInt64) : Finset Bytes32 :=
  set.active.leaves.keys.filter fun nullifier =>
    (set.active.epochOf nullifier).any fun epoch =>
      decide
        (nsActiveWindowEpochs < MachineInt.saturatingSub currentEpoch epoch)

theorem mem_eligible
    {set : NullifierSet hash Wal}
    {currentEpoch : UInt64}
    {nullifier : Bytes32} :
    nullifier ∈ set.eligible currentEpoch ↔
      ∃ epoch,
        set.active.leaves.lookup nullifier = some epoch ∧
          nsActiveWindowEpochs <
            MachineInt.saturatingSub currentEpoch epoch := by
  rw [eligible, Finset.mem_filter, Finmap.mem_keys]
  exact SparseMerkleTree.mem_and_any_epochOf_iff

/-- A fresh nullifier is eligible once its epoch is old enough. -/
theorem eligible_insert
    {set : NullifierSet hash Wal}
    {nullifier : Bytes32}
    (fresh : set.isSpent nullifier = false)
    (epochId currentEpoch : UInt64) :
    (set.insert nullifier epochId).eligible currentEpoch =
      if
        nsActiveWindowEpochs <
          MachineInt.saturatingSub currentEpoch epochId
      then
        Insert.insert nullifier (set.eligible currentEpoch)
      else
        set.eligible currentEpoch := by
  have notActive := (isSpent_eq_false_iff.mp fresh).1
  rw [insert_of_unspent fresh]
  ext other
  by_cases same : other = nullifier
  · subst same
    split
    · next older =>
        simp [mem_eligible, older]
    · next younger =>
        simp [mem_eligible, younger, Finmap.lookup_eq_none.mpr notActive]
  · have sameEntry :
        (set.active.leaves.insert nullifier epochId).lookup other =
          set.active.leaves.lookup other :=
      Finmap.lookup_insert_of_ne _ same
    split
    · simp [mem_eligible, sameEntry, same]
    · simp [mem_eligible, sameEntry]

/-- Every order of the hash map yields the eligible nullifiers. -/
theorem perm_nullifiersOlderThan
    (set : NullifierSet hash Wal)
    (order : IterationOrder)
    (currentEpoch : UInt64) :
    (set.active.nullifiersOlderThan order currentEpoch
      nsActiveWindowEpochs).Perm (set.eligible currentEpoch).sort := by
  rw [List.perm_ext_iff_of_nodup
    (SparseMerkleTree.nodup_nullifiersOlderThan _ _ _ _)
    (Finset.sort_nodup _ _)]
  intro nullifier
  rw [SparseMerkleTree.mem_nullifiersOlderThan, Finset.mem_sort,
    mem_eligible]

/-- Within the limit the hash map's order does not matter for a batch. -/
theorem toArchive_eq_sort
    {set : NullifierSet hash Wal}
    {currentEpoch : UInt64}
    (withinLimit :
      (set.eligible currentEpoch).card ≤ maxNullifiersPerCheckpoint)
    (order : IterationOrder) :
    set.toArchive order currentEpoch = (set.eligible currentEpoch).sort := by
  have selected := set.perm_nullifiersOlderThan order currentEpoch
  have allTaken :
      (set.active.nullifiersOlderThan order currentEpoch
          nsActiveWindowEpochs).length ≤ maxNullifiersPerCheckpoint := by
    rw [selected.length_eq, Finset.length_sort]
    exact withinLimit
  have samePerm :
      (set.toArchive order currentEpoch).Perm
        (set.eligible currentEpoch).sort := by
    rw [toArchive, List.take_of_length_le allTaken]
    exact (List.mergeSort_perm _ _).trans selected
  exact
    samePerm.eq_of_pairwise' (set.pairwise_toArchive order currentEpoch)
      ((set.eligible currentEpoch).pairwise_sort _)

/--
Over the limit the hash map's order decides what is archived: the smallest
eligible nullifier comes first in the ascending order and last in the
descending one.
-/
theorem toArchive_of_overLimit
    {set : NullifierSet hash Wal}
    {currentEpoch : UInt64}
    (overLimit :
      maxNullifiersPerCheckpoint < (set.eligible currentEpoch).card) :
    ∃ nullifier ∈ set.toArchive .ascending currentEpoch,
      nullifier ∉ set.toArchive .descending currentEpoch := by
  have ascending :
      set.active.nullifiersOlderThan .ascending currentEpoch
          nsActiveWindowEpochs =
        (set.eligible currentEpoch).sort :=
    (set.perm_nullifiersOlderThan .ascending currentEpoch).eq_of_pairwise'
      ((Finset.pairwise_sort _ _).filter _) (Finset.pairwise_sort _ _)
  have descending :
      set.active.nullifiersOlderThan .descending currentEpoch
          nsActiveWindowEpochs =
        (set.eligible currentEpoch).sort.reverse := by
    rw [← ascending]
    exact List.filter_reverse
  have distinct := (set.eligible currentEpoch).sort_nodup (· ≤ ·)
  have someTaken : 0 < maxNullifiersPerCheckpoint := by
    decide
  rw [← Finset.length_sort (· ≤ ·)] at overLimit
  simp only [toArchive, List.mem_mergeSort, ascending, descending]
  generalize (set.eligible currentEpoch).sort = sorted at distinct overLimit ⊢
  rcases sorted with - | ⟨smallest, rest⟩
  · exact absurd overLimit (Nat.not_lt_zero _)
  · have enough : maxNullifiersPerCheckpoint ≤ rest.reverse.length := by
      rw [List.length_reverse]
      exact Nat.le_of_lt_succ overLimit
    refine ⟨smallest, ?_, ?_⟩
    · exact List.mem_take_iff_getElem.mpr ⟨0, by simp [someTaken], rfl⟩
    · rw [List.reverse_cons, List.take_append_of_le_length enough]
      intro taken
      exact
        (List.nodup_cons.mp distinct).1
          (List.mem_reverse.mp (List.mem_of_mem_take taken))

/-- A batch is the ascending list of what is eligible. -/
theorem toArchive_eq_of_eligible
    {set : NullifierSet hash Wal}
    {currentEpoch : UInt64}
    {selection : List Bytes32}
    (same : set.eligible currentEpoch = selection.toFinset)
    (ascending : selection.Pairwise (· < ·))
    (withinLimit : selection.length ≤ maxNullifiersPerCheckpoint)
    (order : IterationOrder) :
    set.toArchive order currentEpoch = selection := by
  have distinct : selection.Nodup :=
    ascending.imp ne_of_lt
  rw [toArchive_eq_sort, same]
  · exact (List.toFinset_sort _ distinct).mpr (ascending.imp le_of_lt)
  · rw [same, List.toFinset_card_of_nodup distinct]
    exact withinLimit

/-- The batches a selection adds to the chain: none when it is empty. -/
def batchesOf (selection : List Bytes32) : List (List Bytes32) :=
  if selection = [] then
    []
  else
    [selection]

/-- A selection has moved from the active layer to the archive. -/
structure Archives
    (selection : List Bytes32)
    (before after : NullifierSet hash Wal) : Prop where
  lookup :
    ∀ nullifier,
      after.active.leaves.lookup nullifier =
        if nullifier ∈ selection then
          none
        else
          before.active.leaves.lookup nullifier
  archived :
    ∀ nullifier,
      nullifier ∈ after.archived ↔
        nullifier ∈ before.archived ∨ nullifier ∈ selection
  root :
    after.archivedSmtRoot =
      HashChain.digest hash.hashArchived before.archivedSmtRoot
        (batchesOf selection)

/-- What was moved is no longer eligible. -/
theorem Archives.eligible
    {selection : List Bytes32}
    {before after : NullifierSet hash Wal}
    (moved : Archives selection before after)
    (currentEpoch : UInt64) :
    after.eligible currentEpoch =
      before.eligible currentEpoch \ selection.toFinset := by
  ext nullifier
  rw [Finset.mem_sdiff, mem_eligible, mem_eligible, List.mem_toFinset,
    moved.lookup]
  by_cases selected : nullifier ∈ selection
  · simp [selected]
  · simp [selected]

/-- A checkpoint that returns `Ok` has moved its selection. -/
theorem archives_of_isOk
    {backend : WalBackend Wal}
    {order : IterationOrder}
    {set : NullifierSet hash Wal}
    {currentEpoch : UInt64}
    (ok : (step backend set (.checkpoint order currentEpoch)).2.isOk = true) :
    Archives (set.toArchive order currentEpoch) set
      (step backend set (.checkpoint order currentEpoch)).1 := by
  rw [step_checkpoint] at ok ⊢
  rcases checkpoint_cases backend order set currentEpoch with
    ⟨wal, result, outcome, nothing | ⟨failure, failed⟩⟩ |
      ⟨wal, result, outcome, something⟩
  · rw [outcome, nothing]
    exact ⟨by simp, by simp, rfl⟩
  · rw [outcome, failed] at ok
    cases ok
  · rw [outcome]
    refine ⟨fun nullifier => ?_, fun nullifier => ?_, ?_⟩
    · exact lookup_archive set currentEpoch _ nullifier
    · exact mem_foldl_insert _ set.archived nullifier
    · have alreadySorted :
          (set.toArchive order currentEpoch).mergeSort =
            set.toArchive order currentEpoch :=
        List.mergeSort_eq_self _ (set.pairwise_toArchive order currentEpoch)
      simp [archivedSmtRoot, archive, computeArchivedRoot, batchesOf,
        something, alreadySorted]

/-- Every operation of a run returned without an error. -/
def AllOk
    (backend : WalBackend Wal)
    (set : NullifierSet hash Wal)
    (ops : List Op) : Prop :=
  ∀ answer ∈ StateMachine.outputs (step backend) set ops,
    answer.isOk = true

@[simp] theorem allOk_cons
    {backend : WalBackend Wal}
    {set : NullifierSet hash Wal}
    {op : Op}
    {rest : List Op} :
    AllOk backend set (op :: rest) ↔
      (step backend set op).2.isOk = true ∧
        AllOk backend (step backend set op).1 rest := by
  simp [AllOk]

theorem allOk_append
    {backend : WalBackend Wal}
    {set : NullifierSet hash Wal}
    {ops later : List Op} :
    AllOk backend set (ops ++ later) ↔
      AllOk backend set ops ∧
        AllOk backend (StateMachine.run (step backend) set ops) later := by
  simp only [AllOk, StateMachine.outputs_append, List.forall_mem_append]

/-- The log in memory lets every operation succeed. -/
theorem allOk_inMemoryWal
    (set : NullifierSet hash (Option WalEntry))
    (ops : List Op) :
    AllOk inMemoryWal set ops := by
  induction ops generalizing set with
  | nil =>
      simp [AllOk, StateMachine.outputs]
  | cons op rest inductionHypothesis =>
      refine allOk_cons.mpr ⟨?_, inductionHypothesis _⟩
      cases op with
      | insert nullifier epochId =>
          rfl
      | checkpoint order currentEpoch =>
          by_cases nothing : set.toArchive order currentEpoch = []
          · simp [checkpoint, nothing, Answer.isOk]
          · simp [checkpoint, nothing, inMemoryWal, Answer.isOk]

/-- The batches one operation archives, given the state before it. -/
def archivedBy (set : NullifierSet hash Wal) : Op → List (List Bytes32)
  | .insert _ _ => []
  | .checkpoint order currentEpoch =>
      batchesOf (set.toArchive order currentEpoch)

/-- The batches a run selects, in order. -/
def archivedBatches
    (backend : WalBackend Wal) :
    NullifierSet hash Wal → List Op → List (List Bytes32)
  | _, [] => []
  | set, op :: rest =>
      set.archivedBy op ++ archivedBatches backend (step backend set op).1 rest

/-- Inserting leaves the archive as it was. -/
theorem insert_archive
    (set : NullifierSet hash Wal)
    (nullifier : Bytes32)
    (epochId : UInt64) :
    (set.insert nullifier epochId).archived = set.archived ∧
      (set.insert nullifier epochId).archivedSmtRoot =
        set.archivedSmtRoot := by
  cases spent : set.isSpent nullifier with
  | true =>
      rw [insert_of_spent spent]
      exact ⟨rfl, rfl⟩
  | false =>
      rw [insert_of_unspent spent]
      exact ⟨rfl, rfl⟩

/-- The archived root is the chain over the batches of the run. -/
theorem archivedSmtRoot_run
    {backend : WalBackend Wal}
    {set : NullifierSet hash Wal}
    {ops : List Op}
    (allOk : AllOk backend set ops) :
    (StateMachine.run (step backend) set ops).archivedSmtRoot =
      HashChain.digest hash.hashArchived set.archivedSmtRoot
        (archivedBatches backend set ops) := by
  induction ops generalizing set with
  | nil =>
      rfl
  | cons op rest inductionHypothesis =>
      obtain ⟨ok, restOk⟩ := allOk_cons.mp allOk
      rw [StateMachine.run_cons, inductionHypothesis restOk, archivedBatches,
        HashChain.digest_append]
      congr 1
      cases op with
      | insert nullifier epochId =>
          exact (set.insert_archive nullifier epochId).2
      | checkpoint order currentEpoch =>
          exact (archives_of_isOk ok).root

/-- The archived set is the union of the batches, however they were cut. -/
theorem mem_archived_run
    {backend : WalBackend Wal}
    {set : NullifierSet hash Wal}
    {ops : List Op}
    (allOk : AllOk backend set ops)
    (nullifier : Bytes32) :
    nullifier ∈ (StateMachine.run (step backend) set ops).archived ↔
      nullifier ∈ set.archived ∨
        nullifier ∈ (archivedBatches backend set ops).flatten := by
  induction ops generalizing set with
  | nil =>
      simp [archivedBatches]
  | cons op rest inductionHypothesis =>
      obtain ⟨ok, restOk⟩ := allOk_cons.mp allOk
      rw [StateMachine.run_cons, inductionHypothesis restOk, archivedBatches,
        List.flatten_append, List.mem_append, ← or_assoc]
      apply or_congr_left
      cases op with
      | insert inserted epochId =>
          simp [step, (set.insert_archive inserted epochId).1, archivedBy]
      | checkpoint order currentEpoch =>
          have sameSelection :
              nullifier ∈
                  (batchesOf (set.toArchive order currentEpoch)).flatten ↔
                nullifier ∈ set.toArchive order currentEpoch := by
            unfold batchesOf
            split
            · next nothing =>
                simp [nothing]
            · simp
          rw [(archives_of_isOk ok).archived, archivedBy, sameSelection]

/--
Two runs with one archived set have one archived root exactly when they
archived the same batches in the same order.
-/
theorem archivedRoot_represents_set_iff
    (ideal : HashChain.Ideal hash.hashArchived hash.emptyRoot)
    {FirstWal SecondWal : Type}
    {firstBackend : WalBackend FirstWal}
    {secondBackend : WalBackend SecondWal}
    {firstWal : FirstWal}
    {secondWal : SecondWal}
    {firstOps secondOps : List Op}
    (firstOk : AllOk firstBackend (newWithWal hash firstWal) firstOps)
    (secondOk : AllOk secondBackend (newWithWal hash secondWal) secondOps) :
    let first :=
      StateMachine.run (step firstBackend) (newWithWal hash firstWal) firstOps
    let second :=
      StateMachine.run (step secondBackend) (newWithWal hash secondWal)
        secondOps
    (first.archived = second.archived →
        first.checkpointProof.archivedSmtRoot =
          second.checkpointProof.archivedSmtRoot) ↔
      (first.archived = second.archived →
        archivedBatches firstBackend (newWithWal hash firstWal) firstOps =
          archivedBatches secondBackend (newWithWal hash secondWal)
            secondOps) := by
  intro first second
  have sameChain :
      first.checkpointProof.archivedSmtRoot =
          second.checkpointProof.archivedSmtRoot ↔
        archivedBatches firstBackend (newWithWal hash firstWal) firstOps =
          archivedBatches secondBackend (newWithWal hash secondWal)
            secondOps := by
    rw [← ideal.digest_injective]
    exact
      (Eq.congr (archivedSmtRoot_run firstOk)
        (archivedSmtRoot_run secondOk))
  rw [sameChain]

/-- The symbolic archive hash is an ideal chain. -/
theorem symbolicSmtHash_chain_ideal :
    HashChain.Ideal symbolicSmtHash.hashArchived symbolicSmtHash.emptyRoot where
  injective same := by
    simpa [symbolicSmtHash] using same
  ne_start _ _ := SymbolicDigest.noConfusion

/-- Two nullifiers archived by one checkpoint. -/
def oneBatch : List Op :=
  [.insert Bytes32.zero 1, .insert (Bytes32.endingIn 1) 1,
    .checkpoint .ascending 10]

/-- The same two in the other order, and the hash map's other order. -/
def reversedBatch : List Op :=
  [.insert (Bytes32.endingIn 1) 1, .insert Bytes32.zero 1,
    .checkpoint .descending 10]

/-- The same nullifiers archived by two checkpoints. -/
def twoBatches : List Op :=
  [.insert Bytes32.zero 1, .checkpoint .ascending 10,
    .insert (Bytes32.endingIn 1) 1, .checkpoint .ascending 10]

/-- The empty set has nothing to archive and has spent nothing. -/
theorem eligible_newWithWal
    (wal : Wal)
    (currentEpoch : UInt64) :
    (newWithWal hash wal).eligible currentEpoch = ∅ := by
  ext nullifier
  simp [mem_eligible, newWithWal]

/-- One checkpoint selects two old nullifiers, however they came in. -/
theorem archivedBatches_pair
    {former latter : Bytes32}
    (different : latter ≠ former)
    {selection : List Bytes32}
    (selected : {latter, former} = selection.toFinset)
    (ascending : selection.Pairwise (· < ·))
    (wal : Option WalEntry)
    (order : IterationOrder) :
    archivedBatches inMemoryWal (newWithWal symbolicSmtHash wal)
        [.insert former 1, .insert latter 1, .checkpoint order 10] =
      [selection] := by
  have fresh :
      ((newWithWal symbolicSmtHash wal).insert former 1).isSpent latter =
        false := by
    rw [isSpent_insert, isSpent_newWithWal, decide_eq_false different,
      Bool.false_or]
  have old :
      nsActiveWindowEpochs < MachineInt.saturatingSub (10 : UInt64) 1 := by
    decide
  have both :
      (((newWithWal symbolicSmtHash wal).insert former 1).insert
            latter 1).eligible 10 =
        selection.toFinset := by
    rw [eligible_insert fresh, eligible_insert (isSpent_newWithWal _ _),
      eligible_newWithWal, if_pos old, if_pos old]
    exact selected
  have distinct : selection.Nodup :=
    ascending.imp ne_of_lt
  have two : selection.length = 2 := by
    rw [← List.toFinset_card_of_nodup distinct, ← selected,
      Finset.card_pair different]
  have notEmpty : selection ≠ [] :=
    List.ne_nil_of_length_pos (by omega)
  have withinLimit : selection.length ≤ maxNullifiersPerCheckpoint := by
    rw [two]
    decide
  simp only [archivedBatches, archivedBy, step_insert,
    toArchive_eq_of_eligible both ascending withinLimit, batchesOf,
    if_neg notEmpty]
  rfl

/-- One checkpoint selects both nullifiers, in ascending order. -/
theorem archivedBatches_oneBatch (wal : Option WalEntry) :
    archivedBatches inMemoryWal (newWithWal symbolicSmtHash wal) oneBatch =
      [[Bytes32.zero, Bytes32.endingIn 1]] :=
  archivedBatches_pair (by decide) (by decide) (by decide) wal .ascending

/-- The other order of arrival and of the hash map selects the same batch. -/
theorem archivedBatches_reversedBatch (wal : Option WalEntry) :
    archivedBatches inMemoryWal (newWithWal symbolicSmtHash wal)
        reversedBatch =
      [[Bytes32.zero, Bytes32.endingIn 1]] :=
  archivedBatches_pair (by decide) (by decide) (by decide) wal .descending

/-- Two checkpoints select one nullifier each. -/
theorem archivedBatches_twoBatches :
    archivedBatches inMemoryWal (newWithWal symbolicSmtHash none) twoBatches =
      [[Bytes32.zero], [Bytes32.endingIn 1]] := by
  let start := newWithWal symbolicSmtHash (none : Option WalEntry)
  let archivedFirst :=
    (step inMemoryWal (start.insert Bytes32.zero 1)
      (.checkpoint .ascending 10)).1
  have firstEligible :
      (start.insert Bytes32.zero 1).eligible 10 =
        [Bytes32.zero].toFinset := by
    rw [eligible_insert (isSpent_newWithWal _ _), eligible_newWithWal]
    decide
  have firstSelection :
      (start.insert Bytes32.zero 1).toArchive .ascending 10 =
        [Bytes32.zero] :=
    toArchive_eq_of_eligible firstEligible (by decide) (by decide) _
  have allOk :=
    allOk_inMemoryWal start [.insert Bytes32.zero 1, .checkpoint .ascending 10]
  have moved :
      Archives ((start.insert Bytes32.zero 1).toArchive .ascending 10)
        (start.insert Bytes32.zero 1) archivedFirst :=
    archives_of_isOk (allOk_cons.mp (allOk_cons.mp allOk).2).1
  have tracks :
      Tracks [.insert Bytes32.zero 1, .checkpoint .ascending 10]
        archivedFirst :=
    Tracks.run inMemoryWal none _
  have fresh : archivedFirst.isSpent (Bytes32.endingIn 1) = false := by
    rw [← Bool.not_eq_true, isSpent_iff, tracks.covers]
    decide
  have secondEligible :
      (archivedFirst.insert (Bytes32.endingIn 1) 1).eligible 10 =
        [Bytes32.endingIn 1].toFinset := by
    rw [eligible_insert fresh, moved.eligible, firstEligible,
      firstSelection]
    decide
  have secondSelection :
      (archivedFirst.insert (Bytes32.endingIn 1) 1).toArchive .ascending 10 =
        [Bytes32.endingIn 1] :=
    toArchive_eq_of_eligible secondEligible (by decide) (by decide) _
  have batches :
      archivedBatches inMemoryWal start twoBatches =
        batchesOf ((start.insert Bytes32.zero 1).toArchive .ascending 10) ++
          (batchesOf
              ((archivedFirst.insert (Bytes32.endingIn 1) 1).toArchive
                .ascending 10) ++
            []) :=
    rfl
  rw [firstSelection, secondSelection] at batches
  exact batches

/-- The order of arrival leaves set and root as they are. -/
theorem archivedRoot_represents_set_reversedBatch :
    let first :=
      StateMachine.run (step inMemoryWal) (newWithWal symbolicSmtHash none)
        oneBatch
    let second :=
      StateMachine.run (step inMemoryWal)
        (newWithWal symbolicSmtHash
          (some {
            epoch := 4
            status := .committed
            nullifiersToArchive := []
          }))
        reversedBatch
    first.archived = second.archived ∧
      first.checkpointProof.archivedSmtRoot =
        second.checkpointProof.archivedSmtRoot := by
  intro first second
  have firstOk := allOk_inMemoryWal (newWithWal symbolicSmtHash none) oneBatch
  have secondOk :=
    allOk_inMemoryWal
      (newWithWal symbolicSmtHash
        (some {
          epoch := 4
          status := .committed
          nullifiersToArchive := []
        }))
      reversedBatch
  have sameSet : first.archived = second.archived := by
    ext nullifier
    rw [mem_archived_run firstOk, mem_archived_run secondOk,
      archivedBatches_oneBatch, archivedBatches_reversedBatch]
    rfl
  refine ⟨sameSet, ?_⟩
  apply
    (archivedRoot_represents_set_iff symbolicSmtHash_chain_ideal firstOk
      secondOk).mpr
  · intro _
    rw [archivedBatches_oneBatch, archivedBatches_reversedBatch]
  · exact sameSet

/--
One archived set, two archived roots: the nullifiers archived together and
archived one after the other.
-/
theorem archivedRoot_not_represents_set :
    HashChain.Ideal symbolicSmtHash.hashArchived symbolicSmtHash.emptyRoot ∧
      AllOk inMemoryWal (newWithWal symbolicSmtHash none) oneBatch ∧
      AllOk inMemoryWal (newWithWal symbolicSmtHash none) twoBatches ∧
      (StateMachine.run (step inMemoryWal) (newWithWal symbolicSmtHash none)
            oneBatch).archived =
          (StateMachine.run (step inMemoryWal) (newWithWal symbolicSmtHash none)
            twoBatches).archived ∧
      (StateMachine.run (step inMemoryWal) (newWithWal symbolicSmtHash none)
            oneBatch).checkpointProof.archivedSmtRoot ≠
          (StateMachine.run (step inMemoryWal) (newWithWal symbolicSmtHash none)
            twoBatches).checkpointProof.archivedSmtRoot := by
  have firstOk :=
    allOk_inMemoryWal (newWithWal symbolicSmtHash none) oneBatch
  have secondOk :=
    allOk_inMemoryWal (newWithWal symbolicSmtHash none) twoBatches
  refine ⟨symbolicSmtHash_chain_ideal, firstOk, secondOk, ?_, ?_⟩
  · ext nullifier
    rw [mem_archived_run firstOk, mem_archived_run secondOk,
      archivedBatches_oneBatch, archivedBatches_twoBatches]
    simp
  · intro sameRoot
    have sameBatches :=
      symbolicSmtHash_chain_ideal.digest_injective.mp
        ((archivedSmtRoot_run firstOk).symm.trans
          (sameRoot.trans (archivedSmtRoot_run secondOk)))
    rw [archivedBatches_oneBatch, archivedBatches_twoBatches] at sameBatches
    simp at sameBatches

end NullifierSet

end ScalarCore
