import ScalarCore.NullifierArchive

namespace ScalarCore

/-!
# Agreement between nodes

Two nodes receive the same insertions in different orders and then run the same
checkpoints.  They agree on both roots and on the archived set as long as no
nullifier comes with two epochs, since the first insertion wins, and as long as
a checkpoint can take all that is eligible.
-/

namespace NullifierSet

variable {Digest : Type} [DecidableEq Digest] {hash : SmtHash Digest}
  {Wal FirstWal SecondWal : Type}

/-- Insertions as operations. -/
def insertions (entries : List (Bytes32 × UInt64)) : List Op :=
  entries.map fun entry => .insert entry.1 entry.2

/-- Checkpoint calls as operations, with the hash map's order at each. -/
def checkpoints (calls : List (IterationOrder × UInt64)) : List Op :=
  calls.map fun call => .checkpoint call.1 call.2

/-- At each of the checkpoints ahead, all that is eligible fits in the batch. -/
def WithinLimit
    (backend : WalBackend Wal) :
    NullifierSet hash Wal → List (IterationOrder × UInt64) → Prop
  | _, [] => True
  | set, call :: rest =>
      (set.eligible call.2).card ≤ maxNullifiersPerCheckpoint ∧
        WithinLimit backend
          (step backend set (.checkpoint call.1 call.2)).1 rest

/-- The active layer holds given entries and nothing is archived. -/
structure HoldsEntries
    (entries : List (Bytes32 × UInt64))
    (set : NullifierSet hash Wal) : Prop where
  stored :
    ∀ nullifier epoch,
      set.active.leaves.lookup nullifier = some epoch ↔
        (nullifier, epoch) ∈ entries
  archived : set.archived = ∅
  root : set.archivedSmtRoot = hash.emptyRoot

/-- No nullifier comes with two epochs. -/
def OneEpochEach (entries : List (Bytes32 × UInt64)) : Prop :=
  ∀ nullifier epoch epoch',
    (nullifier, epoch) ∈ entries →
    (nullifier, epoch') ∈ entries →
    epoch = epoch'

/-- Entries with distinct nullifiers have one epoch each. -/
theorem oneEpochEach_of_nodup
    {entries : List (Bytes32 × UInt64)}
    (distinct : (entries.map Prod.fst).Nodup) :
    OneEpochEach entries := by
  intro nullifier epoch epoch' listed listed'
  have same := List.inj_on_of_nodup_map distinct listed listed' rfl
  exact congrArg Prod.snd same

/-- One more insertion adds its entry. -/
theorem HoldsEntries.insert
    {entries : List (Bytes32 × UInt64)}
    {set : NullifierSet hash Wal}
    (holds : HoldsEntries entries set)
    (entry : Bytes32 × UInt64)
    (oneEpoch : OneEpochEach (entries ++ [entry])) :
    HoldsEntries (entries ++ [entry]) (set.insert entry.1 entry.2) := by
  obtain ⟨sameArchived, sameRoot⟩ := set.insert_archive entry.1 entry.2
  refine
    ⟨fun nullifier epoch => ?_, sameArchived.trans holds.archived,
      sameRoot.trans holds.root⟩
  rw [List.mem_append, List.mem_singleton]
  cases spent : set.isSpent entry.1 with
  | true =>
      have known : entry ∈ entries := by
        rcases isSpent_iff.mp spent with active | archived
        · rcases Finmap.mem_iff.mp active with ⟨epoch', found⟩
          have listed := (holds.stored entry.1 epoch').mp found
          have sameEpoch : epoch' = entry.2 :=
            oneEpoch entry.1 epoch' entry.2 (by simp [listed]) (by simp)
          rwa [sameEpoch] at listed
        · rw [holds.archived] at archived
          cases archived
      rw [insert_of_spent spent, holds.stored]
      constructor
      · exact Or.inl
      · rintro (listed | rfl)
        · exact listed
        · exact known
  | false =>
      rw [insert_of_unspent spent, SparseMerkleTree.leaves_insert]
      by_cases same : nullifier = entry.1
      · subst same
        have notListed : (entry.1, epoch) ∉ entries := by
          intro listed
          have found := (holds.stored entry.1 epoch).mpr listed
          exact
            (isSpent_eq_false_iff.mp spent).1
              (Finmap.mem_of_lookup_eq_some found)
        rw [Finmap.lookup_insert, Option.some.injEq, or_iff_right notListed]
        constructor
        · rintro rfl
          rfl
        · intro isEntry
          rw [← isEntry]
      · rw [Finmap.lookup_insert_of_ne _ same, holds.stored]
        constructor
        · exact Or.inl
        · rintro (listed | rfl)
          · exact listed
          · exact absurd rfl same

/-- A run of insertions stores exactly the inserted entries. -/
theorem HoldsEntries.run
    (backend : WalBackend Wal)
    {past : List (Bytes32 × UInt64)}
    {set : NullifierSet hash Wal}
    (holds : HoldsEntries past set)
    {entries : List (Bytes32 × UInt64)}
    (oneEpoch : OneEpochEach (past ++ entries)) :
    HoldsEntries (past ++ entries)
      (StateMachine.run (step backend) set (insertions entries)) := by
  induction entries generalizing past set with
  | nil =>
      simpa [insertions] using holds
  | cons entry rest inductionHypothesis =>
      have regrouped : past ++ entry :: rest = past ++ [entry] ++ rest := by
        simp
      rw [regrouped] at oneEpoch ⊢
      apply inductionHypothesis _ oneEpoch
      apply holds.insert
      intro nullifier epoch epoch' first second
      exact
        oneEpoch nullifier epoch epoch' (List.mem_append_left _ first)
          (List.mem_append_left _ second)

/-- Entries that are all old enough are all eligible. -/
theorem HoldsEntries.eligible_eq
    {entries : List (Bytes32 × UInt64)}
    {set : NullifierSet hash Wal}
    (holds : HoldsEntries entries set)
    {currentEpoch : UInt64}
    (allOld :
      ∀ entry ∈ entries,
        nsActiveWindowEpochs <
          MachineInt.saturatingSub currentEpoch entry.2) :
    set.eligible currentEpoch = (entries.map Prod.fst).toFinset := by
  ext nullifier
  rw [mem_eligible, List.mem_toFinset, List.mem_map]
  constructor
  · rintro ⟨epoch, found, _⟩
    exact ⟨(nullifier, epoch), (holds.stored _ _).mp found, rfl⟩
  · rintro ⟨entry, listed, rfl⟩
    exact ⟨entry.2, (holds.stored _ _).mpr listed, allOld entry listed⟩

theorem HoldsEntries.newWithWal (wal : Wal) :
    HoldsEntries [] (NullifierSet.newWithWal hash wal) where
  stored nullifier epoch := by
    simp [NullifierSet.newWithWal]
  archived := rfl
  root := rfl

/-- Two nodes hold the same entries and the same archive. -/
structure Agree
    (first : NullifierSet hash FirstWal)
    (second : NullifierSet hash SecondWal) : Prop where
  leaves : first.active.leaves = second.active.leaves
  archived : first.archived = second.archived
  root : first.archivedSmtRoot = second.archivedSmtRoot

/-- The active root follows from the entries. -/
theorem Agree.activeRoot
    {first : NullifierSet hash FirstWal}
    {second : NullifierSet hash SecondWal}
    (agree : Agree first second) :
    first.activeRoot = second.activeRoot := by
  rw [NullifierSet.activeRoot, NullifierSet.activeRoot,
    first.active.root_eq, second.active.root_eq, agree.leaves]

/-- Nodes that hold the same entries agree. -/
theorem HoldsEntries.agree
    {firstEntries secondEntries : List (Bytes32 × UInt64)}
    {first : NullifierSet hash FirstWal}
    {second : NullifierSet hash SecondWal}
    (firstHolds : HoldsEntries firstEntries first)
    (sameEntries : firstEntries.Perm secondEntries)
    (secondHolds : HoldsEntries secondEntries second) :
    Agree first second where
  leaves := by
    apply Finmap.ext_lookup
    intro nullifier
    apply Option.ext
    intro epoch
    rw [firstHolds.stored, secondHolds.stored, sameEntries.mem_iff]
  archived := firstHolds.archived.trans secondHolds.archived.symm
  root := firstHolds.root.trans secondHolds.root.symm

/-- Moving one selection on both nodes keeps them in agreement. -/
theorem Agree.archives
    {selection : List Bytes32}
    {first first' : NullifierSet hash FirstWal}
    {second second' : NullifierSet hash SecondWal}
    (agree : Agree first second)
    (firstMoved : Archives selection first first')
    (secondMoved : Archives selection second second') :
    Agree first' second' where
  leaves := by
    apply Finmap.ext_lookup
    intro nullifier
    rw [firstMoved.lookup, secondMoved.lookup, agree.leaves]
  archived := by
    ext nullifier
    rw [firstMoved.archived, secondMoved.archived, agree.archived]
  root := by
    rw [firstMoved.root, secondMoved.root, agree.root]

/-- The same checkpoint on both nodes keeps them in agreement. -/
theorem Agree.checkpoint
    {firstBackend : WalBackend FirstWal}
    {secondBackend : WalBackend SecondWal}
    {first : NullifierSet hash FirstWal}
    {second : NullifierSet hash SecondWal}
    (agree : Agree first second)
    {firstOrder secondOrder : IterationOrder}
    {currentEpoch : UInt64}
    (withinLimit :
      (first.eligible currentEpoch).card ≤ maxNullifiersPerCheckpoint)
    (firstOk :
      (step firstBackend first (.checkpoint firstOrder currentEpoch)).2.isOk =
        true)
    (secondOk :
      (step secondBackend second
          (.checkpoint secondOrder currentEpoch)).2.isOk =
        true) :
    Agree (step firstBackend first (.checkpoint firstOrder currentEpoch)).1
      (step secondBackend second
        (.checkpoint secondOrder currentEpoch)).1 := by
  have sameEligible :
      second.eligible currentEpoch = first.eligible currentEpoch := by
    ext nullifier
    rw [mem_eligible, mem_eligible, agree.leaves]
  have firstSelection := toArchive_eq_sort withinLimit firstOrder
  have secondSelection :=
    toArchive_eq_sort (sameEligible ▸ withinLimit) secondOrder
  have firstMoved := archives_of_isOk firstOk
  have secondMoved := archives_of_isOk secondOk
  rw [firstSelection] at firstMoved
  rw [secondSelection, sameEligible] at secondMoved
  exact agree.archives firstMoved secondMoved

/-- The same checkpoints on both nodes keep them in agreement throughout. -/
theorem Agree.run_checkpoints
    {firstBackend : WalBackend FirstWal}
    {secondBackend : WalBackend SecondWal}
    {first : NullifierSet hash FirstWal}
    {second : NullifierSet hash SecondWal}
    (agree : Agree first second)
    {firstCalls secondCalls : List (IterationOrder × UInt64)}
    (sameEpochs : firstCalls.map Prod.snd = secondCalls.map Prod.snd)
    (withinLimit : WithinLimit firstBackend first firstCalls)
    (firstOk : AllOk firstBackend first (checkpoints firstCalls))
    (secondOk : AllOk secondBackend second (checkpoints secondCalls))
    (count : Nat) :
    Agree
      (StateMachine.run (step firstBackend) first
        (checkpoints (firstCalls.take count)))
      (StateMachine.run (step secondBackend) second
        (checkpoints (secondCalls.take count))) := by
  induction firstCalls generalizing first second secondCalls count with
  | nil =>
      obtain rfl : secondCalls = [] := by
        simpa using sameEpochs.symm
      simpa [checkpoints] using agree
  | cons firstCall firstRest inductionHypothesis =>
      rcases secondCalls with - | ⟨secondCall, secondRest⟩
      · cases sameEpochs
      · rcases firstCall with ⟨firstOrder, currentEpoch⟩
        rcases secondCall with ⟨secondOrder, secondEpoch⟩
        obtain ⟨rfl, restEpochs⟩ := List.cons.inj sameEpochs
        obtain ⟨firstHere, firstRestOk⟩ := allOk_cons.mp firstOk
        obtain ⟨secondHere, secondRestOk⟩ := allOk_cons.mp secondOk
        cases count with
        | zero =>
            exact agree
        | succ count =>
            exact
              inductionHypothesis
                (agree.checkpoint withinLimit.1 firstHere secondHere)
                restEpochs withinLimit.2 firstRestOk secondRestOk count

/--
Nodes that receive the same insertions, no nullifier with two epochs, and run
the same checkpoints, none with more eligible nullifiers than a batch can hold,
agree after each checkpoint.
-/
theorem archivedRoot_agreement
    {firstBackend : WalBackend FirstWal}
    {secondBackend : WalBackend SecondWal}
    {firstWal : FirstWal}
    {secondWal : SecondWal}
    {firstEntries secondEntries : List (Bytes32 × UInt64)}
    {firstCalls secondCalls : List (IterationOrder × UInt64)}
    (sameEntries : firstEntries.Perm secondEntries)
    (sameEpochs : firstCalls.map Prod.snd = secondCalls.map Prod.snd)
    (firstOk :
      AllOk firstBackend (newWithWal hash firstWal)
        (insertions firstEntries ++ checkpoints firstCalls))
    (secondOk :
      AllOk secondBackend (newWithWal hash secondWal)
        (insertions secondEntries ++ checkpoints secondCalls))
    (oneEpoch : OneEpochEach firstEntries)
    (withinLimit :
      WithinLimit firstBackend
        (StateMachine.run (step firstBackend) (newWithWal hash firstWal)
          (insertions firstEntries))
        firstCalls)
    (count : Nat) :
    let first :=
      StateMachine.run (step firstBackend) (newWithWal hash firstWal)
        (insertions firstEntries ++ checkpoints (firstCalls.take count))
    let second :=
      StateMachine.run (step secondBackend) (newWithWal hash secondWal)
        (insertions secondEntries ++ checkpoints (secondCalls.take count))
    first.archivedSmtRoot = second.archivedSmtRoot ∧
      first.activeRoot = second.activeRoot ∧
      first.archived = second.archived := by
  intro first second
  have secondOneEpoch : OneEpochEach secondEntries := by
    intro nullifier epoch epoch' listed listed'
    exact
      oneEpoch nullifier epoch epoch' (sameEntries.mem_iff.mpr listed)
        (sameEntries.mem_iff.mpr listed')
  have firstHolds :
      HoldsEntries firstEntries
        (StateMachine.run (step firstBackend) (newWithWal hash firstWal)
          (insertions firstEntries)) :=
    (HoldsEntries.newWithWal firstWal).run firstBackend oneEpoch
  have secondHolds :
      HoldsEntries secondEntries
        (StateMachine.run (step secondBackend) (newWithWal hash secondWal)
          (insertions secondEntries)) :=
    (HoldsEntries.newWithWal secondWal).run secondBackend secondOneEpoch
  have inserted := firstHolds.agree sameEntries secondHolds
  have agree : Agree first second := by
    simp only [first, second, StateMachine.run_append]
    exact
      inserted.run_checkpoints sameEpochs withinLimit
        (allOk_append.mp firstOk).2 (allOk_append.mp secondOk).2 count
  exact ⟨agree.root, agree.activeRoot, agree.archived⟩

/-- No more nullifiers are eligible than were inserted. -/
theorem card_eligible_le
    {ops : List Op}
    {set : NullifierSet hash Wal}
    (tracks : Tracks ops set)
    (currentEpoch : UInt64) :
    (set.eligible currentEpoch).card ≤ (insertedBy ops).card :=
  calc (set.eligible currentEpoch).card
      ≤ set.active.leaves.keys.card := Finset.card_filter_le _ _
    _ ≤ set.activeCount + set.archivedCount := Nat.le_add_right _ _
    _ = (insertedBy ops).card := tracks.count

/-- Two nullifiers in both orders, with hash maps in opposite orders. -/
theorem archivedRoot_agreement_twoNullifiers :
    let first :=
      StateMachine.run (step inMemoryWal) (newWithWal symbolicSmtHash none)
        (insertions [(Bytes32.zero, 1), (Bytes32.endingIn 1, 2)] ++
          checkpoints ([(.ascending, 10)].take 1))
    let second :=
      StateMachine.run (step inMemoryWal) (newWithWal symbolicSmtHash none)
        (insertions [(Bytes32.endingIn 1, 2), (Bytes32.zero, 1)] ++
          checkpoints ([(.descending, 10)].take 1))
    first.archivedSmtRoot = second.archivedSmtRoot ∧
      first.activeRoot = second.activeRoot ∧
      first.archived = second.archived := by
  have tracks :
      Tracks (insertions [(Bytes32.zero, 1), (Bytes32.endingIn 1, 2)])
        (StateMachine.run (step inMemoryWal) (newWithWal symbolicSmtHash none)
          (insertions [(Bytes32.zero, 1), (Bytes32.endingIn 1, 2)])) :=
    Tracks.run inMemoryWal none _
  have sameEpochs :
      [(IterationOrder.ascending, (10 : UInt64))].map Prod.snd =
        [(IterationOrder.descending, (10 : UInt64))].map Prod.snd :=
    rfl
  have fewInserted :
      (insertedBy
          (insertions
            [(Bytes32.zero, 1), (Bytes32.endingIn 1, 2)])).card ≤
        maxNullifiersPerCheckpoint := by
    decide
  exact
    archivedRoot_agreement (List.Perm.swap _ _ _) sameEpochs
      (allOk_inMemoryWal _ _) (allOk_inMemoryWal _ _)
      (oneEpochEach_of_nodup (by decide))
      ⟨(card_eligible_le tracks 10).trans fewInserted, trivial⟩ 1

/-- Of two insertions of one nullifier, the first decides its epoch. -/
theorem archivedBatches_insertedTwice
    (wal : Option WalEntry)
    (nullifier : Bytes32)
    (epoch epoch' currentEpoch : UInt64) :
    archivedBatches inMemoryWal (newWithWal hash wal)
        (insertions [(nullifier, epoch), (nullifier, epoch')] ++
          checkpoints [(.ascending, currentEpoch)]) =
      if nsActiveWindowEpochs < MachineInt.saturatingSub currentEpoch epoch then
        [[nullifier]]
      else
        [] := by
  have spentOnce :
      ((newWithWal hash wal).insert nullifier epoch).isSpent nullifier =
        true := by
    rw [isSpent_insert, decide_eq_true rfl, Bool.or_true]
  have batches :
      archivedBatches inMemoryWal (newWithWal hash wal)
          (insertions [(nullifier, epoch), (nullifier, epoch')] ++
            checkpoints [(.ascending, currentEpoch)]) =
        batchesOf
            ((((newWithWal hash wal).insert nullifier epoch).insert nullifier
              epoch').toArchive .ascending currentEpoch) ++
          [] :=
    rfl
  have fresh : (newWithWal hash wal).isSpent nullifier = false :=
    isSpent_newWithWal wal nullifier
  have eligible := eligible_insert fresh epoch currentEpoch
  rw [eligible_newWithWal] at eligible
  rw [batches, insert_of_spent spentOnce, List.append_nil]
  split
  · next older =>
      rw [if_pos older] at eligible
      have selection :
          ((newWithWal hash wal).insert nullifier epoch).toArchive .ascending
            currentEpoch = [nullifier] :=
        toArchive_eq_of_eligible eligible (List.pairwise_singleton _ _)
          (by decide : 1 ≤ maxNullifiersPerCheckpoint) _
      rw [selection]
      rfl
  · next younger =>
      rw [if_neg younger] at eligible
      have selection :
          ((newWithWal hash wal).insert nullifier epoch).toArchive .ascending
            currentEpoch = [] :=
        toArchive_eq_of_eligible eligible List.Pairwise.nil (Nat.zero_le _) _
      rw [selection]
      rfl

/--
With more eligible nullifiers than a batch can hold, nodes whose hash maps have
different orders archive different nullifiers.
-/
theorem archived_ne_of_overLimit
    {wal : Option WalEntry}
    {entries : List (Bytes32 × UInt64)}
    {currentEpoch : UInt64}
    (distinct : (entries.map Prod.fst).Nodup)
    (allOld :
      ∀ entry ∈ entries,
        nsActiveWindowEpochs <
          MachineInt.saturatingSub currentEpoch entry.2)
    (overLimit : maxNullifiersPerCheckpoint < entries.length) :
    (StateMachine.run (step inMemoryWal) (newWithWal hash wal)
        (insertions entries ++
          checkpoints [(.ascending, currentEpoch)])).archived ≠
      (StateMachine.run (step inMemoryWal) (newWithWal hash wal)
        (insertions entries ++
          checkpoints [(.descending, currentEpoch)])).archived := by
  let inserted :=
    StateMachine.run (step inMemoryWal) (newWithWal hash wal)
      (insertions entries)
  have holds : HoldsEntries entries inserted :=
    (HoldsEntries.newWithWal wal).run inMemoryWal
      (oneEpochEach_of_nodup distinct)
  have manyEligible :
      maxNullifiersPerCheckpoint <
        (inserted.eligible currentEpoch).card := by
    rw [holds.eligible_eq allOld, List.toFinset_card_of_nodup distinct,
      List.length_map]
    exact overLimit
  have archivedAfter (order : IterationOrder) (nullifier : Bytes32) :
      nullifier ∈
          (StateMachine.run (step inMemoryWal) (newWithWal hash wal)
            (insertions entries ++
              checkpoints [(order, currentEpoch)])).archived ↔
        nullifier ∈ inserted.toArchive order currentEpoch := by
    have ok :=
      (allOk_cons.mp
        (allOk_inMemoryWal inserted [.checkpoint order currentEpoch])).1
    have moved := (archives_of_isOk ok).archived nullifier
    rw [holds.archived, or_iff_right (Finset.notMem_empty _)] at moved
    rw [StateMachine.run_append]
    exact moved
  obtain ⟨nullifier, selected, notSelected⟩ :=
    toArchive_of_overLimit manyEligible
  intro sameArchived
  have onFirst := (archivedAfter .ascending nullifier).mpr selected
  rw [sameArchived] at onFirst
  exact notSelected ((archivedAfter .descending nullifier).mp onFirst)

/-- The nullifier that holds a number. -/
def numbered (number : Nat) : Bytes32 :=
  .ofLimbs fun _ => UInt64.ofNat number

/-- One entry more than a batch can hold. -/
def manyEntries : List (Bytes32 × UInt64) :=
  (List.range (maxNullifiersPerCheckpoint + 1)).map fun number =>
    (numbered number, 1)

theorem nodup_manyEntries : (manyEntries.map Prod.fst).Nodup := by
  rw [manyEntries, List.map_map]
  apply List.Nodup.map_on _ List.nodup_range
  intro number listed number' listed' same
  have inWord : maxNullifiersPerCheckpoint + 1 ≤ 2 ^ 64 := by
    decide
  have sameLimb :
      (numbered number).limb 0 = (numbered number').limb 0 :=
    congrArg (fun nullifier => nullifier.limb 0) same
  rw [numbered, numbered, Bytes32.limb_ofLimbs, Bytes32.limb_ofLimbs,
    ← UInt64.toNat_inj, UInt64.toNat_ofNat', UInt64.toNat_ofNat',
    Nat.mod_eq_of_lt ((List.mem_range.mp listed).trans_le inWord),
    Nat.mod_eq_of_lt ((List.mem_range.mp listed').trans_le inWord)]
    at sameLimb
  exact sameLimb

/-- They are old enough in epoch 10. -/
theorem old_manyEntries :
    ∀ entry ∈ manyEntries,
      nsActiveWindowEpochs < MachineInt.saturatingSub 10 entry.2 := by
  intro entry listed
  obtain ⟨number, _, isEntry⟩ := List.mem_map.mp listed
  rw [← isEntry]
  exact (by decide : nsActiveWindowEpochs < MachineInt.saturatingSub 10 1)

/--
Neither condition can be dropped.  Insertions of one nullifier with two epochs
in different orders, and checkpoints with more eligible nullifiers than a batch
can hold, leave the nodes with different archives.
-/
theorem archivedRoot_disagreement :
    (let firstEntries : List (Bytes32 × UInt64) :=
        [(Bytes32.zero, 1), (Bytes32.zero, 5)]
      let secondEntries : List (Bytes32 × UInt64) :=
        [(Bytes32.zero, 5), (Bytes32.zero, 1)]
      let start := newWithWal symbolicSmtHash (none : Option WalEntry)
      let firstOps := insertions firstEntries ++ checkpoints [(.ascending, 6)]
      let secondOps := insertions secondEntries ++ checkpoints [(.ascending, 6)]
      let first := StateMachine.run (step inMemoryWal) start firstOps
      let second := StateMachine.run (step inMemoryWal) start secondOps
      firstEntries.Perm secondEntries ∧
        AllOk inMemoryWal start firstOps ∧
        AllOk inMemoryWal start secondOps ∧
        first.archived ≠ second.archived ∧
        first.archivedSmtRoot ≠ second.archivedSmtRoot) ∧
      OneEpochEach manyEntries ∧
      AllOk inMemoryWal (newWithWal symbolicSmtHash none)
        (insertions manyEntries ++ checkpoints [(.ascending, 10)]) ∧
      AllOk inMemoryWal (newWithWal symbolicSmtHash none)
        (insertions manyEntries ++ checkpoints [(.descending, 10)]) ∧
      (StateMachine.run (step inMemoryWal) (newWithWal symbolicSmtHash none)
          (insertions manyEntries ++
            checkpoints [(.ascending, 10)])).archived ≠
        (StateMachine.run (step inMemoryWal) (newWithWal symbolicSmtHash none)
          (insertions manyEntries ++
            checkpoints [(.descending, 10)])).archived := by
  refine
    ⟨?_, oneEpochEach_of_nodup nodup_manyEntries, allOk_inMemoryWal _ _,
      allOk_inMemoryWal _ _, ?_⟩
  · intro firstEntries secondEntries start firstOps secondOps first second
    have firstOk : AllOk inMemoryWal start firstOps := allOk_inMemoryWal _ _
    have secondOk : AllOk inMemoryWal start secondOps := allOk_inMemoryWal _ _
    have firstBatches :
        archivedBatches inMemoryWal start firstOps = [[Bytes32.zero]] :=
      (archivedBatches_insertedTwice none _ 1 5 6).trans (if_pos (by decide))
    have secondBatches :
        archivedBatches inMemoryWal start secondOps = [] :=
      (archivedBatches_insertedTwice none _ 5 1 6).trans (if_neg (by decide))
    refine ⟨List.Perm.swap _ _ _, firstOk, secondOk, ?_, ?_⟩
    · intro sameArchived
      have onFirst : Bytes32.zero ∈ first.archived := by
        rw [mem_archived_run firstOk, firstBatches]
        simp
      have onSecond : Bytes32.zero ∉ second.archived := by
        rw [mem_archived_run secondOk, secondBatches]
        simp [start, newWithWal]
      exact onSecond (sameArchived ▸ onFirst)
    · intro sameRoot
      have sameBatches :=
        symbolicSmtHash_chain_ideal.digest_injective.mp
          ((archivedSmtRoot_run firstOk).symm.trans
            (sameRoot.trans (archivedSmtRoot_run secondOk)))
      rw [firstBatches, secondBatches] at sameBatches
      cases sameBatches
  · have overLimit : maxNullifiersPerCheckpoint < manyEntries.length := by
      rw [manyEntries, List.length_map, List.length_range]
      exact Nat.lt_add_one _
    exact archived_ne_of_overLimit nodup_manyEntries old_manyEntries overLimit

end NullifierSet

end ScalarCore
