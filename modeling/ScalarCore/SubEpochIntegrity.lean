import ScalarCore.SubEpoch

namespace ScalarCore.SubEpochChain

/-!
# Integrity of the sub-epoch chain

A chain is sound when each commitment carries its own hash and the hash of the
stored predecessor, and the stored ids are those up to the latest one.  A call
can replace a commitment that already has a successor.  The links survive a
run exactly when no call does so with a different hash.
-/

/-- The invariant of the chain. -/
structure Integrity
    (blake3 : List UInt8 → Bytes32)
    (chain : SubEpochChain) : Prop where
  keyed :
    ∀ id c,
      chain.get id = some c →
      c.subepochId = id
  linked :
    ∀ id c,
      chain.get id = some c →
      id ≠ 0 →
      ∃ prev,
        chain.get (id - 1) = some prev ∧
          prev.subepochHash = c.prevSubepochHash
  first :
    ∀ c,
      chain.get 0 = some c →
      c.prevSubepochHash = .zero
  hashes :
    ∀ id c,
      chain.get id = some c →
      c.subepochHash = computeSubepochHash blake3 c
  ids :
    ∀ id,
      (chain.get id).isSome = true ↔
        ∃ latest,
          chain.latestSubepochId = some latest ∧ id ≤ latest

/--
A commitment that passes the checks while the stored successor of its id names
another hash.
-/
structure CutsSuccessor
    (blake3 : List UInt8 → Bytes32)
    (chain : SubEpochChain)
    (c : SubEpochCommitment) : Prop where
  wellFormed : chain.WellFormed blake3 c
  successor :
    ∃ id next,
      id ≠ 0 ∧ id - 1 = c.subepochId ∧
        chain.get id = some next ∧
          next.prevSubepochHash ≠ c.subepochHash

variable {blake3 : List UInt8 → Bytes32} {chain : SubEpochChain}
  {c : SubEpochCommitment}

/-- The predecessor of an id is another id. -/
theorem toNat_sub_one
    {id : UInt32}
    (positive : id ≠ 0) :
    (id - 1).toNat + 1 = id.toNat := by
  have nonzero : id.toNat ≠ 0 :=
    fun isZero => positive (UInt32.toNat_inj.mp isZero)
  have oneLe : (1 : UInt32) ≤ id := by
    rw [UInt32.le_iff_toNat_le]
    exact Nat.one_le_iff_ne_zero.mpr nonzero
  rw [UInt32.toNat_sub_of_le _ _ oneLe]
  exact Nat.sub_add_cancel (Nat.one_le_iff_ne_zero.mpr nonzero)

theorem sub_one_ne
    {id : UInt32}
    (positive : id ≠ 0) :
    id - 1 ≠ id := by
  intro same
  have step := toNat_sub_one positive
  rw [same] at step
  exact Nat.succ_ne_self _ step

/-- The empty chain is sound. -/
theorem integrity_new (epochId : UInt64) : Integrity blake3 (new epochId) where
  keyed _ _ stored := by cases stored
  linked _ _ stored := by cases stored
  first _ stored := by cases stored
  hashes _ _ stored := by cases stored
  ids _ := by simp [new, get]

/-- A checked commitment comes at most one id after the latest. -/
theorem subepochId_le_latest
    (sound : Integrity blake3 chain)
    (wellFormed : chain.WellFormed blake3 c)
    (notFirst : c.subepochId ≠ 0) :
    ∃ latest,
      chain.latestSubepochId = some latest ∧
        c.subepochId.toNat ≤ latest.toNat + 1 := by
  have follows := wellFormed.follows
  rw [FollowsPredecessor, if_neg notFirst, Option.map_eq_some_iff] at follows
  obtain ⟨prev, stored, _⟩ := follows
  have isStored : (chain.get (c.subepochId - 1)).isSome = true := by
    rw [stored]
    rfl
  obtain ⟨latest, isLatest, below⟩ := (sound.ids _).mp isStored
  refine ⟨latest, isLatest, ?_⟩
  rw [← toNat_sub_one notFirst]
  exact Nat.succ_le_succ (UInt32.le_iff_toNat_le.mp below)

/-- Storing a checked commitment extends the ids by at most its own. -/
theorem ids_store
    (sound : Integrity blake3 chain)
    (wellFormed : chain.WellFormed blake3 c)
    (id : UInt32) :
    ((chain.store c).get id).isSome = true ↔
      ∃ latest,
        (chain.store c).latestSubepochId = some latest ∧ id ≤ latest := by
  have old := sound.ids id
  by_cases isNew : id = c.subepochId
  · subst isNew
    simp only [get_store_self, Option.isSome_some, true_iff]
    refine ⟨_, rfl, ?_⟩
    cases chain.latestSubepochId with
    | none =>
        exact UInt32.le_refl _
    | some latest =>
        rw [UInt32.le_iff_toNat_le, UInt32.toNat_max]
        exact Nat.le_max_right _ _
  · have differentNat : id.toNat ≠ c.subepochId.toNat :=
      fun same => isNew (UInt32.toNat_inj.mp same)
    rw [get_store_of_ne _ isNew, old]
    simp only [store, Option.some.injEq, exists_eq_left']
    cases isLatest : chain.latestSubepochId with
    | none =>
        -- Nothing is stored yet, so only id 0 passes the checks.
        have isFirst : c.subepochId = 0 := by
          by_contra notFirst
          obtain ⟨_, isSome, _⟩ :=
            subepochId_le_latest sound wellFormed notFirst
          rw [isLatest] at isSome
          cases isSome
        simp only [isFirst, reduceCtorEq, false_and, exists_false, false_iff]
        intro below
        have isZero := Nat.le_zero.mp (UInt32.le_iff_toNat_le.mp below)
        exact isNew (isFirst ▸ UInt32.toNat_inj.mp isZero)
    | some latest =>
        simp only [Option.some.injEq, exists_eq_left']
        rw [UInt32.le_iff_toNat_le, UInt32.le_iff_toNat_le, UInt32.toNat_max]
        by_cases isFirst : c.subepochId = 0
        · simp [isFirst]
        · obtain ⟨latest', isSome, reach⟩ :=
            subepochId_le_latest sound wellFormed isFirst
          rw [isLatest, Option.some.injEq] at isSome
          subst isSome
          omega

/-- Storing a checked commitment keeps a sound chain sound, if it cuts nothing. -/
theorem integrity_store
    (sound : Integrity blake3 chain)
    (wellFormed : chain.WellFormed blake3 c)
    (cutsNothing : ¬ chain.CutsSuccessor blake3 c) :
    Integrity blake3 (chain.store c) where
  keyed id stored isStored := by
    by_cases isNew : id = c.subepochId
    · subst isNew
      rw [get_store_self, Option.some.injEq] at isStored
      rw [← isStored]
    · rw [get_store_of_ne _ isNew] at isStored
      exact sound.keyed id stored isStored
  linked id stored isStored positive := by
    by_cases isNew : id = c.subepochId
    · subst isNew
      rw [get_store_self, Option.some.injEq] at isStored
      subst isStored
      have follows := wellFormed.follows
      rw [FollowsPredecessor, if_neg positive, Option.map_eq_some_iff]
        at follows
      rwa [get_store_of_ne _ (sub_one_ne positive)]
    · rw [get_store_of_ne _ isNew] at isStored
      by_cases afterNew : id - 1 = c.subepochId
      · rw [afterNew, get_store_self]
        refine ⟨c, rfl, ?_⟩
        by_contra cut
        exact
          cutsNothing
            ⟨wellFormed, id, stored, positive, afterNew, isStored,
              fun same => cut same.symm⟩
      · rw [get_store_of_ne _ afterNew]
        exact sound.linked id stored isStored positive
  first stored isStored := by
    by_cases isFirst : 0 = c.subepochId
    · have follows := wellFormed.follows
      rw [FollowsPredecessor, if_pos isFirst.symm] at follows
      rw [isFirst, get_store_self, Option.some.injEq] at isStored
      rwa [← isStored]
    · rw [get_store_of_ne _ isFirst] at isStored
      exact sound.first stored isStored
  hashes id stored isStored := by
    by_cases isNew : id = c.subepochId
    · subst isNew
      rw [get_store_self, Option.some.injEq] at isStored
      rw [← isStored]
      exact wellFormed.hash
    · rw [get_store_of_ne _ isNew] at isStored
      exact sound.hashes id stored isStored
  ids := ids_store sound wellFormed

/-- A commitment that cuts a link leaves an unsound chain. -/
theorem not_integrity_store
    (cuts : chain.CutsSuccessor blake3 c) :
    ¬ Integrity blake3 (chain.store c) := by
  intro sound
  obtain ⟨id, next, positive, isPrev, isStored, different⟩ := cuts.successor
  have notSelf : id ≠ c.subepochId := by
    rw [← isPrev]
    exact (sub_one_ne positive).symm
  have stillStored : (chain.store c).get id = some next := by
    rw [get_store_of_ne _ notSelf, isStored]
  obtain ⟨prev, prevStored, link⟩ :=
    sound.linked id next stillStored positive
  rw [isPrev, get_store_self, Option.some.injEq] at prevStored
  subst prevStored
  exact different link.symm

/-- A call keeps a sound chain sound exactly when it cuts no link. -/
theorem integrity_addCommitment_iff
    (sound : Integrity blake3 chain) :
    Integrity blake3 (chain.addCommitment blake3 c).1 ↔
      ¬ chain.CutsSuccessor blake3 c := by
  rcases addCommitment_cases blake3 chain c with
    ⟨wellFormed, stored⟩ | ⟨malformed, _, refused⟩
  · rw [stored]
    exact
      ⟨fun later cuts => not_integrity_store cuts later,
        integrity_store sound wellFormed⟩
  · rw [refused]
    exact ⟨fun _ cuts => malformed cuts.wellFormed, fun _ => sound⟩

/-- A refused call leaves the chain as it was. -/
theorem addCommitment_error
    {error : SubEpochError}
    (refused : (chain.addCommitment blake3 c).2 = .error error) :
    (chain.addCommitment blake3 c).1 = chain := by
  rcases addCommitment_cases blake3 chain c with
    ⟨_, stored⟩ | ⟨_, _, unchanged⟩
  · rw [stored] at refused
    cases refused
  · rw [unchanged]

/--
The chain is sound in every state of a run, and unchanged by refused calls,
exactly when no call of the run replaces a commitment that has a successor by
one with another hash.
-/
theorem chain_integrity_iff
    (blake3 : List UInt8 → Bytes32)
    (epochId : UInt64)
    (calls : List SubEpochCommitment) :
    ((∀ past later,
          calls = past ++ later →
          Integrity blake3 (afterCalls blake3 epochId past)) ∧
        ∀ past c later,
          calls = past ++ c :: later →
          ∀ error,
            ((afterCalls blake3 epochId past).addCommitment blake3 c).2 =
                .error error →
              ((afterCalls blake3 epochId past).addCommitment blake3 c).1 =
                afterCalls blake3 epochId past) ↔
      ∀ past c later,
        calls = past ++ c :: later →
        ¬ (afterCalls blake3 epochId past).CutsSuccessor blake3 c := by
  have everywhere :=
    StateMachine.run_everywhere_iff (addCommitment blake3)
      (fun _ _ => integrity_addCommitment_iff)
      (integrity_new epochId) calls
  constructor
  · intro sound
    exact everywhere.mp sound.1
  · intro cutsNothing
    exact
      ⟨everywhere.mpr cutsNothing,
        fun _ _ _ _ _ refused => addCommitment_error refused⟩

/-- Two linked commitments, then another one for the first id. -/
def replacedCalls : List SubEpochCommitment :=
  let first := bareCommitment 0 .zero 1
  [first, bareCommitment 1 first.subepochHash 2, bareCommitment 0 .zero 3]

/-- The replacement is accepted and the second commitment loses its link. -/
theorem chain_integrity_broken :
    ¬ ∀ past later,
        replacedCalls = past ++ later →
        Integrity timestampDigest (afterCalls timestampDigest 7 past) := by
  intro sound
  have atEnd := sound replacedCalls [] (List.append_nil _).symm
  obtain ⟨prev, stored, link⟩ :=
    atEnd.linked 1
      (bareCommitment 1 (bareCommitment 0 .zero 1).subepochHash 2)
      (by decide +kernel) (by decide)
  have replaced :
      (afterCalls timestampDigest 7 replacedCalls).get (1 - 1) =
        some (bareCommitment 0 .zero 3) := by
    decide +kernel
  rw [stored, Option.some.injEq] at replaced
  subst replaced
  revert link
  decide +kernel

end ScalarCore.SubEpochChain
