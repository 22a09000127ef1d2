import Mathlib.Data.List.Induction
import ScalarCore.NullifierZeroGap

namespace ScalarCore

/-!
# The consensus engine

The engine accepts a nullifier unless it has been spent.  Between the verifications
its epoch is set and checkpoints are run on its nullifier set, which may fail.
-/

open NullifierSet StateMachine

/-- `ConsensusEngine` of the consensus layer. -/
structure ConsensusEngine
    {Digest : Type}
    [DecidableEq Digest]
    (hash : SmtHash Digest)
    (Wal : Type) where
  nullifierSet : NullifierSet hash Wal
  currentEpoch : UInt64

/-- What is done with an engine. -/
inductive EngineCall where
  | verify (nullifier : Bytes32)
  | setEpoch (epochId : UInt64)
  | checkpoint (order : IterationOrder) (epochId : UInt64)

namespace ConsensusEngine

variable {Digest : Type} [DecidableEq Digest] {hash : SmtHash Digest} {Wal : Type}

variable (hash) in
/-- `new`, over a log. -/
def new (wal : Wal) : ConsensusEngine hash Wal where
  nullifierSet := .newWithWal hash wal
  currentEpoch := 0

/-- `verify_mathematical_truth`. -/
def verifyMathematicalTruth
    (engine : ConsensusEngine hash Wal)
    (nullifier : Bytes32) : ConsensusEngine hash Wal × Except String Unit :=
  if engine.nullifierSet.isSpent nullifier then
    (engine, .error "REJECTED: Double Spend — nullifier sudah ada di NullifierSet")
  else
    ({ engine with
        nullifierSet := engine.nullifierSet.insert nullifier engine.currentEpoch },
      .ok ())

/-- Perform a call; only a verification answers. -/
def step
    (backend : WalBackend Wal)
    (engine : ConsensusEngine hash Wal) :
    EngineCall → ConsensusEngine hash Wal × Except String Unit
  | .verify nullifier => engine.verifyMathematicalTruth nullifier
  | .setEpoch epochId => ({ engine with currentEpoch := epochId }, .ok ())
  | .checkpoint order epochId =>
      ({ engine with
          nullifierSet := (checkpoint backend order engine.nullifierSet epochId).1 },
        .ok ())

/-- The nullifier that a call verifies. -/
def verified? : EngineCall → Option Bytes32
  | .verify nullifier => some nullifier
  | .setEpoch _ => none
  | .checkpoint _ _ => none

/-- The nullifiers that calls have verified. -/
def verified (calls : List EngineCall) : List Bytes32 :=
  calls.filterMap verified?

theorem mem_verified_concat
    {past : List EngineCall}
    {call : EngineCall}
    {nullifier : Bytes32} :
    nullifier ∈ verified (past ++ [call]) ↔
      nullifier ∈ verified past ∨ verified? call = some nullifier := by
  simp [verified, List.filterMap_append]

/-- The epoch in which a nullifier was first verified. -/
def FirstVerifiedIn
    (backend : WalBackend Wal)
    (start : ConsensusEngine hash Wal)
    (past : List EngineCall)
    (nullifier : Bytes32)
    (epochId : UInt64) : Prop :=
  ∃ earlier later,
    past = earlier ++ .verify nullifier :: later ∧
      nullifier ∉ verified earlier ∧
      (run (step backend) start earlier).currentEpoch = epochId

/-- The set of an engine holds what has been verified, each with its first epoch. -/
structure Holds
    (backend : WalBackend Wal)
    (start : ConsensusEngine hash Wal)
    (past : List EngineCall)
    (engine : ConsensusEngine hash Wal) : Prop where
  reached : engine = run (step backend) start past
  disjoint :
    ∀ nullifier ∈ engine.nullifierSet.active.leaves,
      nullifier ∉ engine.nullifierSet.archived
  spent :
    ∀ nullifier,
      engine.nullifierSet.isSpent nullifier = true ↔ nullifier ∈ verified past
  epochs :
    ∀ nullifier epochId,
      engine.nullifierSet.active.epochOf nullifier = some epochId →
      FirstVerifiedIn backend start past nullifier epochId

variable {backend : WalBackend Wal} {start engine : ConsensusEngine hash Wal}
  {past : List EngineCall}

theorem FirstVerifiedIn.concat
    {nullifier : Bytes32}
    {epochId : UInt64}
    (first : FirstVerifiedIn backend start past nullifier epochId)
    (call : EngineCall) :
    FirstVerifiedIn backend start (past ++ [call]) nullifier epochId := by
  obtain ⟨earlier, later, rfl, fresh, inEpoch⟩ := first
  exact ⟨earlier, later ++ [call], by simp, fresh, inEpoch⟩

theorem holds_new (wal : Wal) : Holds backend (new hash wal) [] (new hash wal) where
  reached := rfl
  disjoint _ _ := Finset.notMem_empty _
  spent nullifier := by
    rw [new, isSpent_newWithWal]
    exact iff_of_false Bool.false_ne_true List.not_mem_nil
  epochs nullifier epochId stored := by
    cases stored

theorem run_concat (calls : List EngineCall) (call : EngineCall) :
    run (step backend) start (calls ++ [call]) =
      (step backend (run (step backend) start calls) call).1 := by
  rw [run_append, run_cons, run_nil]

/-- A verification is refused exactly when the nullifier has been verified before. -/
theorem Holds.verify
    (holds : Holds backend start past engine)
    (nullifier : Bytes32) :
    Holds backend start (past ++ [.verify nullifier])
        (engine.verifyMathematicalTruth nullifier).1 ∧
      ((engine.verifyMathematicalTruth nullifier).2 = .ok () ↔ nullifier ∉ verified past) := by
  have reached :
      (engine.verifyMathematicalTruth nullifier).1 =
        run (step backend) start (past ++ [.verify nullifier]) := by
    rw [run_concat, ← holds.reached]
    rfl
  cases isSpent : engine.nullifierSet.isSpent nullifier with
  | true =>
      have known := (holds.spent nullifier).mp isSpent
      have refused : engine.verifyMathematicalTruth nullifier = (engine, .error _) :=
        if_pos isSpent
      rw [refused] at reached ⊢
      refine ⟨⟨reached, holds.disjoint, fun other => ?_, fun other epochId stored =>
        (holds.epochs other epochId stored).concat _⟩, iff_of_false nofun (not_not_intro known)⟩
      rw [holds.spent, mem_verified_concat, verified?, Option.some_inj]
      exact (or_iff_left_of_imp fun same => same ▸ known).symm
  | false =>
      have fresh : nullifier ∉ verified past := by
        rw [← holds.spent, isSpent]
        exact Bool.false_ne_true
      have accepted :
          engine.verifyMathematicalTruth nullifier =
            ({ engine with
                nullifierSet :=
                  engine.nullifierSet.insert nullifier engine.currentEpoch }, .ok ()) :=
        if_neg (by rw [isSpent]; exact Bool.false_ne_true)
      rw [accepted] at reached ⊢
      refine ⟨⟨reached, ?_, fun other => ?_, fun other epochId stored => ?_⟩,
        iff_of_true rfl fresh⟩
      · rw [insert_of_unspent isSpent]
        intro other isActive
        rcases Finmap.mem_insert.mp isActive with rfl | wasActive
        · exact (isSpent_eq_false_iff.mp isSpent).2
        · exact holds.disjoint other wasActive
      · rw [isSpent_insert, Bool.or_eq_true, decide_eq_true_iff, holds.spent,
          mem_verified_concat, verified?, Option.some_inj, eq_comm]
      · rw [insert_of_unspent isSpent, SparseMerkleTree.epochOf,
          SparseMerkleTree.leaves_insert] at stored
        by_cases same : other = nullifier
        · subst same
          rw [Finmap.lookup_insert, Option.some_inj] at stored
          exact ⟨past, [], rfl, fresh, by rw [← holds.reached, stored]⟩
        · rw [Finmap.lookup_insert_of_ne _ same] at stored
          exact (holds.epochs other epochId stored).concat _

/-- A checkpoint moves nullifiers, and neither loses nor adds one. -/
theorem isSpent_checkpoint
    (backend : WalBackend Wal)
    (order : IterationOrder)
    (set : NullifierSet hash Wal)
    (epochId : UInt64)
    (nullifier : Bytes32) :
    (checkpoint backend order set epochId).1.isSpent nullifier = set.isSpent nullifier := by
  rcases checkpoint_cases backend order set epochId with
    ⟨wal, result, outcome, _⟩ | ⟨wal, result, outcome, _⟩
  · rw [outcome]
    rfl
  · rw [outcome, Bool.eq_iff_iff, isSpent_iff, isSpent_iff]
    dsimp only
    rw [mem_leaves_archive, mem_archived_archive]
    by_cases moved : nullifier ∈ set.toArchive order epochId
    · exact
        iff_of_true (Or.inr (Or.inr moved)) (Or.inl (mem_leaves_of_mem_toArchive moved))
    · rw [or_iff_left moved, and_iff_left moved]

/-- The entries that stay active keep their epochs. -/
theorem epochOf_checkpoint
    {order : IterationOrder}
    {set : NullifierSet hash Wal}
    {epochId : UInt64}
    {nullifier : Bytes32}
    {enteredIn : UInt64}
    (stored :
      (checkpoint backend order set epochId).1.active.epochOf nullifier = some enteredIn) :
    set.active.epochOf nullifier = some enteredIn := by
  rcases checkpoint_cases backend order set epochId with
    ⟨wal, result, outcome, _⟩ | ⟨wal, result, outcome, _⟩
  · rwa [outcome] at stored
  · rw [outcome, SparseMerkleTree.epochOf] at stored
    dsimp only at stored
    rw [lookup_archive] at stored
    split at stored
    · cases stored
    · exact stored

theorem disjoint_checkpoint
    {set : NullifierSet hash Wal}
    (disjoint : ∀ nullifier ∈ set.active.leaves, nullifier ∉ set.archived)
    (order : IterationOrder)
    (epochId : UInt64) :
    ∀ nullifier ∈ (checkpoint backend order set epochId).1.active.leaves,
      nullifier ∉ (checkpoint backend order set epochId).1.archived := by
  rcases checkpoint_cases backend order set epochId with
    ⟨wal, result, outcome, _⟩ | ⟨wal, result, outcome, _⟩
  · rwa [outcome]
  · rw [outcome]
    intro nullifier isActive
    dsimp only at isActive ⊢
    rw [mem_leaves_archive] at isActive
    rw [mem_archived_archive]
    rintro (archived | moved)
    · exact disjoint nullifier isActive.1 archived
    · exact isActive.2 moved

/-- Every call keeps what the set holds. -/
theorem Holds.step
    (holds : Holds backend start past engine)
    (call : EngineCall) :
    Holds backend start (past ++ [call]) (ConsensusEngine.step backend engine call).1 := by
  have unverified (isOther : verified? call = none) (nullifier : Bytes32) :
      nullifier ∈ verified (past ++ [call]) ↔ nullifier ∈ verified past := by
    rw [mem_verified_concat, isOther]
    exact or_iff_left nofun
  have reached :
      (ConsensusEngine.step backend engine call).1 =
        run (ConsensusEngine.step backend) start (past ++ [call]) := by
    rw [run_concat, ← holds.reached]
  cases call with
  | verify nullifier =>
      exact (holds.verify nullifier).1
  | setEpoch epochId =>
      refine ⟨reached, holds.disjoint, fun nullifier => ?_, fun nullifier epochId stored =>
        (holds.epochs nullifier epochId stored).concat _⟩
      rw [unverified rfl]
      exact holds.spent nullifier
  | checkpoint order epochId =>
      refine ⟨reached, disjoint_checkpoint holds.disjoint order epochId, fun nullifier => ?_,
        fun nullifier enteredIn stored =>
          (holds.epochs nullifier enteredIn (epochOf_checkpoint stored)).concat _⟩
      rw [unverified rfl, ← holds.spent]
      exact iff_of_eq (congrArg (· = true) (isSpent_checkpoint _ _ _ _ _))

/-- What an engine has accepted along its calls. -/
structure AcceptsOnce
    (backend : WalBackend Wal)
    (wal : Wal)
    (calls : List EngineCall)
    (engine : ConsensusEngine hash Wal) : Prop where
  answers :
    ∀ earlier nullifier later,
      calls = earlier ++ .verify nullifier :: later →
      ((ConsensusEngine.step backend
              (run (ConsensusEngine.step backend) (new hash wal) earlier)
              (.verify nullifier)).2 = .ok () ↔
        nullifier ∉ verified earlier)
  spent :
    ∀ nullifier,
      nullifier ∈ verified calls ↔
        nullifier ∈ engine.nullifierSet.active.leaves ∨
          nullifier ∈ engine.nullifierSet.archived
  oneLayer :
    ∀ nullifier ∈ engine.nullifierSet.active.leaves,
      nullifier ∉ engine.nullifierSet.archived
  epochs :
    ∀ nullifier epochId,
      engine.nullifierSet.active.epochOf nullifier = some epochId →
      FirstVerifiedIn backend (new hash wal) calls nullifier epochId

/--
Whatever epochs are set and whatever checkpoints run or fail in between, an engine
accepts a nullifier exactly at its first verification, holds it in one layer from then
on, and while it is active with the epoch of that verification.
-/
theorem acceptsOnce
    (backend : WalBackend Wal)
    (wal : Wal)
    (calls : List EngineCall) :
    AcceptsOnce backend wal calls
      (run (ConsensusEngine.step backend) (new hash wal) calls) := by
  have holds (calls : List EngineCall) :
      Holds backend (new hash wal) calls
        (run (ConsensusEngine.step backend) (new hash wal) calls) := by
    have kept (past : List EngineCall) (engine : ConsensusEngine hash Wal)
        (call : EngineCall) (holds : Holds backend (new hash wal) past engine) :
        Holds backend (new hash wal) (past ++ [call])
          (ConsensusEngine.step backend engine call).1 :=
      holds.step call
    exact run_history kept (holds_new wal) calls
  refine ⟨?_, fun nullifier => ?_, (holds calls).disjoint, (holds calls).epochs⟩
  · intro earlier nullifier _ _
    exact ((holds earlier).verify nullifier).2
  · rw [← (holds calls).spent, isSpent_iff]

end ConsensusEngine

end ScalarCore
