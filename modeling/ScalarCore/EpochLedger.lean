import ScalarCore.EpochOrchestrator

namespace ScalarCore

/-!
# Epoch runs against a ledger

What the two trees stand for: lists of commitments, one for each epoch.  A run
of the orchestrator is followed by a ledger of the calls that succeed, and the
roots are those of fresh trees over the lists of the ledger.
-/

open StateMachine

/-- The commitments of the finished epochs and of the current one. -/
structure EpochLedger where
  closed : List (List Bytes32)
  current : List Bytes32

namespace EpochLedger

/-- Nothing processed. -/
def empty : EpochLedger where
  closed := []
  current := []

/-- The commitments of all epochs, in order. -/
def all (ledger : EpochLedger) : List Bytes32 :=
  ledger.closed.flatten ++ ledger.current

/-- A processed transaction. -/
def process (ledger : EpochLedger) (commitment : Bytes32) : EpochLedger :=
  { ledger with current := ledger.current ++ [commitment] }

/-- A finished epoch. -/
def close (ledger : EpochLedger) : EpochLedger where
  closed := ledger.closed ++ [ledger.current]
  current := []

@[simp] theorem all_process (ledger : EpochLedger) (commitment : Bytes32) :
    (ledger.process commitment).all = ledger.all ++ [commitment] := by
  simp [all, process]

@[simp] theorem all_close (ledger : EpochLedger) :
    ledger.close.all = ledger.all := by
  simp [all, close]

/-- What a call with its answer does to the ledger. -/
def record
    {Digest : Type}
    (ledger : EpochLedger)
    (call : EpochCall)
    (answer : EpochAnswer Digest) : EpochLedger :=
  match call, answer with
  | .processTransaction commitment, .done => ledger.process commitment
  | .executeEpochTransition _, .snapshot _ => ledger.close
  | _, _ => ledger

end EpochLedger

variable {Digest : Type} [DecidableEq Digest]

/-- The orchestrator with the ledger of its calls. -/
structure TrackedRun (Digest : Type) where
  orchestrator : EpochTransitionOrchestrator Digest
  ledger : EpochLedger

namespace TrackedRun

section Definitions

variable (hash : ImtHash Bytes32 Digest)

/-- Genesis with the empty ledger. -/
def start : TrackedRun Digest where
  orchestrator := .new hash
  ledger := .empty

/-- One call, entered in the ledger. -/
def step
    (tracked : TrackedRun Digest)
    (call : EpochCall) : TrackedRun Digest × EpochAnswer Digest :=
  let result := tracked.orchestrator.step hash call
  ({ orchestrator := result.1
     ledger := tracked.ledger.record call result.2 },
    result.2)

/-- The state and the ledger after a list of calls. -/
def reached (calls : List EpochCall) : TrackedRun Digest :=
  run (step hash) (start hash) calls

/-- The root of a fresh tree over a list of commitments. -/
def FreshRoot (commitments : List Bytes32) (root : Digest) : Prop :=
  ∃ tree,
    (IncrementalMerkleTree.new hash).appendAll hash commitments = .ok tree ∧
      tree.root hash = root

/-- The state is the one that the ledger stands for. -/
structure Corresponds (tracked : TrackedRun Digest) : Prop where
  currentEpoch :
    tracked.orchestrator.currentEpoch =
      UInt64.ofNat tracked.ledger.closed.length
  imtFrontierRoot :
    FreshRoot hash tracked.ledger.current
      (tracked.orchestrator.imt.root hash)
  utxoSetRoot :
    FreshRoot hash tracked.ledger.all
      (tracked.orchestrator.utxoSetSmt.imt.root hash)

/-- A snapshot is the one of the epoch that the ledger is in. -/
structure SnapshotOf
    (ledger : EpochLedger)
    (snapshot : UtxoSetState Digest) : Prop where
  snapshotEpoch :
    snapshot.snapshotEpoch = UInt64.ofNat ledger.closed.length
  utxoSetRoot : FreshRoot hash ledger.all snapshot.utxoSetRoot
  utxoCount : snapshot.utxoCount.toNat = ledger.all.length

/-- How many calls of a run bring a transaction. -/
def transactionCount (calls : List EpochCall) : Nat :=
  calls.countP fun
    | .processTransaction _ => true
    | .executeEpochTransition _ => false

end Definitions

/-- The ledger does not influence the run. -/
theorem orchestrator_reached
    (hash : ImtHash Bytes32 Digest)
    (calls : List EpochCall) :
    (reached hash calls).orchestrator =
      EpochTransitionOrchestrator.reached hash calls :=
  run_project (fun _ _ => rfl) (start hash) calls

variable {hash : ImtHash Bytes32 Digest}

/-- The trees hold the lists of the ledger, and no transition is cut. -/
structure Holds
    (hash : ImtHash Bytes32 Digest)
    (tracked : TrackedRun Digest) : Prop where
  settled : tracked.orchestrator.Settled
  currentEpoch :
    tracked.orchestrator.currentEpoch =
      UInt64.ofNat tracked.ledger.closed.length
  imt : tracked.orchestrator.imt.Holds hash tracked.ledger.current
  utxoSet :
    tracked.orchestrator.utxoSetSmt.imt.Holds hash tracked.ledger.all

omit [DecidableEq Digest] in
/-- Two trees that hold the same commitments have the same root. -/
theorem root_eq_of_holds
    {tree tree' : IncrementalMerkleTree Digest}
    {commitments : List Bytes32}
    (holds : tree.Holds hash commitments)
    (holds' : tree'.Holds hash commitments) :
    tree.root hash = tree'.root hash := by
  rw [IncrementalMerkleTree.root_eq_nodeAt,
    IncrementalMerkleTree.root_eq_nodeAt, holds, holds']

omit [DecidableEq Digest] in
/-- A tree that holds a list has the root of a fresh tree over it. -/
theorem freshRoot_of_holds
    {tree : IncrementalMerkleTree Digest}
    {commitments : List Bytes32}
    (holds : tree.Holds hash commitments)
    (capacity : commitments.length ≤ 2 ^ imtDepth) :
    FreshRoot hash commitments (tree.root hash) := by
  rcases IncrementalMerkleTree.appendAll_holds hash
      (show (IncrementalMerkleTree.new hash).Holds hash [] from rfl)
      commitments (by simpa using capacity) with
    ⟨fresh, appended, freshHolds⟩
  exact ⟨fresh, appended, root_eq_of_holds freshHolds holds⟩

/-- The commitments of the current epoch are among all. -/
theorem current_length_le (ledger : EpochLedger) :
    ledger.current.length ≤ ledger.all.length := by
  rw [EpochLedger.all, List.length_append]
  exact Nat.le_add_left _ _

omit [DecidableEq Digest] in
/-- The lists of the ledger are what the state stands for. -/
theorem Holds.corresponds
    {tracked : TrackedRun Digest}
    (holds : Holds hash tracked)
    (capacity : tracked.ledger.all.length ≤ 2 ^ imtDepth) :
    Corresponds hash tracked where
  currentEpoch := holds.currentEpoch
  imtFrontierRoot :=
    freshRoot_of_holds holds.imt
      ((current_length_le _).trans capacity)
  utxoSetRoot := freshRoot_of_holds holds.utxoSet capacity

omit [DecidableEq Digest] in
theorem holds_start : Holds hash (start hash) where
  settled := ⟨rfl, rfl⟩
  currentEpoch := rfl
  imt := rfl
  utxoSet := rfl

omit [DecidableEq Digest] in
/-- A settled state takes transactions. -/
theorem detectAtomicityStatus_settled
    {orchestrator : EpochTransitionOrchestrator Digest}
    (settled : orchestrator.Settled) :
    orchestrator.detectAtomicityStatus = .fresh ∨
      orchestrator.detectAtomicityStatus =
        .consistent orchestrator.currentEpoch := by
  simp only [EpochTransitionOrchestrator.detectAtomicityStatus,
    settled.smtArchived, settled.imtReset]
  split
  · exact .inl rfl
  · exact .inr rfl

/-- With room in the trees a transaction enters both. -/
theorem Holds.processTransaction
    {tracked : TrackedRun Digest}
    (holds : Holds hash tracked)
    (room : tracked.ledger.all.length < 2 ^ imtDepth)
    (commitment : Bytes32) :
    (tracked.step hash (.processTransaction commitment)).2 = .done ∧
      (tracked.step hash (.processTransaction commitment)).1.ledger =
        tracked.ledger.process commitment ∧
      Holds hash (tracked.step hash (.processTransaction commitment)).1 := by
  rcases IncrementalMerkleTree.append_holds hash holds.imt
      ((current_length_le _).trans_lt room) commitment with
    ⟨imt, imtAppended, imtHolds⟩
  rcases IncrementalMerkleTree.append_holds hash holds.utxoSet room
      commitment with
    ⟨utxoImt, utxoAppended, utxoHolds⟩
  have result :
      tracked.orchestrator.step hash (.processTransaction commitment) =
        ({ tracked.orchestrator with
            imt
            utxoSetSmt := {
              imt := utxoImt
              currentEpoch := tracked.orchestrator.currentEpoch } },
          .done) := by
    simp only [EpochTransitionOrchestrator.step,
      EpochTransitionOrchestrator.processTransaction,
      UtxoSetEpochSmt.insertUtxo, imtAppended, utxoAppended]
    rcases detectAtomicityStatus_settled holds.settled with status | status
    · rw [status]
    · rw [status]
  simp only [step, result]
  refine ⟨trivial, rfl, ⟨holds.settled.1, holds.settled.2⟩,
    holds.currentEpoch, imtHolds, ?_⟩
  change utxoImt.Holds hash (tracked.ledger.process commitment).all
  rw [EpochLedger.all_process]
  exact utxoHolds

/-- A transition is refused, or closes the epoch with its snapshot. -/
theorem Holds.executeEpochTransition
    {tracked : TrackedRun Digest}
    (holds : Holds hash tracked)
    (newEpochId : UInt64) :
    Holds hash (tracked.step hash (.executeEpochTransition newEpochId)).1 ∧
      (tracked.step hash
          (.executeEpochTransition newEpochId)).1.ledger.all =
        tracked.ledger.all := by
  by_cases next : newEpochId = tracked.orchestrator.currentEpoch + 1
  · subst next
    simp only [step, EpochTransitionOrchestrator.step,
      EpochTransitionOrchestrator.executeEpochTransition_next]
    refine ⟨⟨⟨rfl, rfl⟩, ?_, rfl, ?_⟩, EpochLedger.all_close _⟩
    · change
        tracked.orchestrator.currentEpoch + 1 =
          UInt64.ofNat tracked.ledger.close.closed.length
      rw [holds.currentEpoch, EpochLedger.close, List.length_append,
        List.length_singleton, UInt64.ofNat_add]
      rfl
    · change
        tracked.orchestrator.utxoSetSmt.imt.Holds hash
          tracked.ledger.close.all
      rw [EpochLedger.all_close]
      exact holds.utxoSet
  · simp only [step, EpochTransitionOrchestrator.step,
      EpochTransitionOrchestrator.executeEpochTransition, ne_eq, next,
      not_false_eq_true, if_true]
    exact ⟨holds, rfl⟩

/-- A snapshot is taken of a state that holds the lists of the ledger. -/
theorem Holds.snapshotOf
    {tracked : TrackedRun Digest}
    (holds : Holds hash tracked)
    (capacity : tracked.ledger.all.length ≤ 2 ^ imtDepth)
    {newEpochId : UInt64}
    {snapshot : UtxoSetState Digest}
    (taken :
      (tracked.step hash (.executeEpochTransition newEpochId)).2 =
        .snapshot snapshot) :
    SnapshotOf hash tracked.ledger snapshot := by
  by_cases next : newEpochId = tracked.orchestrator.currentEpoch + 1
  · subst next
    simp only [step, EpochTransitionOrchestrator.step,
      EpochTransitionOrchestrator.executeEpochTransition_next,
      EpochAnswer.snapshot.injEq] at taken
    subst taken
    refine
      ⟨holds.currentEpoch, freshRoot_of_holds holds.utxoSet capacity, ?_⟩
    change tracked.orchestrator.utxoSetSmt.imt.count.toNat = _
    rw [IncrementalMerkleTree.count_eq, holds.utxoSet, List.length_mapIdx]
  · simp [step, EpochTransitionOrchestrator.step,
      EpochTransitionOrchestrator.executeEpochTransition, next] at taken

/-- With room in the trees no call panics. -/
theorem Holds.step_ne_panicked
    {tracked : TrackedRun Digest}
    (holds : Holds hash tracked)
    (room : tracked.ledger.all.length < 2 ^ imtDepth)
    (call : EpochCall) :
    (tracked.step hash call).2 ≠ .panicked := by
  cases call with
  | processTransaction commitment =>
      rw [(holds.processTransaction room commitment).1]
      simp
  | executeEpochTransition newEpochId =>
      by_cases next : newEpochId = tracked.orchestrator.currentEpoch + 1
      · subst next
        simp [step, EpochTransitionOrchestrator.step,
          EpochTransitionOrchestrator.executeEpochTransition_next]
      · simp [step, EpochTransitionOrchestrator.step,
          EpochTransitionOrchestrator.executeEpochTransition, next]

/-- A call that is answered by an error changes nothing. -/
theorem step_error
    {tracked : TrackedRun Digest}
    {call : EpochCall}
    {error : EpochTransitionError}
    (refused : (tracked.step hash call).2 = .error error) :
    (tracked.step hash call).1 = tracked := by
  have sameLedger :
      (tracked.step hash call).1.ledger = tracked.ledger := by
    change tracked.ledger.record call (tracked.step hash call).2 = _
    rw [refused]
    cases call <;> rfl
  have sameState :
      (tracked.step hash call).1.orchestrator = tracked.orchestrator := by
    cases call with
    | processTransaction commitment =>
        simp only [step, EpochTransitionOrchestrator.step,
          EpochTransitionOrchestrator.processTransaction] at refused ⊢
        split
        · rfl
        · rfl
        all_goals
          split
          · rfl
          · rename_i status _ _ _ appended
            rw [status, appended] at refused
            cases entered :
                tracked.orchestrator.utxoSetSmt.insertUtxo hash commitment
                  tracked.orchestrator.currentEpoch with
            | none =>
                rw [entered] at refused
                cases refused
            | some set =>
                rw [entered] at refused
                cases refused
    | executeEpochTransition newEpochId =>
        by_cases next : newEpochId = tracked.orchestrator.currentEpoch + 1
        · subst next
          simp [step, EpochTransitionOrchestrator.step,
            EpochTransitionOrchestrator.executeEpochTransition_next] at refused
        · simp [step, EpochTransitionOrchestrator.step,
            EpochTransitionOrchestrator.executeEpochTransition, next]
  cases tracked
  exact TrackedRun.mk.injEq .. ▸ ⟨sameState, sameLedger⟩

variable (hash) in
/-- The ledger of a run within the capacity, call by call. -/
theorem holds_reached
    {calls : List EpochCall}
    (capacity : transactionCount calls < 2 ^ imtDepth) :
    Holds hash (reached hash calls) ∧
      (reached hash calls).ledger.all.length ≤ transactionCount calls := by
  induction calls using List.reverseRecOn with
  | nil =>
      exact ⟨holds_start, Nat.zero_le _⟩
  | append_singleton past call inductionHypothesis =>
      have reachedNext :
          reached hash (past ++ [call]) =
            ((reached hash past).step hash call).1 := by
        rw [reached, run_append]
        rfl
      rw [transactionCount, List.countP_append] at capacity ⊢
      rw [reachedNext]
      rcases inductionHypothesis (by rw [transactionCount]; omega) with
        ⟨holds, counted⟩
      rw [transactionCount] at counted
      cases call with
      | processTransaction commitment =>
          rw [List.countP_singleton, if_pos rfl] at capacity ⊢
          rcases holds.processTransaction (by omega) commitment with
            ⟨_, entered, holdsNext⟩
          refine ⟨holdsNext, ?_⟩
          rw [entered, EpochLedger.all_process, List.length_append,
            List.length_singleton]
          exact Nat.add_le_add_right counted 1
      | executeEpochTransition newEpochId =>
          rcases holds.executeEpochTransition newEpochId with
            ⟨holdsNext, sameAll⟩
          refine ⟨holdsNext, ?_⟩
          rw [sameAll]
          exact counted.trans (Nat.le_add_right _ _)

/-- What a run of the orchestrator has to do with its ledger. -/
structure RunCorresponds
    (hash : ImtHash Bytes32 Digest)
    (calls : List EpochCall) : Prop where
  /-- Every state is the one that the ledger stands for. -/
  states :
    ∀ past later,
      calls = past ++ later →
      Corresponds hash (reached hash past)
  /-- Every snapshot is that of the epochs up to the one it closes. -/
  snapshots :
    ∀ past newEpochId later snapshot,
      calls = past ++ .executeEpochTransition newEpochId :: later →
      ((reached hash past).step hash
          (.executeEpochTransition newEpochId)).2 =
        .snapshot snapshot →
      SnapshotOf hash (reached hash past).ledger snapshot
  /-- An error changes nothing. -/
  errors :
    ∀ past call later error,
      calls = past ++ call :: later →
      ((reached hash past).step hash call).2 = .error error →
      ((reached hash past).step hash call).1 = reached hash past
  /-- No call panics. -/
  completes :
    ∀ past call later,
      calls = past ++ call :: later →
      ((reached hash past).step hash call).2 ≠ .panicked

/-- The prefix of a run within the capacity is within the capacity. -/
theorem transactionCount_past_le
    {calls past later : List EpochCall}
    (split : calls = past ++ later) :
    transactionCount past ≤ transactionCount calls := by
  rw [split, transactionCount, transactionCount, List.countP_append]
  exact Nat.le_add_right _ _

/--
Along every run of fewer than `2 ^ 32` transactions the state, the snapshots
and the ledger correspond, errors change nothing and no call panics.
-/
theorem run_corresponds
    (hash : ImtHash Bytes32 Digest)
    (calls : List EpochCall)
    (capacity : transactionCount calls < 2 ^ 32) :
    RunCorresponds hash calls where
  states past later split := by
    have within := (transactionCount_past_le split).trans_lt capacity
    rcases holds_reached hash within with ⟨holds, counted⟩
    exact holds.corresponds (counted.trans within.le)
  snapshots past newEpochId later snapshot split taken := by
    have within := (transactionCount_past_le split).trans_lt capacity
    rcases holds_reached hash within with ⟨holds, counted⟩
    exact holds.snapshotOf (counted.trans within.le) taken
  errors past call later error _ refused :=
    step_error refused
  completes past call later split := by
    have within := (transactionCount_past_le split).trans_lt capacity
    rcases holds_reached hash within with ⟨holds, counted⟩
    exact holds.step_ne_panicked (counted.trans_lt within) call

/-- Two transactions, a transition, another transaction, a refused transition. -/
theorem run_corresponds_sample :
    RunCorresponds (poseidonImtHash VerifierPy.t8Permutation)
      [.processTransaction (Bytes32.replicate 0xAA),
        .processTransaction (Bytes32.replicate 0xBB),
        .executeEpochTransition 1,
        .processTransaction (Bytes32.replicate 0xCC),
        .executeEpochTransition 5] :=
  run_corresponds _ _ (by decide)

end TrackedRun

end ScalarCore
