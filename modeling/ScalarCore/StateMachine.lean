import Mathlib.Data.List.Basic
import Mathlib.Tactic.Common

namespace StateMachine

/-!
# Runs of deterministic state machines

A machine is a step function that answers each operation with a new state and
an output.  This module packages the two inductions that whole-run results
use: invariants over the operations performed so far, and two machines driven
in lockstep.  Properties of single steps are quantified over the steps of a
run, and the operations that succeed along a run are collected.
-/

variable {State Op Output : Type*}

/-- State reached by performing a list of operations in order. -/
def run
    (step : State → Op → State × Output) :
    State → List Op → State
  | state, [] => state
  | state, op :: rest => run step (step state op).1 rest

/-- Answers given along a run, one for each operation. -/
def outputs
    (step : State → Op → State × Output) :
    State → List Op → List Output
  | _, [] => []
  | state, op :: rest =>
      (step state op).2 :: outputs step (step state op).1 rest

@[simp] theorem run_nil
    (step : State → Op → State × Output)
    (state : State) :
    run step state [] = state :=
  rfl

@[simp] theorem run_cons
    (step : State → Op → State × Output)
    (state : State)
    (op : Op)
    (rest : List Op) :
    run step state (op :: rest) =
      run step (step state op).1 rest :=
  rfl

@[simp] theorem outputs_cons
    (step : State → Op → State × Output)
    (state : State)
    (op : Op)
    (rest : List Op) :
    outputs step state (op :: rest) =
      (step state op).2 :: outputs step (step state op).1 rest :=
  rfl

/-- A run over a concatenation continues from where the first part stopped. -/
theorem run_append
    (step : State → Op → State × Output)
    (state : State)
    (first later : List Op) :
    run step state (first ++ later) =
      run step (run step state first) later := by
  induction first generalizing state with
  | nil =>
      rfl
  | cons op rest inductionHypothesis =>
      simp only [List.cons_append, run_cons]
      exact inductionHypothesis (step state op).1

/-- The answers to a concatenation are those of its parts. -/
theorem outputs_append
    (step : State → Op → State × Output)
    (state : State)
    (first later : List Op) :
    outputs step state (first ++ later) =
      outputs step state first ++
        outputs step (run step state first) later := by
  induction first generalizing state with
  | nil =>
      rfl
  | cons op rest inductionHypothesis =>
      simp only [List.cons_append, outputs_cons, run_cons]
      rw [inductionHypothesis (step state op).1]

/--
A property of the operations so far and the state, kept by each step, holds
along every run.
-/
theorem run_history
    {step : State → Op → State × Output}
    {holds : List Op → State → Prop}
    (preserved :
      ∀ past state op,
        holds past state →
        holds (past ++ [op]) (step state op).1)
    {past : List Op}
    {start : State}
    (initially : holds past start)
    (ops : List Op) :
    holds (past ++ ops) (run step start ops) := by
  induction ops generalizing past start with
  | nil =>
      simpa using initially
  | cons op rest inductionHypothesis =>
      have later :=
        inductionHypothesis (preserved past start op initially)
      simpa using later

/-- An invariant that every step keeps holds after every run. -/
theorem run_invariant
    {step : State → Op → State × Output}
    {holds : State → Prop}
    (preserved : ∀ state op, holds state → holds (step state op).1)
    {start : State}
    (initially : holds start)
    (ops : List Op) :
    holds (run step start ops) := by
  induction ops generalizing start with
  | nil =>
      exact initially
  | cons op rest inductionHypothesis =>
      exact inductionHypothesis (preserved start op initially)

/-- A machine that follows another step by step follows its runs. -/
theorem run_project
    {State' Output' : Type*}
    {step : State → Op → State × Output}
    {step' : State' → Op → State' × Output'}
    {project : State → State'}
    (follows :
      ∀ state op,
        project (step state op).1 = (step' (project state) op).1)
    (start : State)
    (ops : List Op) :
    project (run step start ops) = run step' (project start) ops := by
  induction ops generalizing start with
  | nil =>
      rfl
  | cons op rest inductionHypothesis =>
      rw [run_cons, run_cons, inductionHypothesis, follows]

/--
When the allowed steps are exactly those that keep a property, the property
holds in every state of a run exactly when every step of the run is allowed.
-/
theorem run_everywhere_iff
    (step : State → Op → State × Output)
    {holds : State → Prop}
    {allowed : State → Op → Prop}
    (kept_iff :
      ∀ state op,
        holds state →
        (holds (step state op).1 ↔ allowed state op))
    {start : State}
    (initially : holds start)
    (ops : List Op) :
    (∀ past later,
        ops = past ++ later →
        holds (run step start past)) ↔
      ∀ past op later,
        ops = past ++ op :: later →
        allowed (run step start past) op := by
  constructor
  · intro everywhere past op later split
    have before := everywhere past (op :: later) split
    have after := everywhere (past ++ [op]) later (by simp [split])
    rw [run_append] at after
    exact (kept_iff _ op before).mp after
  · intro allAllowed past
    induction past generalizing start ops with
    | nil =>
        intro _ _
        exact initially
    | cons op rest inductionHypothesis =>
        rintro later rfl
        have firstAllowed := allAllowed [] op (rest ++ later) rfl
        apply inductionHypothesis
          ((kept_iff _ op initially).mpr firstAllowed) (rest ++ later)
        · rintro past op' later' split
          exact allAllowed (op :: past) op' later' (by simp [split])
        · rfl

/-- A property of the state and the operation at each step of a run. -/
def EveryStep
    (step : State → Op → State × Output)
    (holds : State → Op → Prop) :
    State → List Op → Prop
  | _, [] => True
  | state, op :: rest =>
      holds state op ∧ EveryStep step holds (step state op).1 rest

@[simp] theorem everyStep_nil
    (step : State → Op → State × Output)
    (holds : State → Op → Prop)
    (state : State) :
    EveryStep step holds state [] :=
  trivial

@[simp] theorem everyStep_cons
    {step : State → Op → State × Output}
    {holds : State → Op → Prop}
    {state : State}
    {op : Op}
    {rest : List Op} :
    EveryStep step holds state (op :: rest) ↔
      holds state op ∧ EveryStep step holds (step state op).1 rest :=
  Iff.rfl

/-- The steps of a concatenation are those of its parts. -/
theorem everyStep_append
    {step : State → Op → State × Output}
    {holds : State → Op → Prop}
    {state : State}
    {first later : List Op} :
    EveryStep step holds state (first ++ later) ↔
      EveryStep step holds state first ∧
        EveryStep step holds (run step state first) later := by
  induction first generalizing state with
  | nil =>
      simp
  | cons op rest inductionHypothesis =>
      rw [List.cons_append, everyStep_cons, everyStep_cons,
        inductionHypothesis, and_assoc, run_cons]

/-- Every step of a run is one where the run can be split. -/
theorem everyStep_iff_split
    {step : State → Op → State × Output}
    {holds : State → Op → Prop}
    {state : State}
    {ops : List Op} :
    EveryStep step holds state ops ↔
      ∀ past op later,
        ops = past ++ op :: later →
        holds (run step state past) op := by
  constructor
  · rintro every past op later rfl
    exact (everyStep_append.mp every).2.1
  · intro atSplits
    induction ops generalizing state with
    | nil =>
        trivial
    | cons op rest inductionHypothesis =>
        refine ⟨atSplits [] op rest rfl, inductionHypothesis ?_⟩
        rintro past op' later rfl
        exact atSplits (op :: past) op' later rfl

/-- An invariant that the steps of a run keep holds after it. -/
theorem EveryStep.run_invariant
    {step : State → Op → State × Output}
    {allowed : State → Op → Prop}
    {holds : State → Prop}
    (preserved :
      ∀ state op, allowed state op → holds state → holds (step state op).1)
    {start : State}
    {ops : List Op}
    (everyStep : EveryStep step allowed start ops)
    (initially : holds start) :
    holds (run step start ops) := by
  induction ops generalizing start with
  | nil =>
      exact initially
  | cons op rest inductionHypothesis =>
      exact
        inductionHypothesis everyStep.2
          (preserved start op everyStep.1 initially)

/-- Allowed steps are good along a run when an invariant that they keep makes them so. -/
theorem EveryStep.of_invariant
    {step : State → Op → State × Output}
    {holds : State → Prop}
    {allowed good : State → Op → Prop}
    (isGood :
      ∀ state op,
        holds state → allowed state op → holds (step state op).1 ∧ good state op)
    {start : State}
    {ops : List Op}
    (everyStep : EveryStep step allowed start ops)
    (initially : holds start) :
    EveryStep step good start ops := by
  induction ops generalizing start with
  | nil =>
      trivial
  | cons op rest inductionHypothesis =>
      obtain ⟨holds', good'⟩ := isGood start op initially everyStep.1
      exact ⟨good', inductionHypothesis everyStep.2 holds'⟩

/-- A property that every step has is had by every step of a run. -/
theorem everyStep_of_forall
    {step : State → Op → State × Output}
    {holds : State → Op → Prop}
    (always : ∀ state op, holds state op)
    (state : State)
    (ops : List Op) :
    EveryStep step holds state ops := by
  induction ops generalizing state with
  | nil =>
      trivial
  | cons op rest inductionHypothesis =>
      exact ⟨always state op, inductionHypothesis _⟩

/-- Two properties of every step are had together by every step. -/
theorem EveryStep.and
    {step : State → Op → State × Output}
    {holds holds' : State → Op → Prop}
    {state : State}
    {ops : List Op}
    (every : EveryStep step holds state ops)
    (every' : EveryStep step holds' state ops) :
    EveryStep step (fun state op => holds state op ∧ holds' state op) state
      ops := by
  induction ops generalizing state with
  | nil =>
      trivial
  | cons op rest inductionHypothesis =>
      exact
        ⟨⟨every.1, every'.1⟩, inductionHypothesis every.2 every'.2⟩

/-- Two properties that agree on every step agree on the steps of a run. -/
theorem everyStep_iff
    {step : State → Op → State × Output}
    {holds holds' : State → Op → Prop}
    (agree : ∀ state op, holds state op ↔ holds' state op)
    (state : State)
    (ops : List Op) :
    EveryStep step holds state ops ↔ EveryStep step holds' state ops := by
  induction ops generalizing state with
  | nil =>
      rfl
  | cons op rest inductionHypothesis =>
      rw [everyStep_cons, everyStep_cons, agree, inductionHypothesis]

/--
When good steps are exactly the allowed ones where an invariant holds, and good
steps keep it, a run has only good steps exactly when it has only allowed ones.
-/
theorem everyStep_iff_of_invariant
    {step : State → Op → State × Output}
    {holds : State → Prop}
    {good allowed : State → Op → Prop}
    (agree : ∀ state op, holds state → (good state op ↔ allowed state op))
    (kept : ∀ state op, holds state → good state op → holds (step state op).1)
    {start : State}
    (initially : holds start)
    (ops : List Op) :
    EveryStep step good start ops ↔ EveryStep step allowed start ops := by
  induction ops generalizing start with
  | nil =>
      rfl
  | cons op rest inductionHypothesis =>
      rw [everyStep_cons, everyStep_cons, ← agree start op initially]
      exact
        and_congr_right fun isGood =>
          inductionHypothesis (kept start op initially isGood)

/--
Operations that leave a view of the state alone can be dropped from a run when
only the others are looked at, and those only through the view.
-/
theorem everyStep_filter_iff
    {View : Type*}
    {step : State → Op → State × Output}
    {holds : State → Op → Prop}
    {relevant : Op → Bool}
    (view : State → View)
    (frame :
      ∀ state op, relevant op = false → view (step state op).1 = view state)
    (agree :
      ∀ state state' op,
        relevant op = true →
        view state = view state' →
        (holds state op ↔ holds state' op) ∧
          view (step state op).1 = view (step state' op).1)
    {state state' : State}
    (same : view state = view state')
    {ops : List Op} :
    EveryStep step (fun state op => relevant op = true → holds state op)
        state ops ↔
      EveryStep step holds state' (ops.filter relevant) := by
  induction ops generalizing state state' with
  | nil =>
      exact Iff.rfl
  | cons op rest inductionHypothesis =>
      cases looked : relevant op with
      | false =>
          have skipped : (op :: rest).filter relevant = rest.filter relevant :=
            List.filter_cons_of_neg (by rw [looked]; exact Bool.false_ne_true)
          rw [everyStep_cons, skipped, looked,
            inductionHypothesis ((frame state op looked).trans same)]
          exact and_iff_right fun impossible => absurd impossible Bool.false_ne_true
      | true =>
          obtain ⟨sameHolds, sameView⟩ := agree state state' op looked same
          have kept :
              (op :: rest).filter relevant = op :: rest.filter relevant :=
            List.filter_cons_of_pos looked
          rw [everyStep_cons, kept, everyStep_cons, looked,
            inductionHypothesis sameView, sameHolds]
          exact and_congr_left' (forall_prop_of_true rfl)

/-- The operations of a run whose answer is a success. -/
def accepted
    (isOk : Output → Bool)
    (step : State → Op → State × Output) :
    State → List Op → List Op
  | _, [] => []
  | state, op :: rest =>
      if isOk (step state op).2 then
        op :: accepted isOk step (step state op).1 rest
      else
        accepted isOk step (step state op).1 rest

@[simp] theorem accepted_nil
    (isOk : Output → Bool)
    (step : State → Op → State × Output)
    (state : State) :
    accepted isOk step state [] = [] :=
  rfl

/-- A successful operation is collected before the rest. -/
theorem accepted_cons_of_ok
    {isOk : Output → Bool}
    {step : State → Op → State × Output}
    {state : State}
    {op : Op}
    (ok : isOk (step state op).2 = true)
    (rest : List Op) :
    accepted isOk step state (op :: rest) =
      op :: accepted isOk step (step state op).1 rest :=
  if_pos ok

/-- Any other operation is left out. -/
theorem accepted_cons_of_refused
    {isOk : Output → Bool}
    {step : State → Op → State × Output}
    {state : State}
    {op : Op}
    (refused : isOk (step state op).2 = false)
    (rest : List Op) :
    accepted isOk step state (op :: rest) =
      accepted isOk step (step state op).1 rest :=
  if_neg (by rw [refused]; exact Bool.false_ne_true)

/-- The successes of a concatenation are those of its parts. -/
theorem accepted_append
    (isOk : Output → Bool)
    (step : State → Op → State × Output)
    (state : State)
    (first later : List Op) :
    accepted isOk step state (first ++ later) =
      accepted isOk step state first ++
        accepted isOk step (run step state first) later := by
  induction first generalizing state with
  | nil =>
      rfl
  | cons op rest inductionHypothesis =>
      rw [List.cons_append, run_cons]
      cases answer : isOk (step state op).2 with
      | true =>
          rw [accepted_cons_of_ok answer, accepted_cons_of_ok answer, inductionHypothesis,
            List.cons_append]
      | false =>
          rw [accepted_cons_of_refused answer, accepted_cons_of_refused answer,
            inductionHypothesis]

/-- The successes are operations of the run, in their order. -/
theorem accepted_sublist
    (isOk : Output → Bool)
    (step : State → Op → State × Output)
    (state : State)
    (ops : List Op) :
    (accepted isOk step state ops).Sublist ops := by
  induction ops generalizing state with
  | nil =>
      exact List.nil_sublist []
  | cons op rest inductionHypothesis =>
      cases answer : isOk (step state op).2 with
      | true =>
          rw [accepted_cons_of_ok answer]
          exact (inductionHypothesis _).cons_cons op
      | false =>
          rw [accepted_cons_of_refused answer]
          exact (inductionHypothesis _).cons op

/-- A state with the operations that succeeded so far. -/
structure Logged (State Op : Type*) where
  state : State
  log : List Op

/-- Perform an operation and log it when it succeeds. -/
def logStep
    (isOk : Output → Bool)
    (step : State → Op → State × Output)
    (logged : Logged State Op)
    (op : Op) : Logged State Op × Output :=
  ({ state := (step logged.state op).1
     log :=
      if isOk (step logged.state op).2 then
        logged.log ++ [op]
      else
        logged.log },
    (step logged.state op).2)

/-- The log of a run holds the operations that succeed along it. -/
theorem run_logStep
    (isOk : Output → Bool)
    (step : State → Op → State × Output)
    (state : State)
    (log ops : List Op) :
    run (logStep isOk step) { state, log } ops =
      { state := run step state ops
        log := log ++ accepted isOk step state ops } := by
  induction ops generalizing state log with
  | nil =>
      rw [run_nil, run_nil, accepted_nil, List.append_nil]
  | cons op rest inductionHypothesis =>
      rw [run_cons, run_cons, logStep, inductionHypothesis]
      cases answer : isOk (step state op).2 with
      | true =>
          rw [accepted_cons_of_ok answer, if_pos rfl, List.append_assoc,
            List.singleton_append]
      | false =>
          rw [accepted_cons_of_refused answer, if_neg Bool.false_ne_true]

/--
A refused operation leaves the state as it was, and with it the answers to all
later operations.
-/
structure RefusedWithoutTrace
    {Error : Type*}
    (step : State → Op → State × Except Error Unit)
    (state : State)
    (op : Op) : Prop where
  unchanged : ∀ failure,
    (step state op).2 = .error failure → (step state op).1 = state
  later : ∀ failure,
    (step state op).2 = .error failure →
      ∀ ops, outputs step (step state op).1 ops = outputs step state ops

/-- It is enough that the state is left as it was. -/
theorem refusedWithoutTrace_iff
    {Error : Type*}
    {step : State → Op → State × Except Error Unit}
    {state : State}
    {op : Op} :
    RefusedWithoutTrace step state op ↔
      ∀ failure,
        (step state op).2 = .error failure → (step state op).1 = state := by
  constructor
  · exact RefusedWithoutTrace.unchanged
  · intro unchanged
    refine ⟨unchanged, ?_⟩
    intro failure refused ops
    rw [unchanged failure refused]

/-- Operations that are refused without a trace can be left out of a run. -/
theorem EveryStep.run_accepted
    {Error : Type*}
    {step : State → Op → State × Except Error Unit}
    {state : State}
    {ops : List Op}
    (traceless : EveryStep step (RefusedWithoutTrace step) state ops) :
    run step state (accepted Except.isOk step state ops) =
      run step state ops := by
  induction ops generalizing state with
  | nil =>
      rfl
  | cons op rest inductionHypothesis =>
      obtain ⟨here, later⟩ := traceless
      rw [run_cons]
      cases answer : (step state op).2 with
      | ok _ =>
          have isOk : (step state op).2.isOk = true := by
            rw [answer]
            rfl
          rw [accepted_cons_of_ok isOk, run_cons, inductionHypothesis later]
      | error failure =>
          have refused : (step state op).2.isOk = false := by
            rw [answer]
            rfl
          rw [accepted_cons_of_refused refused]
          rw [here.unchanged failure answer] at later ⊢
          exact inductionHypothesis later

/-- What the steps of a run put on record, in order. -/
def recorded
    {Record : Type*}
    (record : State → Op → List Record)
    (step : State → Op → State × Output) :
    State → List Op → List Record
  | _, [] => []
  | state, op :: rest =>
      record state op ++ recorded record step (step state op).1 rest

@[simp] theorem recorded_nil
    {Record : Type*}
    (record : State → Op → List Record)
    (step : State → Op → State × Output)
    (state : State) :
    recorded record step state [] = [] :=
  rfl

@[simp] theorem recorded_cons
    {Record : Type*}
    (record : State → Op → List Record)
    (step : State → Op → State × Output)
    (state : State)
    (op : Op)
    (rest : List Op) :
    recorded record step state (op :: rest) =
      record state op ++ recorded record step (step state op).1 rest :=
  rfl

/--
A property of the records so far and the state, kept by each allowed step, holds
after a run of such steps.
-/
theorem EveryStep.recorded_invariant
    {Record : Type*}
    {record : State → Op → List Record}
    {step : State → Op → State × Output}
    {allowed : State → Op → Prop}
    {holds : List Record → State → Prop}
    (preserved :
      ∀ log state op,
        allowed state op →
        holds log state →
        holds (log ++ record state op) (step state op).1)
    {log : List Record}
    {start : State}
    {ops : List Op}
    (everyStep : EveryStep step allowed start ops)
    (initially : holds log start) :
    holds (log ++ recorded record step start ops) (run step start ops) := by
  induction ops generalizing log start with
  | nil =>
      simpa using initially
  | cons op rest inductionHypothesis =>
      have later :=
        inductionHypothesis everyStep.2
          (preserved log start op everyStep.1 initially)
      simpa using later

end StateMachine
