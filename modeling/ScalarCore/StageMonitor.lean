import ScalarCore.StateMachine

namespace StageMonitor

/-!
# Stages after an event

After each occurrence of an event, a list of stages has to be passed in order.
The monitor keeps the stages still owed: all of them after the event, and one
less whenever the next stage is seen.  It owes nothing exactly when the stages
are a sublist of what was seen after every occurrence of the event.
-/

variable {Seen : Type*} [DecidableEq Seen]

/-- Strike out the next stage when it is seen. -/
def consume (owed : List Seen) (seen : Seen) : List Seen :=
  match owed with
  | [] => []
  | stage :: later => if seen = stage then later else stage :: later

/-- The stages owed after something is seen. -/
def monitor
    (event : Seen)
    (stages owed : List Seen)
    (seen : Seen) : List Seen :=
  if seen = event then stages else consume owed seen

@[simp] theorem consume_nil (seen : Seen) : consume [] seen = [] :=
  rfl

/-- Only stages at the end stay owed. -/
theorem consume_suffix (owed : List Seen) (seen : Seen) :
    consume owed seen <:+ owed := by
  cases owed with
  | nil =>
      exact List.suffix_refl _
  | cons stage later =>
      rw [consume]
      split
      · exact List.suffix_cons _ _
      · exact List.suffix_refl _

/-- What is owed is always an end of the stages. -/
theorem monitor_suffix
    {event : Seen}
    {stages owed : List Seen}
    (within : owed <:+ stages)
    (seen : Seen) :
    monitor event stages owed seen <:+ stages := by
  unfold monitor
  split
  · exact List.suffix_refl _
  · exact (consume_suffix owed seen).trans within

/-- What is owed after a sight is what has to be seen from then on. -/
theorem sublist_cons_iff_consume
    {owed rest : List Seen}
    {seen : Seen} :
    owed.Sublist (seen :: rest) ↔ (consume owed seen).Sublist rest := by
  cases owed with
  | nil =>
      exact iff_of_true (List.nil_sublist _) (List.nil_sublist _)
  | cons stage later =>
      by_cases isStage : seen = stage
      · subst isStage
        rw [consume, if_pos rfl, List.cons_sublist_cons]
      · rw [consume, if_neg isStage]
        constructor
        · intro within
          cases within with
          | cons _ inRest => exact inRest
          | cons_cons _ _ => exact absurd rfl isStage
        · exact List.Sublist.cons _

/-- Nothing is owed when the stages were passed after every event. -/
theorem foldl_monitor_eq_nil_iff
    {event : Seen}
    {stages owed visited : List Seen} :
    visited.foldl (monitor event stages) owed = [] ↔
      (event ∉ visited → owed.Sublist visited) ∧
        ∀ before after,
          visited = before ++ event :: after →
          stages.Sublist after := by
  induction visited generalizing owed with
  | nil =>
      simp
  | cons seen rest inductionHypothesis =>
      rw [List.foldl_cons, inductionHypothesis]
      by_cases isEvent : seen = event
      · subst isEvent
        rw [monitor, if_pos rfl]
        constructor
        · rintro ⟨fromNow, later⟩
          refine ⟨fun absent => absurd List.mem_cons_self absent, ?_⟩
          intro before after split
          rcases List.cons_eq_append_iff.mp split with
            ⟨rfl, atHead⟩ | ⟨before, rfl, inRest⟩
          · cases atHead
            by_cases again : seen ∈ rest
            · obtain ⟨before, after, rfl⟩ := List.mem_iff_append.mp again
              have passed := later before after rfl
              exact
                (passed.trans (List.sublist_cons_self _ _)).trans
                  (List.sublist_append_right _ _)
            · exact fromNow again
          · exact later before after inRest
        · rintro ⟨_, all⟩
          refine ⟨fun _ => all [] rest rfl, ?_⟩
          rintro before after rfl
          exact all (seen :: before) after rfl
      · have absent_iff : event ∉ seen :: rest ↔ event ∉ rest := by
          rw [List.mem_cons, not_or]
          exact and_iff_right (Ne.symm isEvent)
        rw [monitor, if_neg isEvent, absent_iff, sublist_cons_iff_consume]
        refine and_congr_right fun _ => ?_
        constructor
        · intro later before after split
          rcases List.cons_eq_append_iff.mp split with
            ⟨rfl, atHead⟩ | ⟨before, rfl, inRest⟩
          · cases atHead
            exact absurd rfl isEvent
          · exact later before after inRest
        · rintro all before after rfl
          exact all (seen :: before) after rfl

section Runs

variable {State Op Output : Type*}

/-- What is observed of the states of a run, after each operation. -/
def visited
    (observe : State → Seen)
    (step : State → Op → State × Output) :
    State → List Op → List Seen
  | _, [] => []
  | state, op :: rest =>
      observe (step state op).1 ::
        visited observe step (step state op).1 rest

/-- A state with the stages that are owed in it. -/
structure Audited (State Seen : Type*) where
  state : State
  owed : List Seen

/-- A step that also monitors what is observed. -/
def audit
    (observe : State → Seen)
    (event : Seen)
    (stages : List Seen)
    (step : State → Op → State × Output)
    (audited : Audited State Seen)
    (op : Op) : Audited State Seen × Output :=
  ({ state := (step audited.state op).1
     owed :=
      monitor event stages audited.owed
        (observe (step audited.state op).1) },
    (step audited.state op).2)

variable {observe : State → Seen} {event : Seen} {stages : List Seen}
  {step : State → Op → State × Output}

/-- An audited run reaches the states of the run. -/
theorem state_run_audit
    (audited : Audited State Seen)
    (ops : List Op) :
    (StateMachine.run (audit observe event stages step) audited ops).state =
      StateMachine.run step audited.state ops :=
  StateMachine.run_project (fun _ _ => rfl) audited ops

/-- An audited run owes what the monitor of its observations owes. -/
theorem owed_run_audit
    (audited : Audited State Seen)
    (ops : List Op) :
    (StateMachine.run (audit observe event stages step) audited ops).owed =
      (visited observe step audited.state ops).foldl
        (monitor event stages) audited.owed := by
  induction ops generalizing audited with
  | nil =>
      rfl
  | cons op rest inductionHypothesis =>
      rw [StateMachine.run_cons, inductionHypothesis]
      rfl

/-- What an audited run owes is an end of the stages. -/
theorem owed_run_audit_suffix
    {audited : Audited State Seen}
    (within : audited.owed <:+ stages)
    (ops : List Op) :
    (StateMachine.run (audit observe event stages step) audited ops).owed <:+
      stages :=
  StateMachine.run_invariant
    (fun _ _ isSuffix => monitor_suffix isSuffix _) within ops

end Runs

end StageMonitor
