import Mathlib.Data.List.Induction
import ScalarCore.StateMachine

namespace ScalarCore

/-!
# The states of a node

The node and the network layer each have a machine over the same four states.
The node remembers its last sensor reading and leaves the first state with the
internet; the network layer leaves it with the first peers that it is told of.
Driven by the same readings they differ in this only.
-/

open StateMachine

/-- `NodeState`. -/
inductive NodeState where
  | bootstrapping
  | syncing
  | active
  | partitioned
  deriving Repr, DecidableEq

/-- `NodeStateMachine` of the node. -/
structure NodeStateMachine where
  currentState : NodeState
  isInternetAvailable : Bool
  isSmtSynced : Bool
  deriving DecidableEq

/-- The arguments of `update_network_sensor`. -/
structure SensorReading where
  internetStatus : Bool
  syncStatus : Bool
  deriving DecidableEq

namespace NodeStateMachine

/-- `new`. -/
def new : NodeStateMachine where
  currentState := .bootstrapping
  isInternetAvailable := true
  isSmtSynced := false

/-- `evaluate_transitions`; a later `if` overrides an earlier one. -/
def evaluateTransitions (machine : NodeStateMachine) : NodeStateMachine :=
  match machine.currentState with
  | .bootstrapping =>
      if machine.isInternetAvailable then
        { machine with currentState := .syncing }
      else
        machine
  | .syncing =>
      let machine :=
        if machine.isSmtSynced then
          { machine with currentState := .active }
        else
          machine
      if !machine.isInternetAvailable then
        { machine with currentState := .partitioned }
      else
        machine
  | .active =>
      let machine :=
        if !machine.isInternetAvailable then
          { machine with currentState := .partitioned }
        else
          machine
      if !machine.isSmtSynced then
        { machine with currentState := .syncing }
      else
        machine
  | .partitioned =>
      if machine.isInternetAvailable then
        { machine with currentState := .syncing }
      else
        machine

/-- `update_network_sensor`. -/
def updateNetworkSensor
    (machine : NodeStateMachine)
    (reading : SensorReading) : NodeStateMachine :=
  evaluateTransitions
    { machine with
      isInternetAvailable := reading.internetStatus
      isSmtSynced := reading.syncStatus }

/-- A reading as a step; it answers nothing. -/
def step
    (machine : NodeStateMachine)
    (reading : SensorReading) : NodeStateMachine × Unit :=
  (machine.updateNetworkSensor reading, ())

end NodeStateMachine

/-- `ScalarStateMachine` of the network layer. -/
structure ScalarStateMachine where
  currentState : NodeState
  deriving DecidableEq

/-- The arguments of `evaluate_transitions` of the network layer. -/
structure NetworkReading where
  internetDown : Bool
  isSynced : Bool
  peersFound : Bool
  deriving DecidableEq

namespace ScalarStateMachine

/-- `new`. -/
def new : ScalarStateMachine where
  currentState := .bootstrapping

/-- `evaluate_transitions` of the network layer. -/
def evaluateTransitions
    (machine : ScalarStateMachine)
    (internetDown isSynced peersFound : Bool) : ScalarStateMachine :=
  match machine.currentState with
  | .bootstrapping =>
      if peersFound then { currentState := .syncing } else machine
  | .syncing =>
      let machine :=
        if isSynced then { currentState := .active } else machine
      if internetDown then { currentState := .partitioned } else machine
  | .active =>
      let machine :=
        if internetDown then { currentState := .partitioned } else machine
      if !isSynced then { currentState := .syncing } else machine
  | .partitioned =>
      if !internetDown then { currentState := .syncing } else machine

/-- A reading as a step; it answers nothing. -/
def step
    (machine : ScalarStateMachine)
    (reading : NetworkReading) : ScalarStateMachine × Unit :=
  (machine.evaluateTransitions reading.internetDown reading.isSynced
      reading.peersFound,
    ())

end ScalarStateMachine

namespace NodeStateMachine

/-- The state after a reading, by the state before it. -/
def nextState (reading : SensorReading) : NodeState → NodeState
  | .bootstrapping => if reading.internetStatus then .syncing else .bootstrapping
  | .syncing =>
      if !reading.internetStatus then
        .partitioned
      else if reading.syncStatus then
        .active
      else
        .syncing
  | .active =>
      if !reading.syncStatus then
        .syncing
      else if reading.internetStatus then
        .active
      else
        .partitioned
  | .partitioned => if reading.internetStatus then .syncing else .partitioned

@[simp] theorem currentState_step
    (machine : NodeStateMachine)
    (reading : SensorReading) :
    (machine.step reading).1.currentState = nextState reading machine.currentState := by
  obtain ⟨state, _, _⟩ := machine
  obtain ⟨internet, synced⟩ := reading
  cases state <;> cases internet <;> cases synced <;> rfl

/-- The state after readings. -/
def stateAfter (readings : List SensorReading) : NodeState :=
  (run step new readings).currentState

@[simp] theorem stateAfter_concat
    (readings : List SensorReading)
    (reading : SensorReading) :
    stateAfter (readings ++ [reading]) = nextState reading (stateAfter readings) := by
  rw [stateAfter, run_append, run_cons, run_nil, currentState_step]
  rfl

/-- Online and synchronised. -/
def good : SensorReading :=
  ⟨true, true⟩

/-- Only a good reading leads to the active state. -/
theorem eq_good_of_nextState_eq_active
    {reading : SensorReading}
    {state : NodeState}
    (isActive : nextState reading state = .active) :
    reading = good := by
  obtain ⟨internet, synced⟩ := reading
  cases state <;> cases internet <;> cases synced <;> first | rfl | cases isActive

/-- Two good readings lead to the active state, from any state. -/
theorem nextState_good_good (state : NodeState) :
    nextState good (nextState good state) = .active := by
  cases state <;> rfl

/-- Only an offline reading leads to the partitioned state. -/
theorem offline_of_nextState_eq_partitioned
    {reading : SensorReading}
    {state : NodeState}
    (isPartitioned : nextState reading state = .partitioned) :
    reading.internetStatus = false := by
  obtain ⟨internet, synced⟩ := reading
  cases internet with
  | false => rfl
  | true => cases state <;> cases synced <;> cases isPartitioned

/-- Two offline readings partition a node that has left its first state. -/
theorem nextState_offline_offline
    {first second : SensorReading}
    (offline : first.internetStatus = false)
    (offline' : second.internetStatus = false)
    {state : NodeState}
    (started : state ≠ .bootstrapping) :
    nextState second (nextState first state) = .partitioned := by
  obtain ⟨internet, synced⟩ := first
  obtain ⟨internet', synced'⟩ := second
  subst offline offline'
  cases state with
  | bootstrapping => exact absurd rfl started
  | syncing => cases synced <;> cases synced' <;> rfl
  | active => cases synced <;> cases synced' <;> rfl
  | partitioned => cases synced <;> cases synced' <;> rfl

/-- The first state is left with the first online reading, for good. -/
theorem stateAfter_eq_bootstrapping_iff (readings : List SensorReading) :
    stateAfter readings = .bootstrapping ↔
      ∀ reading ∈ readings, reading.internetStatus = false := by
  induction readings using List.reverseRecOn with
  | nil =>
      exact iff_of_true rfl nofun
  | append_singleton readings reading inductionHypothesis =>
      rw [stateAfter_concat, List.forall_mem_append, ← inductionHypothesis,
        List.forall_mem_singleton]
      obtain ⟨internet, synced⟩ := reading
      cases stateAfter readings <;> cases internet <;> cases synced <;>
        simp [nextState]

/-- A started node does not return to the first state. -/
theorem nextState_ne_bootstrapping
    {state : NodeState}
    (started : state ≠ .bootstrapping)
    (reading : SensorReading) :
    nextState reading state ≠ .bootstrapping := by
  obtain ⟨internet, synced⟩ := reading
  cases state with
  | bootstrapping => exact absurd rfl started
  | syncing => cases internet <;> cases synced <;> nofun
  | active => cases internet <;> cases synced <;> nofun
  | partitioned => cases internet <;> cases synced <;> nofun

/-- What the state after readings says about them. -/
structure StateShows (readings : List SensorReading) : Prop where
  bootstrapping :
    stateAfter readings = .bootstrapping ↔
      ∀ reading ∈ readings, reading.internetStatus = false
  active : stateAfter readings = .active → readings.getLast? = some good
  partitioned :
    stateAfter readings = .partitioned →
      ∃ reading, readings.getLast? = some reading ∧ reading.internetStatus = false
  synchronised : ∀ earlier, readings = earlier ++ [good, good] → stateAfter readings = .active
  offline :
    ∀ earlier first second,
      readings = earlier ++ [first, second] →
      first.internetStatus = false →
      second.internetStatus = false →
      (∃ reading ∈ earlier, reading.internetStatus = true) →
      stateAfter readings = .partitioned

/--
The state of a node is the active one only when the last reading was good and whenever
the last two were, and the partitioned one only offline and whenever a node that was
online has read twice that it is not.
-/
theorem stateShows (readings : List SensorReading) : StateShows readings where
  bootstrapping := stateAfter_eq_bootstrapping_iff readings
  active isActive := by
    cases readings using List.reverseRecOn with
    | nil =>
        cases isActive
    | append_singleton earlier reading =>
        rw [stateAfter_concat] at isActive
        rw [List.getLast?_concat, eq_good_of_nextState_eq_active isActive]
  partitioned isPartitioned := by
    cases readings using List.reverseRecOn with
    | nil =>
        cases isPartitioned
    | append_singleton earlier reading =>
        rw [stateAfter_concat] at isPartitioned
        exact
          ⟨reading, List.getLast?_concat, offline_of_nextState_eq_partitioned isPartitioned⟩
  synchronised := by
    rintro earlier rfl
    rw [← List.singleton_append, ← List.append_assoc, stateAfter_concat, stateAfter_concat]
    exact nextState_good_good _
  offline := by
    rintro earlier first second rfl isOffline isOffline' ⟨reading, listed, isOnline⟩
    have started : stateAfter earlier ≠ .bootstrapping := by
      intro notStarted
      have neverOnline := (stateAfter_eq_bootstrapping_iff earlier).mp notStarted
      rw [neverOnline reading listed] at isOnline
      cases isOnline
    rw [← List.singleton_append, ← List.append_assoc, stateAfter_concat, stateAfter_concat]
    exact nextState_offline_offline isOffline isOffline' started

end NodeStateMachine

/-!
## Both machines
-/

open NodeStateMachine

/-- What both machines read at a time: the sensor, and whether peers were found. -/
structure Observation where
  sensor : SensorReading
  peersFound : Bool
  deriving DecidableEq

namespace Observation

/-- The reading of the network layer. -/
def network (observation : Observation) : NetworkReading where
  internetDown := !observation.sensor.internetStatus
  isSynced := observation.sensor.syncStatus
  peersFound := observation.peersFound

/-- The state of the node after observations. -/
def nodeState (observations : List Observation) : NodeState :=
  stateAfter (observations.map sensor)

/-- The state of the network layer after observations. -/
def networkState (observations : List Observation) : NodeState :=
  (run ScalarStateMachine.step .new (observations.map network)).currentState

theorem nodeState_concat
    (observations : List Observation)
    (observation : Observation) :
    nodeState (observations ++ [observation]) =
      nextState observation.sensor (nodeState observations) := by
  rw [nodeState, List.map_append, List.map_singleton, stateAfter_concat, nodeState]

/-- The network layer steps like the node, but for the first state. -/
theorem networkState_concat
    (observations : List Observation)
    (observation : Observation) :
    networkState (observations ++ [observation]) =
      if networkState observations = .bootstrapping then
        if observation.peersFound then .syncing else .bootstrapping
      else
        nextState observation.sensor (networkState observations) := by
  rw [networkState, List.map_append, List.map_singleton, run_append, run_cons, run_nil,
    networkState]
  generalize run ScalarStateMachine.step .new (observations.map network) = machine
  obtain ⟨state⟩ := machine
  obtain ⟨⟨internet, synced⟩, found⟩ := observation
  cases state <;> cases internet <;> cases synced <;> cases found <;> rfl

/-- The network layer leaves the first state with the first peers, for good. -/
theorem networkState_eq_bootstrapping_iff (observations : List Observation) :
    networkState observations = .bootstrapping ↔
      ∀ observation ∈ observations, observation.peersFound = false := by
  induction observations using List.reverseRecOn with
  | nil =>
      exact iff_of_true rfl nofun
  | append_singleton earlier observation inductionHypothesis =>
      rw [networkState_concat, List.forall_mem_append, ← inductionHypothesis,
        List.forall_mem_singleton]
      by_cases first : networkState earlier = .bootstrapping
      · rw [if_pos first, and_iff_right first]
        cases observation.peersFound with
        | false => exact iff_of_true rfl rfl
        | true => exact iff_of_false nofun nofun
      · rw [if_neg first]
        exact iff_of_false (nextState_ne_bootstrapping first _) fun both => first both.1

theorem nodeState_eq_bootstrapping_iff (observations : List Observation) :
    nodeState observations = .bootstrapping ↔
      ∀ observation ∈ observations, observation.sensor.internetStatus = false := by
  rw [nodeState, stateAfter_eq_bootstrapping_iff, List.forall_mem_map]

/-- Machines that have left the first state for the same one stay together. -/
theorem same_append
    {earlier : List Observation}
    (same : networkState earlier = nodeState earlier)
    (started : nodeState earlier ≠ .bootstrapping)
    (later : List Observation) :
    networkState (earlier ++ later) = nodeState (earlier ++ later) ∧
      nodeState (earlier ++ later) ≠ .bootstrapping := by
  induction later using List.reverseRecOn with
  | nil =>
      rw [List.append_nil]
      exact ⟨same, started⟩
  | append_singleton later observation inductionHypothesis =>
      obtain ⟨sameThen, startedThen⟩ := inductionHypothesis
      rw [← List.append_assoc, networkState_concat, nodeState_concat, sameThen,
        if_neg startedThen]
      exact ⟨rfl, nextState_ne_bootstrapping startedThen _⟩

/-- An online reading that is not synchronised leads to one state from any other. -/
theorem nextState_online
    {reading : SensorReading}
    (isOnline : reading.internetStatus = true)
    (notSynced : reading.syncStatus = false)
    (state : NodeState) :
    nextState reading state = .syncing := by
  obtain ⟨internet, synced⟩ := reading
  subst isOnline notSynced
  cases state <;> rfl

/-- How the state of the network layer follows that of the node. -/
structure NetworkFollows (observations : List Observation) : Prop where
  together :
    (∀ before, before <+: observations → networkState before = nodeState before) ↔
      ∀ before,
        before <+: observations →
        ((∀ observation ∈ before, observation.peersFound = false) ↔
          ∀ observation ∈ before, observation.sensor.internetStatus = false)
  rejoin :
    ∀ earlier observation later,
      observations = earlier ++ observation :: later →
      (∃ other ∈ earlier ++ [observation], other.peersFound = true) →
      observation.sensor.internetStatus = true →
      observation.sensor.syncStatus = false →
      networkState observations = nodeState observations

/-- Machines that leave the first state at one observation are always in one state. -/
theorem networkState_eq_nodeState
    {observations : List Observation}
    (leaveTogether :
      ∀ before,
        before <+: observations →
        ((∀ observation ∈ before, observation.peersFound = false) ↔
          ∀ observation ∈ before, observation.sensor.internetStatus = false)) :
    networkState observations = nodeState observations := by
  induction observations using List.reverseRecOn with
  | nil =>
      rfl
  | append_singleton earlier observation inductionHypothesis =>
      have same :=
        inductionHypothesis fun before isPrefix =>
          leaveTogether before (isPrefix.trans (List.prefix_append _ _))
      by_cases started : nodeState earlier = .bootstrapping
      · have first : networkState (earlier ++ [observation]) = .bootstrapping ↔
            nodeState (earlier ++ [observation]) = .bootstrapping := by
          rw [networkState_eq_bootstrapping_iff, nodeState_eq_bootstrapping_iff]
          exact leaveTogether _ (List.prefix_refl _)
        rw [networkState_concat, nodeState_concat, same, started, if_pos rfl] at first ⊢
        obtain ⟨⟨internet, synced⟩, found⟩ := observation
        cases internet <;> cases found <;> simp_all [nextState]
      · exact (same_append same started [observation]).1

/--
Given the same sensor readings, the machine of the network layer is in the node's state
at every time exactly when peers are found for the first time at the first reading that
is online.  Otherwise the two are in one state again, for good, from an online reading
that is not synchronised on, once peers have been found.
-/
theorem networkFollows (observations : List Observation) : NetworkFollows observations where
  together := by
    constructor
    · intro same before isPrefix
      rw [← networkState_eq_bootstrapping_iff, ← nodeState_eq_bootstrapping_iff,
        same before isPrefix]
    · intro leaveTogether before isPrefix
      exact
        networkState_eq_nodeState fun earlier isEarlier =>
          leaveTogether earlier (isEarlier.trans isPrefix)
  rejoin := by
    rintro earlier observation later rfl ⟨found, isListed, isFound⟩ isOnline notSynced
    have networkStarted : networkState (earlier ++ [observation]) ≠ .bootstrapping := by
      intro first
      have neverFound := (networkState_eq_bootstrapping_iff _).mp first
      rw [neverFound found isListed] at isFound
      cases isFound
    have rejoined :
        networkState (earlier ++ [observation]) = nodeState (earlier ++ [observation]) := by
      rw [nodeState_concat, nextState_online isOnline notSynced]
      rw [networkState_concat] at networkStarted ⊢
      split at networkStarted
      · next first =>
          rw [if_pos first]
          split at networkStarted
          · next foundNow => rw [if_pos foundNow]
          · exact absurd rfl networkStarted
      · next started =>
          rw [if_neg started, nextState_online isOnline notSynced]
    have started : nodeState (earlier ++ [observation]) ≠ .bootstrapping := by
      rw [nodeState_concat, nextState_online isOnline notSynced]
      nofun
    rw [List.append_cons]
    exact (same_append rejoined started later).1

end Observation

/--
After any observations the state of the node shows what it has read, and that of the
network layer follows it.
-/
theorem machines_agree (observations : List Observation) :
    NodeStateMachine.StateShows (observations.map Observation.sensor) ∧
      Observation.NetworkFollows observations :=
  ⟨stateShows _, Observation.networkFollows observations⟩

end ScalarCore
