import ScalarCore.Institutional
import ScalarCore.MachineInt
import Mathlib.Data.Finmap

namespace ScalarCore

/-!
# The registry of institutions

Institutions are registered under their ids and rotate their operators on their own.  What
is stored of one follows from its last registration and the operations on it since then,
whatever the others do; so its longevity does not start anew when operators come and go.
-/

open FallibleChecks InstitutionalNode MachineInt StateMachine

/-- The uptime of an operator, nothing where none is known. -/
def uptimeOf (operatorUptimes : Finmap fun _ : Bytes32 => UInt64) (op : OperatorEntry) : UInt64 :=
  (operatorUptimes.lookup op.operatorId).getD 0

/-- `institutional_uptime`. -/
def InstitutionalNode.institutionalUptime
    (node : InstitutionalNode)
    (operatorUptimes : Finmap fun _ : Bytes32 => UInt64) : UInt64 :=
  (((node.operators.filter OperatorEntry.isActive).map (uptimeOf operatorUptimes)).max?).getD 0

/-- `InstitutionalRegistry`. -/
structure InstitutionalRegistry where
  nodes : Finmap fun _ : Bytes32 => InstitutionalNode

/-- A registration, or an operation on the institution that `get_mut` finds. -/
inductive RegistryCall where
  | register (node : InstitutionalNode)
  | operate (institutionId : Bytes32) (op : InstitutionOp)
  deriving DecidableEq

namespace InstitutionalRegistry

/-- `new`. -/
def new : InstitutionalRegistry where
  nodes := ∅

/-- `register`. -/
def register (registry : InstitutionalRegistry) (node : InstitutionalNode) :
    InstitutionalRegistry where
  nodes := registry.nodes.insert node.institutionId node

/-- `get`. -/
def get (registry : InstitutionalRegistry) (institutionId : Bytes32) : Option InstitutionalNode :=
  registry.nodes.lookup institutionId

/-- `longevity_epochs`. -/
def longevityEpochs
    (registry : InstitutionalRegistry)
    (institutionId : Bytes32)
    (currentEpoch : UInt64) : UInt64 :=
  ((registry.get institutionId).map fun node =>
    saturatingSub currentEpoch node.registeredEpoch).getD 0

/-- A call, with the answer to an operation on a registered institution. -/
def call (registry : InstitutionalRegistry) :
    RegistryCall → InstitutionalRegistry × Option (Except InstitutionalError Unit)
  | .register node =>
      (registry.register node, none)
  | .operate institutionId op =>
      match registry.get institutionId with
      | none =>
          (registry, none)
      | some node =>
          ({ nodes := registry.nodes.insert institutionId (node.applyOp op).1 },
            some (node.applyOp op).2)

/-- What concerns one institution: its last registration, and the operations since. -/
structure Rotation where
  registered : InstitutionalNode
  rotated : List InstitutionOp
  deriving DecidableEq

/-- What is remembered of one institution after a call. -/
def remember (institutionId : Bytes32) (past : Option Rotation) :
    RegistryCall → Option Rotation
  | .register node =>
      if node.institutionId = institutionId then
        some { registered := node, rotated := [] }
      else
        past
  | .operate operated op =>
      if operated = institutionId then
        past.map fun rotation => { rotation with rotated := rotation.rotated ++ [op] }
      else
        past

/-- What concerns one institution in calls. -/
def rotationOf (institutionId : Bytes32) (calls : List RegistryCall) : Option Rotation :=
  calls.foldl (remember institutionId) none

/-- The institution after the operations on it. -/
def Rotation.node (rotation : Rotation) : InstitutionalNode :=
  run applyOp rotation.registered rotation.rotated

variable {registry : InstitutionalRegistry} {institutionId : Bytes32} {past : Option Rotation}

/-- A call keeps what is stored of an institution in step with what is remembered. -/
theorem get_call
    (stored : registry.get institutionId = past.map Rotation.node)
    (op : RegistryCall) :
    (registry.call op).1.get institutionId =
      (remember institutionId past op).map Rotation.node := by
  cases op with
  | register node =>
      rw [call, register, get, remember]
      split
      · rename_i same
        rw [← same, Finmap.lookup_insert]
        rfl
      · rename_i different
        rw [Finmap.lookup_insert_of_ne _ (Ne.symm different)]
        exact stored
  | operate operated op =>
      rw [remember]
      by_cases same : operated = institutionId
      · subst same
        rw [if_pos rfl, call, stored]
        cases past with
        | none =>
            exact stored
        | some rotation =>
            rw [Option.map_some, Option.map_some, Option.map_some, Rotation.node, Rotation.node,
              run_append]
            exact Finmap.lookup_insert _
      · rw [if_neg same, ← stored, call]
        split
        · rfl
        · exact Finmap.lookup_insert_of_ne _ (Ne.symm same)

/-- What is stored of an institution follows from the calls that concern it. -/
theorem get_run (institutionId : Bytes32) (calls : List RegistryCall) :
    (run call new calls).get institutionId =
      (rotationOf institutionId calls).map Rotation.node := by
  induction calls using List.reverseRecOn with
  | nil =>
      exact Finmap.lookup_empty _
  | append_singleton calls op inductionHypothesis =>
      rw [run_append, run_cons, run_nil, rotationOf, List.foldl_concat]
      exact get_call inductionHypothesis op

/-- The institutions have one id and were registered in one epoch. -/
def SameRegistration (node other : InstitutionalNode) : Prop :=
  node.institutionId = other.institutionId ∧ node.registeredEpoch = other.registeredEpoch

/-- An operation on an institution changes neither its id nor its registration. -/
theorem applyOp_registration (node : InstitutionalNode) (op : InstitutionOp) :
    SameRegistration (node.applyOp op).1 node := by
  rw [applyOp]
  cases performed : node.perform op with
  | error failure =>
      exact ⟨rfl, rfl⟩
  | ok next =>
      cases op with
      | addOperator newOperator signingOperators =>
          obtain ⟨-, -, -, rfl⟩ := addOperator_eq_ok_iff.mp performed
          exact ⟨rfl, rfl⟩
      | deactivateOperator operatorId signingOperators =>
          rw [perform, deactivateOperator, unit_bind_eq_ok_iff] at performed
          obtain ⟨-, changed⟩ := performed
          cases found : deactivateFirst operatorId node.operators with
          | none =>
              rw [found] at changed
              cases changed
          | some operators =>
              rw [found] at changed
              cases changed
              exact ⟨rfl, rfl⟩

/-- Neither do any operations. -/
theorem Rotation.node_registration (rotation : Rotation) :
    SameRegistration rotation.node rotation.registered := by
  have preserved (node : InstitutionalNode) (op : InstitutionOp)
      (same : SameRegistration node rotation.registered) :
      SameRegistration (node.applyOp op).1 rotation.registered := by
    obtain ⟨sameId, sameEpoch⟩ := applyOp_registration node op
    exact ⟨sameId.trans same.1, sameEpoch.trans same.2⟩
  exact run_invariant preserved ⟨rfl, rfl⟩ rotation.rotated

/-- What is remembered of an institution was registered under its id. -/
theorem registered_of_rotationOf
    {calls : List RegistryCall}
    {rotation : Rotation}
    (remembered : rotationOf institutionId calls = some rotation) :
    rotation.registered.institutionId = institutionId := by
  induction calls using List.reverseRecOn generalizing rotation with
  | nil =>
      cases remembered
  | append_singleton calls op inductionHypothesis =>
      rw [rotationOf, List.foldl_concat, ← rotationOf] at remembered
      cases op with
      | register node =>
          rw [remember] at remembered
          split at remembered
          · rename_i same
            cases remembered
            exact same
          · exact inductionHypothesis remembered
      | operate operated op =>
          rw [remember] at remembered
          split at remembered
          · obtain ⟨before, isBefore, rfl⟩ := Option.map_eq_some_iff.mp remembered
            have same := inductionHypothesis isBefore
            exact same
          · exact inductionHypothesis remembered

/-- The uptime of an institution is the least bound of those of its active operators. -/
theorem institutionalUptime_le_iff
    {node : InstitutionalNode}
    {operatorUptimes : Finmap fun _ : Bytes32 => UInt64}
    {bound : UInt64} :
    node.institutionalUptime operatorUptimes ≤ bound ↔
      ∀ op ∈ node.operators, op.isActive = true → uptimeOf operatorUptimes op ≤ bound := by
  have listed :
      (∀ op ∈ node.operators, op.isActive = true → uptimeOf operatorUptimes op ≤ bound) ↔
        ∀ uptime ∈ (node.operators.filter OperatorEntry.isActive).map
          (uptimeOf operatorUptimes), uptime ≤ bound := by
    simp only [List.forall_mem_map, List.mem_filter, and_imp]
  have lawful : Std.LawfulOrderSup UInt64 :=
    ⟨fun left right other => by
      rw [UInt64.le_iff_toNat_le, UInt64.le_iff_toNat_le, UInt64.le_iff_toNat_le, toNat_max]
      exact max_le_iff⟩
  rw [listed, institutionalUptime]
  cases greatest :
      ((node.operators.filter OperatorEntry.isActive).map (uptimeOf operatorUptimes)).max? with
  | none =>
      rw [List.max?_eq_none_iff.mp greatest, Option.getD_none]
      exact iff_of_true UInt64.zero_le (List.forall_mem_nil _)
  | some uptime =>
      exact List.max?_le_iff greatest

/-- What the registry keeps of institutions over calls. -/
structure KeepsInstitutions (calls : List RegistryCall) : Prop where
  separate :
    ∀ institutionId,
      (run call new calls).get institutionId =
        (rotationOf institutionId calls).map Rotation.node
  keyed :
    ∀ institutionId node,
      (run call new calls).get institutionId = some node →
      node.institutionId = institutionId
  longevity :
    ∀ institutionId currentEpoch,
      (run call new calls).longevityEpochs institutionId currentEpoch =
        ((rotationOf institutionId calls).map fun rotation =>
          saturatingSub currentEpoch rotation.registered.registeredEpoch).getD 0
  online :
    ∀ institutionId node operatorUptimes,
      (run call new calls).get institutionId = some node →
      (node.institutionalUptime operatorUptimes ≠ 0 ↔
        ∃ op ∈ node.operators, op.isActive = true ∧ uptimeOf operatorUptimes op ≠ 0)

/--
What is stored of an institution is its last registration and the operations on it since
then, run on their own; calls for other institutions do not matter.  Its longevity counts
from that registration whatever operators came and went, and it is online as long as one
of its active operators is.
-/
theorem registry_keeps_institutions (calls : List RegistryCall) : KeepsInstitutions calls := by
  refine
    { separate := fun institutionId => get_run institutionId calls
      keyed := fun institutionId node stored => ?_
      longevity := fun institutionId currentEpoch => ?_
      online := fun institutionId node operatorUptimes _ => ?_ }
  · rw [get_run] at stored
    obtain ⟨rotation, remembered, rfl⟩ := Option.map_eq_some_iff.mp stored
    exact rotation.node_registration.1.trans (registered_of_rotationOf remembered)
  · rw [longevityEpochs, get_run, Option.map_map]
    refine congrArg (Option.getD · 0) (Option.map_congr fun rotation _ => ?_)
    rw [Function.comp_apply, rotation.node_registration.2]
  · have zeroIff (uptime : UInt64) : uptime ≠ 0 ↔ ¬uptime ≤ 0 := by
      rw [UInt64.le_zero_iff]
    simp only [zeroIff, institutionalUptime_le_iff, not_forall, exists_prop]

end InstitutionalRegistry

end ScalarCore
