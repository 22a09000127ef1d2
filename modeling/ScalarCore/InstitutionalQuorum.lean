import ScalarCore.Institutional
import Mathlib.Data.List.Dedup

namespace ScalarCore

namespace InstitutionalNode

/-!
# Who approves an institutional operation

The quorum counts the entries of a list that the caller supplies, so an active
operator that is listed twice is counted twice.  The operators themselves are
counted by the list without its repetitions.
-/

open FallibleChecks

/-- Whether an id is that of an active operator. -/
def namesActive
    (node : InstitutionalNode)
    (operatorId : Bytes32) : Bool :=
  node.operators.any fun op => op.isActive && op.operatorId == operatorId

/-- The active operators that occur in a list of ids. -/
def approvers
    (node : InstitutionalNode)
    (signingOperators : List Bytes32) : List OperatorEntry :=
  node.operators.filter fun op =>
    op.isActive && decide (op.operatorId ∈ signingOperators)

variable {node next : InstitutionalNode} {signingOperators : List Bytes32}

/-- What is counted are the entries that name an active operator. -/
theorem validSignatures_eq :
    node.validSignatures signingOperators =
      signingOperators.countP node.namesActive :=
  List.countP_eq_length_filter.symm

/-- When the quorum is reached. -/
theorem verifyQuorum_eq_ok_iff :
    node.verifyQuorum signingOperators = .ok () ↔
      node.mOfNThreshold.toNat ≤ signingOperators.countP node.namesActive := by
  rw [verifyQuorum, ite_error_eq_ok_iff, validSignatures_eq, Nat.not_lt]
  exact and_iff_left rfl

/-- An operator is only added with a quorum. -/
theorem quorum_of_addOperator
    {newOperator : OperatorEntry}
    (added : node.addOperator newOperator signingOperators = .ok next) :
    node.verifyQuorum signingOperators = .ok () :=
  (addOperator_eq_ok_iff.mp added).2.2.1

/-- An operator is only deactivated with a quorum. -/
theorem quorum_of_deactivateOperator
    {operatorId : Bytes32}
    (deactivated :
      node.deactivateOperator operatorId signingOperators = .ok next) :
    node.verifyQuorum signingOperators = .ok () := by
  rw [deactivateOperator, unit_bind_eq_ok_iff] at deactivated
  exact deactivated.1

/-- A refused operation changes nothing. -/
theorem applyOp_of_error
    {op : InstitutionOp}
    {failure : InstitutionalError}
    (refused : (node.applyOp op).2 = .error failure) :
    (node.applyOp op).1 = node := by
  unfold applyOp at refused ⊢
  cases performed : node.perform op with
  | error _ =>
      rfl
  | ok changed =>
      rw [performed] at refused
      cases refused

/-- An id names an active operator when one of that id is listed. -/
theorem namesActive_iff {operatorId : Bytes32} :
    node.namesActive operatorId = true ↔
      ∃ op ∈ node.operators,
        op.isActive = true ∧ op.operatorId = operatorId := by
  simp only [namesActive, List.any_eq_true, Bool.and_eq_true, beq_iff_eq]

/-- Different operators are counted by the different ids that name them. -/
theorem countP_dedup_eq_approvers
    (distinct : node.operatorIds.Nodup) :
    signingOperators.dedup.countP node.namesActive =
      (node.approvers signingOperators).length := by
  have idsDistinct :
      ((node.approvers signingOperators).map
        OperatorEntry.operatorId).Nodup := by
    have kept : (node.approvers signingOperators).Sublist node.operators :=
      List.filter_sublist
    exact (kept.map OperatorEntry.operatorId).nodup distinct
  have sameIds :
      (signingOperators.dedup.filter node.namesActive).Perm
        ((node.approvers signingOperators).map OperatorEntry.operatorId) := by
    refine
      (List.perm_ext_iff_of_nodup
        ((List.nodup_dedup _).filter _) idsDistinct).mpr ?_
    intro operatorId
    rw [List.mem_filter, List.mem_dedup, namesActive_iff, List.mem_map]
    constructor
    · intro ⟨listed, op, isOperator, isActive, isNamed⟩
      refine ⟨op, List.mem_filter.mpr ⟨isOperator, ?_⟩, isNamed⟩
      rw [isActive, isNamed, decide_eq_true listed, Bool.true_and]
    · intro ⟨op, approves, isNamed⟩
      obtain ⟨isOperator, activeAndListed⟩ := List.mem_filter.mp approves
      rw [Bool.and_eq_true, decide_eq_true_eq, isNamed] at activeAndListed
      exact
        ⟨activeAndListed.2, op, isOperator, activeAndListed.1, isNamed⟩
  rw [List.countP_eq_length_filter, sameIds.length_eq, List.length_map]

/--
Whatever is approved with a list is approved by as many active operators in it
as the threshold asks for, and what is refused changes nothing.
-/
structure ApprovedByOperators
    (node : InstitutionalNode)
    (signingOperators : List Bytes32) : Prop where
  verified :
    node.verifyQuorum signingOperators = .ok () →
      node.mOfNThreshold.toNat ≤ (node.approvers signingOperators).length
  added : ∀ newOperator next,
    node.addOperator newOperator signingOperators = .ok next →
      node.mOfNThreshold.toNat ≤ (node.approvers signingOperators).length
  deactivated : ∀ operatorId next,
    node.deactivateOperator operatorId signingOperators = .ok next →
      node.mOfNThreshold.toNat ≤ (node.approvers signingOperators).length
  refused : ∀ op failure,
    (node.applyOp op).2 = .error failure → (node.applyOp op).1 = node

/-- The quorum decides about the other operations as well. -/
theorem approvedByOperators_of_quorum
    (byQuorum :
      node.verifyQuorum signingOperators = .ok () →
        node.mOfNThreshold.toNat ≤
          (node.approvers signingOperators).length) :
    node.ApprovedByOperators signingOperators where
  verified := byQuorum
  added _ _ added := byQuorum (quorum_of_addOperator added)
  deactivated _ _ deactivated :=
    byQuorum (quorum_of_deactivateOperator deactivated)
  refused _ _ refused := applyOp_of_error refused

/--
Approval takes as many different operators as the threshold asks for exactly
when dropping the repetitions from the list does not take it below the
threshold.
-/
theorem approvedByOperators_iff
    (distinct : node.operatorIds.Nodup) :
    node.ApprovedByOperators signingOperators ↔
      (node.mOfNThreshold.toNat ≤ signingOperators.countP node.namesActive →
        node.mOfNThreshold.toNat ≤
          signingOperators.dedup.countP node.namesActive) := by
  rw [countP_dedup_eq_approvers distinct, ← verifyQuorum_eq_ok_iff]
  exact
    ⟨ApprovedByOperators.verified, approvedByOperators_of_quorum⟩

/-- An institution of three operators, two of which have to agree. -/
def twoOfThree : InstitutionalNode where
  institutionId := Bytes32.endingIn 99
  institutionNameHash := Bytes32.zero
  operators := [operator 1, operator 2, operator 3]
  mOfNThreshold := 2
  registeredEpoch := 1
  institutionCommitment := Bytes32.zero

/-- Two different signers are two operators. -/
theorem approvedByOperators_twoSigners :
    twoOfThree.ApprovedByOperators
      [Bytes32.endingIn 1, Bytes32.endingIn 2] :=
  (approvedByOperators_iff (by decide)).mpr fun _ => by decide

/-- One operator listed twice is a quorum of two. -/
theorem oneOperator_approves_alone :
    ¬ ∀ (node : InstitutionalNode) (signingOperators : List Bytes32),
        node.operatorIds.Nodup →
        node.ApprovedByOperators signingOperators := by
  intro always
  have twice :=
    always twoOfThree [Bytes32.endingIn 1, Bytes32.endingIn 1] (by decide)
  exact
    absurd
      (twice.verified (verifyQuorum_eq_ok_iff.mpr (by decide)))
      (by decide)

end InstitutionalNode

end ScalarCore
