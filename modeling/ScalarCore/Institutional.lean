import ScalarCore.Bytes
import ScalarCore.FallibleChecks
import ScalarCore.StateMachine

namespace ScalarCore

/-!
# Institutional nodes

An institution acts through at most seven operators, a majority of which has
to agree.  The constructor checks the majority but not that the operators are
different; an operator added later is checked to be different, but not against
the majority, whose threshold stays what it was.
-/

open FallibleChecks

/-- Most operators of an institution. -/
def maxOperators : Nat :=
  7

/-- An operator of an institution. -/
structure OperatorEntry where
  operatorId : Bytes32
  nodeKeyCommitment : Bytes32
  addedEpoch : UInt64
  isActive : Bool
  deriving DecidableEq

/-- An institution with its operators. -/
structure InstitutionalNode where
  institutionId : Bytes32
  institutionNameHash : Bytes32
  operators : List OperatorEntry
  mOfNThreshold : UInt8
  registeredEpoch : UInt64
  institutionCommitment : Bytes32
  deriving DecidableEq

/-- Errors of the operations on institutions. -/
inductive InstitutionalError where
  | tooManyOperators (count : Nat)
  | insufficientThreshold (m n : UInt8)
  | zeroThreshold
  | operatorNotFound
  | insufficientSignatures (provided : Nat) (required : UInt8)
  | operatorAlreadyExists
  deriving DecidableEq

/-- The operations on an institution. -/
inductive InstitutionOp where
  | addOperator
      (newOperator : OperatorEntry)
      (signingOperators : List Bytes32)
  | deactivateOperator
      (operatorId : Bytes32)
      (signingOperators : List Bytes32)
  deriving DecidableEq

namespace InstitutionalNode

/-- An institution whose threshold is a majority of its operators. -/
def new
    (institutionId institutionNameHash : Bytes32)
    (operators : List OperatorEntry)
    (mOfNThreshold : UInt8)
    (registeredEpoch : UInt64)
    (institutionCommitment : Bytes32) :
    Except InstitutionalError InstitutionalNode :=
  let n := UInt8.ofNat operators.length
  if operators.length > maxOperators then
    .error (.tooManyOperators operators.length)
  else if mOfNThreshold = 0 then
    .error .zeroThreshold
  else if n > 0 ∧ mOfNThreshold * 2 ≤ n then
    .error (.insufficientThreshold mOfNThreshold n)
  else
    .ok
      { institutionId
        institutionNameHash
        operators
        mOfNThreshold
        registeredEpoch
        institutionCommitment }

/-- Number of listed signers that are active operators. -/
def validSignatures
    (node : InstitutionalNode)
    (signingOperators : List Bytes32) : Nat :=
  (signingOperators.filter fun sigId =>
    node.operators.any fun op =>
      op.isActive && op.operatorId == sigId).length

/-- Check that as many operators sign as the threshold asks for. -/
def verifyQuorum
    (node : InstitutionalNode)
    (signingOperators : List Bytes32) : Except InstitutionalError Unit :=
  if node.validSignatures signingOperators < node.mOfNThreshold.toNat then
    .error
      (.insufficientSignatures (node.validSignatures signingOperators)
        node.mOfNThreshold)
  else
    .ok ()

/-- Add a new operator with the signatures of others. -/
def addOperator
    (node : InstitutionalNode)
    (newOperator : OperatorEntry)
    (signingOperators : List Bytes32) :
    Except InstitutionalError InstitutionalNode :=
  if (node.operators.any fun op =>
      op.operatorId == newOperator.operatorId) = true then
    .error .operatorAlreadyExists
  else if node.operators.length ≥ maxOperators then
    .error (.tooManyOperators (node.operators.length + 1))
  else do
    node.verifyQuorum signingOperators
    .ok { node with operators := node.operators ++ [newOperator] }

/-- The first operator of an id made inactive. -/
def deactivateFirst (operatorId : Bytes32) :
    List OperatorEntry → Option (List OperatorEntry)
  | [] => none
  | op :: rest =>
      if op.operatorId = operatorId then
        some ({ op with isActive := false } :: rest)
      else
        (deactivateFirst operatorId rest).map (op :: ·)

/-- Make an operator inactive with the signatures of others. -/
def deactivateOperator
    (node : InstitutionalNode)
    (operatorId : Bytes32)
    (signingOperators : List Bytes32) :
    Except InstitutionalError InstitutionalNode := do
  node.verifyQuorum signingOperators
  match deactivateFirst operatorId node.operators with
  | none => .error .operatorNotFound
  | some operators => .ok { node with operators }

/-- Perform an operation that may be refused. -/
def perform (node : InstitutionalNode) :
    InstitutionOp → Except InstitutionalError InstitutionalNode
  | .addOperator newOperator signingOperators =>
      node.addOperator newOperator signingOperators
  | .deactivateOperator operatorId signingOperators =>
      node.deactivateOperator operatorId signingOperators

/-- Perform an operation; a refused one changes nothing. -/
def applyOp
    (node : InstitutionalNode)
    (op : InstitutionOp) :
    InstitutionalNode × Except InstitutionalError Unit :=
  match node.perform op with
  | .ok next => (next, .ok ())
  | .error failure => (node, .error failure)

/-- The ids of the operators. -/
def operatorIds (node : InstitutionalNode) : List Bytes32 :=
  node.operators.map OperatorEntry.operatorId

/-- At most seven different operators, of which a majority has to agree. -/
structure WellFormed (node : InstitutionalNode) : Prop where
  bounded : node.operators.length ≤ maxOperators
  distinct : node.operatorIds.Nodup
  majority : node.operators.length < 2 * node.mOfNThreshold.toNat

/-- An operation adds no operator, or one that the majority has room for. -/
def LeavesMajority (node : InstitutionalNode) : InstitutionOp → Prop
  | .addOperator newOperator signingOperators =>
      newOperator.operatorId ∉ node.operatorIds →
      node.operators.length < maxOperators →
      node.verifyQuorum signingOperators = .ok () →
      node.operators.length + 1 < 2 * node.mOfNThreshold.toNat
  | .deactivateOperator _ _ => True

variable {node next : InstitutionalNode}

/-- A new institution has at most seven operators and a majority threshold. -/
theorem bounded_and_majority_of_new
    {institutionId institutionNameHash institutionCommitment : Bytes32}
    {operators : List OperatorEntry}
    {mOfNThreshold : UInt8}
    {registeredEpoch : UInt64}
    (created :
      new institutionId institutionNameHash operators mOfNThreshold
        registeredEpoch institutionCommitment = .ok node) :
    node.operators = operators ∧
      node.operators.length ≤ maxOperators ∧
      node.operators.length < 2 * node.mOfNThreshold.toNat := by
  unfold new at created
  dsimp only at created
  rw [ite_error_eq_ok_iff, ite_error_eq_ok_iff, ite_error_eq_ok_iff,
    Except.ok.injEq] at created
  obtain ⟨notTooMany, nonzero, majority, rfl⟩ := created
  have bounded : operators.length ≤ maxOperators := Nat.le_of_not_lt notTooMany
  have seven : maxOperators = 7 := rfl
  have positive : mOfNThreshold.toNat ≠ 0 :=
    fun isZero => nonzero (UInt8.toNat_inj.mp isZero)
  have count : (UInt8.ofNat operators.length).toNat = operators.length := by
    rw [UInt8.toNat_ofNat', Nat.mod_eq_of_lt]
    omega
  refine ⟨rfl, bounded, ?_⟩
  rw [gt_iff_lt, UInt8.lt_iff_toNat_lt, UInt8.le_iff_toNat_le, count,
    UInt8.toNat_mul] at majority
  -- doubling may wrap, but only to something smaller
  change operators.length < 2 * mOfNThreshold.toNat
  have zeroWord : (0 : UInt8).toNat = 0 := rfl
  have twoWord : (2 : UInt8).toNat = 2 := rfl
  rw [zeroWord, twoWord] at majority
  omega

/-- When an operator is added, and what the institution is then. -/
theorem addOperator_eq_ok_iff
    {newOperator : OperatorEntry}
    {signingOperators : List Bytes32} :
    node.addOperator newOperator signingOperators = .ok next ↔
      newOperator.operatorId ∉ node.operatorIds ∧
        node.operators.length < maxOperators ∧
        node.verifyQuorum signingOperators = .ok () ∧
        { node with operators := node.operators ++ [newOperator] } =
          next := by
  have listed_iff :
      (node.operators.any fun op =>
          op.operatorId == newOperator.operatorId) = true ↔
        newOperator.operatorId ∈ node.operatorIds := by
    simp only [List.any_eq_true, beq_iff_eq, operatorIds, List.mem_map]
  rw [addOperator, ite_error_eq_ok_iff, ite_error_eq_ok_iff,
    unit_bind_eq_ok_iff, listed_iff, Nat.not_le, Except.ok.injEq]

/-- Deactivating an operator keeps the ids. -/
theorem ids_of_deactivateFirst
    {operatorId : Bytes32}
    {operators operators' : List OperatorEntry}
    (deactivated : deactivateFirst operatorId operators = some operators') :
    operators'.map OperatorEntry.operatorId =
      operators.map OperatorEntry.operatorId := by
  induction operators generalizing operators' with
  | nil =>
      cases deactivated
  | cons op rest inductionHypothesis =>
      rw [deactivateFirst] at deactivated
      split at deactivated
      · cases deactivated
        rfl
      · obtain ⟨rest', restDeactivated, rfl⟩ :=
          Option.map_eq_some_iff.mp deactivated
        rw [List.map_cons, List.map_cons,
          inductionHypothesis restDeactivated]

/-- Deactivating an operator keeps the ids and the threshold. -/
theorem of_deactivateOperator
    {operatorId : Bytes32}
    {signingOperators : List Bytes32}
    (deactivated :
      node.deactivateOperator operatorId signingOperators = .ok next) :
    next.operatorIds = node.operatorIds ∧
      next.mOfNThreshold = node.mOfNThreshold := by
  rw [deactivateOperator, unit_bind_eq_ok_iff] at deactivated
  obtain ⟨_, changed⟩ := deactivated
  cases found : deactivateFirst operatorId node.operators with
  | none =>
      rw [found] at changed
      cases changed
  | some operators =>
      rw [found] at changed
      cases changed
      exact ⟨ids_of_deactivateFirst found, rfl⟩

/-- Being well-formed is about the ids and the threshold. -/
theorem WellFormed.of_ids
    (wellFormed : node.WellFormed)
    (sameIds : next.operatorIds = node.operatorIds)
    (sameThreshold : next.mOfNThreshold = node.mOfNThreshold) :
    next.WellFormed := by
  have sameLength : next.operators.length = node.operators.length := by
    simpa only [operatorIds, List.length_map] using
      congrArg List.length sameIds
  constructor
  · rw [sameLength]
    exact wellFormed.bounded
  · rw [sameIds]
    exact wellFormed.distinct
  · rw [sameLength, sameThreshold]
    exact wellFormed.majority

/-- A new operator keeps the institution well-formed if the majority holds. -/
theorem wellFormed_append_iff
    (wellFormed : node.WellFormed)
    {newOperator : OperatorEntry}
    (unlisted : newOperator.operatorId ∉ node.operatorIds)
    (room : node.operators.length < maxOperators) :
    WellFormed
        { node with operators := node.operators ++ [newOperator] } ↔
      node.operators.length + 1 < 2 * node.mOfNThreshold.toNat := by
  have grown :
      (node.operators ++ [newOperator]).length =
        node.operators.length + 1 :=
    List.length_append
  constructor
  · intro after
    have majority := after.majority
    rwa [grown] at majority
  · intro majority
    constructor
    · rw [grown]
      exact room
    · rw [operatorIds, List.map_append]
      exact
        List.Nodup.append wellFormed.distinct (List.nodup_singleton _)
          (List.disjoint_singleton.mpr unlisted)
    · rw [grown]
      exact majority

/-- One operation keeps the institution well-formed when it may. -/
theorem wellFormed_applyOp_iff
    (node : InstitutionalNode)
    (op : InstitutionOp)
    (wellFormed : node.WellFormed) :
    (node.applyOp op).1.WellFormed ↔ node.LeavesMajority op := by
  unfold applyOp
  cases performed : node.perform op with
  | error failure =>
      refine iff_of_true wellFormed ?_
      cases op with
      | deactivateOperator operatorId signingOperators => trivial
      | addOperator newOperator signingOperators =>
          intro unlisted room quorum
          have added :=
            addOperator_eq_ok_iff.mpr ⟨unlisted, room, quorum, rfl⟩
          rw [perform, added] at performed
          cases performed
  | ok next =>
      cases op with
      | deactivateOperator operatorId signingOperators =>
          obtain ⟨sameIds, sameThreshold⟩ := of_deactivateOperator performed
          exact
            iff_of_true (wellFormed.of_ids sameIds sameThreshold) trivial
      | addOperator newOperator signingOperators =>
          obtain ⟨unlisted, room, quorum, rfl⟩ :=
            addOperator_eq_ok_iff.mp performed
          exact
            (wellFormed_append_iff wellFormed unlisted room).trans
              ⟨fun majority _ _ _ => majority,
                fun leaves => leaves unlisted room quorum⟩

/--
An institution stays well-formed in every state of a run exactly when it
starts with different operators and every operator that is added leaves the
threshold a majority.
-/
theorem wellFormed_run_iff
    {institutionId institutionNameHash institutionCommitment : Bytes32}
    {operators : List OperatorEntry}
    {mOfNThreshold : UInt8}
    {registeredEpoch : UInt64}
    {node : InstitutionalNode}
    (created :
      new institutionId institutionNameHash operators mOfNThreshold
        registeredEpoch institutionCommitment = .ok node)
    (ops : List InstitutionOp) :
    (∀ past later,
        ops = past ++ later →
        (StateMachine.run applyOp node past).WellFormed) ↔
      (operators.map OperatorEntry.operatorId).Nodup ∧
        ∀ past op later,
          ops = past ++ op :: later →
          (StateMachine.run applyOp node past).LeavesMajority op := by
  obtain ⟨rfl, bounded, majority⟩ := bounded_and_majority_of_new created
  constructor
  · intro everywhere
    have initially := everywhere [] ops rfl
    exact
      ⟨initially.distinct,
        (StateMachine.run_everywhere_iff applyOp wellFormed_applyOp_iff
          initially ops).mp everywhere⟩
  · intro ⟨distinct, leaves⟩
    exact
      (StateMachine.run_everywhere_iff applyOp wellFormed_applyOp_iff
        ⟨bounded, distinct, majority⟩ ops).mpr leaves

/-- An active operator with a small id. -/
def operator (index : UInt8) : OperatorEntry where
  operatorId := Bytes32.endingIn index
  nodeKeyCommitment := Bytes32.replicate index
  addedEpoch := 1
  isActive := true

/-- Two of three operators that deactivate the third stay a majority. -/
theorem wellFormed_after_deactivation :
    (StateMachine.run applyOp
      { institutionId := Bytes32.endingIn 99
        institutionNameHash := Bytes32.zero
        operators := [operator 1, operator 2, operator 3]
        mOfNThreshold := 2
        registeredEpoch := 1
        institutionCommitment := Bytes32.zero }
      [.deactivateOperator (Bytes32.endingIn 3)
        [Bytes32.endingIn 1, Bytes32.endingIn 2]]).WellFormed := by
  have created :
      new (Bytes32.endingIn 99) Bytes32.zero
          [operator 1, operator 2, operator 3] 2 1 Bytes32.zero =
        .ok _ :=
    rfl
  refine (wellFormed_run_iff created _).mpr ⟨by decide, ?_⟩ _ []
    (List.append_nil _).symm
  intro past op later split
  cases past with
  | nil =>
      cases split
      trivial
  | cons first rest =>
      have tooLong := congrArg List.length split
      simp at tooLong

/-- A second operator added by the only one can act without it. -/
theorem majority_broken :
    ¬ ∀ institutionId institutionNameHash operators mOfNThreshold
        registeredEpoch institutionCommitment node,
        new institutionId institutionNameHash operators mOfNThreshold
            registeredEpoch institutionCommitment = .ok node →
        ∀ ops past later,
          ops = past ++ later →
          (StateMachine.run applyOp node past).WellFormed := by
  intro always
  have wellFormed :=
    always (Bytes32.endingIn 99) Bytes32.zero [operator 1] 1 1 Bytes32.zero
      _ rfl
      [.addOperator (operator 2) [Bytes32.endingIn 1]]
      [.addOperator (operator 2) [Bytes32.endingIn 1]] [] rfl
  exact absurd wellFormed.majority (by decide)

end InstitutionalNode

end ScalarCore
