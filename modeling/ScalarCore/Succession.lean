import ScalarCore.Bytes
import ScalarCore.KeyedWrites
import ScalarCore.MachineInt
import ScalarCore.StateMachine

namespace ScalarCore

/-!
# Succession of nodes

A backup node claims the maturity of its primary.  The claim waits for one
epoch, in which the primary may cancel it, and is then executed: the maturity
of the primary is set to zero and 85% of it is added to that of the backup.

The store keeps one claim for each primary.  A claim that is settled, by its
execution or its cancellation, may be followed by another one.
-/

open MachineInt

/-- Least fee of a claim, in sSCL. -/
def successionAntiSpamFeeSscl : UInt64 :=
  10000

/-- Epochs that a claim waits. -/
def successionTimelockEpochs : UInt64 :=
  1

/-- The share of the maturity that is transferred, in basis 10^6. -/
def successionMaturityTransferFp : UInt64 :=
  850000

/-- The basis of the share. -/
def successionBasis : UInt64 :=
  1000000

/-- The agreement of primary and backup, made in advance. -/
structure SuccessionProof where
  nodeIdPrimary : Bytes32
  nodeIdBackup : Bytes32
  commitmentEpoch : UInt64
  sigPrimary : List UInt8
  sigBackup : List UInt8
  deriving DecidableEq

/-- The claim of a backup. -/
structure SuccessionClaim where
  nodeIdBackup : Bytes32
  claimEpoch : UInt64
  successionProof : SuccessionProof
  sigClaim : List UInt8
  feePaidSscl : UInt64
  deriving DecidableEq

/-- Errors of the succession operations. -/
inductive SuccessionError where
  | insufficientFee (paid required : UInt64)
  | backupNodeMismatch
  | claimAlreadyExists
  | claimNotFound
  | timelockNotExpired (claimEpoch currentEpoch : UInt64)
  | claimCancelled
  | claimAlreadyExecuted
  deriving Repr, DecidableEq

/-- The status of a claim. -/
inductive ClaimStatus where
  | pending
  | cancelled
  | executed
  deriving Repr, DecidableEq

/-- A stored claim. -/
structure ClaimEntry where
  claim : SuccessionClaim
  status : ClaimStatus
  deriving DecidableEq

/-- The claims, by primary. -/
abbrev SuccessionStore :=
  Finmap fun _ : Bytes32 => ClaimEntry

/-- The maturities, by node. -/
abbrev MaturityStore :=
  Finmap fun _ : Bytes32 => UInt64

/-- The maturity of a node, zero where none is recorded. -/
def MaturityStore.maturity (store : MaturityStore) (nodeId : Bytes32) :
    UInt64 :=
  (store.lookup nodeId).getD 0

namespace SuccessionStore

/-- Store a claim, unless one is pending for its primary. -/
def submitClaim
    (store : SuccessionStore)
    (claim : SuccessionClaim) :
    SuccessionStore × Except SuccessionError Unit :=
  if claim.feePaidSscl < successionAntiSpamFeeSscl then
    (store,
      .error
        (.insufficientFee claim.feePaidSscl successionAntiSpamFeeSscl))
  else if claim.nodeIdBackup ≠ claim.successionProof.nodeIdBackup then
    (store, .error .backupNodeMismatch)
  else
    let primaryId := claim.successionProof.nodeIdPrimary
    if (store.lookup primaryId).any fun existing =>
        existing.status = .pending then
      (store, .error .claimAlreadyExists)
    else
      (store.insert primaryId { claim, status := .pending }, .ok ())

/-- Cancel the pending claim of a primary. -/
def cancelClaim
    (store : SuccessionStore)
    (primaryId : Bytes32) :
    SuccessionStore × Except SuccessionError Unit :=
  match store.lookup primaryId with
  | none => (store, .error .claimNotFound)
  | some entry =>
      match entry.status with
      | .cancelled => (store, .error .claimCancelled)
      | .executed => (store, .error .claimAlreadyExecuted)
      | .pending =>
          (store.insert primaryId { entry with status := .cancelled },
            .ok ())

/-- The maturity that a backup receives. -/
def transferred (primaryMaturity : UInt64) : UInt64 :=
  saturatingMul primaryMaturity successionMaturityTransferFp /
    successionBasis

/-- Take the maturity of a primary and give the share of it to a backup. -/
def transferMaturity
    (maturityStore : MaturityStore)
    (primaryId backupId : Bytes32) : MaturityStore :=
  let amount := transferred (maturityStore.maturity primaryId)
  let reset : MaturityStore := maturityStore.insert primaryId 0
  reset.insert backupId (saturatingAdd (reset.maturity backupId) amount)

/-- Execute the pending claim on a primary once it has waited. -/
def executeSuccession
    (store : SuccessionStore)
    (primaryId : Bytes32)
    (currentEpoch : UInt64)
    (maturityStore : MaturityStore) :
    (SuccessionStore × MaturityStore) × Except SuccessionError Bytes32 :=
  match store.lookup primaryId with
  | none => ((store, maturityStore), .error .claimNotFound)
  | some entry =>
      match entry.status with
      | .cancelled => ((store, maturityStore), .error .claimCancelled)
      | .executed => ((store, maturityStore), .error .claimAlreadyExecuted)
      | .pending =>
          let claimEpoch := entry.claim.claimEpoch
          if currentEpoch < claimEpoch + successionTimelockEpochs then
            ((store, maturityStore),
              .error (.timelockNotExpired claimEpoch currentEpoch))
          else
            let backupId := entry.claim.nodeIdBackup
            ((store.insert primaryId { entry with status := .executed },
                transferMaturity maturityStore primaryId backupId),
              .ok backupId)

/-- A claim is refused, or stored as pending. -/
theorem submitClaim_cases
    (store : SuccessionStore)
    (claim : SuccessionClaim) :
    (∃ failure, store.submitClaim claim = (store, .error failure)) ∨
      store.submitClaim claim =
        (store.insert claim.successionProof.nodeIdPrimary
            { claim, status := .pending },
          .ok ()) := by
  unfold submitClaim
  dsimp only
  split
  · exact Or.inl ⟨_, rfl⟩
  · split
    · exact Or.inl ⟨_, rfl⟩
    · split
      · exact Or.inl ⟨_, rfl⟩
      · exact Or.inr rfl

/-- A cancellation is refused, or finds a pending claim. -/
theorem cancelClaim_cases
    (store : SuccessionStore)
    (primaryId : Bytes32) :
    (∃ failure, store.cancelClaim primaryId = (store, .error failure)) ∨
      ∃ entry,
        store.lookup primaryId = some entry ∧
          entry.status = .pending ∧
          store.cancelClaim primaryId =
            (store.insert primaryId { entry with status := .cancelled },
              .ok ()) := by
  unfold cancelClaim
  cases store.lookup primaryId with
  | none => exact Or.inl ⟨_, rfl⟩
  | some entry =>
      dsimp only
      split
      · exact Or.inl ⟨_, rfl⟩
      · exact Or.inl ⟨_, rfl⟩
      · next status => exact Or.inr ⟨entry, rfl, status, rfl⟩

/-- An execution is refused, or finds a pending claim that has waited. -/
theorem executeSuccession_cases
    (store : SuccessionStore)
    (primaryId : Bytes32)
    (currentEpoch : UInt64)
    (maturityStore : MaturityStore) :
    (∃ failure,
        store.executeSuccession primaryId currentEpoch maturityStore =
          ((store, maturityStore), .error failure)) ∨
      ∃ entry,
        store.lookup primaryId = some entry ∧
          entry.status = .pending ∧
          entry.claim.claimEpoch + successionTimelockEpochs ≤
            currentEpoch ∧
          store.executeSuccession primaryId currentEpoch maturityStore =
            ((store.insert primaryId { entry with status := .executed },
                transferMaturity maturityStore primaryId
                  entry.claim.nodeIdBackup),
              .ok entry.claim.nodeIdBackup) := by
  unfold executeSuccession
  cases store.lookup primaryId with
  | none => exact Or.inl ⟨_, rfl⟩
  | some entry =>
      dsimp only
      split
      · exact Or.inl ⟨_, rfl⟩
      · exact Or.inl ⟨_, rfl⟩
      · next status =>
          split
          · exact Or.inl ⟨_, rfl⟩
          · next waited =>
              exact
                Or.inr ⟨entry, rfl, status, UInt64.not_lt.mp waited, rfl⟩

end SuccessionStore

/-- The claims and the maturities. -/
structure SuccessionState where
  store : SuccessionStore
  maturities : MaturityStore

/-- The operations on claims. -/
inductive SuccessionOp where
  | submitClaim (claim : SuccessionClaim)
  | cancelClaim (primaryId : Bytes32)
  | executeSuccession (primaryId : Bytes32) (currentEpoch : UInt64)
  deriving DecidableEq

namespace SuccessionState

/-- Perform an operation; an execution answers the backup. -/
def step
    (state : SuccessionState) :
    SuccessionOp →
      SuccessionState × Except SuccessionError (Option Bytes32)
  | .submitClaim claim =>
      let result := state.store.submitClaim claim
      ({ state with store := result.1 }, result.2.map fun _ => none)
  | .cancelClaim primaryId =>
      let result := state.store.cancelClaim primaryId
      ({ state with store := result.1 }, result.2.map fun _ => none)
  | .executeSuccession primaryId currentEpoch =>
      let result :=
        state.store.executeSuccession primaryId currentEpoch
          state.maturities
      ({ store := result.1.1, maturities := result.1.2 },
        result.2.map some)

/-- The sum of all maturities. -/
def totalMaturity (state : SuccessionState) : Nat :=
  KeyedWrites.total UInt64.toNat state.maturities

/-- A primary has a claim that waits. -/
def HasPending (state : SuccessionState) (primaryId : Bytes32) : Prop :=
  ∃ entry,
    state.store.lookup primaryId = some entry ∧ entry.status = .pending

/-- The claim of a primary is accepted. -/
def Accepts
    (primaryId : Bytes32)
    (state : SuccessionState)
    (op : SuccessionOp) : Prop :=
  ∃ claim,
    op = .submitClaim claim ∧
      claim.successionProof.nodeIdPrimary = primaryId ∧
      (state.step op).2 = .ok none

/-- The claim on a primary is cancelled. -/
def Cancels
    (primaryId : Bytes32)
    (state : SuccessionState)
    (op : SuccessionOp) : Prop :=
  op = .cancelClaim primaryId ∧ (state.step op).2 = .ok none

/-- The claim on a primary is executed. -/
def Executes
    (primaryId : Bytes32)
    (state : SuccessionState)
    (op : SuccessionOp) : Prop :=
  ∃ currentEpoch backupId,
    op = .executeSuccession primaryId currentEpoch ∧
      (state.step op).2 = .ok (some backupId)

/-!
## One operation
-/

variable {state : SuccessionState}

/-- What is transferred is a part of the maturity. -/
theorem transferred_le (primaryMaturity : UInt64) :
    (SuccessionStore.transferred primaryMaturity).toNat ≤
      primaryMaturity.toNat := by
  have share : successionMaturityTransferFp.toNat = 850000 := rfl
  have basis : successionBasis.toNat = 1000000 := rfl
  rw [SuccessionStore.transferred, UInt64.toNat_div, saturatingMul,
    toNat_ofNat_of_le (Nat.min_le_right _ _), share, basis]
  omega

/-- The measure of a maturity is its value. -/
theorem measureAt_toNat (maturities : MaturityStore) (nodeId : Bytes32) :
    KeyedWrites.measureAt UInt64.toNat maturities nodeId =
      (maturities.maturity nodeId).toNat := by
  unfold KeyedWrites.measureAt MaturityStore.maturity
  cases maturities.lookup nodeId <;> rfl

/-- A transfer creates no maturity, whether or not the two are one node. -/
theorem total_transferMaturity_le
    (maturities : MaturityStore)
    (primaryId backupId : Bytes32) :
    KeyedWrites.total UInt64.toNat
        (SuccessionStore.transferMaturity maturities primaryId backupId) ≤
      KeyedWrites.total UInt64.toNat maturities := by
  have amount := transferred_le (maturities.maturity primaryId)
  unfold SuccessionStore.transferMaturity
  dsimp only
  generalize SuccessionStore.transferred (maturities.maturity primaryId) =
    received at amount
  have reset :
      KeyedWrites.total UInt64.toNat (maturities.insert primaryId 0) +
          KeyedWrites.measureAt UInt64.toNat maturities primaryId =
        KeyedWrites.total UInt64.toNat maturities + (0 : UInt64).toNat :=
    KeyedWrites.total_insert primaryId 0
  rw [measureAt_toNat, UInt64.toNat_zero] at reset
  generalize maturities.insert primaryId 0 = others at reset
  have given :
      KeyedWrites.total UInt64.toNat
            (others.insert backupId
              (saturatingAdd (MaturityStore.maturity others backupId)
                received)) +
          KeyedWrites.measureAt UInt64.toNat others backupId =
        KeyedWrites.total UInt64.toNat others +
          (saturatingAdd (MaturityStore.maturity others backupId)
            received).toNat :=
    KeyedWrites.total_insert backupId _
  rw [measureAt_toNat, toNat_saturatingAdd] at given
  omega

/-- What an operation does: it fails, or one of three things. -/
theorem step_cases (state : SuccessionState) (op : SuccessionOp) :
    (∃ failure, state.step op = (state, .error failure)) ∨
      (∃ claim,
        op = .submitClaim claim ∧
          state.step op =
            ({ state with
                store :=
                  state.store.insert claim.successionProof.nodeIdPrimary
                    { claim, status := .pending } },
              .ok none)) ∨
      (∃ primaryId entry,
        op = .cancelClaim primaryId ∧
          state.store.lookup primaryId = some entry ∧
          entry.status = .pending ∧
          state.step op =
            ({ state with
                store :=
                  state.store.insert primaryId
                    { entry with status := .cancelled } },
              .ok none)) ∨
      ∃ primaryId currentEpoch entry,
        op = .executeSuccession primaryId currentEpoch ∧
          state.store.lookup primaryId = some entry ∧
          entry.status = .pending ∧
          entry.claim.claimEpoch + successionTimelockEpochs ≤
            currentEpoch ∧
          state.step op =
            ({ store :=
                state.store.insert primaryId
                  { entry with status := .executed }
               maturities :=
                SuccessionStore.transferMaturity state.maturities primaryId
                  entry.claim.nodeIdBackup },
              .ok (some entry.claim.nodeIdBackup)) := by
  cases op with
  | submitClaim claim =>
      rcases state.store.submitClaim_cases claim with
        ⟨failure, refused⟩ | stored
      · exact Or.inl ⟨failure, by rw [step, refused]; rfl⟩
      · exact Or.inr (Or.inl ⟨claim, rfl, by rw [step, stored]; rfl⟩)
  | cancelClaim primaryId =>
      rcases state.store.cancelClaim_cases primaryId with
        ⟨failure, refused⟩ | ⟨entry, found, status, cancelled⟩
      · exact Or.inl ⟨failure, by rw [step, refused]; rfl⟩
      · exact
          Or.inr (Or.inr (Or.inl
            ⟨primaryId, entry, rfl, found, status,
              by rw [step, cancelled]; rfl⟩))
  | executeSuccession primaryId currentEpoch =>
      rcases state.store.executeSuccession_cases primaryId currentEpoch
          state.maturities with
        ⟨failure, refused⟩ | ⟨entry, found, status, waited, executed⟩
      · exact Or.inl ⟨failure, by rw [step, refused]; rfl⟩
      · exact
          Or.inr (Or.inr (Or.inr
            ⟨primaryId, currentEpoch, entry, rfl, found, status, waited,
              by rw [step, executed]; rfl⟩))

/-- A refused operation changes nothing. -/
theorem unchanged_of_error
    {op : SuccessionOp}
    {failure : SuccessionError}
    (failed : (state.step op).2 = .error failure) :
    (state.step op).1 = state := by
  rcases state.step_cases op with
    ⟨_, stepped⟩ | ⟨_, _, stepped⟩ | ⟨_, _, _, _, _, stepped⟩ |
      ⟨_, _, _, _, _, _, _, stepped⟩
  · rw [stepped]
  · rw [stepped] at failed
    cases failed
  · rw [stepped] at failed
    cases failed
  · rw [stepped] at failed
    cases failed

/-- No operation creates maturity. -/
theorem totalMaturity_step_le (state : SuccessionState) (op : SuccessionOp) :
    (state.step op).1.totalMaturity ≤ state.totalMaturity := by
  rcases state.step_cases op with
    ⟨_, stepped⟩ | ⟨_, _, stepped⟩ | ⟨_, _, _, _, _, stepped⟩ |
      ⟨primaryId, _, entry, _, _, _, _, stepped⟩
  · rw [stepped]
  · rw [stepped]
    exact Nat.le_refl _
  · rw [stepped]
    exact Nat.le_refl _
  · rw [stepped]
    exact total_transferMaturity_le state.maturities _ _

/-- What is executed was pending and waited, as far as the sum shows it. -/
theorem exists_of_executes
    {primaryId backupId : Bytes32}
    {currentEpoch : UInt64}
    (executed :
      (state.step (.executeSuccession primaryId currentEpoch)).2 =
        .ok (some backupId)) :
    ∃ entry,
      state.store.lookup primaryId = some entry ∧
        entry.status = .pending ∧
        entry.claim.claimEpoch + successionTimelockEpochs ≤
          currentEpoch ∧
        (state.step (.executeSuccession primaryId currentEpoch)).1.store =
          state.store.insert primaryId { entry with status := .executed } := by
  rcases state.step_cases (.executeSuccession primaryId currentEpoch) with
    ⟨_, stepped⟩ | ⟨_, isOp, _⟩ | ⟨_, _, isOp, _⟩ |
      ⟨_, _, entry, isOp, found, status, waited, stepped⟩
  · rw [stepped] at executed
    cases executed
  · cases isOp
  · cases isOp
  · cases isOp
    rw [stepped]
    exact ⟨entry, found, status, waited, rfl⟩

/-- A claim that is executed or cancelled is no longer pending. -/
theorem not_hasPending_of_settles
    {primaryId : Bytes32}
    {op : SuccessionOp}
    (settles : Executes primaryId state op ∨ Cancels primaryId state op) :
    ¬ (state.step op).1.HasPending primaryId := by
  rintro ⟨entry, found, status⟩
  rcases settles with ⟨_, _, rfl, executed⟩ | ⟨rfl, cancelled⟩
  · obtain ⟨_, _, _, _, stored⟩ := exists_of_executes executed
    rw [stored, Finmap.lookup_insert] at found
    cases found
    cases status
  · rcases state.step_cases (.cancelClaim primaryId) with
      ⟨_, stepped⟩ | ⟨_, isOp, _⟩ | ⟨_, _, isOp, _, _, stepped⟩ |
        ⟨_, _, _, isOp, _⟩
    · rw [stepped] at cancelled
      cases cancelled
    · cases isOp
    · cases isOp
      rw [stepped, Finmap.lookup_insert] at found
      cases found
      cases status
    · cases isOp

/-- An operation keeps the store, stores an accepted claim or settles one. -/
theorem store_step_cases (state : SuccessionState) (op : SuccessionOp) :
    (state.step op).1.store = state.store ∨
      (∃ claim,
        op = .submitClaim claim ∧
          Accepts claim.successionProof.nodeIdPrimary state op ∧
          (state.step op).1.store =
            state.store.insert claim.successionProof.nodeIdPrimary
              { claim, status := .pending }) ∨
      ∃ primaryId before settled,
        state.store.lookup primaryId = some before ∧
          before.status = .pending ∧
          settled.claim = before.claim ∧
          settled.status ≠ .pending ∧
          (state.step op).1.store =
            state.store.insert primaryId settled := by
  rcases state.step_cases op with
    ⟨_, stepped⟩ | ⟨claim, isOp, stepped⟩ |
      ⟨primaryId, before, _, found, status, stepped⟩ |
      ⟨primaryId, _, before, _, found, status, _, stepped⟩
  · exact Or.inl (by rw [stepped])
  · exact
      Or.inr (Or.inl
        ⟨claim, isOp, ⟨claim, isOp, rfl, by rw [stepped]⟩, by rw [stepped]⟩)
  · exact
      Or.inr (Or.inr
        ⟨primaryId, before, { before with status := .cancelled }, found,
          status, rfl, (by decide : ClaimStatus.cancelled ≠ .pending),
          by rw [stepped]⟩)
  · exact
      Or.inr (Or.inr
        ⟨primaryId, before, { before with status := .executed }, found,
          status, rfl, (by decide : ClaimStatus.executed ≠ .pending),
          by rw [stepped]⟩)

/-- Only an accepted claim makes a claim pending. -/
theorem not_hasPending_step
    {primaryId : Bytes32}
    (state : SuccessionState)
    (op : SuccessionOp)
    (notAccepted : ¬ Accepts primaryId state op)
    (notPending : ¬ state.HasPending primaryId) :
    ¬ (state.step op).1.HasPending primaryId := by
  rintro ⟨entry, found, status⟩
  rcases state.store_step_cases op with
    stepped | ⟨claim, _, accepts, stepped⟩ |
      ⟨settledId, _, settled, _, _, _, isSettled, stepped⟩
  · rw [stepped] at found
    exact notPending ⟨entry, found, status⟩
  · rw [stepped] at found
    rcases KeyedWrites.of_lookup_insert found with
      ⟨rfl, rfl⟩ | ⟨_, wasFound⟩
    · exact notAccepted accepts
    · exact notPending ⟨entry, wasFound, status⟩
  · rw [stepped] at found
    rcases KeyedWrites.of_lookup_insert found with
      ⟨rfl, rfl⟩ | ⟨_, wasFound⟩
    · exact isSettled status
    · exact notPending ⟨entry, wasFound, status⟩

/-- A stored claim was stored before, or is accepted by the operation. -/
theorem stored_step
    {op : SuccessionOp}
    {primaryId : Bytes32}
    {entry : ClaimEntry}
    (found : (state.step op).1.store.lookup primaryId = some entry) :
    (∃ before,
        state.store.lookup primaryId = some before ∧
          before.claim = entry.claim) ∨
      (op = .submitClaim entry.claim ∧ Accepts primaryId state op) := by
  rcases state.store_step_cases op with
    stepped | ⟨claim, isOp, accepts, stepped⟩ |
      ⟨settledId, before, settled, wasPending, _, sameClaim, _, stepped⟩
  · rw [stepped] at found
    exact Or.inl ⟨entry, found, rfl⟩
  · rw [stepped] at found
    rcases KeyedWrites.of_lookup_insert found with
      ⟨rfl, rfl⟩ | ⟨_, wasFound⟩
    · exact Or.inr ⟨isOp, accepts⟩
    · exact Or.inl ⟨entry, wasFound, rfl⟩
  · rw [stepped] at found
    rcases KeyedWrites.of_lookup_insert found with
      ⟨rfl, rfl⟩ | ⟨_, wasFound⟩
    · exact Or.inl ⟨before, wasPending, sameClaim.symm⟩
    · exact Or.inl ⟨entry, wasFound, rfl⟩

/-!
## Runs
-/

/-- A claim that is stored was accepted in the run. -/
theorem accepted_of_stored
    (maturities : MaturityStore)
    (ops : List SuccessionOp)
    {primaryId : Bytes32}
    {entry : ClaimEntry}
    (found :
      (StateMachine.run step { store := ∅, maturities }
        ops).store.lookup primaryId = some entry) :
    ∃ before after,
      ops = before ++ .submitClaim entry.claim :: after ∧
        Accepts primaryId
          (StateMachine.run step { store := ∅, maturities } before)
          (.submitClaim entry.claim) := by
  induction ops using List.reverseRecOn generalizing entry with
  | nil =>
      cases found
  | append_singleton ops op inductionHypothesis =>
      rw [StateMachine.run_append] at found
      rcases stored_step found with
        ⟨earlier, wasFound, sameClaim⟩ | ⟨rfl, accepts⟩
      · obtain ⟨before, after, rfl, accepts⟩ := inductionHypothesis wasFound
        rw [sameClaim] at accepts ⊢
        exact ⟨before, after ++ [op], by simp, accepts⟩
      · exact ⟨ops, [], rfl, accepts⟩

/-- What every operation is meant to keep. -/
structure LawfulStep (state : SuccessionState) (op : SuccessionOp) : Prop where
  noOverflow :
    ∀ primaryId currentEpoch entry,
      op = .executeSuccession primaryId currentEpoch →
      state.store.lookup primaryId = some entry →
      entry.status = .pending →
      entry.claim.claimEpoch.toNat + successionTimelockEpochs.toNat ≤ maxU64
  notCreated : (state.step op).1.totalMaturity ≤ state.totalMaturity
  waited :
    ∀ primaryId currentEpoch backupId,
      op = .executeSuccession primaryId currentEpoch →
      (state.step op).2 = .ok (some backupId) →
      ∃ entry,
        state.store.lookup primaryId = some entry ∧
          entry.status = .pending ∧
          entry.claim.claimEpoch < currentEpoch
  unchanged :
    ∀ failure,
      (state.step op).2 = .error failure →
      (state.step op).1 = state

/--
A claim is settled once: between an execution or a cancellation and the next
execution for the same primary, another claim is accepted.
-/
def SettledOnce (start : SuccessionState) (ops : List SuccessionOp) : Prop :=
  ∀ primaryId past op middle op' later,
    ops = past ++ op :: (middle ++ op' :: later) →
    Executes primaryId (StateMachine.run step start past) op ∨
      Cancels primaryId (StateMachine.run step start past) op →
    Executes primaryId
      (StateMachine.run step start (past ++ op :: middle)) op' →
    ∃ before submission after,
      middle = before ++ submission :: after ∧
        Accepts primaryId
          (StateMachine.run step start (past ++ op :: before)) submission

/-- An execution finds no pending claim of the last epoch. -/
def Regular (state : SuccessionState) (op : SuccessionOp) : Prop :=
  ∀ primaryId currentEpoch entry,
    op = .executeSuccession primaryId currentEpoch →
    state.store.lookup primaryId = some entry →
    entry.status = .pending →
    entry.claim.claimEpoch.toNat ≠ maxU64

/-- An operation is lawful exactly when it is regular. -/
theorem lawfulStep_iff_regular (state : SuccessionState) (op : SuccessionOp) :
    state.LawfulStep op ↔ state.Regular op := by
  have timelock : successionTimelockEpochs.toNat = 1 := rfl
  constructor
  · intro lawful primaryId currentEpoch entry isOp found status
    have fits := lawful.noOverflow primaryId currentEpoch entry isOp found status
    omega
  · intro regular
    constructor
    · intro primaryId currentEpoch entry isOp found status
      have notLast := regular primaryId currentEpoch entry isOp found status
      have bound := entry.claim.claimEpoch.toNat_lt
      unfold maxU64 at notLast ⊢
      omega
    · exact totalMaturity_step_le state op
    · rintro primaryId currentEpoch backupId rfl executed
      obtain ⟨entry, found, status, waited, _⟩ := exists_of_executes executed
      have notLast := regular primaryId currentEpoch entry rfl found status
      refine ⟨entry, found, status, ?_⟩
      have bound := entry.claim.claimEpoch.toNat_lt
      rw [UInt64.le_iff_toNat_le, UInt64.toNat_add, timelock] at waited
      rw [UInt64.lt_iff_toNat_lt]
      unfold maxU64 at notLast
      omega
    · intro failure failed
      exact unchanged_of_error failed

/-- Claims are settled once in every run. -/
theorem settledOnce (start : SuccessionState) (ops : List SuccessionOp) :
    SettledOnce start ops := by
  intro primaryId past op middle op' later _ settles executes
  by_contra notAccepted
  rw [StateMachine.run_append, StateMachine.run_cons] at executes
  have noneAccepted :
      StateMachine.EveryStep step
        (fun state op => ¬ Accepts primaryId state op)
        ((StateMachine.run step start past).step op).1 middle := by
    rw [StateMachine.everyStep_iff_split]
    intro before submission after split accepts
    refine notAccepted ⟨before, submission, after, split, ?_⟩
    rw [StateMachine.run_append, StateMachine.run_cons]
    exact accepts
  have notPending :=
    noneAccepted.run_invariant not_hasPending_step
      (not_hasPending_of_settles settles)
  obtain ⟨_, _, rfl, executed⟩ := executes
  obtain ⟨entry, found, status, _⟩ := exists_of_executes executed
  exact notPending ⟨entry, found, status⟩

/--
Succession creates no maturity and settles each claim once, after its epoch, in
exactly the runs in which no pending claim of the last epoch is executed.
-/
theorem succession_iff (maturities : MaturityStore) (ops : List SuccessionOp) :
    (StateMachine.EveryStep step LawfulStep
          { store := ∅, maturities } ops ∧
        SettledOnce { store := ∅, maturities } ops) ↔
      StateMachine.EveryStep step Regular { store := ∅, maturities } ops :=
  (and_iff_left (settledOnce _ ops)).trans
    (StateMachine.everyStep_iff lawfulStep_iff_regular _ ops)

/-- A claim of the last epoch is executed at any epoch. -/
theorem executes_at_any_epoch
    {primaryId : Bytes32}
    {entry : ClaimEntry}
    (found : state.store.lookup primaryId = some entry)
    (status : entry.status = .pending)
    (lastEpoch : entry.claim.claimEpoch.toNat = maxU64)
    (currentEpoch : UInt64) :
    Executes primaryId state (.executeSuccession primaryId currentEpoch) := by
  have wraps :
      entry.claim.claimEpoch + successionTimelockEpochs = 0 := by
    rw [← UInt64.toNat_inj, UInt64.toNat_add, lastEpoch]
    rfl
  have notWaiting :
      ¬ currentEpoch <
        entry.claim.claimEpoch + successionTimelockEpochs := by
    rw [wraps]
    exact UInt64.not_lt.mpr UInt64.zero_le
  refine ⟨currentEpoch, entry.claim.nodeIdBackup, rfl, ?_⟩
  simp only [step, SuccessionStore.executeSuccession, found, status,
    if_neg notWaiting]
  rfl

/-- A claim for the last epoch of the machine word. -/
def lastEpochClaim : SuccessionClaim where
  nodeIdBackup := Bytes32.endingIn 2
  claimEpoch := 0xFFFFFFFFFFFFFFFF
  successionProof :=
    { nodeIdPrimary := Bytes32.endingIn 1
      nodeIdBackup := Bytes32.endingIn 2
      commitmentEpoch := 10
      sigPrimary := []
      sigBackup := [] }
  sigClaim := []
  feePaidSscl := 10000

/-- The claim is executed at epoch zero, without having waited. -/
theorem succession_broken :
    ¬ ∀ (maturities : MaturityStore) (ops : List SuccessionOp),
        StateMachine.EveryStep step LawfulStep
            { store := ∅, maturities } ops ∧
          SettledOnce { store := ∅, maturities } ops := by
  intro always
  have lawful :=
    (always ∅
      [.submitClaim lastEpochClaim,
        .executeSuccession (Bytes32.endingIn 1) 0]).1.2.1
  obtain ⟨entry, _, _, early⟩ :=
    lawful.waited (Bytes32.endingIn 1) 0 (Bytes32.endingIn 2) rfl
      (by decide)
  exact absurd early UInt64.not_lt_zero

end SuccessionState

end ScalarCore
