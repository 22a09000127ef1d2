import ScalarCore.TransferPublicInputs

namespace ScalarCore.VerifierPy

/-!
# The constraint checker of the independent verifier

The second implementation of the pre-flight checks of a transfer.  It computes
with unbounded integers where the first clamps a sum at the largest word, and
runs a table of checks where the first has a chain of conditions.
-/

open FallibleChecks MachineInt

/-- `VALID_CRYPTO_VERSION`. -/
def validCryptoVersion : Int :=
  0x01

/-- `FEE_FLOOR_SSCL`. -/
def feeFloorSscl : Int :=
  40

/-- `CG_MAX_VALIDITY`. -/
def cgMaxValidity : Int :=
  1

/-- The entries of a public-input dictionary that the checks read. -/
structure PiDict where
  feeTotalSscl : Int
  sumInputsSscl : Int
  sumOutputsSscl : Int
  cryptoVersion : Int
  currentSubepochId : Int
  targetSubepochId : Int
  cbMembershipVerified : Bool
  ccNonmembershipVerified : Bool
  outputNonzero : Bool
  singleUtxoSource : Bool
  deriving Repr, DecidableEq

/-- The dictionary of a record, its words as integers. -/
def PiDict.ofRecord (pi : TransferPublicInputsP3) : PiDict where
  feeTotalSscl := pi.feeTotalSscl.toNat
  sumInputsSscl := pi.sumInputsSscl.toNat
  sumOutputsSscl := pi.sumOutputsSscl.toNat
  cryptoVersion := pi.cryptoVersion.toNat
  currentSubepochId := pi.currentSubepochId.toNat
  targetSubepochId := pi.targetSubepochId.toNat
  cbMembershipVerified := pi.cbMembershipVerified
  ccNonmembershipVerified := pi.ccNonmembershipVerified
  outputNonzero := pi.outputNonzero
  singleUtxoSource := pi.singleUtxoSource

/-- Inputs are the outputs and the fee. -/
def checkCdConservation (pi : PiDict) : Bool :=
  pi.sumInputsSscl == pi.sumOutputsSscl + pi.feeTotalSscl

/-- The fee is not below the floor. -/
def checkCdFeeFloor (pi : PiDict) : Bool :=
  decide (pi.feeTotalSscl ≥ feeFloorSscl)

/-- The crypto version is the valid one. -/
def checkCgVersion (pi : PiDict) : Bool :=
  pi.cryptoVersion == validCryptoVersion

/-- `cg_validity`. -/
def cgValidity (currentSubepochId targetSubepochId : Int) : Option Int :=
  if currentSubepochId < targetSubepochId then
    none
  else
    let validity := currentSubepochId - targetSubepochId
    if validity > cgMaxValidity then
      none
    else
      some validity

/-- The target is admissible in the current sub-epoch. -/
def checkCgValidity (pi : PiDict) : Bool :=
  (cgValidity pi.currentSubepochId pi.targetSubepochId).isSome

def checkCbMembership (pi : PiDict) : Bool :=
  pi.cbMembershipVerified

def checkCcNonmembership (pi : PiDict) : Bool :=
  pi.ccNonmembershipVerified

def checkCeOutputNonzero (pi : PiDict) : Bool :=
  pi.outputNonzero

def checkInv46SingleSource (pi : PiDict) : Bool :=
  pi.singleUtxoSource

/-- `CONSTRAINT_FNS`. -/
def constraintFns : List (PiDict → Bool) :=
  [checkCdConservation, checkCdFeeFloor, checkCgVersion, checkCgValidity,
    checkCbMembership, checkCcNonmembership, checkCeOutputNonzero,
    checkInv46SingleSource]

/-- The loop of `check_all_constraints` from an index on. -/
def runConstraints
    (pi : PiDict) :
    List (PiDict → Bool) → Nat → Bool × Option Nat
  | [], _ => (true, none)
  | fn :: rest, i =>
      if !fn pi then
        (false, some i)
      else
        runConstraints pi rest (i + 1)

/-- `check_all_constraints`: whether all hold, and the first that does not. -/
def checkAllConstraints (pi : PiDict) : Bool × Option Nat :=
  runConstraints pi constraintFns 0

/-- The loop reports the place of the first check that fails. -/
theorem runConstraints_eq_firstFailing
    (pi : PiDict)
    (fns : List (PiDict → Bool))
    (i : Nat) :
    runConstraints pi fns i =
      match firstFailing (fns.map (· pi)) i with
      | none => (true, none)
      | some place => (false, some place) := by
  induction fns generalizing i with
  | nil =>
      rfl
  | cons fn rest inductionHypothesis =>
      rw [runConstraints, List.map_cons, firstFailing]
      cases answer : fn pi with
      | false =>
          rfl
      | true =>
          exact inductionHypothesis (i + 1)

/-- The validity distance is the one of the first implementation. -/
theorem cgValidity_eq (current target : UInt64) :
    cgValidity current.toNat target.toNat =
      (ScalarCore.cgValidity current target).map fun validity =>
        (validity.toNat : Int) := by
  have one : ScalarCore.cgMaxValidity.toNat = 1 := rfl
  unfold cgValidity ScalarCore.cgValidity cgMaxValidity
  by_cases before : current < target
  · have below := UInt64.lt_iff_toNat_lt.mp before
    rw [if_pos before, if_pos (by omega)]
    rfl
  · have order := UInt64.le_iff_toNat_le.mp (UInt64.not_lt.mp before)
    have distance :=
      UInt64.toNat_sub_of_le _ _ (UInt64.not_lt.mp before)
    rw [if_neg before, if_neg (by omega)]
    by_cases stale : current - target > ScalarCore.cgMaxValidity
    · have far := UInt64.lt_iff_toNat_lt.mp stale
      rw [if_pos stale, if_pos (by omega)]
      rfl
    · have near := UInt64.le_iff_toNat_le.mp (UInt64.not_lt.mp stale)
      rw [if_neg stale, if_neg (by omega), Option.map_some, distance]
      congr 1
      omega

/-- The checks of a record after the first are those of the first implementation. -/
theorem map_constraintFns (pi : TransferPublicInputsP3) :
    constraintFns.map (· (PiDict.ofRecord pi)) =
      checkCdConservation (PiDict.ofRecord pi) :: pi.answers.tail := by
  have feeFloor :
      checkCdFeeFloor (PiDict.ofRecord pi) = pi.checkCdFeeFloor := by
    have floor : ScalarCore.feeFloorSscl.toNat = 40 := rfl
    simp only [checkCdFeeFloor, TransferPublicInputsP3.checkCdFeeFloor,
      PiDict.ofRecord, feeFloorSscl, ge_iff_le, UInt64.le_iff_toNat_le,
      floor, decide_eq_decide]
    omega
  have version :
      checkCgVersion (PiDict.ofRecord pi) = pi.checkCgVersion := by
    have valid : ScalarCore.validCryptoVersion.toNat = 1 := rfl
    rw [Bool.eq_iff_iff]
    simp only [checkCgVersion, TransferPublicInputsP3.checkCgVersion,
      PiDict.ofRecord, validCryptoVersion, beq_iff_eq, ← UInt64.toNat_inj,
      valid]
    omega
  have validity :
      checkCgValidity (PiDict.ofRecord pi) = pi.checkCgValidity := by
    simp only [checkCgValidity, PiDict.ofRecord, cgValidity_eq,
      Option.isSome_map, TransferPublicInputsP3.checkCgValidity]
  simp only [constraintFns, List.map_cons, List.map_nil, feeFloor, version,
    validity]
  rfl

/-- The two conservation checks differ where the clamped sum meets the largest word. -/
theorem checkCdConservation_eq_iff (pi : TransferPublicInputsP3) :
    checkCdConservation (PiDict.ofRecord pi) = pi.checkCdConservation ↔
      ¬(pi.sumInputsSscl.toNat = maxU64 ∧
        maxU64 < pi.sumOutputsSscl.toNat + pi.feeTotalSscl.toNat) := by
  have bound := pi.sumInputsSscl.toNat_lt
  rw [Bool.eq_iff_iff]
  simp only [checkCdConservation, TransferPublicInputsP3.checkCdConservation,
    PiDict.ofRecord, beq_iff_eq, ← UInt64.toNat_inj, toNat_saturatingAdd]
  simp only [maxU64] at *
  omega

/-- A record that the second implementation passes, the first passes too. -/
theorem checkAllConstraints_ok_of_passed
    {pi : TransferPublicInputsP3}
    (passed : checkAllConstraints (PiDict.ofRecord pi) = (true, none)) :
    pi.checkAllConstraints = .ok () := by
  have noneFails :
      firstFailing (constraintFns.map (· (PiDict.ofRecord pi))) 0 = none := by
    unfold checkAllConstraints at passed
    rw [runConstraints_eq_firstFailing] at passed
    split at passed
    · assumption
    · cases passed
  have conserved : checkCdConservation (PiDict.ofRecord pi) = true := by
    rw [map_constraintFns] at noneFails
    by_contra fails
    rw [Bool.not_eq_true] at fails
    rw [fails, firstFailing] at noneFails
    cases noneFails
  have exactSum := beq_iff_eq.mp conserved
  have bound := pi.sumInputsSscl.toNat_lt
  have sameConservation :=
    (checkCdConservation_eq_iff pi).mpr fun overflow => by
      simp only [PiDict.ofRecord, maxU64] at exactSum overflow
      omega
  have headAndTail :
      pi.answers = pi.checkCdConservation :: pi.answers.tail := rfl
  rw [pi.checkAllConstraints_eq_firstFailing, headAndTail,
    ← sameConservation, ← map_constraintFns, noneFails]

/-- The verdicts of both implementations on one record. -/
def CheckersAgree (pi : TransferPublicInputsP3) : Prop :=
  (checkAllConstraints (PiDict.ofRecord pi) = (true, none) ↔
    pi.checkAllConstraints = .ok ()) ∧
  ∀ i : Nat,
    checkAllConstraints (PiDict.ofRecord pi) = (false, some i) ↔
      pi.checkAllConstraints = .error i

/-- The verdicts agree when both runs fail at one place. -/
theorem checkersAgree_iff_firstFailing (pi : TransferPublicInputsP3) :
    CheckersAgree pi ↔
      firstFailing (constraintFns.map (· (PiDict.ofRecord pi))) 0 =
        firstFailing pi.answers 0 := by
  unfold CheckersAgree checkAllConstraints
  rw [runConstraints_eq_firstFailing, pi.checkAllConstraints_eq_firstFailing]
  generalize firstFailing (constraintFns.map _) 0 = verdict
  generalize firstFailing pi.answers 0 = verdict'
  cases verdict with
  | none =>
      cases verdict' with
      | none =>
          simp
      | some place =>
          simp
  | some place =>
      cases verdict' with
      | none =>
          simp
      | some place' =>
          simp only [Prod.mk.injEq, Bool.false_eq_true, Option.some.injEq,
            Except.error.injEq, true_and, false_and, reduceCtorEq]
          constructor
          · intro same
            exact (same place).mp rfl ▸ rfl
          · rintro rfl
            simp

/--
The verdicts agree on every record except those that publish the largest word
as the sum of the inputs while the outputs and the fee exceed it.
-/
theorem checkersAgree_iff (pi : TransferPublicInputsP3) :
    CheckersAgree pi ↔
      ¬(pi.sumInputsSscl.toNat = maxU64 ∧
        maxU64 < pi.sumOutputsSscl.toNat + pi.feeTotalSscl.toNat) := by
  have headAndTail :
      pi.answers = pi.checkCdConservation :: pi.answers.tail := rfl
  rw [checkersAgree_iff_firstFailing, map_constraintFns, headAndTail,
    List.tail_cons, firstFailing_cons_eq_iff, checkCdConservation_eq_iff]

/-- The record whose outputs are the largest word and whose fee exceeds it. -/
def overflowingRecord : TransferPublicInputsP3 where
  feeTotalSscl := 40
  sumInputsSscl := 0xFFFFFFFFFFFFFFFF
  sumOutputsSscl := 0xFFFFFFFFFFFFFFFF
  cryptoVersion := 1
  currentSubepochId := 1000
  targetSubepochId := 1000
  utxoSetRoot := Bytes32.zero
  cbMembershipVerified := true
  nullifierActiveRoot := Bytes32.zero
  nullifierArchivedRoot := Bytes32.zero
  ccNonmembershipVerified := true
  outputNonzero := true
  singleUtxoSource := true
  commitmentHash := fun _ => 0
  nullifierHash := fun _ => 0

/-- The first implementation passes that record, the second fails its first check. -/
theorem checkers_disagree :
    overflowingRecord.checkAllConstraints = .ok () ∧
      checkAllConstraints (PiDict.ofRecord overflowingRecord) =
        (false, some 0) ∧
      ¬∀ pi, CheckersAgree pi := by
  have passes : overflowingRecord.checkAllConstraints = .ok () := by
    decide
  have fails :
      checkAllConstraints (PiDict.ofRecord overflowingRecord) =
        (false, some 0) := by
    decide
  refine ⟨passes, fails, fun agree => ?_⟩
  have same := (agree overflowingRecord).1.mpr passes
  rw [fails] at same
  cases same

end ScalarCore.VerifierPy
