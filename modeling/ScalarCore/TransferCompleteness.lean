import ScalarCore.Poseidon2Verifier
import ScalarCore.TransferTrace

namespace ScalarCore.TransferAirP3

/-!
# What the checks before the proof leave out

The checks compare machine words, and the sum they compare with saturates.  The
circuit holds words modulo the prime, gives the fee above the floor 52 bits and
the target 40.  Both agree when the sum does not saturate and the two numbers
fit; otherwise the checks pass and the trace is not accepted.
-/

open FieldConstraints MachineInt

/-- `is_power_of_two`. -/
def isPowerOfTwo (count : Nat) : Bool :=
  decide (count ≠ 0 ∧ count &&& (count - 1) = 0)

/-- `build_transfer_trace`: the row as often as asked for. -/
def buildTransferTraceRows
    (perm : T8Permutation)
    (pi : TransferPublicInputsP3)
    (cf : CfWitnesses)
    (numRows : Nat) : Option (List Row) :=
  if isPowerOfTwo numRows then
    (buildTransferTrace perm pi cf).map (List.replicate numRows)
  else
    none

variable {perm : T8Permutation} {pi : TransferPublicInputsP3}

/-- The trace is accepted when its row is. -/
theorem buildTransferTraceRows_accepted_iff
    {cf : CfWitnesses} :
    (∃ rows,
        buildTransferTraceRows perm pi cf 8 = some rows ∧
          ∀ row ∈ rows, Accepts row pi) ↔
      ∃ row, buildTransferTrace perm pi cf = some row ∧ Accepts row pi := by
  have eight : isPowerOfTwo 8 = true := by
    decide
  simp only [buildTransferTraceRows, eight, if_true, Option.map_eq_some_iff]
  constructor
  · rintro ⟨_, ⟨row, built, rfl⟩, accepted⟩
    exact ⟨row, built, accepted row (List.mem_replicate.mpr ⟨by decide, rfl⟩)⟩
  · rintro ⟨row, built, accepted⟩
    refine ⟨_, ⟨row, built, rfl⟩, ?_⟩
    intro other listed
    rwa [List.eq_of_mem_replicate listed]

section Ranges

variable {above target validity : Nat}

/-- The fee bits of a row hold the low 52 bits of the fee above the floor. -/
theorem lt_of_feeFloor_forgedRow
    (bound : above < 2 ^ 64)
    (vanish : Vanish (feeFloor (forgedRow pi above target validity))) :
    above < 2 ^ 52 := by
  rw [feeFloor, vanish_append,
    vanish_rangeProof_iff fun index inRange => forgedRow_feeBit inRange] at vanish
  have wide : above < 2 ^ 52 * 0xFFFFFFFF00000001 :=
    bound.trans (by decide)
  exact (Goldilocks.natCast_eq_mod_two_pow_iff wide).mp vanish.2

/-- The target bits of a row hold the low 40 bits of the target. -/
theorem lt_of_cgArith_forgedRow
    (bound : target < 2 ^ 64)
    (vanish : Vanish (cgArith (forgedRow pi above target validity))) :
    target < 2 ^ 40 := by
  rw [cgArith, vanish_append,
    vanish_rangeProof_iff fun index inRange => forgedRow_targetBit inRange]
    at vanish
  have wide : target < 2 ^ 40 * 0xFFFFFFFF00000001 :=
    bound.trans (by decide)
  exact (Goldilocks.natCast_eq_mod_two_pow_iff wide).mp vanish.2

end Ranges

/-- A sum that saturates is not conserved in the field when the fee is small. -/
theorem le_maxU64_of_conserved
    {sumOutputs fee : UInt64}
    (feeBelow : fee.toNat < 2 ^ 52 + 40)
    (conserved :
      Goldilocks.new (saturatingAdd sumOutputs fee) =
        Goldilocks.new sumOutputs + Goldilocks.new fee) :
    sumOutputs.toNat + fee.toNat ≤ maxU64 := by
  by_contra saturates
  have exceeds : maxU64 < sumOutputs.toNat + fee.toNat :=
    not_le.mp saturates
  rw [Goldilocks.new, toNat_saturatingAdd, min_eq_right exceeds.le,
    Goldilocks.new, Goldilocks.new, ← Nat.cast_add,
    ZMod.natCast_eq_natCast_iff] at conserved
  have divides := (Nat.modEq_iff_dvd' exceeds.le).mp conserved
  have small :
      sumOutputs.toNat + fee.toNat - maxU64 < 0xFFFFFFFF00000001 := by
    have bound := sumOutputs.toNat_lt
    simp only [maxU64]
    omega
  have isZero := Nat.eq_zero_of_dvd_of_lt divides small
  omega

/-- An accepted row of a checked transfer shows the three ranges. -/
theorem ranges_of_accepts_buildTransferTrace
    (passed : pi.checkAllConstraints = .ok ())
    {row : Row}
    (built : buildTransferTrace perm pi .none = some row)
    (accepted : Accepts row pi) :
    pi.sumOutputsSscl.toNat + pi.feeTotalSscl.toNat ≤ maxU64 ∧
      pi.feeTotalSscl.toNat < 2 ^ 52 + 40 ∧
        pi.targetSubepochId.toNat < 2 ^ 40 := by
  obtain ⟨conserved, _, _, isSome, cbVerified, ccVerified, nonzero, oneSource⟩ :=
    TransferPublicInputsP3.checkAllConstraints_eq_ok_iff.mp passed
  obtain ⟨validity, isValidity⟩ := Option.isSome_iff_exists.mp isSome
  obtain ⟨sameRow, isRow, agrees, _⟩ :=
    exists_buildTransferTrace_none perm isValidity cbVerified ccVerified nonzero
      oneSource
  cases Option.some_inj.mp (built.symm.trans isRow)
  have head := ((vanish_eval_iff _ _).mp accepted).1
  rw [headEval_congr fun column inRange =>
    agrees column (inRange.trans (by decide))] at head
  simp only [headEval, vanish_append] at head
  obtain ⟨⟨⟨⟨⟨⟨_, _⟩, fee⟩, _⟩, arith⟩, _⟩, _⟩ := head
  have aboveBelow := lt_of_feeFloor_forgedRow (UInt64.toNat_lt _) fee
  have targetBelow := lt_of_cgArith_forgedRow (UInt64.toNat_lt _) arith
  have floor : feeFloorSscl.toNat = 40 := rfl
  have above := toNat_saturatingSub pi.feeTotalSscl feeFloorSscl
  have feeBelow : pi.feeTotalSscl.toNat < 2 ^ 52 + 40 := by
    omega
  have sums := (admissible_of_accepts accepted).conserved
  rw [conserved] at sums
  exact ⟨le_maxU64_of_conserved feeBelow sums, feeBelow, targetBelow⟩

/--
For a transfer that passes the checks, the trace is accepted exactly when the
sum of outputs and fee does not saturate and fee and target have enough bits.
-/
theorem buildTransferTrace_complete_iff
    (perm : T8Permutation)
    {pi : TransferPublicInputsP3}
    (passed : pi.checkAllConstraints = .ok ()) :
    (∃ rows,
        buildTransferTraceRows perm pi .none 8 = some rows ∧
          ∀ row ∈ rows, Accepts row pi) ↔
      pi.sumOutputsSscl.toNat + pi.feeTotalSscl.toNat ≤ maxU64 ∧
        pi.feeTotalSscl.toNat < 2 ^ 52 + 40 ∧
          pi.targetSubepochId.toNat < 2 ^ 40 := by
  rw [buildTransferTraceRows_accepted_iff]
  constructor
  · rintro ⟨row, built, accepted⟩
    exact ranges_of_accepts_buildTransferTrace passed built accepted
  · rintro ⟨exactSum, feeBelow, targetBelow⟩
    exact exists_accepts_buildTransferTrace perm passed exactSum feeBelow
      targetBelow

/-- The trace of the plain transfer is accepted. -/
theorem buildTransferTrace_complete_plainTransfer :
    plainTransfer.checkAllConstraints = .ok () ∧
      ∃ rows,
        buildTransferTraceRows VerifierPy.t8Permutation plainTransfer .none 8 =
            some rows ∧
          ∀ row ∈ rows, Accepts row plainTransfer := by
  have passed : plainTransfer.checkAllConstraints = .ok () :=
    rfl
  exact
    ⟨passed,
      (buildTransferTrace_complete_iff VerifierPy.t8Permutation passed).mpr
        ⟨by decide, by decide, by decide⟩⟩

/-- A target of 41 bits passes the checks, and its trace is not accepted. -/
theorem buildTransferTrace_lateTarget :
    let late : TransferPublicInputsP3 :=
      { plainTransfer with
        currentSubepochId := 0x10000000000
        targetSubepochId := 0x10000000000 }
    late.checkAllConstraints = .ok () ∧
      ¬ ∃ rows,
          buildTransferTraceRows VerifierPy.t8Permutation late .none 8 =
              some rows ∧
            ∀ row ∈ rows, Accepts row late := by
  intro late
  have passed : late.checkAllConstraints = .ok () :=
    TransferPublicInputsP3.checkAllConstraints_eq_ok_iff.mpr
      ⟨by decide, by decide, rfl, by decide, rfl, rfl, rfl, rfl⟩
  refine ⟨passed, ?_⟩
  rw [buildTransferTraceRows_accepted_iff]
  rintro ⟨row, built, accepted⟩
  have ranges := ranges_of_accepts_buildTransferTrace passed built accepted
  exact absurd ranges.2.2 (by decide)

end ScalarCore.TransferAirP3
