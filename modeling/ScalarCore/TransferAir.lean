import ScalarCore.FieldConstraints
import ScalarCore.TransferPublicInputs

namespace ScalarCore.TransferAirP3

/-!
# Constraints of the transfer circuit

One row of the trace describes a transfer.  `eval` lists what must vanish on
it, block by block in the order of the source; an equation is its difference.
A row is a function from columns to elements, of which the first
`transferTraceWidth` are read.
-/

open FieldConstraints

/-- Inputs, and outputs, a transfer may have. -/
def maxIoCf : Nat :=
  10

/-- Scale of the reciprocals. -/
def recipScale : Nat :=
  2 ^ 32

/-- Number of columns of the trace. -/
def transferTraceWidth : Nat :=
  857

def colFee : Nat := 0
def colSumIn : Nat := 1
def colSumOut : Nat := 2
def colVersion : Nat := 3
def colCurrentSubepoch : Nat := 4
def colTargetSubepoch : Nat := 5
def colCgValidity : Nat := 6
def colCbVerified : Nat := 7
def colCcVerified : Nat := 8
def colOutputNonzero : Nat := 9
def colSingleSource : Nat := 10
def colCommitmentHash0 : Nat := 11
def colNullifierHash0 : Nat := 15
def colFeeAboveFloor : Nat := 19
def colFeeBitStart : Nat := 20
def feeBitCount : Nat := 52
def colTargetBitStart : Nat := 72
def targetBitCount : Nat := 40
def colValueInStart : Nat := 112
def colInvInStart : Nat := 122
def colValueOutStart : Nat := 132
def colInvOutStart : Nat := 142
def colStorageMass : Nat := 152
def colNumInputs : Nat := 153
def colNumOutputs : Nat := 154
def remBitCount : Nat := 32
def colRemInBitStart : Nat := 155
def colRemOutBitStart : Nat := 475
def colBaseFee : Nat := 795
def colComplexityFee : Nat := 796
def colFloorBase : Nat := 797
def colTxNonce : Nat := 798
def premiumBitCount : Nat := 52
def colPremiumRawStart : Nat := 799
def colPremiumQ : Nat := 803
def colPremium : Nat := 804
def colPremiumBitStart : Nat := 805
def basePricePerMass : Nat := 1000
def pricePerCu : Nat := 1000

/-- Errors of the proof functions. -/
inductive TransferP3Error where
  | constraintViolated (index : Nat)
  | verificationFailed
  | serializationFailed (text : String)

/-- A row of the trace. -/
abbrev Row :=
  Nat → Goldilocks

/-- A public value. -/
abbrev publicValue (pv : List Goldilocks) (index : Nat) : Goldilocks :=
  pv.getD index 0

section Blocks

variable (row : Row) (pv : List Goldilocks)

/-- The numeric columns are the first public values. -/
def publicBinding : List Goldilocks :=
  [row colFee - publicValue pv 0,
    row colSumIn - publicValue pv 1,
    row colSumOut - publicValue pv 2,
    row colVersion - publicValue pv 3,
    row colCurrentSubepoch - publicValue pv 4]

/-- Value conservation. -/
def conservation : List Goldilocks :=
  [row colSumIn - row colSumOut - row colFee]

/-- The fee is the floor plus a number of 52 bits. -/
def feeFloor : List Goldilocks :=
  [row colFee - (row colFeeAboveFloor + (feeFloorSscl.toNat : Goldilocks))] ++
    rangeProof (fun index => row (colFeeBitStart + index)) feeBitCount
      (row colFeeAboveFloor)

/-- The crypto version. -/
def cryptoVersion : List Goldilocks :=
  [row colVersion - (validCryptoVersion.toNat : Goldilocks)]

/-- The target has 40 bits and is at most one sub-epoch back. -/
def cgArith : List Goldilocks :=
  [row colCurrentSubepoch - (row colTargetSubepoch + row colCgValidity),
      bitConstraint (row colCgValidity)] ++
    rangeProof (fun index => row (colTargetBitStart + index)) targetBitCount
      (row colTargetSubepoch)

/-- A flag column is boolean and set. -/
def flagSet (column : Nat) : List Goldilocks :=
  [bitConstraint (row column), row column - 1]

/-- The flag columns.  No public value is read. -/
def verifiedFlags : List Goldilocks :=
  flagSet row colCbVerified ++ flagSet row colCcVerified ++
    flagSet row colOutputNonzero ++ flagSet row colSingleSource

/-- One reciprocal: the scale is the product plus a remainder of 32 bits. -/
def reciprocal (valueStart invStart bitStart slot : Nat) : List Goldilocks :=
  rangeProof (fun bit => row (bitStart + slot * remBitCount + bit)) remBitCount
    ((recipScale : Goldilocks) -
      row (valueStart + slot) * row (invStart + slot))

/-- The sum of ten consecutive columns. -/
def columnSum (start : Nat) : Goldilocks :=
  ((List.range maxIoCf).map fun slot => row (start + slot)).sum

/-- Storage mass and the fee components that follow from it. -/
def storageMass : List Goldilocks :=
  (List.range maxIoCf).flatMap
      (fun slot =>
        reciprocal row colValueInStart colInvInStart colRemInBitStart slot ++
          reciprocal row colValueOutStart colInvOutStart colRemOutBitStart
            slot) ++
    [row colStorageMass -
        (columnSum row colInvOutStart - columnSum row colInvInStart),
      row colBaseFee - row colStorageMass * (basePricePerMass : Goldilocks),
      row colComplexityFee -
        (row colNumInputs + row colNumOutputs) * (pricePerCu : Goldilocks),
      row colFloorBase - (row colBaseFee + row colComplexityFee)]

/-- The premium has 52 bits and is the raw value less a multiple. -/
def premium : List Goldilocks :=
  rangeProof (fun bit => row (colPremiumBitStart + bit)) premiumBitCount
      (row colPremium) ++
    [row colPremiumRawStart -
      (row colPremium + row colPremiumQ * (row colFloorBase + 1))]

/-- The hash columns are the last public values. -/
def crossBinding : List Goldilocks :=
  [row colCommitmentHash0 - publicValue pv 33,
    row (colCommitmentHash0 + 1) - publicValue pv 34,
    row (colCommitmentHash0 + 2) - publicValue pv 35,
    row (colCommitmentHash0 + 3) - publicValue pv 36,
    row colNullifierHash0 - publicValue pv 37,
    row (colNullifierHash0 + 1) - publicValue pv 38,
    row (colNullifierHash0 + 2) - publicValue pv 39,
    row (colNullifierHash0 + 3) - publicValue pv 40]

/-- `eval`. -/
def eval : List Goldilocks :=
  publicBinding row pv ++ conservation row ++ feeFloor row ++
    cryptoVersion row ++ cgArith row ++ verifiedFlags row ++
    storageMass row ++ premium row ++ crossBinding row pv

/-- The constraints that read the first 112 columns only. -/
def headEval : List Goldilocks :=
  publicBinding row pv ++ conservation row ++ feeFloor row ++
    cryptoVersion row ++ cgArith row ++ verifiedFlags row ++
    crossBinding row pv

/-- The other constraints are those of the storage mass and of the premium. -/
theorem vanish_eval_iff :
    Vanish (eval row pv) ↔
      Vanish (headEval row pv) ∧ Vanish (storageMass row) ∧
        Vanish (premium row) := by
  simp only [eval, headEval, vanish_append]
  tauto

end Blocks

section Columns

variable {row row' : Row}

/-- The first columns decide the head of the constraints. -/
theorem headEval_congr
    (same : ∀ column < 112, row column = row' column)
    (pv : List Goldilocks) :
    headEval row pv = headEval row' pv := by
  have feeBits :
      rangeProof (fun index => row (colFeeBitStart + index)) feeBitCount
          (row colFeeAboveFloor) =
        rangeProof (fun index => row' (colFeeBitStart + index)) feeBitCount
          (row' colFeeAboveFloor) := by
    rw [same colFeeAboveFloor (by decide)]
    apply rangeProof_congr
    intro index inRange
    unfold feeBitCount at inRange
    unfold colFeeBitStart
    exact same _ (by omega)
  have targetBits :
      rangeProof (fun index => row (colTargetBitStart + index)) targetBitCount
          (row colTargetSubepoch) =
        rangeProof (fun index => row' (colTargetBitStart + index))
          targetBitCount (row' colTargetSubepoch) := by
    rw [same colTargetSubepoch (by decide)]
    apply rangeProof_congr
    intro index inRange
    unfold targetBitCount at inRange
    unfold colTargetBitStart
    exact same _ (by omega)
  have flags (column : Nat) (inRange : column < 112) :
      flagSet row column = flagSet row' column := by
    rw [flagSet, flagSet, same column inRange]
  simp only [headEval, publicBinding, conservation, feeFloor, cryptoVersion,
    cgArith, verifiedFlags, crossBinding, feeBits, targetBits]
  rw [flags colCbVerified (by decide), flags colCcVerified (by decide),
    flags colOutputNonzero (by decide), flags colSingleSource (by decide),
    same colFee (by decide), same colSumIn (by decide),
    same colSumOut (by decide), same colVersion (by decide),
    same colCurrentSubepoch (by decide), same colFeeAboveFloor (by decide),
    same colTargetSubepoch (by decide), same colCgValidity (by decide),
    same colCommitmentHash0 (by decide),
    same (colCommitmentHash0 + 1) (by decide),
    same (colCommitmentHash0 + 2) (by decide),
    same (colCommitmentHash0 + 3) (by decide),
    same colNullifierHash0 (by decide),
    same (colNullifierHash0 + 1) (by decide),
    same (colNullifierHash0 + 2) (by decide),
    same (colNullifierHash0 + 3) (by decide)]

/-- A reciprocal reads its slot and its remainder bits. -/
theorem reciprocal_congr
    (same : ∀ column < colTxNonce, row column = row' column)
    {valueStart invStart bitStart slot : Nat}
    (valueInRange : valueStart + slot < colTxNonce)
    (invInRange : invStart + slot < colTxNonce)
    (bitsInRange : bitStart + (slot + 1) * remBitCount ≤ colTxNonce) :
    reciprocal row valueStart invStart bitStart slot =
      reciprocal row' valueStart invStart bitStart slot := by
  unfold reciprocal
  rw [same _ valueInRange, same _ invInRange]
  apply rangeProof_congr
  intro bit inRange
  apply same
  rw [Nat.succ_mul] at bitsInRange
  omega

/-- The storage mass reads the columns before the nonce. -/
theorem storageMass_congr
    (same : ∀ column < colTxNonce, row column = row' column) :
    storageMass row = storageMass row' := by
  have sums
      (start : Nat)
      (inRange : start + maxIoCf ≤ colTxNonce) :
      columnSum row start = columnSum row' start := by
    rw [columnSum, columnSum]
    apply congrArg List.sum
    apply List.map_congr_left
    intro slot listed
    have isSlot := List.mem_range.mp listed
    exact same _ (by omega)
  have reciprocals :
      (List.range maxIoCf).flatMap
          (fun slot =>
            reciprocal row colValueInStart colInvInStart colRemInBitStart
                slot ++
              reciprocal row colValueOutStart colInvOutStart colRemOutBitStart
                slot) =
        (List.range maxIoCf).flatMap fun slot =>
          reciprocal row' colValueInStart colInvInStart colRemInBitStart
              slot ++
            reciprocal row' colValueOutStart colInvOutStart colRemOutBitStart
              slot := by
    apply List.flatMap_congr
    intro slot listed
    have isSlot : slot < 10 := List.mem_range.mp listed
    rw [reciprocal_congr same, reciprocal_congr same] <;>
      simp only [colValueInStart, colInvInStart, colRemInBitStart,
        colValueOutStart, colInvOutStart, colRemOutBitStart, colTxNonce,
        remBitCount] <;>
      omega
  rw [storageMass, storageMass, reciprocals, sums _ (by decide),
    sums _ (by decide), same colStorageMass (by decide),
    same colBaseFee (by decide), same colComplexityFee (by decide),
    same colNumInputs (by decide), same colNumOutputs (by decide),
    same colFloorBase (by decide)]

end Columns

/-- All constraints vanish on a row, against the public values of a transfer. -/
def Accepts (row : Row) (pi : TransferPublicInputsP3) : Prop :=
  Vanish (eval row pi.toGoldilocks)

end ScalarCore.TransferAirP3
