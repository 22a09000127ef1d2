import ScalarCore.MintAir
import ScalarCore.TransferTrace

namespace ScalarCore

/-!
# The second verifier

The mint and transfer circuits are written a second time, with constants of
their own, and proofs of the primary prover are to be verified with them.  The
mint circuit is the same.  The transfer circuit keeps the width that the primary
had before it grew, so every proof is refused, and it does not bind the hash
columns, which leaves those free.
-/

open FieldConstraints

namespace MintAirV2

/-- `MINT_TRACE_WIDTH_V2`. -/
def mintTraceWidthV2 : Nat := 9

/-- `MINT_PI_LEN_V2`. -/
def mintPiLenV2 : Nat := 10

/-- `MINT_S_E_SSCL`. -/
def mintSESscl : UInt64 :=
  18900000 * 100000000

def colVersion : Nat := 0
def colCapHeadroom : Nat := 1
def colReward : Nat := 2
def colAuth : Nat := 3
def colNullNz : Nat := 4
def colRewardInv : Nat := 5
def colNull0 : Nat := 6
def colIsDep : Nat := 7
def colIsVest : Nat := 8
def pvVersion : Nat := 0
def pvTotalMinted : Nat := 1
def pvReward : Nat := 2
def pvAuth : Nat := 3
def pvNull0 : Nat := 4
def pvDepAmount : Nat := 8
def pvVestLock : Nat := 9

/-- `eval`; an equation is its difference. -/
def eval (row : Nat → Goldilocks) (pv : List Goldilocks) : List Goldilocks :=
  if pv.length < mintPiLenV2 then
    []
  else
    let version := row colVersion
    let capHeadroom := row colCapHeadroom
    let reward := row colReward
    let auth := row colAuth
    let nullNz := row colNullNz
    let rewardInv := row colRewardInv
    let null0 := row colNull0
    let isDep := row colIsDep
    let isVest := row colIsVest
    [version - pv.getD pvVersion 0,
      capHeadroom + pv.getD pvTotalMinted 0 + pv.getD pvReward 0 -
        (mintSESscl.toNat : Goldilocks),
      reward - pv.getD pvReward 0,
      reward * rewardInv - 1,
      auth - pv.getD pvAuth 0,
      nullNz - 1,
      null0 - pv.getD pvNull0 0,
      null0 * nullNz - null0,
      isDep * (1 - isDep),
      isVest * (1 - isVest),
      (1 - isDep) * pv.getD pvDepAmount 0,
      (1 - isVest) * pv.getD pvVestLock 0]

/-- The second mint circuit has the constraints of the first. -/
theorem eval_eq (row : Nat → Goldilocks) (pv : List Goldilocks) :
    eval row pv = MintLinearAir.eval row pv :=
  rfl

end MintAirV2

namespace TransferAirV2

/-- `TRANSFER_TRACE_WIDTH_V2`. -/
def transferTraceWidthV2 : Nat := 112

def colFee : Nat := 0
def colSumIn : Nat := 1
def colSumOut : Nat := 2
def colVersion : Nat := 3
def colCurrentSubepoch : Nat := 4
def colTargetSubepoch : Nat := 5
def colCgValidity : Nat := 6
def colCbVerified : Nat := 7
def colCcVerified : Nat := 8
def colOutputNonzero : Nat := 9
def colSingleSource : Nat := 10
def colFeeAboveFloor : Nat := 19
def colFeeBitStart : Nat := 20
def feeBitCount : Nat := 52
def colTargetBitStart : Nat := 72
def targetBitCount : Nat := 40
def feeFloorSscl : UInt64 := 40
def validCryptoVersion : UInt64 := 0x01

/-- `eval`; the hash columns 11 to 18 are not read. -/
def eval (row : Nat → Goldilocks) (pv : List Goldilocks) : List Goldilocks :=
  let fee := row colFee
  let sumIn := row colSumIn
  let sumOut := row colSumOut
  let version := row colVersion
  let currentSubepoch := row colCurrentSubepoch
  let targetSubepoch := row colTargetSubepoch
  let validity := row colCgValidity
  let cbOk := row colCbVerified
  let ccOk := row colCcVerified
  let outNz := row colOutputNonzero
  let singleSrc := row colSingleSource
  let feeAboveFloor := row colFeeAboveFloor
  [sumIn - sumOut - fee,
      fee - (feeAboveFloor + (feeFloorSscl.toNat : Goldilocks))] ++
    rangeProof (fun i => row (colFeeBitStart + i)) feeBitCount
      feeAboveFloor ++
    [version - (validCryptoVersion.toNat : Goldilocks),
      currentSubepoch - (targetSubepoch + validity),
      validity * (validity - 1)] ++
    rangeProof (fun i => row (colTargetBitStart + i)) targetBitCount
      targetSubepoch ++
    [cbOk * (cbOk - 1), cbOk - 1, ccOk * (ccOk - 1), ccOk - 1,
      outNz * (outNz - 1), outNz - 1, singleSrc * (singleSrc - 1),
      singleSrc - 1] ++
    (if 5 ≤ pv.length then
      [fee - pv.getD 0 0, sumIn - pv.getD 1 0, sumOut - pv.getD 2 0,
        version - pv.getD 3 0, currentSubepoch - pv.getD 4 0]
    else
      [])

/-- The columns of the hashes are not read. -/
theorem eval_congr
    {row row' : Nat → Goldilocks}
    (same : ∀ column, column < 11 ∨ 19 ≤ column → row column = row' column)
    (pv : List Goldilocks) :
    eval row pv = eval row' pv := by
  have feeBits (value : Goldilocks) :
      rangeProof (fun i => row (colFeeBitStart + i)) feeBitCount value =
        rangeProof (fun i => row' (colFeeBitStart + i)) feeBitCount value :=
    rangeProof_congr
      (fun i _ => same _ (.inr (le_trans (by decide) (Nat.le_add_right 20 i))))
      value
  have targetBits (value : Goldilocks) :
      rangeProof (fun i => row (colTargetBitStart + i)) targetBitCount value =
        rangeProof (fun i => row' (colTargetBitStart + i)) targetBitCount
          value :=
    rangeProof_congr
      (fun i _ => same _ (.inr (le_trans (by decide) (Nat.le_add_right 72 i))))
      value
  simp only [eval, feeBits, targetBits]
  rw [same colFee (by decide), same colSumIn (by decide),
    same colSumOut (by decide), same colVersion (by decide),
    same colCurrentSubepoch (by decide), same colTargetSubepoch (by decide),
    same colCgValidity (by decide), same colCbVerified (by decide),
    same colCcVerified (by decide), same colOutputNonzero (by decide),
    same colSingleSource (by decide), same colFeeAboveFloor (by decide)]

/-- All constraints vanish on a row, against the public values of a transfer. -/
def Accepts (row : Nat → Goldilocks) (pi : TransferPublicInputsP3) : Prop :=
  Vanish (eval row pi.toGoldilocks)

end TransferAirV2

/-- `IndependentVerifyError`. -/
inductive IndependentVerifyError where
  | deserialize (text : String)
  | verificationFailed (reason : String)
  | traceWidthMismatch (primary v2 : Nat)

/-- Decoding of proofs, and the verifiers of the two second circuits. -/
structure IndependentVerifiers where
  Proof : Type
  fromBytes : List UInt8 → Except String Proof
  verifyTransferAir : Proof → List Goldilocks → Except String Unit
  verifyMintAir : Proof → List Goldilocks → Except String Unit

variable (verifiers : IndependentVerifiers)

/-- One verification: the widths, the encoding, the proof. -/
def verifyIndependent
    (primary v2 : Nat)
    (verifyAir : verifiers.Proof → List Goldilocks → Except String Unit)
    (proofBytes : List UInt8)
    (publicValues : List Goldilocks) : Except IndependentVerifyError Unit :=
  if primary ≠ v2 then
    .error (.traceWidthMismatch primary v2)
  else
    match verifiers.fromBytes proofBytes with
    | .error text => .error (.deserialize text)
    | .ok proof =>
        (verifyAir proof publicValues).mapError .verificationFailed

/-- `verify_transfer_independent`. -/
def verifyTransferIndependent
    (proofBytes : List UInt8)
    (pi : TransferPublicInputsP3) : Except IndependentVerifyError Unit :=
  verifyIndependent verifiers TransferAirP3.transferTraceWidth
    TransferAirV2.transferTraceWidthV2 verifiers.verifyTransferAir proofBytes
    pi.toGoldilocks

/-- `verify_mint_independent`. -/
def verifyMintIndependent
    (proofBytes : List UInt8)
    (pi : MintLinearAir.MintLinearPublicInputs) :
    Except IndependentVerifyError Unit :=
  verifyIndependent verifiers MintLinearAir.mintLinearWidth
    MintAirV2.mintTraceWidthV2 verifiers.verifyMintAir proofBytes
    (MintLinearAir.buildMintLinearPv pi)

/-- The transfer width is that of the primary circuit before it grew. -/
theorem verifyTransferIndependent_eq
    (proofBytes : List UInt8)
    (pi : TransferPublicInputsP3) :
    verifyTransferIndependent verifiers proofBytes pi =
      .error (.traceWidthMismatch 857 112) :=
  rfl

variable {row : Nat → Goldilocks} {pi : TransferPublicInputsP3}

/-- The hash columns hold the published hashes. -/
def HashesBound
    (row : Nat → Goldilocks)
    (pi : TransferPublicInputsP3) : Prop :=
  ∀ index : Fin 4,
    row (11 + index) = Goldilocks.new (pi.commitmentHash index) ∧
      row (15 + index) = Goldilocks.new (pi.nullifierHash index)

theorem hashesBound_iff :
    HashesBound row pi ↔
      Vanish (TransferAirP3.crossBinding row pi.toGoldilocks) := by
  rw [TransferAirP3.crossBinding_iff]
  constructor
  · intro bound
    exact
      ⟨⟨(bound 0).1, (bound 1).1, (bound 2).1, (bound 3).1⟩,
        (bound 0).2, (bound 1).2, (bound 2).2, (bound 3).2⟩
  · rintro ⟨⟨commitment0, commitment1, commitment2, commitment3⟩,
      nullifier0, nullifier1, nullifier2, nullifier3⟩ index
    match index with
    | 0 => exact ⟨commitment0, nullifier0⟩
    | 1 => exact ⟨commitment1, nullifier1⟩
    | 2 => exact ⟨commitment2, nullifier2⟩
    | 3 => exact ⟨commitment3, nullifier3⟩

/-- The second circuit has the blocks of the first but for the hashes. -/
theorem acceptsV2_iff :
    TransferAirV2.Accepts row pi ↔
      Vanish (TransferAirP3.conservation row) ∧
        Vanish (TransferAirP3.feeFloor row) ∧
        Vanish (TransferAirP3.cryptoVersion row) ∧
        Vanish (TransferAirP3.cgArith row) ∧
        Vanish (TransferAirP3.verifiedFlags row) ∧
        Vanish (TransferAirP3.publicBinding row pi.toGoldilocks) := by
  have bound : 5 ≤ pi.toGoldilocks.length := by
    rw [pi.length_toGoldilocks]
    decide
  have layout :
      TransferAirV2.eval row pi.toGoldilocks =
        TransferAirP3.conservation row ++ TransferAirP3.feeFloor row ++
          TransferAirP3.cryptoVersion row ++ TransferAirP3.cgArith row ++
          TransferAirP3.verifiedFlags row ++
          TransferAirP3.publicBinding row pi.toGoldilocks := by
    rw [TransferAirV2.eval, if_pos bound]
    simp only [TransferAirP3.conservation, TransferAirP3.feeFloor,
      TransferAirP3.cryptoVersion, TransferAirP3.cgArith,
      TransferAirP3.verifiedFlags, TransferAirP3.flagSet,
      TransferAirP3.publicBinding, List.append_assoc, List.cons_append,
      List.nil_append]
    rfl
  rw [TransferAirV2.Accepts, layout]
  simp only [vanish_append, and_assoc]

/-- With the hashes bound the second circuit has the head of the first. -/
theorem acceptsV2_and_hashesBound_iff :
    TransferAirV2.Accepts row pi ∧ HashesBound row pi ↔
      Vanish (TransferAirP3.headEval row pi.toGoldilocks) := by
  rw [acceptsV2_iff, hashesBound_iff, TransferAirP3.headEval]
  simp only [vanish_append]
  constructor
  · rintro ⟨⟨conserved, floor, version, arith, flags, binding⟩, hashes⟩
    exact ⟨⟨⟨⟨⟨⟨binding, conserved⟩, floor⟩, version⟩, arith⟩, flags⟩, hashes⟩
  · rintro ⟨⟨⟨⟨⟨⟨binding, conserved⟩, floor⟩, version⟩, arith⟩, flags⟩, hashes⟩
    exact ⟨⟨conserved, floor, version, arith, flags, binding⟩, hashes⟩

/-- A row that the first circuit accepts is accepted by the second. -/
theorem acceptsV2_of_accepts
    (accepted : TransferAirP3.Accepts row pi) :
    TransferAirV2.Accepts row pi :=
  (acceptsV2_and_hashesBound_iff.mpr
    ((TransferAirP3.vanish_eval_iff _ _).mp accepted).1).1

/-- The row of an honest prover, which the first circuit accepts. -/
structure HonestRow
    (perm : T8Permutation)
    (pi : TransferPublicInputsP3)
    (cf : TransferAirP3.CfWitnesses)
    (row : Nat → Goldilocks) : Prop where
  checked : pi.checkAllConstraints = .ok ()
  built : TransferAirP3.buildTransferTrace perm pi cf = some row
  accepted : TransferAirP3.Accepts row pi

/--
What the implementations are to agree on: a row of the mint circuit, the honest
row of a transfer, and any row of the transfer circuit.
-/
structure ImplementationsAgree
    (perm : T8Permutation)
    (mintRow : Nat → Goldilocks)
    (mintPv : List Goldilocks)
    (pi : TransferPublicInputsP3)
    (cf : TransferAirP3.CfWitnesses)
    (row : Nat → Goldilocks) : Prop where
  mint :
    Vanish (MintAirV2.eval mintRow mintPv) ↔
      Vanish (MintLinearAir.eval mintRow mintPv)
  honestWidth :
    ∀ honestRow,
      HonestRow perm pi cf honestRow →
      ∀ proofBytes primary v2,
        verifyTransferIndependent verifiers proofBytes pi ≠
          .error (.traceWidthMismatch primary v2)
  honestAccepted :
    ∀ honestRow,
      HonestRow perm pi cf honestRow →
      TransferAirV2.Accepts honestRow pi
  converse :
    TransferAirV2.Accepts row pi →
    Vanish (TransferAirP3.headEval row pi.toGoldilocks)

/--
The implementations agree exactly where the transfer has no honest row, which
would be refused for its width, and the row, if the second circuit accepts it,
holds the published hashes.
-/
theorem implementationsAgree_iff
    (perm : T8Permutation)
    (mintRow : Nat → Goldilocks)
    (mintPv : List Goldilocks)
    (pi : TransferPublicInputsP3)
    (cf : TransferAirP3.CfWitnesses)
    (row : Nat → Goldilocks) :
    ImplementationsAgree verifiers perm mintRow mintPv pi cf row ↔
      (∀ honestRow, ¬ HonestRow perm pi cf honestRow) ∧
        (TransferAirV2.Accepts row pi → HashesBound row pi) := by
  constructor
  · intro agree
    refine ⟨fun honestRow honest => ?_, fun accepted => ?_⟩
    · exact
        agree.honestWidth honestRow honest [] 857 112
          (verifyTransferIndependent_eq verifiers [] pi)
    · exact (acceptsV2_and_hashesBound_iff.mpr (agree.converse accepted)).2
  · rintro ⟨noHonestRow, bound⟩
    exact {
      mint := by rw [MintAirV2.eval_eq]
      honestWidth := fun honestRow honest =>
        absurd honest (noHonestRow honestRow)
      honestAccepted := fun _ honest => acceptsV2_of_accepts honest.accepted
      converse := fun accepted =>
        acceptsV2_and_hashesBound_iff.mp ⟨accepted, bound accepted⟩
    }

/-- The row of the plain transfer with another commitment hash. -/
def unboundRow : Nat → Goldilocks :=
  fun column =>
    if column = 11 then
      1
    else
      TransferAirP3.forgedRow TransferAirP3.plainTransfer 0 1000 0 column

/--
The plain transfer has an honest row, every proof of it is refused, and a row
with a hash that is not published is accepted by the second circuit.
-/
theorem implementations_disagree :
    (∀ perm,
        ∃ row,
          HonestRow perm TransferAirP3.plainTransfer .none row) ∧
      (∀ verifiers proofBytes,
        verifyTransferIndependent verifiers proofBytes
            TransferAirP3.plainTransfer =
          .error (.traceWidthMismatch 857 112)) ∧
      TransferAirV2.Accepts unboundRow TransferAirP3.plainTransfer ∧
      ¬ Vanish
        (TransferAirP3.headEval unboundRow
          TransferAirP3.plainTransfer.toGoldilocks) := by
  refine ⟨fun perm => ?_, fun verifiers proofBytes => rfl, ?_, ?_⟩
  · have checked : TransferAirP3.plainTransfer.checkAllConstraints = .ok () :=
      rfl
    rcases TransferAirP3.exists_accepts_buildTransferTrace perm checked
        (by decide) (by decide) (by decide) with
      ⟨row, built, accepted⟩
    exact ⟨row, checked, built, accepted⟩
  · have forged :
        TransferAirV2.Accepts
          (TransferAirP3.forgedRow TransferAirP3.plainTransfer 0 1000 0)
          TransferAirP3.plainTransfer :=
      acceptsV2_of_accepts
        (TransferAirP3.accepts_forgedRow (by decide) (by decide) (by decide)
          (by decide) (by decide) (by decide) (by decide))
    rw [TransferAirV2.Accepts, TransferAirV2.eval_congr]
    · exact forged
    · intro column outside
      exact if_neg (by omega)
  · intro head
    have bound := (acceptsV2_and_hashesBound_iff.mpr head).2
    exact absurd (bound 0).1 (by decide)

end ScalarCore
