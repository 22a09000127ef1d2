import ScalarCore.TransferAirSoundness

namespace ScalarCore.TransferAirP3

/-!
# The trace of an honest transfer

The prover fills one row from the public inputs and from the values of the
inputs and outputs, and repeats it.  Unused slots hold the value one and its
reciprocal.  Where the source panics there is no row: for a zero value, a sum of
reciprocals that overflows, or an inadmissible target.

The row without values is accepted whenever the public inputs are what a
transfer is meant to be.
-/

open FieldConstraints MachineInt

/-- `DOMAIN_FEE_PREMIUM_FE`. -/
def domainFeePremiumFe : UInt64 :=
  fromLeBytes (asciiBytes "scalar_f")

/-- `RECIP_SCALE`, as a word. -/
def recipScaleWord : UInt64 :=
  UInt64.ofNat recipScale

/-- `CfWitnesses`. -/
structure CfWitnesses where
  inputValues : List UInt64
  outputValues : List UInt64

namespace CfWitnesses

/-- `CfWitnesses::default()`. -/
def none : CfWitnesses where
  inputValues := []
  outputValues := []

/-- `compute_inv`: a zero value panics. -/
def computeInv (value : UInt64) : Option UInt64 :=
  if value = 0 then
    .none
  else
    some (recipScaleWord / value)

/-- The sum of the reciprocals. -/
def sumInv (values : List UInt64) : Option UInt64 := do
  let inverses ← values.mapM computeInv
  inverses.foldlM checkedAdd 0

/-- `storage_mass`. -/
def storageMass (cf : CfWitnesses) : Option UInt64 := do
  let sumInvOut ← sumInv cf.outputValues
  let sumInvIn ← sumInv cf.inputValues
  return saturatingSub sumInvOut sumInvIn

end CfWitnesses

/-- The value of a slot. -/
def slotValue (values : List UInt64) (slot : Nat) : UInt64 :=
  values.getD slot 1

/-- The reciprocal of a slot. -/
def slotInv (values : List UInt64) (slot : Nat) : UInt64 :=
  match values[slot]? with
  | some value => recipScaleWord / value
  | none => recipScaleWord

/-- The remainder of a slot, of 32 bits. -/
def slotRem (values : List UInt64) (slot : Nat) : UInt64 :=
  (recipScaleWord - slotValue values slot * slotInv values slot) &&& 0xFFFFFFFF

/-- A bit of a word as an element. -/
def wordBit (word : UInt64) (index : Nat) : Goldilocks :=
  Goldilocks.new ((word >>> UInt64.ofNat index) &&& 1)

/-- `build_transfer_trace`: the row that is repeated. -/
def buildTransferTrace
    (perm : T8Permutation)
    (pi : TransferPublicInputsP3)
    (cf : CfWitnesses) : Option Row := do
  let feeAboveFloor := saturatingSub pi.feeTotalSscl feeFloorSscl
  let cgValidityVal ← cgValidity pi.currentSubepochId pi.targetSubepochId
  let storageMassVal ← cf.storageMass
  let baseFeeVal :=
    saturatingMul storageMassVal (UInt64.ofNat basePricePerMass)
  let nIn := UInt64.ofNat cf.inputValues.length
  let nOut := UInt64.ofNat cf.outputValues.length
  let complexityFeeVal := saturatingMul (nIn + nOut) (UInt64.ofNat pricePerCu)
  let floorBaseVal := saturatingAdd baseFeeVal complexityFeeVal
  let txNonceVal := pi.commitmentHash 0 ^^^ pi.nullifierHash 0
  let p2Out :=
    poseidon2PermuteT8 perm
      #v[domainFeePremiumFe, txNonceVal, floorBaseVal, 0, 0, 0, 0, 0]
  let raw0 := p2Out.get (digestPosition 0)
  let floorPlusOne := saturatingAdd floorBaseVal 1
  let premiumVal := if floorPlusOne = 0 then 0 else raw0 % floorPlusOne
  let qVal := if floorPlusOne = 0 then 0 else raw0 / floorPlusOne
  return fun column =>
    if column < 20 then
      [Goldilocks.new pi.feeTotalSscl, Goldilocks.new pi.sumInputsSscl,
        Goldilocks.new pi.sumOutputsSscl, Goldilocks.new pi.cryptoVersion,
        Goldilocks.new pi.currentSubepochId,
        Goldilocks.new pi.targetSubepochId, Goldilocks.new cgValidityVal,
        Goldilocks.new pi.cbMembershipVerified.toUInt64,
        Goldilocks.new pi.ccNonmembershipVerified.toUInt64,
        Goldilocks.new pi.outputNonzero.toUInt64,
        Goldilocks.new pi.singleUtxoSource.toUInt64,
        Goldilocks.new (pi.commitmentHash 0),
        Goldilocks.new (pi.commitmentHash 1),
        Goldilocks.new (pi.commitmentHash 2),
        Goldilocks.new (pi.commitmentHash 3),
        Goldilocks.new (pi.nullifierHash 0),
        Goldilocks.new (pi.nullifierHash 1),
        Goldilocks.new (pi.nullifierHash 2),
        Goldilocks.new (pi.nullifierHash 3),
        Goldilocks.new feeAboveFloor].getD column 0
    else if column < colTargetBitStart then
      wordBit feeAboveFloor (column - colFeeBitStart)
    else if column < colValueInStart then
      wordBit pi.targetSubepochId (column - colTargetBitStart)
    else if column < colInvInStart then
      Goldilocks.new (slotValue cf.inputValues (column - colValueInStart))
    else if column < colValueOutStart then
      Goldilocks.new (slotInv cf.inputValues (column - colInvInStart))
    else if column < colInvOutStart then
      Goldilocks.new (slotValue cf.outputValues (column - colValueOutStart))
    else if column < colStorageMass then
      Goldilocks.new (slotInv cf.outputValues (column - colInvOutStart))
    else if column < colRemInBitStart then
      [Goldilocks.new storageMassVal, Goldilocks.new nIn,
        Goldilocks.new nOut].getD (column - colStorageMass) 0
    else if column < colRemOutBitStart then
      wordBit
        (slotRem cf.inputValues ((column - colRemInBitStart) / remBitCount))
        ((column - colRemInBitStart) % remBitCount)
    else if column < colBaseFee then
      wordBit
        (slotRem cf.outputValues ((column - colRemOutBitStart) / remBitCount))
        ((column - colRemOutBitStart) % remBitCount)
    else if column < colPremiumBitStart then
      [Goldilocks.new baseFeeVal, Goldilocks.new complexityFeeVal,
        Goldilocks.new floorBaseVal, Goldilocks.new txNonceVal,
        Goldilocks.new (p2Out.get (digestPosition 0)),
        Goldilocks.new (p2Out.get (digestPosition 1)),
        Goldilocks.new (p2Out.get (digestPosition 2)),
        Goldilocks.new (p2Out.get (digestPosition 3)),
        Goldilocks.new qVal,
        Goldilocks.new premiumVal].getD (column - colBaseFee) 0
    else if column < transferTraceWidth then
      wordBit premiumVal (column - colPremiumBitStart)
    else
      0

/-!
## Bands of columns
-/

/-- A row that is filled band by band, each up to its stop. -/
def banded : List Nat → List (Nat → Goldilocks) → Row
  | stop :: stops, content :: contents, column =>
      if column < stop then
        content column
      else
        banded stops contents column
  | _, _, _ => 0

/-- A column past the earlier stops is in the band whose stop it is before. -/
theorem banded_add
    {stops : List Nat}
    {contents : List (Nat → Goldilocks)}
    (index : Nat)
    {start offset stop : Nat}
    {content : Nat → Goldilocks}
    (isStop : stops[index]? = some stop)
    (isContent : contents[index]? = some content)
    (past : ∀ earlier ∈ stops.take index, earlier ≤ start)
    (inside : start + offset < stop) :
    banded stops contents (start + offset) = content (start + offset) := by
  induction index generalizing stops contents with
  | zero =>
      match stops, contents with
      | _ :: stops, _ :: contents =>
          cases Option.some_inj.mp isStop
          cases Option.some_inj.mp isContent
          exact if_pos inside
  | succ index inductionHypothesis =>
      match stops, contents with
      | first :: stops, _ :: contents =>
          have notFirst : ¬ start + offset < first :=
            Nat.not_lt.mpr
              ((past first List.mem_cons_self).trans (Nat.le_add_right _ _))
          rw [banded, if_neg notFirst]
          exact inductionHypothesis isStop isContent fun earlier listed =>
            past earlier (List.mem_cons_of_mem first listed)

/-- The stops of the bands of a trace row. -/
def rowStops : List Nat :=
  [20, colTargetBitStart, colValueInStart, colInvInStart, colValueOutStart,
    colInvOutStart, colStorageMass, colRemInBitStart, colRemOutBitStart,
    colBaseFee, colPremiumBitStart, transferTraceWidth]

/-!
## The row without values is accepted
-/

/-- The bits of a word are those of its number. -/
theorem wordBit_eq
    (word : UInt64)
    {index : Nat}
    (inRange : index < 64) :
    wordBit word index = bitOf word.toNat index := by
  have shifted : (UInt64.ofNat index).toNat % 64 = index := by
    rw [UInt64.toNat_ofNat', Nat.mod_eq_of_lt (show index < 2 ^ 64 by omega),
      Nat.mod_eq_of_lt inRange]
  have digit :
      ((word >>> UInt64.ofNat index) &&& 1).toNat =
        (word.toNat.testBit index).toNat := by
    rw [UInt64.toNat_and, UInt64.toNat_shiftRight, shifted,
      Nat.toNat_testBit, Nat.shiftRight_eq_div_pow]
    exact Nat.and_one_is_mod _
  rw [wordBit, Goldilocks.new, digit, bitOf]
  cases word.toNat.testBit index with
  | false =>
      rfl
  | true =>
      rfl

/-- Zero has no bits. -/
theorem wordBit_zero (index : Nat) :
    wordBit 0 index = 0 := by
  rw [wordBit, UInt64.zero_shiftRight, UInt64.zero_and]
  rfl

@[simp] theorem slotValue_nil (slot : Nat) :
    slotValue [] slot = 1 :=
  List.getD_nil

@[simp] theorem slotInv_nil (slot : Nat) :
    slotInv [] slot = recipScaleWord :=
  rfl

/-- An unused slot has no remainder. -/
@[simp] theorem slotRem_nil (slot : Nat) :
    slotRem [] slot = 0 := by
  rw [slotRem, slotValue_nil, slotInv_nil]
  decide

/-- The remainder of an unused slot has no bits. -/
theorem wordBit_slotRem_nil (slot index : Nat) :
    wordBit (slotRem [] slot) index = 0 := by
  rw [slotRem_nil, wordBit_zero]

/-- There is no premium, and the quotient is the raw value itself. -/
theorem vanish_premium_of_none
    {row : Row}
    (noFloor : row colFloorBase = 0)
    (noPremium : row colPremium = 0)
    (noBits :
      ∀ bit < premiumBitCount, row (colPremiumBitStart + bit) = 0)
    (quotient : row colPremiumQ = row colPremiumRawStart) :
    Vanish (premium row) := by
  rw [premium, vanish_append, noPremium]
  constructor
  · rw [← Nat.cast_zero]
    apply vanish_rangeProof (Nat.two_pow_pos _)
    intro bit inRange
    rw [noBits bit inRange, bitOf, Nat.zero_testBit]
    rfl
  · rw [noFloor, quotient]
    simp

section Honest

variable (perm : T8Permutation) {pi : TransferPublicInputsP3}
  {cgValidityVal : UInt64}

/-- Up to the nonce the row without values is a forged one. -/
theorem exists_buildTransferTrace_none
    (isValidity :
      cgValidity pi.currentSubepochId pi.targetSubepochId =
        some cgValidityVal)
    (cbVerified : pi.cbMembershipVerified = true)
    (ccVerified : pi.ccNonmembershipVerified = true)
    (nonzero : pi.outputNonzero = true)
    (oneSource : pi.singleUtxoSource = true) :
    ∃ row,
      buildTransferTrace perm pi .none = some row ∧
      (∀ column < colTxNonce,
        row column =
          forgedRow pi (saturatingSub pi.feeTotalSscl feeFloorSscl).toNat
            pi.targetSubepochId.toNat cgValidityVal.toNat column) ∧
      Vanish (premium row) := by
  have noMass : CfWitnesses.none.storageMass = some 0 :=
    rfl
  have noBase : saturatingMul 0 (UInt64.ofNat basePricePerMass) = 0 := by
    decide
  have noComplexity :
      saturatingMul
          (UInt64.ofNat CfWitnesses.none.inputValues.length +
            UInt64.ofNat CfWitnesses.none.outputValues.length)
          (UInt64.ofNat pricePerCu) = 0 := by
    decide
  have noFloor : saturatingAdd 0 0 = 0 := by
    decide
  have one : saturatingAdd 0 1 = 1 := by
    decide
  have notZero : ¬ (1 : UInt64) = 0 := by
    decide
  have flag : Goldilocks.new true.toUInt64 = 1 := by
    decide
  have zero : Goldilocks.new 0 = 0 := by
    decide
  have padding (slot : Nat) : Goldilocks.new (slotValue [] slot) = 1 := by
    rw [slotValue_nil]
    decide
  have scale (slot : Nat) :
      Goldilocks.new (slotInv [] slot) = (recipScale : Goldilocks) := by
    rw [slotInv_nil]
    decide
  simp only [buildTransferTrace, isValidity, noMass, noBase, noComplexity,
    noFloor, one, if_neg notZero, UInt64.mod_one, UInt64.div_one,
    Option.bind_eq_bind, Option.bind_some, Option.pure_def]
  refine ⟨_, rfl, ?_, ?_⟩
  · intro column inRange
    unfold colTxNonce at inRange
    unfold forgedRow
    -- Up to the storage mass the two rows have the same bands.
    refine ite_congr rfl (fun _ => ?_) fun _ => ?_
    · rw [cbVerified, ccVerified, nonzero, oneSource, flag]
      rfl
    refine ite_congr rfl (fun fee => ?_) fun _ => ?_
    · exact wordBit_eq _ (show column - 20 < 64 by omega)
    refine ite_congr rfl (fun target => ?_) fun _ => ?_
    · exact wordBit_eq _ (show column - 72 < 64 by omega)
    refine ite_congr rfl (fun _ => padding _) fun _ => ?_
    refine ite_congr rfl (fun _ => scale _) fun _ => ?_
    refine ite_congr rfl (fun _ => padding _) fun _ => ?_
    refine ite_congr rfl (fun _ => scale _) fun pastInv => ?_
    -- The storage mass, the counts and the remainders are zero.
    by_cases counts : column < 155
    · rw [if_pos (show column < colRemInBitStart from counts)]
      have listed : column = 152 ∨ column = 153 ∨ column = 154 := by omega
      rcases listed with rfl | rfl | rfl
      · exact zero
      · exact zero
      · exact zero
    rw [if_neg (show ¬ column < colRemInBitStart from counts)]
    by_cases remIn : column < 475
    · rw [if_pos (show column < colRemOutBitStart from remIn)]
      exact wordBit_slotRem_nil _ _
    rw [if_neg (show ¬ column < colRemOutBitStart from remIn)]
    by_cases remOut : column < 795
    · rw [if_pos (show column < colBaseFee from remOut)]
      exact wordBit_slotRem_nil _ _
    rw [if_neg (show ¬ column < colBaseFee from remOut),
      if_pos (show column < colPremiumBitStart from inRange.trans (by decide))]
    have listed : column = 795 ∨ column = 796 ∨ column = 797 := by omega
    rcases listed with rfl | rfl | rfl
    · exact zero
    · exact zero
    · exact zero
  · change Vanish (premium (banded rowStops [_, _, _, _, _, _, _, _, _, _, _, _]))
    apply vanish_premium_of_none
    · exact zero
    · exact zero
    · intro bit inRange
      rw [banded_add 11 rfl rfl (by decide)
        (Nat.add_lt_add_left inRange colPremiumBitStart)]
      exact wordBit_zero _
    · rfl

/-- The validity of an admissible target is the distance to it, zero or one. -/
theorem toNat_of_cgValidity
    {current target validity : UInt64}
    (isValidity : cgValidity current target = some validity) :
    current.toNat = target.toNat + validity.toNat ∧ validity.toNat ≤ 1 := by
  unfold cgValidity at isValidity
  split at isValidity
  · cases isValidity
  · rename_i notBefore
    have order := UInt64.not_lt.mp notBefore
    simp only at isValidity
    split at isValidity
    · cases isValidity
    · rename_i near
      rw [Option.some_inj] at isValidity
      subst isValidity
      rw [UInt64.toNat_sub_of_le _ _ order]
      have below := UInt64.le_iff_toNat_le.mp order
      have small := UInt64.le_iff_toNat_le.mp (UInt64.not_lt.mp near)
      rw [UInt64.toNat_sub_of_le _ _ order] at small
      exact ⟨by omega, small⟩

/--
The prover completes every transfer that passes its checks, with an exact sum
and with a fee and a target that have enough bits: the row is accepted.
-/
theorem exists_accepts_buildTransferTrace
    (passed : pi.checkAllConstraints = .ok ())
    (exactSum :
      pi.sumOutputsSscl.toNat + pi.feeTotalSscl.toNat ≤ maxU64)
    (feeBelow : pi.feeTotalSscl.toNat < 2 ^ 52 + 40)
    (targetBelow : pi.targetSubepochId.toNat < 2 ^ 40) :
    ∃ row,
      buildTransferTrace perm pi .none = some row ∧ Accepts row pi := by
  rcases TransferPublicInputsP3.checkAllConstraints_eq_ok_iff.mp passed with
    ⟨conserved, aboveFloor, version, isSome, cbVerified, ccVerified, nonzero,
      oneSource⟩
  rcases Option.isSome_iff_exists.mp isSome with ⟨validity, isValidity⟩
  rcases toNat_of_cgValidity isValidity with ⟨isCurrent, isBit⟩
  rcases exists_buildTransferTrace_none perm isValidity cbVerified ccVerified
      nonzero oneSource with
    ⟨row, isRow, agrees, premiumVanishes⟩
  have above :
      (saturatingSub pi.feeTotalSscl feeFloorSscl).toNat =
        pi.feeTotalSscl.toNat - feeFloorSscl.toNat :=
    toNat_saturatingSub _ _
  have forged :
      Accepts
        (forgedRow pi (saturatingSub pi.feeTotalSscl feeFloorSscl).toNat
          pi.targetSubepochId.toNat validity.toNat)
        pi := by
    apply accepts_forgedRow
    · rw [conserved, Goldilocks.new, toNat_saturatingAdd,
        min_eq_left exactSum, Nat.cast_add]
      rfl
    · have floor : feeFloorSscl.toNat = 40 := rfl
      omega
    · rw [above, ← Nat.cast_add,
        Nat.sub_add_cancel (UInt64.le_iff_toNat_le.mp aboveFloor)]
      rfl
    · rw [version]
      rfl
    · exact targetBelow
    · exact isBit
    · rw [Goldilocks.new, isCurrent, Nat.cast_add]
  rcases (vanish_eval_iff _ _).mp forged with ⟨head, mass, _⟩
  refine ⟨row, isRow, (vanish_eval_iff _ _).mpr ⟨?_, ?_, premiumVanishes⟩⟩
  · rw [headEval_congr fun column inRange =>
      agrees column (inRange.trans (by decide))]
    exact head
  · rw [storageMass_congr agrees]
    exact mass

/-- Up to the values a row does not depend on them. -/
theorem buildTransferTrace_head
    {perm : T8Permutation}
    {cf cf' : CfWitnesses}
    {row row' : Row}
    (built : buildTransferTrace perm pi cf = some row)
    (built' : buildTransferTrace perm pi cf' = some row')
    {column : Nat}
    (inHead : column < colValueInStart) :
    row column = row' column := by
  simp only [buildTransferTrace, Option.bind_eq_bind, Option.pure_def,
    Option.bind_eq_some_iff, Option.some_inj] at built built'
  obtain ⟨validity, isValidity, _, _, rfl⟩ := built
  obtain ⟨validity', isValidity', _, _, rfl⟩ := built'
  obtain rfl : validity = validity' :=
    Option.some_inj.mp (isValidity.symm.trans isValidity')
  refine ite_congr rfl (fun _ => rfl) fun _ => ?_
  refine ite_congr rfl (fun _ => rfl) fun _ => ?_
  exact (if_pos inHead).trans (if_pos inHead).symm

/--
With values, too, a transfer that passes the checks is accepted once the columns of
the storage mass and of the premium are.
-/
theorem accepts_buildTransferTrace
    (passed : pi.checkAllConstraints = .ok ())
    (exactSum :
      pi.sumOutputsSscl.toNat + pi.feeTotalSscl.toNat ≤ maxU64)
    (feeBelow : pi.feeTotalSscl.toNat < 2 ^ 52 + 40)
    (targetBelow : pi.targetSubepochId.toNat < 2 ^ 40)
    {cf : CfWitnesses}
    {row : Row}
    (built : buildTransferTrace perm pi cf = some row)
    (mass : Vanish (storageMass row))
    (premiumVanishes : Vanish (premium row)) :
    Accepts row pi := by
  obtain ⟨plain, isPlain, accepted⟩ :=
    exists_accepts_buildTransferTrace perm passed exactSum feeBelow targetBelow
  have head := ((vanish_eval_iff _ _).mp accepted).1
  rw [headEval_congr fun _ inHead =>
    buildTransferTrace_head isPlain built inHead] at head
  exact (vanish_eval_iff _ _).mpr ⟨head, mass, premiumVanishes⟩

end Honest

end ScalarCore.TransferAirP3
