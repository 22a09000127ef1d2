import ScalarCore.Poseidon2Verifier
import ScalarCore.TransferTrace

namespace ScalarCore.TransferAirP3

/-!
# The storage mass columns of an honest trace

The reciprocals leave remainders of 32 bits and the premium has 52 bits.  What
may fail is the storage mass: the prover clamps the difference of the
reciprocals of the values at zero, the circuit sums ten slots on each side, and
an unused slot counts as a whole scale there.
-/

open FieldConstraints MachineInt

/-- The largest denomination. -/
def largestDenomination : UInt64 :=
  100000000

/-- At most ten values, each of them a possible denomination. -/
structure Denominated (values : List UInt64) : Prop where
  fits : values.length ≤ maxIoCf
  positive : ∀ value ∈ values, 0 < value
  bounded : ∀ value ∈ values, value ≤ largestDenomination

/-- Both sides of a transfer. -/
structure CfWitnesses.AreDenominated (cf : CfWitnesses) : Prop where
  inputs : Denominated cf.inputValues
  outputs : Denominated cf.outputValues

/-- The sum of the reciprocals, as a number. -/
def reciprocalSum (values : List UInt64) : Nat :=
  (values.map fun value => recipScale / value.toNat).sum

/-!
## Slots
-/

section Slots

variable {values : List UInt64}

/-- The scale of the reciprocals, evaluated. -/
theorem toNat_recipScaleWord : recipScaleWord.toNat = recipScale :=
  rfl

/-- The reciprocal of a slot is the one of its value. -/
theorem toNat_slotInv (values : List UInt64) (slot : Nat) :
    (slotInv values slot).toNat =
      recipScale / (slotValue values slot).toNat := by
  unfold slotInv slotValue
  rw [List.getD_eq_getElem?_getD]
  cases values[slot]? with
  | none =>
      exact (Nat.div_one recipScale).symm
  | some value =>
      exact UInt64.toNat_div _ _

/-- Every slot, used or not, holds a possible denomination. -/
theorem slotValue_bounds
    (denominated : Denominated values)
    (slot : Nat) :
    0 < (slotValue values slot).toNat ∧
      (slotValue values slot).toNat ≤ 100000000 := by
  unfold slotValue
  rw [List.getD_eq_getElem?_getD]
  cases found : values[slot]? with
  | none =>
      exact ⟨Nat.one_pos, by decide⟩
  | some value =>
      have listed := List.mem_of_getElem? found
      exact ⟨UInt64.lt_iff_toNat_lt.mp (denominated.positive value listed),
        UInt64.le_iff_toNat_le.mp (denominated.bounded value listed)⟩

/-- The remainder of a slot is the remainder of the scale. -/
theorem toNat_slotRem
    (denominated : Denominated values)
    (slot : Nat) :
    (slotRem values slot).toNat =
      recipScale % (slotValue values slot).toNat := by
  obtain ⟨positive, bounded⟩ := slotValue_bounds denominated slot
  have split := Nat.div_add_mod recipScale (slotValue values slot).toNat
  have remainderBelow := Nat.mod_lt recipScale positive
  have scale : recipScale = 4294967296 := rfl
  have product :
      (slotValue values slot * slotInv values slot).toNat =
        (slotValue values slot).toNat *
          (recipScale / (slotValue values slot).toNat) := by
    rw [UInt64.toNat_mul, toNat_slotInv]
    exact Nat.mod_eq_of_lt (by omega)
  have notAbove : slotValue values slot * slotInv values slot ≤ recipScaleWord := by
    rw [UInt64.le_iff_toNat_le, product, toNat_recipScaleWord]
    omega
  have mask : (0xFFFFFFFF : UInt64).toNat = 2 ^ 32 - 1 := rfl
  rw [slotRem, UInt64.toNat_and, UInt64.toNat_sub_of_le _ _ notAbove, product,
    mask, Nat.and_two_pow_sub_one_eq_mod, toNat_recipScaleWord]
  omega

/-- The slots of one side add up to the reciprocals and a scale for each unused one. -/
theorem sum_slotInv
    {count : Nat}
    (fits : values.length ≤ count) :
    ((List.range count).map fun slot => (slotInv values slot).toNat).sum =
      reciprocalSum values + (count - values.length) * recipScale := by
  induction values generalizing count with
  | nil =>
      simp only [slotInv_nil, toNat_recipScaleWord, reciprocalSum, List.map_nil,
        List.sum_nil, List.length_nil, Nat.sub_zero, Nat.zero_add,
        List.map_const', List.sum_replicate, List.length_range, smul_eq_mul]
  | cons value rest inductionHypothesis =>
      obtain ⟨count, rfl⟩ : ∃ smaller, count = smaller + 1 :=
        Nat.exists_eq_add_one.mpr (Nat.lt_of_lt_of_le (Nat.succ_pos _) fits)
      have others := inductionHypothesis (Nat.le_of_succ_le_succ fits)
      have first :
          (slotInv (value :: rest) 0).toNat = recipScale / value.toNat :=
        UInt64.toNat_div _ _
      rw [List.range_succ_eq_map, List.map_cons, List.sum_cons, List.map_map,
        first, reciprocalSum, List.map_cons, List.sum_cons, List.length_cons,
        Nat.add_sub_add_right, Nat.add_assoc, ← reciprocalSum, ← others]
      rfl

/-- Ten reciprocals have at most 36 bits. -/
theorem reciprocalSum_le (values : List UInt64) :
    reciprocalSum values ≤ values.length * recipScale := by
  induction values with
  | nil =>
      exact Nat.zero_le _
  | cons value rest inductionHypothesis =>
      have first := Nat.div_le_self recipScale value.toNat
      have split :
          reciprocalSum (value :: rest) =
            recipScale / value.toNat + reciprocalSum rest :=
        List.sum_cons
      rw [split, List.length_cons, Nat.add_mul, Nat.one_mul, Nat.add_comm]
      exact Nat.add_le_add inductionHypothesis first

/-- Positive values have reciprocals. -/
theorem mapM_computeInv
    (positive : ∀ value ∈ values, 0 < value) :
    values.mapM CfWitnesses.computeInv =
      some (values.map fun value => recipScaleWord / value) := by
  induction values with
  | nil =>
      rfl
  | cons value rest inductionHypothesis =>
      have notZero : value ≠ 0 := by
        have first := UInt64.lt_iff_toNat_lt.mp (positive value List.mem_cons_self)
        rintro rfl
        exact Nat.lt_irrefl _ first
      have others :=
        inductionHypothesis fun other listed =>
          positive other (List.mem_cons_of_mem value listed)
      rw [List.mapM_cons, others, CfWitnesses.computeInv, if_neg notZero]
      rfl

/-- The prover's sum of reciprocals does not overflow. -/
theorem exists_sumInv
    (denominated : Denominated values) :
    ∃ total,
      CfWitnesses.sumInv values = some total ∧
        total.toNat = reciprocalSum values := by
  have small : reciprocalSum values ≤ maxU64 := by
    have bound := reciprocalSum_le values
    have fits := denominated.fits
    simp only [maxIoCf, recipScale, maxU64] at *
    omega
  have words :
      ((values.map fun value => recipScaleWord / value).map UInt64.toNat).sum =
        reciprocalSum values := by
    rw [List.map_map]
    exact congrArg List.sum
      (List.map_congr_left fun value _ => UInt64.toNat_div _ _)
  have isTotal := toNat_ofNat_of_le small
  refine ⟨UInt64.ofNat (reciprocalSum values), ?_, isTotal⟩
  have folded :
      (values.map fun value => recipScaleWord / value).foldlM checkedAdd 0 =
        some (UInt64.ofNat (reciprocalSum values)) :=
    foldlM_checkedAdd_eq_some_iff.mpr
      (isTotal.trans (words.symm.trans (Nat.zero_add _).symm))
  rw [CfWitnesses.sumInv, mapM_computeInv denominated.positive]
  exact folded

end Slots

/-- The prover's mass is the difference of the sums, clamped at zero. -/
theorem exists_storageMass
    {cf : CfWitnesses}
    (denominated : cf.AreDenominated) :
    ∃ mass,
      cf.storageMass = some mass ∧
        mass.toNat =
          reciprocalSum cf.outputValues - reciprocalSum cf.inputValues := by
  obtain ⟨outputs, isOutputs, numOutputs⟩ := exists_sumInv denominated.outputs
  obtain ⟨inputs, isInputs, numInputs⟩ := exists_sumInv denominated.inputs
  refine ⟨saturatingSub outputs inputs, ?_, ?_⟩
  · rw [CfWitnesses.storageMass, isOutputs, isInputs]
    rfl
  · rw [toNat_saturatingSub, numOutputs, numInputs]

/-!
## Columns
-/

/-- What the prover computes from the values and the two first hash words. -/
structure CfNumbers where
  storageMass : UInt64
  baseFee : UInt64
  complexityFee : UInt64
  floorBase : UInt64
  raw : UInt64
  quotient : UInt64
  premium : UInt64

/-- What the columns of the storage mass and of the premium hold. -/
structure HoldsCf
    (row : Row)
    (cf : CfWitnesses)
    (numbers : CfNumbers) : Prop where
  valueIn : ∀ slot < maxIoCf,
    row (colValueInStart + slot) = Goldilocks.new (slotValue cf.inputValues slot)
  invIn : ∀ slot < maxIoCf,
    row (colInvInStart + slot) = Goldilocks.new (slotInv cf.inputValues slot)
  valueOut : ∀ slot < maxIoCf,
    row (colValueOutStart + slot) =
      Goldilocks.new (slotValue cf.outputValues slot)
  invOut : ∀ slot < maxIoCf,
    row (colInvOutStart + slot) = Goldilocks.new (slotInv cf.outputValues slot)
  storageMass : row colStorageMass = Goldilocks.new numbers.storageMass
  numInputs :
    row colNumInputs = Goldilocks.new (UInt64.ofNat cf.inputValues.length)
  numOutputs :
    row colNumOutputs = Goldilocks.new (UInt64.ofNat cf.outputValues.length)
  remIn : ∀ slot < maxIoCf, ∀ bit < remBitCount,
    row (colRemInBitStart + slot * remBitCount + bit) =
      wordBit (slotRem cf.inputValues slot) bit
  remOut : ∀ slot < maxIoCf, ∀ bit < remBitCount,
    row (colRemOutBitStart + slot * remBitCount + bit) =
      wordBit (slotRem cf.outputValues slot) bit
  baseFee : row colBaseFee = Goldilocks.new numbers.baseFee
  complexityFee : row colComplexityFee = Goldilocks.new numbers.complexityFee
  floorBase : row colFloorBase = Goldilocks.new numbers.floorBase
  raw : row colPremiumRawStart = Goldilocks.new numbers.raw
  quotient : row colPremiumQ = Goldilocks.new numbers.quotient
  premium : row colPremium = Goldilocks.new numbers.premium
  premiumBit : ∀ bit < premiumBitCount,
    row (colPremiumBitStart + bit) = wordBit numbers.premium bit

/-- The state that is hashed for the premium. -/
def premiumInput (pi : TransferPublicInputsP3) (floorBase : UInt64) : State8 :=
  #v[domainFeePremiumFe, pi.commitmentHash 0 ^^^ pi.nullifierHash 0, floorBase, 0, 0, 0, 0, 0]

/-- The numbers the prover computes from a mass. -/
def cfNumbers
    (perm : T8Permutation)
    (pi : TransferPublicInputsP3)
    (cf : CfWitnesses)
    (mass : UInt64) : CfNumbers :=
  let baseFee := saturatingMul mass (UInt64.ofNat basePricePerMass)
  let nIn := UInt64.ofNat cf.inputValues.length
  let nOut := UInt64.ofNat cf.outputValues.length
  let complexityFee := saturatingMul (nIn + nOut) (UInt64.ofNat pricePerCu)
  let floorBase := saturatingAdd baseFee complexityFee
  let raw := (poseidon2PermuteT8 perm (premiumInput pi floorBase)).get (digestPosition 0)
  let floorPlusOne := saturatingAdd floorBase 1
  { storageMass := mass, baseFee, complexityFee, floorBase, raw
    quotient := if floorPlusOne = 0 then 0 else raw / floorPlusOne
    premium := if floorPlusOne = 0 then 0 else raw % floorPlusOne }

/-- The row that is built holds the prover's numbers. -/
theorem holdsCf_of_buildTransferTrace
    {perm : T8Permutation}
    {pi : TransferPublicInputsP3}
    {cf : CfWitnesses}
    {mass : UInt64}
    {row : Row}
    (isMass : cf.storageMass = some mass)
    (built : buildTransferTrace perm pi cf = some row) :
    HoldsCf row cf (cfNumbers perm pi cf mass) := by
  simp only [buildTransferTrace, isMass, Option.bind_eq_bind, Option.bind_some,
    Option.pure_def, Option.bind_eq_some_iff, Option.some_inj] at built
  obtain ⟨validity, _, isRow⟩ := built
  have isBanded : row = banded rowStops [_, _, _, _, _, _, _, _, _, _, _, _] :=
    isRow.symm
  have remainderBit
      {start slot bit : Nat}
      (inRange : bit < remBitCount) :
      (start + slot * remBitCount + bit - start) / remBitCount = slot ∧
        (start + slot * remBitCount + bit - start) % remBitCount = bit := by
    unfold remBitCount at inRange ⊢
    omega
  have inSlots
      {slot bit : Nat}
      (isSlot : slot < maxIoCf)
      (isBit : bit < remBitCount) :
      slot * remBitCount + bit < maxIoCf * remBitCount := by
    unfold maxIoCf at isSlot
    unfold remBitCount at isBit
    simp only [maxIoCf, remBitCount]
    omega
  constructor
  case valueIn =>
    intro slot inRange
    rw [isBanded, banded_add 3 rfl rfl (by decide)
      (Nat.add_lt_add_left inRange colValueInStart), Nat.add_sub_cancel_left]
  case invIn =>
    intro slot inRange
    rw [isBanded, banded_add 4 rfl rfl (by decide)
      (Nat.add_lt_add_left inRange colInvInStart), Nat.add_sub_cancel_left]
  case valueOut =>
    intro slot inRange
    rw [isBanded, banded_add 5 rfl rfl (by decide)
      (Nat.add_lt_add_left inRange colValueOutStart), Nat.add_sub_cancel_left]
  case invOut =>
    intro slot inRange
    rw [isBanded, banded_add 6 rfl rfl (by decide)
      (Nat.add_lt_add_left inRange colInvOutStart), Nat.add_sub_cancel_left]
  case remIn =>
    intro slot isSlot bit isBit
    have inBand := Nat.add_lt_add_left (inSlots isSlot isBit) colRemInBitStart
    rw [isBanded, Nat.add_assoc, banded_add 8 rfl rfl (by decide) inBand,
      ← Nat.add_assoc, (remainderBit isBit).1, (remainderBit isBit).2]
  case remOut =>
    intro slot isSlot bit isBit
    have inBand := Nat.add_lt_add_left (inSlots isSlot isBit) colRemOutBitStart
    rw [isBanded, Nat.add_assoc, banded_add 9 rfl rfl (by decide) inBand,
      ← Nat.add_assoc, (remainderBit isBit).1, (remainderBit isBit).2]
  case premiumBit =>
    intro bit inRange
    rw [isBanded, banded_add 11 rfl rfl (by decide)
      (Nat.add_lt_add_left inRange colPremiumBitStart), Nat.add_sub_cancel_left]
    rfl
  -- The other columns are at fixed places.
  all_goals
    rw [← isRow]
    rfl

/-!
## Constraints
-/

section Constraints

variable {row : Row}

/-- A division with a remainder of 32 bits proves its quotient. -/
theorem vanish_reciprocal_of_division
    {valueStart invStart bitStart slot : Nat}
    {value inverse remainder : Nat}
    (isValue : row (valueStart + slot) = (value : Goldilocks))
    (isInverse : row (invStart + slot) = (inverse : Goldilocks))
    (areBits : ∀ bit < remBitCount,
      row (bitStart + slot * remBitCount + bit) = bitOf remainder bit)
    (below : remainder < 2 ^ remBitCount)
    (division : value * inverse + remainder = recipScale) :
    Vanish (reciprocal row valueStart invStart bitStart slot) := by
  rw [reciprocal, vanish_rangeProof_iff areBits, Nat.mod_eq_of_lt below,
    isValue, isInverse, ← division, Nat.cast_add, Nat.cast_mul]
  exact add_sub_cancel_left _ _

/-- The bits of the remainder prove the reciprocal of a slot. -/
theorem vanish_reciprocal_of_slot
    {values : List UInt64}
    (denominated : Denominated values)
    {valueStart invStart bitStart slot : Nat}
    (isValue :
      row (valueStart + slot) = Goldilocks.new (slotValue values slot))
    (isInverse : row (invStart + slot) = Goldilocks.new (slotInv values slot))
    (areBits : ∀ bit < remBitCount,
      row (bitStart + slot * remBitCount + bit) =
        wordBit (slotRem values slot) bit) :
    Vanish (reciprocal row valueStart invStart bitStart slot) := by
  obtain ⟨positive, bounded⟩ := slotValue_bounds denominated slot
  have remainder := toNat_slotRem denominated slot
  have remainderBelow := Nat.mod_lt recipScale positive
  apply vanish_reciprocal_of_division isValue isInverse
  · intro bit inRange
    rw [areBits bit inRange]
    exact wordBit_eq _ (inRange.trans (by decide))
  · rw [remainder]
    exact remainderBelow.trans_le (bounded.trans (by decide))
  · rw [toNat_slotInv, remainder]
    exact Nat.div_add_mod recipScale _

/-- The circuit's sum of one side. -/
theorem columnSum_eq
    {values : List UInt64}
    (denominated : Denominated values)
    {start : Nat}
    (areInverses : ∀ slot < maxIoCf,
      row (start + slot) = Goldilocks.new (slotInv values slot)) :
    columnSum row start =
      ((reciprocalSum values + (maxIoCf - values.length) * recipScale : Nat) :
        Goldilocks) := by
  have columns :
      (List.range maxIoCf).map (fun slot => row (start + slot)) =
        ((List.range maxIoCf).map fun slot => (slotInv values slot).toNat).map
          Nat.cast := by
    rw [List.map_map]
    exact List.map_congr_left fun slot listed =>
      areInverses slot (List.mem_range.mp listed)
  rw [columnSum, columns, ← sum_slotInv denominated.fits]
  exact (Nat.cast_list_sum _).symm

/-- The prover's numbers are exact: nothing saturates. -/
structure CfNumbers.AreExact (numbers : CfNumbers) (cf : CfWitnesses) : Prop where
  storageMass :
    numbers.storageMass.toNat =
      reciprocalSum cf.outputValues - reciprocalSum cf.inputValues
  baseFee :
    numbers.baseFee.toNat = numbers.storageMass.toNat * basePricePerMass
  complexityFee :
    numbers.complexityFee.toNat =
      (cf.inputValues.length + cf.outputValues.length) * pricePerCu
  floorBase :
    numbers.floorBase.toNat =
      numbers.baseFee.toNat + numbers.complexityFee.toNat
  floorBelow : numbers.floorBase.toNat < 2 ^ 51
  premium :
    numbers.premium.toNat = numbers.raw.toNat % (numbers.floorBase.toNat + 1)
  quotient :
    numbers.quotient.toNat = numbers.raw.toNat / (numbers.floorBase.toNat + 1)

/-- The premium is at most the floor base. -/
theorem CfNumbers.AreExact.premium_le
    {numbers : CfNumbers}
    {cf : CfWitnesses}
    (exact : numbers.AreExact cf) :
    numbers.premium.toNat ≤ numbers.floorBase.toNat := by
  rw [exact.premium]
  exact Nat.le_of_lt_succ (Nat.mod_lt _ (Nat.succ_pos _))

/-- For denominated values nothing wraps in the fee computation. -/
theorem cfNumbers_areExact
    (perm : T8Permutation)
    (pi : TransferPublicInputsP3)
    {cf : CfWitnesses}
    (denominated : cf.AreDenominated)
    {mass : UInt64}
    (isMass :
      mass.toNat =
        reciprocalSum cf.outputValues - reciprocalSum cf.inputValues) :
    (cfNumbers perm pi cf mass).AreExact cf := by
  have massBelow := reciprocalSum_le cf.outputValues
  have fitsIn := denominated.inputs.fits
  have fitsOut := denominated.outputs.fits
  simp only [maxIoCf, recipScale] at massBelow fitsIn fitsOut
  have price : (UInt64.ofNat basePricePerMass).toNat = 1000 := rfl
  have pricePerUnit : (UInt64.ofNat pricePerCu).toNat = 1000 := rfl
  have count :
      (UInt64.ofNat cf.inputValues.length +
          UInt64.ofNat cf.outputValues.length).toNat =
        cf.inputValues.length + cf.outputValues.length := by
    rw [← UInt64.ofNat_add, toNat_ofNat_of_le]
    unfold maxU64
    omega
  have baseFee :
      (cfNumbers perm pi cf mass).baseFee.toNat = mass.toNat * 1000 := by
    simp only [cfNumbers, toNat_saturatingMul, price, maxU64]
    omega
  have complexityFee :
      (cfNumbers perm pi cf mass).complexityFee.toNat =
        (cf.inputValues.length + cf.outputValues.length) * 1000 := by
    simp only [cfNumbers, toNat_saturatingMul, count, pricePerUnit, maxU64]
    omega
  have floorBase :
      (cfNumbers perm pi cf mass).floorBase.toNat =
        (cfNumbers perm pi cf mass).baseFee.toNat +
          (cfNumbers perm pi cf mass).complexityFee.toNat := by
    have sum :=
      toNat_saturatingAdd (cfNumbers perm pi cf mass).baseFee
        (cfNumbers perm pi cf mass).complexityFee
    rw [baseFee, complexityFee] at sum ⊢
    simp only [maxU64] at sum
    exact sum.trans (min_eq_left (by omega))
  have floorBelow :
      (cfNumbers perm pi cf mass).floorBase.toNat < 2 ^ 51 := by
    omega
  have floorPlusOne :
      (saturatingAdd (cfNumbers perm pi cf mass).floorBase 1).toNat =
        (cfNumbers perm pi cf mass).floorBase.toNat + 1 := by
    rw [toNat_saturatingAdd, UInt64.toNat_one]
    exact min_eq_left (by unfold maxU64; omega)
  have notZero : saturatingAdd (cfNumbers perm pi cf mass).floorBase 1 ≠ 0 := by
    intro isZero
    rw [isZero] at floorPlusOne
    exact absurd floorPlusOne (Nat.succ_ne_zero _).symm
  exact {
    storageMass := isMass
    baseFee := baseFee
    complexityFee := complexityFee
    floorBase := floorBase
    floorBelow := floorBelow
    premium := by
      rw [← floorPlusOne, ← UInt64.toNat_mod]
      exact congrArg UInt64.toNat (if_neg notZero)
    quotient := by
      rw [← floorPlusOne, ← UInt64.toNat_div]
      exact congrArg UInt64.toNat (if_neg notZero)
  }

/-- A word in the field is its number. -/
theorem new_eq_natCast (word : UInt64) :
    Goldilocks.new word = ((word.toNat : Nat) : Goldilocks) :=
  rfl

section Honest

variable {cf : CfWitnesses} {numbers : CfNumbers}

/-- The premium of the prover is one for the circuit. -/
theorem vanish_premium_of_holdsCf
    (holds : HoldsCf row cf numbers)
    (exact : numbers.AreExact cf) :
    Vanish (premium row) := by
  have bits : ∀ bit < premiumBitCount,
      row (colPremiumBitStart + bit) = bitOf numbers.premium.toNat bit := by
    intro bit inRange
    rw [holds.premiumBit bit inRange]
    exact wordBit_eq _ (inRange.trans (by decide))
  have small : numbers.premium.toNat < 2 ^ premiumBitCount := by
    have premiumAtMost := exact.premium_le
    have floorBelow := exact.floorBelow
    simp only [premiumBitCount]
    omega
  have division :
      numbers.premium.toNat +
          numbers.quotient.toNat * (numbers.floorBase.toNat + 1) =
        numbers.raw.toNat := by
    rw [exact.premium, exact.quotient]
    exact Nat.mod_add_div' _ _
  rw [premium, vanish_append, vanish_rangeProof_iff bits, vanish_cons,
    Nat.mod_eq_of_lt small]
  refine ⟨holds.premium, ?_, vanish_nil⟩
  rw [holds.raw, holds.premium, holds.quotient, holds.floorBase,
    new_eq_natCast, new_eq_natCast, new_eq_natCast, new_eq_natCast, ← division]
  push_cast
  ring

/-- The fees of the prover are those of the circuit. -/
theorem fees_of_holdsCf
    (holds : HoldsCf row cf numbers)
    (exact : numbers.AreExact cf)
    (denominated : cf.AreDenominated) :
    row colBaseFee - row colStorageMass * (basePricePerMass : Goldilocks) = 0 ∧
      row colComplexityFee -
          (row colNumInputs + row colNumOutputs) * (pricePerCu : Goldilocks) =
        0 ∧
      row colFloorBase - (row colBaseFee + row colComplexityFee) = 0 := by
  have count
      {values : List UInt64}
      (fits : values.length ≤ maxIoCf) :
      (UInt64.ofNat values.length).toNat = values.length := by
    apply toNat_ofNat_of_le
    simp only [maxIoCf] at fits
    unfold maxU64
    omega
  rw [holds.baseFee, holds.storageMass, holds.complexityFee, holds.numInputs,
    holds.numOutputs, holds.floorBase]
  simp only [new_eq_natCast, count denominated.inputs.fits,
    count denominated.outputs.fits, exact.floorBase, exact.baseFee,
    exact.complexityFee]
  push_cast
  exact ⟨sub_self _, sub_self _, sub_self _⟩

/--
The prover's mass is the circuit's: as many inputs as outputs and no decrease,
or a decrease by one scale for each input more.
-/
def MassAgrees (cf : CfWitnesses) : Prop :=
  (cf.inputValues.length = cf.outputValues.length ∧
      reciprocalSum cf.inputValues ≤ reciprocalSum cf.outputValues) ∨
    (reciprocalSum cf.outputValues ≤ reciprocalSum cf.inputValues ∧
      reciprocalSum cf.inputValues + cf.outputValues.length * recipScale =
        reciprocalSum cf.outputValues + cf.inputValues.length * recipScale)

/-- The mass column is the circuit's difference when the masses agree. -/
theorem mass_of_holdsCf_iff
    (holds : HoldsCf row cf numbers)
    (exact : numbers.AreExact cf)
    (denominated : cf.AreDenominated) :
    row colStorageMass -
          (columnSum row colInvOutStart - columnSum row colInvInStart) = 0 ↔
      MassAgrees cf := by
  rw [columnSum_eq denominated.outputs holds.invOut,
    columnSum_eq denominated.inputs holds.invIn, holds.storageMass,
    new_eq_natCast, exact.storageMass, sub_sub_eq_add_sub, sub_eq_zero,
    ← Nat.cast_add]
  have inputsBelow := reciprocalSum_le cf.inputValues
  have outputsBelow := reciprocalSum_le cf.outputValues
  have fitsIn := denominated.inputs.fits
  have fitsOut := denominated.outputs.fits
  simp only [MassAgrees, maxIoCf, recipScale] at *
  rw [Goldilocks.natCast_inj_of_lt (by omega) (by omega)]
  omega

/-- The columns meet all their constraints exactly when the masses agree. -/
theorem vanish_of_holdsCf_iff
    (holds : HoldsCf row cf numbers)
    (exact : numbers.AreExact cf)
    (denominated : cf.AreDenominated) :
    Vanish (storageMass row) ∧ Vanish (premium row) ↔ MassAgrees cf := by
  have reciprocals :
      Vanish
        ((List.range maxIoCf).flatMap fun slot =>
          reciprocal row colValueInStart colInvInStart colRemInBitStart slot ++
            reciprocal row colValueOutStart colInvOutStart colRemOutBitStart
              slot) := by
    rw [vanish_flatMap]
    intro slot listed
    have isSlot := List.mem_range.mp listed
    rw [vanish_append]
    exact
      ⟨vanish_reciprocal_of_slot denominated.inputs (holds.valueIn slot isSlot)
          (holds.invIn slot isSlot) (holds.remIn slot isSlot),
        vanish_reciprocal_of_slot denominated.outputs
          (holds.valueOut slot isSlot) (holds.invOut slot isSlot)
          (holds.remOut slot isSlot)⟩
  obtain ⟨baseFee, complexityFee, floorBase⟩ :=
    fees_of_holdsCf holds exact denominated
  rw [← mass_of_holdsCf_iff holds exact denominated]
  constructor
  · rintro ⟨vanish, _⟩
    rw [storageMass, vanish_append, vanish_cons] at vanish
    exact vanish.2.1
  · intro mass
    refine ⟨?_, vanish_premium_of_holdsCf holds exact⟩
    rw [storageMass, vanish_append]
    refine ⟨reciprocals, ?_⟩
    simp only [vanish_cons, vanish_nil, and_true]
    exact ⟨mass, baseFee, complexityFee, floorBase⟩

end Honest

end Constraints

section Built

variable {perm : T8Permutation}
variable {pi : TransferPublicInputsP3}
variable {cf : CfWitnesses}

/-- The prover writes the columns when the target is admissible. -/
theorem exists_buildTransferTrace_iff (denominated : cf.AreDenominated) :
    (∃ row, buildTransferTrace perm pi cf = some row) ↔
      (cgValidity pi.currentSubepochId pi.targetSubepochId).isSome = true := by
  obtain ⟨mass, isMass, _⟩ := exists_storageMass denominated
  constructor
  · rintro ⟨row, built⟩
    rw [buildTransferTrace, Option.bind_eq_bind,
      Option.bind_eq_some_iff] at built
    obtain ⟨validity, isValidity, _⟩ := built
    exact Option.isSome_iff_exists.mpr ⟨validity, isValidity⟩
  · intro isSome
    obtain ⟨validity, isValidity⟩ := Option.isSome_iff_exists.mp isSome
    simp only [buildTransferTrace, isValidity, isMass, Option.bind_eq_bind,
      Option.bind_some, Option.pure_def]
    exact ⟨_, rfl⟩

/-- What it writes meets the constraints when the masses agree. -/
theorem vanish_of_buildTransferTrace_iff
    (denominated : cf.AreDenominated)
    {row : Row}
    (built : buildTransferTrace perm pi cf = some row) :
    Vanish (storageMass row) ∧ Vanish (premium row) ↔ MassAgrees cf := by
  obtain ⟨mass, isMass, massNumber⟩ := exists_storageMass denominated
  exact vanish_of_holdsCf_iff (holdsCf_of_buildTransferTrace isMass built)
    (cfNumbers_areExact perm pi denominated massNumber) denominated

end Built

/--
The prover writes the columns whenever the target is admissible, and they meet
the constraints of the storage mass and of the premium exactly when its mass is
the circuit's.
-/
theorem cfColumns_complete_iff
    (perm : T8Permutation)
    (pi : TransferPublicInputsP3)
    {cf : CfWitnesses}
    (denominated : cf.AreDenominated) :
    ((∃ row, buildTransferTrace perm pi cf = some row) ↔
        (cgValidity pi.currentSubepochId pi.targetSubepochId).isSome = true) ∧
      ∀ row,
        buildTransferTrace perm pi cf = some row →
        (Vanish (storageMass row) ∧ Vanish (premium row) ↔ MassAgrees cf) :=
  ⟨exists_buildTransferTrace_iff denominated,
    fun _ built => vanish_of_buildTransferTrace_iff denominated built⟩

/-- One value on each side. -/
def movedValue : CfWitnesses where
  inputValues := [largestDenomination]
  outputValues := [largestDenomination]

/-- A value that is split in two. -/
def splitValue : CfWitnesses where
  inputValues := [largestDenomination]
  outputValues := [50000000, 50000000]

/-- The moved value is made of denominations. -/
theorem areDenominated_movedValue : movedValue.AreDenominated where
  inputs :=
    ⟨by decide, by simp [movedValue, largestDenomination], by simp [movedValue]⟩
  outputs :=
    ⟨by decide, by simp [movedValue, largestDenomination], by simp [movedValue]⟩

/-- So is the split value. -/
theorem areDenominated_splitValue : splitValue.AreDenominated where
  inputs :=
    ⟨by decide, by simp [splitValue, largestDenomination], by simp [splitValue]⟩
  outputs :=
    ⟨by decide, by simp [splitValue], by simp [splitValue, largestDenomination]⟩

/-- The columns of a moved value are accepted. -/
theorem cfColumns_complete_movedValue :
    movedValue.AreDenominated ∧
      ∃ row,
        buildTransferTrace VerifierPy.t8Permutation plainTransfer movedValue =
            some row ∧
          Vanish (storageMass row) ∧ Vanish (premium row) := by
  have complete :=
    cfColumns_complete_iff VerifierPy.t8Permutation plainTransfer
      areDenominated_movedValue
  obtain ⟨row, built⟩ := complete.1.mpr (by decide)
  have agrees : MassAgrees movedValue :=
    .inl ⟨rfl, le_refl _⟩
  exact ⟨areDenominated_movedValue, row, built,
    (complete.2 row built).mpr agrees⟩

/-- The columns of a split value are not: the unused slots do not cancel. -/
theorem cfColumns_not_complete_splitValue :
    splitValue.AreDenominated ∧
      ∃ row,
        buildTransferTrace VerifierPy.t8Permutation plainTransfer splitValue =
            some row ∧
          ¬ (Vanish (storageMass row) ∧ Vanish (premium row)) := by
  obtain ⟨row, built⟩ :=
    (exists_buildTransferTrace_iff areDenominated_splitValue).mpr
      (show (cgValidity plainTransfer.currentSubepochId
        plainTransfer.targetSubepochId).isSome = true by decide)
  refine ⟨areDenominated_splitValue, row, built, ?_⟩
  rw [vanish_of_buildTransferTrace_iff areDenominated_splitValue built]
  unfold MassAgrees
  decide

end ScalarCore.TransferAirP3
