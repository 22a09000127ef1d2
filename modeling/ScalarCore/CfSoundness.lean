import ScalarCore.CfColumns

namespace ScalarCore.TransferAirP3

/-!
# What the storage mass columns prove

A reciprocal is proved by a remainder of 32 bits and the premium by 52 bits.
Neither is compared with its divisor, and the fee is compared with neither the
floor nor the premium.  So the columns are what they are meant to be exactly
when the prover divides as it should and the fee happens to be enough.
-/

open FieldConstraints

/-- The value columns hold possible denominations. -/
structure ValuesInRange (row : Row) : Prop where
  valueIn : ∀ slot < maxIoCf,
    0 < (row (colValueInStart + slot)).val ∧
      (row (colValueInStart + slot)).val ≤ 100000000
  valueOut : ∀ slot < maxIoCf,
    0 < (row (colValueOutStart + slot)).val ∧
      (row (colValueOutStart + slot)).val ≤ 100000000

/-- What the columns of an accepted row are meant to be. -/
structure CfSound (row : Row) (pi : TransferPublicInputsP3) : Prop where
  inverseIn : ∀ slot < maxIoCf,
    (row (colInvInStart + slot)).val =
      recipScale / (row (colValueInStart + slot)).val
  inverseOut : ∀ slot < maxIoCf,
    (row (colInvOutStart + slot)).val =
      recipScale / (row (colValueOutStart + slot)).val
  premiumBounded : (row colPremium).val ≤ (row colFloorBase).val
  premium :
    (row colPremium).val =
      (row colPremiumRawStart).val % ((row colFloorBase).val + 1)
  feeCovers :
    (row colFloorBase).val + (row colPremium).val ≤ pi.feeTotalSscl.toNat

/-- The number that the remainder bits of a slot stand for. -/
def remainderOf (row : Row) (bitStart slot : Nat) : Nat :=
  (recompose (fun bit => row (bitStart + slot * remBitCount + bit))
    remBitCount).val

/-- The sum of the reciprocals of ten values. -/
def reciprocalColumnSum (row : Row) (valueStart : Nat) : Goldilocks :=
  ((List.range maxIoCf).map fun slot =>
    ((recipScale / (row (valueStart + slot)).val : Nat) : Goldilocks)).sum

/-- The floor base that follows from the values and the counts. -/
def floorBaseOf (row : Row) : Goldilocks :=
  (reciprocalColumnSum row colValueOutStart -
        reciprocalColumnSum row colValueInStart) *
      (basePricePerMass : Goldilocks) +
    (row colNumInputs + row colNumOutputs) * (pricePerCu : Goldilocks)

/--
The prover divides as it should, and the fee covers the floor base and the
premium that follow from the values, the counts and the raw word.
-/
structure DividesAsMeant (row : Row) (pi : TransferPublicInputsP3) : Prop where
  remainderIn : ∀ slot < maxIoCf,
    remainderOf row colRemInBitStart slot =
      recipScale % (row (colValueInStart + slot)).val
  remainderOut : ∀ slot < maxIoCf,
    remainderOf row colRemOutBitStart slot =
      recipScale % (row (colValueOutStart + slot)).val
  quotient :
    (floorBaseOf row).val + 1 = 0xFFFFFFFF00000001 ∨
      (row colPremiumQ).val =
        (row colPremiumRawStart).val / ((floorBaseOf row).val + 1)
  feeEnough :
    (floorBaseOf row).val +
        (row colPremiumRawStart).val % ((floorBaseOf row).val + 1) ≤
      pi.feeTotalSscl.toNat

variable {row : Row} {pi : TransferPublicInputsP3}

/-- A reciprocal is the quotient when the bits are the remainder. -/
theorem inverse_iff_remainder
    {valueStart invStart bitStart slot : Nat}
    (positive : 0 < (row (valueStart + slot)).val)
    (vanish : Vanish (reciprocal row valueStart invStart bitStart slot)) :
    (row (invStart + slot)).val = recipScale / (row (valueStart + slot)).val ↔
      remainderOf row bitStart slot =
        recipScale % (row (valueStart + slot)).val := by
  have regular : row (valueStart + slot) ≠ 0 := by
    intro isZero
    rw [isZero, ZMod.val_zero] at positive
    exact Nat.lt_irrefl 0 positive
  rw [reciprocal, rangeProof, vanish_append, vanish_cons, sub_eq_zero] at vanish
  have division :
      (recipScale : Goldilocks) =
        row (valueStart + slot) * row (invStart + slot) +
          recompose (fun bit => row (bitStart + slot * remBitCount + bit))
            remBitCount := by
    rw [← vanish.2.1, add_sub_cancel]
  exact Goldilocks.val_eq_div_iff (by decide) regular division

/-- The premium is the remainder when the quotient column is the quotient. -/
theorem premium_iff_quotient
    (vanish : Vanish (premium row)) :
    ((row colPremium).val ≤ (row colFloorBase).val ∧
        (row colPremium).val =
          (row colPremiumRawStart).val % ((row colFloorBase).val + 1)) ↔
      (row colFloorBase).val + 1 = 0xFFFFFFFF00000001 ∨
        (row colPremiumQ).val =
          (row colPremiumRawStart).val / ((row colFloorBase).val + 1) := by
  rw [premium, vanish_append, vanish_cons, sub_eq_zero] at vanish
  have division :
      (((row colPremiumRawStart).val : Nat) : Goldilocks) =
        (row colFloorBase + 1) * row colPremiumQ + row colPremium := by
    rw [ZMod.natCast_zmod_val, vanish.2.1]
    ring
  have floorBelow := Goldilocks.val_lt (row colFloorBase)
  have rawBelow := Goldilocks.val_lt (row colPremiumRawStart)
  by_cases wraps : (row colFloorBase).val + 1 = 0xFFFFFFFF00000001
  · -- The divisor is zero in the field, and the premium is the raw word.
    have noDivisor : row colFloorBase + 1 = 0 := by
      have inField := congrArg (Nat.cast : Nat → Goldilocks) wraps
      rw [Nat.cast_add, Nat.cast_one, ZMod.natCast_zmod_val] at inField
      exact inField.trans (ZMod.natCast_self _)
    rw [noDivisor, zero_mul, zero_add, ZMod.natCast_zmod_val] at division
    rw [← division, wraps, Nat.mod_eq_of_lt rawBelow]
    exact ⟨fun _ => .inl rfl, fun _ => ⟨by omega, rfl⟩⟩
  · have isDivisor :
        (row colFloorBase + 1).val = (row colFloorBase).val + 1 := by
      rw [ZMod.val_add_of_lt, ZMod.val_one]
      rw [ZMod.val_one]
      omega
    have regular : row colFloorBase + 1 ≠ 0 := by
      intro isZero
      rw [isZero, ZMod.val_zero] at isDivisor
      exact absurd isDivisor (Nat.succ_ne_zero _).symm
    have exact := Goldilocks.val_eq_div_iff rawBelow regular division
    rw [isDivisor] at exact
    rw [exact]
    constructor
    · rintro ⟨_, isRemainder⟩
      exact .inr isRemainder
    · intro either
      have isRemainder := either.resolve_left wraps
      have below :
          (row colPremiumRawStart).val % ((row colFloorBase).val + 1) <
            (row colFloorBase).val + 1 :=
        Nat.mod_lt _ (Nat.succ_pos _)
      exact ⟨by omega, isRemainder⟩

/-- The floor base follows from the values when the reciprocals do. -/
theorem floorBase_eq
    (vanish : Vanish (storageMass row))
    (inverseIn : ∀ slot < maxIoCf,
      (row (colInvInStart + slot)).val =
        recipScale / (row (colValueInStart + slot)).val)
    (inverseOut : ∀ slot < maxIoCf,
      (row (colInvOutStart + slot)).val =
        recipScale / (row (colValueOutStart + slot)).val) :
    row colFloorBase = floorBaseOf row := by
  have sums
      {invStart valueStart : Nat}
      (inverses : ∀ slot < maxIoCf,
        (row (invStart + slot)).val =
          recipScale / (row (valueStart + slot)).val) :
      columnSum row invStart = reciprocalColumnSum row valueStart := by
    apply congrArg List.sum
    apply List.map_congr_left
    intro slot listed
    rw [← inverses slot (List.mem_range.mp listed), ZMod.natCast_zmod_val]
  rw [storageMass, vanish_append] at vanish
  simp only [vanish_cons, vanish_nil, and_true, sub_eq_zero] at vanish
  obtain ⟨_, mass, baseFee, complexityFee, floorBase⟩ := vanish
  rw [floorBase, baseFee, complexityFee, mass, sums inverseIn, sums inverseOut]
  rfl

/--
The columns of an accepted row are what they are meant to be exactly when its
prover divides as it should and the fee is enough.
-/
theorem cfSound_iff
    (accepted : Accepts row pi)
    (inRange : ValuesInRange row) :
    CfSound row pi ↔ DividesAsMeant row pi := by
  obtain ⟨_, mass, premiumVanishes⟩ := (vanish_eval_iff _ _).mp accepted
  have reciprocals : ∀ slot < maxIoCf,
      Vanish
          (reciprocal row colValueInStart colInvInStart colRemInBitStart
            slot) ∧
        Vanish
          (reciprocal row colValueOutStart colInvOutStart colRemOutBitStart
            slot) := by
    have block := mass
    rw [storageMass, vanish_append, vanish_flatMap] at block
    intro slot isSlot
    exact vanish_append.mp (block.1 slot (List.mem_range.mpr isSlot))
  have inverseIn (slot : Nat) (isSlot : slot < maxIoCf) :=
    inverse_iff_remainder (inRange.valueIn slot isSlot).1
      (reciprocals slot isSlot).1
  have inverseOut (slot : Nat) (isSlot : slot < maxIoCf) :=
    inverse_iff_remainder (inRange.valueOut slot isSlot).1
      (reciprocals slot isSlot).2
  have isPremium := premium_iff_quotient premiumVanishes
  constructor
  · intro sound
    have isFloor := floorBase_eq mass sound.inverseIn sound.inverseOut
    exact {
      remainderIn := fun slot isSlot =>
        (inverseIn slot isSlot).mp (sound.inverseIn slot isSlot)
      remainderOut := fun slot isSlot =>
        (inverseOut slot isSlot).mp (sound.inverseOut slot isSlot)
      quotient := by
        rw [← isFloor]
        exact isPremium.mp ⟨sound.premiumBounded, sound.premium⟩
      feeEnough := by
        rw [← isFloor, ← sound.premium]
        exact sound.feeCovers
    }
  · intro divides
    have floorsIn := fun slot isSlot =>
      (inverseIn slot isSlot).mpr (divides.remainderIn slot isSlot)
    have floorsOut := fun slot isSlot =>
      (inverseOut slot isSlot).mpr (divides.remainderOut slot isSlot)
    have isFloor := floorBase_eq mass floorsIn floorsOut
    have quotient := divides.quotient
    rw [← isFloor] at quotient
    obtain ⟨bounded, isRemainder⟩ := isPremium.mpr quotient
    exact {
      inverseIn := floorsIn
      inverseOut := floorsOut
      premiumBounded := bounded
      premium := isRemainder
      feeCovers := by
        rw [isRemainder, isFloor]
        exact divides.feeEnough
    }

/-- The value of a slot is read back from its column. -/
theorem val_slotValue
    {values : List UInt64}
    (denominated : Denominated values)
    (slot : Nat) :
    (Goldilocks.new (slotValue values slot)).val =
      (slotValue values slot).toNat := by
  obtain ⟨_, bounded⟩ := slotValue_bounds denominated slot
  exact Goldilocks.val_new_of_lt (by omega)

/-- So is its reciprocal. -/
theorem val_slotInv
    {values : List UInt64}
    (denominated : Denominated values)
    (slot : Nat) :
    (Goldilocks.new (slotInv values slot)).val =
      recipScale / (Goldilocks.new (slotValue values slot)).val := by
  have scale : recipScale = 4294967296 := rfl
  have inverse := toNat_slotInv values slot
  have quotient := Nat.div_le_self recipScale (slotValue values slot).toNat
  rw [val_slotValue denominated, ← inverse]
  exact Goldilocks.val_new_of_lt (by omega)

/-- The values of an honest prover are in range. -/
theorem valuesInRange_of_holdsCf
    {cf : CfWitnesses}
    {numbers : CfNumbers}
    (holds : HoldsCf row cf numbers)
    (denominated : cf.AreDenominated) :
    ValuesInRange row where
  valueIn slot isSlot := by
    rw [holds.valueIn slot isSlot, val_slotValue denominated.inputs]
    exact slotValue_bounds denominated.inputs slot
  valueOut slot isSlot := by
    rw [holds.valueOut slot isSlot, val_slotValue denominated.outputs]
    exact slotValue_bounds denominated.outputs slot

/-- Its columns are what they are meant to be, given the fee. -/
theorem cfSound_of_holdsCf
    {cf : CfWitnesses}
    {numbers : CfNumbers}
    (holds : HoldsCf row cf numbers)
    (exact : numbers.AreExact cf)
    (denominated : cf.AreDenominated)
    (canonical : numbers.raw < goldilocksPrime)
    (feeEnough :
      numbers.floorBase.toNat + numbers.premium.toNat ≤
        pi.feeTotalSscl.toNat) :
    CfSound row pi := by
  have floorBelow := exact.floorBelow
  have premiumAtMost := exact.premium_le
  have floorBase : (row colFloorBase).val = numbers.floorBase.toNat := by
    rw [holds.floorBase]
    exact Goldilocks.val_new_of_lt (by omega)
  have premium : (row colPremium).val = numbers.premium.toNat := by
    rw [holds.premium]
    exact Goldilocks.val_new_of_lt (by omega)
  have raw : (row colPremiumRawStart).val = numbers.raw.toNat := by
    rw [holds.raw]
    exact Goldilocks.val_new_of_lt (UInt64.lt_iff_toNat_lt.mp canonical)
  exact {
    inverseIn := fun slot isSlot => by
      rw [holds.invIn slot isSlot, holds.valueIn slot isSlot]
      exact val_slotInv denominated.inputs slot
    inverseOut := fun slot isSlot => by
      rw [holds.invOut slot isSlot, holds.valueOut slot isSlot]
      exact val_slotInv denominated.outputs slot
    premiumBounded := by
      rw [premium, floorBase]
      exact premiumAtMost
    premium := by
      rw [premium, raw, floorBase]
      exact exact.premium
    feeCovers := by
      rw [floorBase, premium]
      exact feeEnough
  }

/-- A transfer that sends half of its input and pays the rest. -/
def halvingTransfer : TransferPublicInputsP3 :=
  { plainTransfer with
    feeTotalSscl := 50000000
    sumInputsSscl := 100000000
    sumOutputsSscl := 50000000 }

/-- Its values. -/
def halvedValue : CfWitnesses where
  inputValues := [largestDenomination]
  outputValues := [50000000]

/-- The halved value is made of denominations. -/
theorem areDenominated_halvedValue : halvedValue.AreDenominated where
  inputs :=
    ⟨by decide, by simp [halvedValue, largestDenomination], by simp [halvedValue]⟩
  outputs :=
    ⟨by decide, by simp [halvedValue], by simp [halvedValue, largestDenomination]⟩

/-- The honest prover of the halving transfer divides as it should. -/
theorem dividesAsMeant_halvingTransfer :
    ∃ row,
      buildTransferTrace VerifierPy.t8Permutation halvingTransfer halvedValue =
          some row ∧
        Accepts row halvingTransfer ∧
          ValuesInRange row ∧ DividesAsMeant row halvingTransfer := by
  have admissible :
      (cgValidity halvingTransfer.currentSubepochId
        halvingTransfer.targetSubepochId).isSome = true := by
    decide
  obtain ⟨row, built⟩ :
      ∃ row,
        buildTransferTrace VerifierPy.t8Permutation halvingTransfer halvedValue =
          some row :=
    (exists_buildTransferTrace_iff areDenominated_halvedValue).mpr admissible
  obtain ⟨mass, isMass, massNumber⟩ := exists_storageMass areDenominated_halvedValue
  have agrees : MassAgrees halvedValue := .inl ⟨rfl, by decide⟩
  obtain ⟨massVanishes, premiumVanishes⟩ :=
    (vanish_of_buildTransferTrace_iff areDenominated_halvedValue built).mpr agrees
  have accepted : Accepts row halvingTransfer :=
    accepts_buildTransferTrace VerifierPy.t8Permutation rfl (by decide) (by decide)
      (by decide) built massVanishes premiumVanishes
  have holds := holdsCf_of_buildTransferTrace isMass built
  have exact :=
    cfNumbers_areExact VerifierPy.t8Permutation halvingTransfer
      areDenominated_halvedValue massNumber
  have floorBase :
      (cfNumbers VerifierPy.t8Permutation halvingTransfer halvedValue
        mass).floorBase.toNat = 45000 := by
    rw [exact.floorBase, exact.baseFee, exact.complexityFee, exact.storageMass]
    decide
  have sound : CfSound row halvingTransfer := by
    refine
      cfSound_of_holdsCf holds exact areDenominated_halvedValue
        (VerifierPy.t8Permutation.canonical _ _) ?_
    have premiumAtMost := exact.premium_le
    have fee : halvingTransfer.feeTotalSscl.toNat = 50000000 := rfl
    omega
  have inRange := valuesInRange_of_holdsCf holds areDenominated_halvedValue
  exact ⟨row, built, accepted, inRange, (cfSound_iff accepted inRange).mp sound⟩

/-- The mass of the underpaid row. -/
def underpaidMass : Nat :=
  4294967295

/-- Its floor base. -/
def underpaidFloor : Nat :=
  underpaidMass * 1000

/-- The bands of the underpaid row. -/
def underpaidStops : List Nat :=
  [colValueInStart, colValueInStart + 1, colInvInStart, colInvInStart + 1,
    colValueOutStart, colInvOutStart, colStorageMass, colNumInputs,
    colRemInBitStart, colRemInBitStart + remBitCount, colBaseFee,
    colComplexityFee, colFloorBase, colTxNonce, colPremiumRawStart,
    colPremiumRawStart + 1, colPremium, colPremiumBitStart, transferTraceWidth]

/-- What they hold. -/
def underpaidContents : List (Nat → Goldilocks) :=
  [forgedRow plainTransfer 0 1000 0, fun _ => (2 : Nat),
    fun _ => (1 : Nat), fun _ => (1 : Nat),
    fun _ => (recipScale : Nat), fun _ => (1 : Nat),
    fun _ => (recipScale : Nat), fun _ => (underpaidMass : Nat), fun _ => 0,
    fun column => bitOf 4294967294 (column - colRemInBitStart), fun _ => 0,
    fun _ => (underpaidFloor : Nat), fun _ => 0,
    fun _ => (underpaidFloor : Nat), fun _ => 0,
    fun _ => (underpaidFloor + 1 : Nat), fun _ => 0,
    fun _ => (underpaidFloor + 1 : Nat),
    fun column => bitOf (underpaidFloor + 1) (column - colPremiumBitStart)]

/--
The plain transfer with an input of value two whose reciprocal is one, and with
a premium that is one more than the floor base.
-/
def underpaidRow : Row :=
  banded underpaidStops underpaidContents

/-- A column of the underpaid row is found in its band. -/
theorem underpaidRow_add
    (index : Nat)
    {start offset stop : Nat}
    {content : Nat → Goldilocks}
    (isStop : underpaidStops[index]? = some stop)
    (isContent : underpaidContents[index]? = some content)
    (past : ∀ earlier ∈ underpaidStops.take index, earlier ≤ start)
    (inside : start + offset < stop) :
    underpaidRow (start + offset) = content (start + offset) :=
  banded_add index isStop isContent past inside

/-- Past the first slot there are no remainder bits. -/
theorem underpaidRow_noBits
    {column : Nat}
    (past : colRemInBitStart + remBitCount ≤ column)
    (inside : column < colBaseFee)
    (bit : Nat) :
    underpaidRow column = bitOf 0 bit := by
  obtain ⟨offset, rfl⟩ := Nat.exists_eq_add_of_le past
  rw [underpaidRow_add 10 rfl rfl (by decide) inside, bitOf, Nat.zero_testBit]
  rfl

/-- Slots of value one without remainder bits. -/
theorem vanish_reciprocal_of_one
    {valueStart invStart bitStart slot : Nat}
    (isValue : underpaidRow (valueStart + slot) = ((1 : Nat) : Goldilocks))
    (isInverse :
      underpaidRow (invStart + slot) = ((recipScale : Nat) : Goldilocks))
    (past : colRemInBitStart + remBitCount ≤ bitStart + slot * remBitCount)
    (inside : bitStart + slot * remBitCount + remBitCount ≤ colBaseFee) :
    Vanish (reciprocal underpaidRow valueStart invStart bitStart slot) := by
  apply vanish_reciprocal_of_division isValue isInverse _
    (Nat.two_pow_pos remBitCount) (Nat.one_mul _)
  intro bit inRange
  exact underpaidRow_noBits (past.trans (Nat.le_add_right _ _))
    ((Nat.add_lt_add_left inRange _).trans_le inside) bit

/-- Two and one leave a remainder of 32 bits, which is above two. -/
theorem vanish_reciprocal_zero :
    Vanish
      (reciprocal underpaidRow colValueInStart colInvInStart colRemInBitStart
        0) := by
  have isValue :
      underpaidRow (colValueInStart + 0) = ((2 : Nat) : Goldilocks) :=
    rfl
  have isInverse :
      underpaidRow (colInvInStart + 0) = ((1 : Nat) : Goldilocks) :=
    rfl
  have division : 2 * 1 + 4294967294 = recipScale := by
    decide
  apply vanish_reciprocal_of_division isValue isInverse _ (by decide) division
  intro bit inRange
  rw [Nat.zero_mul, Nat.add_zero, underpaidRow_add 9 rfl rfl (by decide)
    (Nat.add_lt_add_left inRange colRemInBitStart), Nat.add_sub_cancel_left]

/-- Every reciprocal of the underpaid row is proved. -/
theorem vanish_reciprocal_underpaidRow
    {slot : Nat}
    (isSlot : slot < maxIoCf) :
    Vanish
        (reciprocal underpaidRow colValueInStart colInvInStart colRemInBitStart
          slot) ∧
      Vanish
        (reciprocal underpaidRow colValueOutStart colInvOutStart
          colRemOutBitStart slot) := by
  have bound : slot < 10 := isSlot
  constructor
  · cases slot with
    | zero =>
        exact vanish_reciprocal_zero
    | succ slot =>
        have others : slot < 9 := Nat.lt_of_succ_lt_succ bound
        have isValue :
            underpaidRow (colValueInStart + (slot + 1)) =
              ((1 : Nat) : Goldilocks) := by
          rw [Nat.add_comm slot, ← Nat.add_assoc,
            underpaidRow_add 2 rfl rfl (by decide)
              (Nat.add_lt_add_left others (colValueInStart + 1))]
        have isInverse :
            underpaidRow (colInvInStart + (slot + 1)) =
              ((recipScale : Nat) : Goldilocks) := by
          rw [Nat.add_comm slot, ← Nat.add_assoc,
            underpaidRow_add 4 rfl rfl (by decide)
              (Nat.add_lt_add_left others (colInvInStart + 1))]
        apply vanish_reciprocal_of_one isValue isInverse
        · simp only [colRemInBitStart, remBitCount]
          omega
        · simp only [colRemInBitStart, remBitCount, colBaseFee]
          omega
  · have isValue :
        underpaidRow (colValueOutStart + slot) = ((1 : Nat) : Goldilocks) := by
      rw [underpaidRow_add 5 rfl rfl (by decide)
        (Nat.add_lt_add_left isSlot colValueOutStart)]
    have isInverse :
        underpaidRow (colInvOutStart + slot) =
          ((recipScale : Nat) : Goldilocks) := by
      rw [underpaidRow_add 6 rfl rfl (by decide)
        (Nat.add_lt_add_left isSlot colInvOutStart)]
    apply vanish_reciprocal_of_one isValue isInverse
    · simp only [colRemInBitStart, colRemOutBitStart, remBitCount]
      omega
    · simp only [colRemOutBitStart, remBitCount, colBaseFee]
      omega

/-- A sum of reciprocals of the underpaid row, as a number. -/
theorem columnSum_underpaidRow
    {start : Nat}
    {inverses : List Nat}
    (columns :
      (List.range maxIoCf).map (fun slot => underpaidRow (start + slot)) =
        inverses.map Nat.cast) :
    columnSum underpaidRow start = ((inverses.sum : Nat) : Goldilocks) := by
  rw [columnSum, columns]
  exact (Nat.cast_list_sum inverses).symm

/-- The mass is the difference of the sums, and the fees follow from it. -/
theorem vanish_storageMass_underpaidRow :
    Vanish (storageMass underpaidRow) := by
  have sumIn :
      columnSum underpaidRow colInvInStart =
        (((1 :: List.replicate 9 recipScale).sum : Nat) : Goldilocks) :=
    columnSum_underpaidRow rfl
  have sumOut :
      columnSum underpaidRow colInvOutStart =
        (((List.replicate 10 recipScale).sum : Nat) : Goldilocks) :=
    columnSum_underpaidRow rfl
  have mass :
      underpaidRow colStorageMass = ((underpaidMass : Nat) : Goldilocks) :=
    rfl
  have difference :
      ((List.replicate 10 recipScale).sum : Goldilocks) =
        ((underpaidMass : Nat) : Goldilocks) +
          (((1 :: List.replicate 9 recipScale).sum : Nat) : Goldilocks) := by
    rw [← Nat.cast_add]
    rfl
  have baseFee :
      underpaidRow colBaseFee =
        ((underpaidMass * basePricePerMass : Nat) : Goldilocks) :=
    rfl
  have floorBase : underpaidRow colFloorBase = underpaidRow colBaseFee := rfl
  have complexityFee : underpaidRow colComplexityFee = 0 := rfl
  have numInputs : underpaidRow colNumInputs = 0 := rfl
  have numOutputs : underpaidRow colNumOutputs = 0 := rfl
  rw [storageMass, vanish_append, vanish_flatMap]
  constructor
  · intro slot listed
    rw [vanish_append]
    exact vanish_reciprocal_underpaidRow (List.mem_range.mp listed)
  · simp only [vanish_cons, vanish_nil, and_true]
    refine ⟨?_, ?_, ?_, ?_⟩
    · rw [sumIn, sumOut, mass, difference, add_sub_cancel_right, sub_self]
    · rw [baseFee, mass, Nat.cast_mul, sub_self]
    · rw [complexityFee, numInputs, numOutputs, add_zero, zero_mul, sub_self]
    · rw [floorBase, complexityFee, add_zero, sub_self]

/-- With no quotient the premium is the raw word, which fits its bits. -/
theorem vanish_premium_underpaidRow : Vanish (premium underpaidRow) := by
  have bits : ∀ bit < premiumBitCount,
      underpaidRow (colPremiumBitStart + bit) =
        bitOf (underpaidFloor + 1) bit := by
    intro bit inRange
    rw [underpaidRow_add 18 rfl rfl (by decide)
      (Nat.add_lt_add_left inRange colPremiumBitStart),
      Nat.add_sub_cancel_left]
  have raw : underpaidRow colPremiumRawStart = underpaidRow colPremium := rfl
  have quotient : underpaidRow colPremiumQ = 0 := rfl
  rw [premium, vanish_append, vanish_cons, raw, quotient, zero_mul, add_zero,
    sub_self, vanish_rangeProof_iff bits]
  exact ⟨rfl, rfl, vanish_nil⟩

/-- It is accepted. -/
theorem accepts_underpaidRow : Accepts underpaidRow plainTransfer := by
  have forged :
      Accepts (forgedRow plainTransfer 0 1000 0) plainTransfer :=
    accepts_forgedRow (by decide) (by decide) (by decide) (by decide)
      (by decide) (by decide) (by decide)
  have head : ∀ column < 112,
      underpaidRow column = forgedRow plainTransfer 0 1000 0 column :=
    fun _ inHead => if_pos inHead
  refine
    (vanish_eval_iff _ _).mpr
      ⟨?_, vanish_storageMass_underpaidRow, vanish_premium_underpaidRow⟩
  rw [headEval_congr head]
  exact ((vanish_eval_iff _ _).mp forged).1

/-- Its values are in range. -/
theorem valuesInRange_underpaidRow : ValuesInRange underpaidRow where
  valueIn := by
    decide +kernel
  valueOut := by
    decide +kernel

/--
It has a reciprocal of two that is one, its premium is above its floor base, and
its fee is below it.
-/
theorem not_cfSound_underpaidRow :
    Accepts underpaidRow plainTransfer ∧
      ValuesInRange underpaidRow ∧
        ¬ CfSound underpaidRow plainTransfer ∧
          (underpaidRow colInvInStart).val ≠
              recipScale / (underpaidRow colValueInStart).val ∧
            (underpaidRow colFloorBase).val < (underpaidRow colPremium).val ∧
              plainTransfer.feeTotalSscl.toNat <
                (underpaidRow colFloorBase).val := by
  have wrongInverse :
      (underpaidRow colInvInStart).val ≠
        recipScale / (underpaidRow colValueInStart).val := by
    decide +kernel
  have notSound : ¬ CfSound underpaidRow plainTransfer := fun sound =>
    wrongInverse (sound.inverseIn 0 (by decide))
  exact ⟨accepts_underpaidRow, valuesInRange_underpaidRow, notSound,
    wrongInverse, by decide +kernel, by decide +kernel⟩

end ScalarCore.TransferAirP3
