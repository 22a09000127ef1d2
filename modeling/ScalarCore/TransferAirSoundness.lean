import ScalarCore.TransferAir

namespace ScalarCore.TransferAirP3

/-!
# What the transfer circuit proves

The constraints decide four facts about the public words, all of them modulo
the prime.  They never read the public flags and prove no range for the sums.
So a transfer is accepted exactly when the four facts hold, and what an
accepted transfer says about integers depends on its words being canonical,
its sums not wrapping and its flags being set.
-/

open FieldConstraints MachineInt

/-- What an accepted transfer is meant to be. -/
structure Facts (pi : TransferPublicInputsP3) : Prop where
  conserved :
    pi.sumInputsSscl.toNat =
      pi.sumOutputsSscl.toNat + pi.feeTotalSscl.toNat
  feeFloor : feeFloorSscl ≤ pi.feeTotalSscl
  version : pi.cryptoVersion = validCryptoVersion
  validity :
    ∃ target : UInt64,
      target.toNat < 2 ^ 40 ∧
        (cgValidity pi.currentSubepochId target).isSome = true
  cbMembershipVerified : pi.cbMembershipVerified = true
  ccNonmembershipVerified : pi.ccNonmembershipVerified = true
  outputNonzero : pi.outputNonzero = true
  singleUtxoSource : pi.singleUtxoSource = true

/-- What the constraints decide, in the field. -/
structure Admissible (pi : TransferPublicInputsP3) : Prop where
  conserved :
    Goldilocks.new pi.sumInputsSscl =
      Goldilocks.new pi.sumOutputsSscl + Goldilocks.new pi.feeTotalSscl
  feeInRange :
    ∃ above : Nat,
      above < 2 ^ 52 ∧
        Goldilocks.new pi.feeTotalSscl =
          (above : Goldilocks) + (feeFloorSscl.toNat : Goldilocks)
  version :
    Goldilocks.new pi.cryptoVersion =
      (validCryptoVersion.toNat : Goldilocks)
  validity :
    ∃ target validity : Nat,
      target < 2 ^ 40 ∧ validity ≤ 1 ∧
        Goldilocks.new pi.currentSubepochId =
          (target : Goldilocks) + (validity : Goldilocks)

/--
The words are their own representatives where it matters, the sums differ by
less than the prime, and the flags are set.
-/
structure Exact (pi : TransferPublicInputsP3) : Prop where
  versionCanonical : pi.cryptoVersion < goldilocksPrime
  subepochCanonical : pi.currentSubepochId < goldilocksPrime
  outputsBelow :
    pi.sumOutputsSscl.toNat + pi.feeTotalSscl.toNat <
      pi.sumInputsSscl.toNat + goldilocksPrime.toNat
  inputsBelow :
    pi.sumInputsSscl.toNat <
      pi.sumOutputsSscl.toNat + pi.feeTotalSscl.toNat +
        goldilocksPrime.toNat
  cbMembershipVerified : pi.cbMembershipVerified = true
  ccNonmembershipVerified : pi.ccNonmembershipVerified = true
  outputNonzero : pi.outputNonzero = true
  singleUtxoSource : pi.singleUtxoSource = true

variable {row : Row} {pi : TransferPublicInputsP3}

/--
The checks on the words themselves ask for the facts, when the sum they compare
with does not saturate and the target has 40 bits.
-/
theorem facts_of_checkAllConstraints
    (passed : pi.checkAllConstraints = .ok ())
    (exactSum :
      pi.sumOutputsSscl.toNat + pi.feeTotalSscl.toNat ≤ maxU64)
    (targetBelow : pi.targetSubepochId.toNat < 2 ^ 40) :
    Facts pi := by
  obtain ⟨conserved, feeFloor, version, isSome, cbVerified, ccVerified,
    nonzero, oneSource⟩ :=
    TransferPublicInputsP3.checkAllConstraints_eq_ok_iff.mp passed
  have sums :
      pi.sumInputsSscl.toNat =
        pi.sumOutputsSscl.toNat + pi.feeTotalSscl.toNat := by
    rw [conserved, toNat_saturatingAdd, min_eq_left exactSum]
  exact {
    conserved := sums
    feeFloor := feeFloor
    version := version
    validity := ⟨pi.targetSubepochId, targetBelow, isSome⟩
    cbMembershipVerified := cbVerified
    ccNonmembershipVerified := ccVerified
    outputNonzero := nonzero
    singleUtxoSource := oneSource
  }

/-- The numeric columns of an accepted row hold the public words. -/
theorem publicBinding_iff :
    Vanish (publicBinding row pi.toGoldilocks) ↔
      row colFee = Goldilocks.new pi.feeTotalSscl ∧
        row colSumIn = Goldilocks.new pi.sumInputsSscl ∧
        row colSumOut = Goldilocks.new pi.sumOutputsSscl ∧
        row colVersion = Goldilocks.new pi.cryptoVersion ∧
        row colCurrentSubepoch = Goldilocks.new pi.currentSubepochId := by
  simp only [publicBinding, vanish_cons, vanish_nil, and_true, sub_eq_zero]
  rfl

/-- The last public values are the words of the hashes. -/
theorem publicValue_hashes (index : Nat) :
    publicValue pi.toGoldilocks (33 + index) =
      publicValue (pushWords pi.commitmentHash ++ pushWords pi.nullifierHash)
        index := by
  have layout :
      pi.toGoldilocks.drop 33 =
        pushWords pi.commitmentHash ++ pushWords pi.nullifierHash :=
    rfl
  rw [publicValue, publicValue, ← layout, List.getD_eq_getElem?_getD,
    List.getD_eq_getElem?_getD, List.getElem?_drop]

/-- The hash columns of an accepted row hold the public hashes. -/
theorem crossBinding_iff :
    Vanish (crossBinding row pi.toGoldilocks) ↔
      (row colCommitmentHash0 = Goldilocks.new (pi.commitmentHash 0) ∧
          row (colCommitmentHash0 + 1) =
            Goldilocks.new (pi.commitmentHash 1) ∧
          row (colCommitmentHash0 + 2) =
            Goldilocks.new (pi.commitmentHash 2) ∧
          row (colCommitmentHash0 + 3) =
            Goldilocks.new (pi.commitmentHash 3)) ∧
        row colNullifierHash0 = Goldilocks.new (pi.nullifierHash 0) ∧
          row (colNullifierHash0 + 1) =
            Goldilocks.new (pi.nullifierHash 1) ∧
          row (colNullifierHash0 + 2) =
            Goldilocks.new (pi.nullifierHash 2) ∧
          row (colNullifierHash0 + 3) =
            Goldilocks.new (pi.nullifierHash 3) := by
  simp only [crossBinding, vanish_cons, vanish_nil, and_true, sub_eq_zero,
    and_assoc]
  rw [publicValue_hashes 0, publicValue_hashes 1, publicValue_hashes 2,
    publicValue_hashes 3, publicValue_hashes 4, publicValue_hashes 5,
    publicValue_hashes 6, publicValue_hashes 7]
  rfl

/-- The fee column is at least the floor, by less than `2^52`. -/
theorem exists_of_feeFloor
    (vanish : Vanish (feeFloor row)) :
    ∃ above : Nat,
      above < 2 ^ 52 ∧
        row colFee =
          (above : Goldilocks) + (feeFloorSscl.toNat : Goldilocks) := by
  rw [feeFloor, vanish_append, vanish_cons, sub_eq_zero] at vanish
  obtain ⟨above, below, isAbove⟩ := exists_lt_of_rangeProof vanish.2
  exact ⟨above, below, by rw [vanish.1.1, isAbove]⟩

/-- The current sub-epoch is a 40-bit target or the one after it. -/
theorem exists_of_cgArith
    (vanish : Vanish (cgArith row)) :
    ∃ target validity : Nat,
      target < 2 ^ 40 ∧ validity ≤ 1 ∧
        row colCurrentSubepoch =
          (target : Goldilocks) + (validity : Goldilocks) := by
  rw [cgArith, vanish_append, vanish_cons, vanish_cons, sub_eq_zero,
    bitConstraint_eq_zero_iff] at vanish
  obtain ⟨⟨isSum, isBit, _⟩, inRange⟩ := vanish
  obtain ⟨target, below, isTarget⟩ := exists_lt_of_rangeProof inRange
  rw [isSum, isTarget]
  rcases isBit with isZero | isOne
  · exact ⟨target, 0, below, zero_le_one, by rw [isZero, Nat.cast_zero]⟩
  · exact ⟨target, 1, below, le_refl 1, by rw [isOne, Nat.cast_one]⟩

/-- An accepted row decides the four facts of its transfer. -/
theorem admissible_of_accepts
    (accepted : Accepts row pi) :
    Admissible pi := by
  simp only [Accepts, eval, vanish_append] at accepted
  obtain ⟨⟨⟨⟨⟨⟨⟨⟨binding, conserved⟩, fee⟩, version⟩, arith⟩, _⟩, _⟩, _⟩, _⟩ :=
    accepted
  obtain ⟨isFee, isSumIn, isSumOut, isVersion, isCurrent⟩ :=
    publicBinding_iff.mp binding
  rw [conservation, vanish_cons, sub_sub, sub_eq_zero] at conserved
  rw [cryptoVersion, vanish_cons, sub_eq_zero] at version
  constructor
  · rw [← isSumIn, ← isSumOut, ← isFee, conserved.1]
  · rw [← isFee]
    exact exists_of_feeFloor fee
  · rw [← isVersion, version.1]
  · rw [← isCurrent]
    exact exists_of_cgArith arith

/--
A row for an admissible transfer.  Every flag is set, every reciprocal is that
of the value one, and the mass, the fees and the premium are zero.
-/
def forgedRow
    (pi : TransferPublicInputsP3)
    (above target validity : Nat) : Row :=
  fun column =>
    if column < 20 then
      [Goldilocks.new pi.feeTotalSscl, Goldilocks.new pi.sumInputsSscl,
        Goldilocks.new pi.sumOutputsSscl, Goldilocks.new pi.cryptoVersion,
        Goldilocks.new pi.currentSubepochId, (target : Goldilocks),
        (validity : Goldilocks), 1, 1, 1, 1,
        Goldilocks.new (pi.commitmentHash 0),
        Goldilocks.new (pi.commitmentHash 1),
        Goldilocks.new (pi.commitmentHash 2),
        Goldilocks.new (pi.commitmentHash 3),
        Goldilocks.new (pi.nullifierHash 0),
        Goldilocks.new (pi.nullifierHash 1),
        Goldilocks.new (pi.nullifierHash 2),
        Goldilocks.new (pi.nullifierHash 3),
        (above : Goldilocks)].getD column 0
    else if column < 72 then
      bitOf above (column - 20)
    else if column < 112 then
      bitOf target (column - 72)
    else if column < 122 then
      1
    else if column < 132 then
      (recipScale : Goldilocks)
    else if column < 142 then
      1
    else if column < 152 then
      (recipScale : Goldilocks)
    else
      0

section ForgedRow

variable {above target validity : Nat}

/-- Past the reciprocals a forged row is zero. -/
theorem forgedRow_of_le
    {column : Nat}
    (past : 152 ≤ column) :
    forgedRow pi above target validity column = 0 := by
  unfold forgedRow
  repeat rw [if_neg (by omega)]

/-- The fee bits of a forged row. -/
theorem forgedRow_feeBit
    {index : Nat}
    (inRange : index < feeBitCount) :
    forgedRow pi above target validity (colFeeBitStart + index) =
      bitOf above index := by
  unfold feeBitCount at inRange
  unfold forgedRow colFeeBitStart
  rw [if_neg (by omega), if_pos (by omega), Nat.add_sub_cancel_left]

/-- The target bits of a forged row. -/
theorem forgedRow_targetBit
    {index : Nat}
    (inRange : index < targetBitCount) :
    forgedRow pi above target validity (colTargetBitStart + index) =
      bitOf target index := by
  unfold targetBitCount at inRange
  unfold forgedRow colTargetBitStart
  rw [if_neg (by omega), if_neg (by omega), if_pos (by omega),
    Nat.add_sub_cancel_left]

/-- The value columns of a forged row are one. -/
theorem forgedRow_value
    {start slot : Nat}
    (isValue : start = colValueInStart ∨ start = colValueOutStart)
    (inRange : slot < maxIoCf) :
    forgedRow pi above target validity (start + slot) = 1 := by
  unfold maxIoCf at inRange
  rcases isValue with rfl | rfl
  · unfold forgedRow colValueInStart
    repeat rw [if_neg (by omega)]
    exact if_pos (by omega)
  · unfold forgedRow colValueOutStart
    repeat rw [if_neg (by omega)]
    exact if_pos (by omega)

/-- The reciprocal columns of a forged row are the scale. -/
theorem forgedRow_inverse
    {start slot : Nat}
    (isInverse : start = colInvInStart ∨ start = colInvOutStart)
    (inRange : slot < maxIoCf) :
    forgedRow pi above target validity (start + slot) =
      (recipScale : Goldilocks) := by
  unfold maxIoCf at inRange
  rcases isInverse with rfl | rfl
  · unfold forgedRow colInvInStart
    repeat rw [if_neg (by omega)]
    exact if_pos (by omega)
  · unfold forgedRow colInvOutStart
    repeat rw [if_neg (by omega)]
    exact if_pos (by omega)

/-- Zero columns are a range proof of zero. -/
theorem vanish_zeroBits
    {start count : Nat}
    {value : Goldilocks}
    (past : 152 ≤ start)
    (isZero : value = 0) :
    Vanish
      (rangeProof
        (fun bit => forgedRow pi above target validity (start + bit))
        count value) := by
  rw [isZero, ← Nat.cast_zero]
  apply vanish_rangeProof (Nat.two_pow_pos count)
  intro index _
  rw [forgedRow_of_le (past.trans (Nat.le_add_right _ _)), bitOf,
    Nat.zero_testBit]
  rfl

/-- A forged reciprocal leaves no remainder. -/
theorem vanish_reciprocal
    {valueStart invStart bitStart slot : Nat}
    (isValue : valueStart = colValueInStart ∨ valueStart = colValueOutStart)
    (isInverse : invStart = colInvInStart ∨ invStart = colInvOutStart)
    (past : 152 ≤ bitStart)
    (inRange : slot < maxIoCf) :
    Vanish
      (reciprocal (forgedRow pi above target validity) valueStart invStart
        bitStart slot) := by
  unfold reciprocal
  apply vanish_zeroBits (past.trans (Nat.le_add_right _ _))
  rw [forgedRow_value isValue inRange, forgedRow_inverse isInverse inRange,
    one_mul, sub_self]

/-- The reciprocals of both sides have the same sum. -/
theorem columnSum_forgedRow :
    columnSum (forgedRow pi above target validity) colInvOutStart =
      columnSum (forgedRow pi above target validity) colInvInStart := by
  have sameColumns :
      (List.range maxIoCf).map
          (fun slot =>
            forgedRow pi above target validity (colInvOutStart + slot)) =
        (List.range maxIoCf).map fun slot =>
          forgedRow pi above target validity (colInvInStart + slot) := by
    apply List.map_congr_left
    intro slot listed
    have inRange := List.mem_range.mp listed
    rw [forgedRow_inverse (.inr rfl) inRange,
      forgedRow_inverse (.inl rfl) inRange]
  rw [columnSum, columnSum, sameColumns]

theorem vanish_storageMass :
    Vanish (storageMass (forgedRow pi above target validity)) := by
  have isZero
      (column : Nat)
      (past : 152 ≤ column) :
      forgedRow pi above target validity column = 0 :=
    forgedRow_of_le past
  rw [storageMass, vanish_append, vanish_flatMap]
  constructor
  · intro slot listed
    have inRange := List.mem_range.mp listed
    rw [vanish_append]
    exact
      ⟨vanish_reciprocal (.inl rfl) (.inl rfl) (by decide) inRange,
        vanish_reciprocal (.inr rfl) (.inr rfl) (by decide) inRange⟩
  · rw [columnSum_forgedRow, sub_self,
      isZero colStorageMass (by decide),
      isZero colBaseFee (by decide),
      isZero colComplexityFee (by decide),
      isZero colNumInputs (by decide),
      isZero colNumOutputs (by decide),
      isZero colFloorBase (by decide)]
    simp

theorem vanish_premium :
    Vanish (premium (forgedRow pi above target validity)) := by
  have isZero
      (column : Nat)
      (past : 152 ≤ column) :
      forgedRow pi above target validity column = 0 :=
    forgedRow_of_le past
  rw [premium, vanish_append]
  constructor
  · exact vanish_zeroBits (by decide) (isZero colPremium (by decide))
  · rw [isZero colPremiumRawStart (by decide),
      isZero colPremium (by decide),
      isZero colPremiumQ (by decide)]
    simp

/-- A forged row is accepted when its numbers are those of the transfer. -/
theorem accepts_forgedRow
    (conserved :
      Goldilocks.new pi.sumInputsSscl =
        Goldilocks.new pi.sumOutputsSscl + Goldilocks.new pi.feeTotalSscl)
    (aboveBelow : above < 2 ^ 52)
    (isFee :
      Goldilocks.new pi.feeTotalSscl =
        (above : Goldilocks) + (feeFloorSscl.toNat : Goldilocks))
    (version :
      Goldilocks.new pi.cryptoVersion =
        (validCryptoVersion.toNat : Goldilocks))
    (targetBelow : target < 2 ^ 40)
    (isBit : validity ≤ 1)
    (isCurrent :
      Goldilocks.new pi.currentSubepochId =
        (target : Goldilocks) + (validity : Goldilocks)) :
    Accepts (forgedRow pi above target validity) pi := by
  simp only [Accepts, eval, vanish_append]
  refine ⟨⟨⟨⟨⟨⟨⟨⟨?_, ?_⟩, ?_⟩, ?_⟩, ?_⟩, ?_⟩, ?_⟩, ?_⟩, ?_⟩
  · exact publicBinding_iff.mpr ⟨rfl, rfl, rfl, rfl, rfl⟩
  · have columns :
        conservation (forgedRow pi above target validity) =
          [Goldilocks.new pi.sumInputsSscl -
            Goldilocks.new pi.sumOutputsSscl -
              Goldilocks.new pi.feeTotalSscl] :=
      rfl
    rw [columns, conserved]
    simp
  · rw [feeFloor, vanish_append, vanish_cons, sub_eq_zero]
    exact
      ⟨⟨isFee, vanish_nil⟩,
        vanish_rangeProof aboveBelow fun _ => forgedRow_feeBit⟩
  · rw [cryptoVersion, vanish_cons, sub_eq_zero]
    exact ⟨version, vanish_nil⟩
  · rw [cgArith, vanish_append, vanish_cons, vanish_cons, sub_eq_zero,
      bitConstraint_eq_zero_iff]
    refine
      ⟨⟨isCurrent, ?_, vanish_nil⟩,
        vanish_rangeProof targetBelow fun _ => forgedRow_targetBit⟩
    rcases Nat.le_one_iff_eq_zero_or_eq_one.mp isBit with rfl | rfl
    · exact .inl Nat.cast_zero
    · exact .inr Nat.cast_one
  · have columns :
        verifiedFlags (forgedRow pi above target validity) =
          [bitConstraint 1, 1 - 1, bitConstraint 1, 1 - 1, bitConstraint 1,
            1 - 1, bitConstraint 1, 1 - 1] :=
      rfl
    rw [columns]
    simp [bitConstraint]
  · exact vanish_storageMass
  · exact vanish_premium
  · exact
      crossBinding_iff.mpr
        ⟨⟨rfl, rfl, rfl, rfl⟩, rfl, rfl, rfl, rfl⟩

end ForgedRow

/-- A transfer is accepted, with some row, exactly when it is admissible. -/
theorem exists_accepts_iff :
    (∃ row, Accepts row pi) ↔ Admissible pi := by
  constructor
  · rintro ⟨row, accepted⟩
    exact admissible_of_accepts accepted
  · rintro ⟨conserved, ⟨above, aboveBelow, isFee⟩, version,
      ⟨target, validity, targetBelow, isBit, isCurrent⟩⟩
    exact
      ⟨forgedRow pi above target validity,
        accepts_forgedRow conserved aboveBelow isFee version targetBelow isBit
          isCurrent⟩

/-- A word is the number below the prime that it reduces to, or larger. -/
theorem toNat_mod_of_new_eq
    {word : UInt64}
    {number : Nat}
    (same : Goldilocks.new word = (number : Goldilocks))
    (below : number < goldilocksPrime.toNat) :
    word.toNat % goldilocksPrime.toNat = number := by
  have congruent := (ZMod.natCast_eq_natCast_iff' _ _ _).mp same
  exact congruent.trans (Nat.mod_eq_of_lt below)

/-- The fee of an admissible transfer is not below the floor. -/
theorem feeFloor_le
    (admissible : Admissible pi) :
    feeFloorSscl ≤ pi.feeTotalSscl := by
  obtain ⟨above, below, isFee⟩ := admissible.feeInRange
  rw [← Nat.cast_add] at isFee
  have remainder :=
    toNat_mod_of_new_eq isFee
      ((Nat.add_lt_add_right below _).trans (by decide))
  rw [UInt64.le_iff_toNat_le]
  calc feeFloorSscl.toNat
      ≤ above + feeFloorSscl.toNat := Nat.le_add_left _ _
    _ = pi.feeTotalSscl.toNat % goldilocksPrime.toNat := remainder.symm
    _ ≤ pi.feeTotalSscl.toNat := Nat.mod_le _ _

/-- The sums agree as numbers when they differ by less than the prime. -/
theorem conserved_iff
    (admissible : Admissible pi) :
    pi.sumInputsSscl.toNat =
        pi.sumOutputsSscl.toNat + pi.feeTotalSscl.toNat ↔
      pi.sumOutputsSscl.toNat + pi.feeTotalSscl.toNat <
          pi.sumInputsSscl.toNat + goldilocksPrime.toNat ∧
        pi.sumInputsSscl.toNat <
          pi.sumOutputsSscl.toNat + pi.feeTotalSscl.toNat +
            goldilocksPrime.toNat := by
  have prime : 0 < goldilocksPrime.toNat := by
    decide
  constructor
  · intro same
    omega
  · rintro ⟨outputsBelow, inputsBelow⟩
    have conserved := admissible.conserved
    simp only [Goldilocks.new] at conserved
    rw [← Nat.cast_add] at conserved
    have congruent :
        pi.sumInputsSscl.toNat ≡
          pi.sumOutputsSscl.toNat + pi.feeTotalSscl.toNat
            [MOD goldilocksPrime.toNat] :=
      (ZMod.natCast_eq_natCast_iff _ _ _).mp conserved
    apply congruent.eq_of_abs_lt
    rw [abs_lt]
    omega

/-- The version is the valid one when it is canonical. -/
theorem version_iff
    (admissible : Admissible pi) :
    pi.cryptoVersion = validCryptoVersion ↔
      pi.cryptoVersion < goldilocksPrime := by
  constructor
  · rintro same
    rw [same]
    decide
  · intro canonical
    have remainder := toNat_mod_of_new_eq admissible.version (by decide)
    rw [Nat.mod_eq_of_lt (UInt64.lt_iff_toNat_lt.mp canonical)] at remainder
    exact UInt64.toNat_inj.mp remainder

/-- The target is admissible when the current sub-epoch is canonical. -/
theorem validity_iff
    (admissible : Admissible pi) :
    (∃ target : UInt64,
        target.toNat < 2 ^ 40 ∧
          (cgValidity pi.currentSubepochId target).isSome = true) ↔
      pi.currentSubepochId < goldilocksPrime := by
  have prime : goldilocksPrime.toNat = 18446744069414584321 := rfl
  constructor
  · rintro ⟨target, targetBelow, isSome⟩
    obtain ⟨validity, isBit, isCurrent⟩ := cgValidity_isSome_iff.mp isSome
    rw [UInt64.lt_iff_toNat_lt, isCurrent]
    omega
  · intro canonical
    obtain ⟨target, validity, targetBelow, isBit, isCurrent⟩ :=
      admissible.validity
    rw [← Nat.cast_add] at isCurrent
    have remainder := toNat_mod_of_new_eq isCurrent (by omega)
    rw [Nat.mod_eq_of_lt (UInt64.lt_iff_toNat_lt.mp canonical)] at remainder
    have isTarget : (UInt64.ofNat target).toNat = target := by
      rw [UInt64.toNat_ofNat', Nat.mod_eq_of_lt (by omega)]
    refine ⟨UInt64.ofNat target, by rwa [isTarget], ?_⟩
    rw [cgValidity_isSome_iff, isTarget]
    exact ⟨validity, isBit, remainder⟩

/--
An accepted transfer is what it is meant to be exactly when its version and
its sub-epoch are canonical, its sums differ by less than the prime and all its
flags are set.
-/
theorem accepts_facts_iff
    (accepted : Accepts row pi) :
    Facts pi ↔ Exact pi := by
  have admissible := admissible_of_accepts accepted
  constructor
  · intro facts
    obtain ⟨outputsBelow, inputsBelow⟩ :=
      (conserved_iff admissible).mp facts.conserved
    exact {
      versionCanonical := (version_iff admissible).mp facts.version
      subepochCanonical := (validity_iff admissible).mp facts.validity
      outputsBelow := outputsBelow
      inputsBelow := inputsBelow
      cbMembershipVerified := facts.cbMembershipVerified
      ccNonmembershipVerified := facts.ccNonmembershipVerified
      outputNonzero := facts.outputNonzero
      singleUtxoSource := facts.singleUtxoSource
    }
  · intro exact
    exact {
      conserved :=
        (conserved_iff admissible).mpr
          ⟨exact.outputsBelow, exact.inputsBelow⟩
      feeFloor := feeFloor_le admissible
      version := (version_iff admissible).mpr exact.versionCanonical
      validity := (validity_iff admissible).mpr exact.subepochCanonical
      cbMembershipVerified := exact.cbMembershipVerified
      ccNonmembershipVerified := exact.ccNonmembershipVerified
      outputNonzero := exact.outputNonzero
      singleUtxoSource := exact.singleUtxoSource
    }

/-- A transfer of one sSCL and the smallest fee, with everything verified. -/
def plainTransfer : TransferPublicInputsP3 where
  feeTotalSscl := 40
  sumInputsSscl := 41
  sumOutputsSscl := 1
  cryptoVersion := 1
  currentSubepochId := 1000
  targetSubepochId := 1000
  utxoSetRoot := .zero
  cbMembershipVerified := true
  nullifierActiveRoot := .zero
  nullifierArchivedRoot := .zero
  ccNonmembershipVerified := true
  outputNonzero := true
  singleUtxoSource := true
  commitmentHash := fun _ => 0
  nullifierHash := fun _ => 0

/-- The plain transfer has an accepted row and is what it is meant to be. -/
theorem accepts_facts_plainTransfer :
    Accepts (forgedRow plainTransfer 0 1000 0) plainTransfer ∧
      Facts plainTransfer := by
  have accepted : Accepts (forgedRow plainTransfer 0 1000 0) plainTransfer :=
    accepts_forgedRow (by decide) (by decide) (by decide) (by decide)
      (by decide) (by decide) (by decide)
  exact
    ⟨accepted,
      (accepts_facts_iff accepted).mpr
        ⟨by decide, by decide, by decide, by decide, rfl, rfl, rfl, rfl⟩⟩

/--
A transfer without inputs whose outputs and fee add up to the prime, and with
no flag set.
-/
def wrappedTransfer : TransferPublicInputsP3 :=
  { plainTransfer with
    sumInputsSscl := 0
    sumOutputsSscl := goldilocksPrime - 40
    cbMembershipVerified := false
    ccNonmembershipVerified := false
    outputNonzero := false
    singleUtxoSource := false }

/-- The wrapped transfer is accepted, creates value and has no flag set. -/
theorem accepts_wrappedTransfer :
    Accepts (forgedRow wrappedTransfer 0 1000 0) wrappedTransfer ∧
      ¬ Facts wrappedTransfer ∧
        wrappedTransfer.sumInputsSscl.toNat <
          wrappedTransfer.sumOutputsSscl.toNat := by
  refine ⟨?_, fun facts => ?_, by decide⟩
  · exact
      accepts_forgedRow (by decide) (by decide) (by decide) (by decide)
        (by decide) (by decide) (by decide)
  · cases facts.cbMembershipVerified

end ScalarCore.TransferAirP3
