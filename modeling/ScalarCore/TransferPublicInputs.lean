import ScalarCore.FallibleChecks
import ScalarCore.Goldilocks
import ScalarCore.MachineInt

namespace ScalarCore

/-!
# Public inputs of the transfer circuit

The words a transfer publishes, their layout as field elements, and the checks
that the prover runs on them.  `targetSubepochId` is a private witness carried
along with them and is not part of the layout.
-/

open FallibleChecks MachineInt

/-- Number of field elements of the layout. -/
def transferPiLen : Nat :=
  41

/-- The one valid crypto version. -/
def validCryptoVersion : UInt64 :=
  0x01

/-- Smallest fee in sSCL. -/
def feeFloorSscl : UInt64 :=
  40

/-- Largest distance between the current sub-epoch and the target. -/
def cgMaxValidity : UInt64 :=
  1

/-- The public inputs of a transfer. -/
structure TransferPublicInputsP3 where
  feeTotalSscl : UInt64
  sumInputsSscl : UInt64
  sumOutputsSscl : UInt64
  cryptoVersion : UInt64
  currentSubepochId : UInt64
  targetSubepochId : UInt64
  utxoSetRoot : Bytes32
  cbMembershipVerified : Bool
  nullifierActiveRoot : Bytes32
  nullifierArchivedRoot : Bytes32
  ccNonmembershipVerified : Bool
  outputNonzero : Bool
  singleUtxoSource : Bool
  commitmentHash : Digest4
  nullifierHash : Digest4

/-- Validity distance of a transfer, if its target is admissible. -/
def cgValidity (currentSubepochId targetSubepochId : UInt64) : Option UInt64 :=
  if currentSubepochId < targetSubepochId then
    none
  else
    let validity := currentSubepochId - targetSubepochId
    if validity > cgMaxValidity then
      none
    else
      some validity

/-- An array as eight elements of four bytes each. -/
def pushBytes32 (bytes : Bytes32) : List Goldilocks :=
  (List.range 8).map fun index =>
    Goldilocks.new
      (fromLeBytesU32 ((bytes.bytes.drop (index * 4)).take 4)).toUInt64

/-- Four words as elements. -/
def pushWords (words : Digest4) : List Goldilocks :=
  [Goldilocks.new (words 0), Goldilocks.new (words 1),
    Goldilocks.new (words 2), Goldilocks.new (words 3)]

/-- `read_bytes32`: the low half of the words of eight elements. -/
def readBytes32 (v : List Goldilocks) : Bytes32 where
  bytes :=
    (List.range 8).flatMap fun index =>
      toLeBytesU32 (Goldilocks.asCanonicalU64 (v.getD index 0)).toUInt32
  length_eq := by
    simp

/-- Half words are canonical. -/
theorem fieldReduce_toUInt64 (word : UInt32) :
    fieldReduce word.toUInt64 = word.toUInt64 := by
  apply fieldReduce_of_lt
  rw [UInt64.lt_iff_toNat_lt, UInt32.toNat_toUInt64]
  exact word.toNat_lt.trans (by decide)

/-- An array is read back from its elements. -/
theorem readBytes32_pushBytes32 (bytes : Bytes32) :
    readBytes32 (pushBytes32 bytes) = bytes := by
  have blocks :
      (List.range 8).flatMap
          (fun index =>
            toLeBytesU32
              (Goldilocks.asCanonicalU64
                ((pushBytes32 bytes).getD index 0)).toUInt32) =
        (List.range 8).flatMap fun index =>
          (bytes.bytes.drop (index * 4)).take 4 := by
    apply List.flatMap_congr
    intro index listed
    have inRange := List.mem_range.mp listed
    have fourBytes : ((bytes.bytes.drop (index * 4)).take 4).length = 4 := by
      rw [List.length_take, List.length_drop, bytes.length_eq]
      omega
    have element :
        (pushBytes32 bytes).getD index 0 =
          Goldilocks.new
            (fromLeBytesU32
              ((bytes.bytes.drop (index * 4)).take 4)).toUInt64 := by
      rw [pushBytes32, List.getD_eq_getElem?_getD, List.getElem?_map,
        List.getElem?_range inRange, Option.map_some, Option.getD_some]
    rw [element, Goldilocks.asCanonicalU64_new, fieldReduce_toUInt64,
      UInt32.toUInt32_toUInt64, toLeBytesU32_fromLeBytesU32 fourBytes]
  apply Bytes32.ext
  calc (readBytes32 (pushBytes32 bytes)).bytes
      = bytes.bytes.take (8 * 4) := blocks.trans (flatMap_blocks _ 4 8)
    _ = bytes.bytes := List.take_of_length_le bytes.length_eq.le

/-- The elements determine the array. -/
theorem pushBytes32_injective : Function.Injective pushBytes32 :=
  Function.LeftInverse.injective readBytes32_pushBytes32

/-- Four words are known modulo the prime. -/
theorem pushWords_eq_iff {words words' : Digest4} :
    pushWords words = pushWords words' ↔
      ∀ index, fieldReduce (words index) = fieldReduce (words' index) := by
  simp only [pushWords, List.cons.injEq, Goldilocks.new_eq_iff, and_true,
    Fin.forall_fin_succ]
  simp

namespace TransferPublicInputsP3

/-- `to_goldilocks`. -/
def toGoldilocks (pi : TransferPublicInputsP3) : List Goldilocks :=
  [Goldilocks.new pi.feeTotalSscl, Goldilocks.new pi.sumInputsSscl,
      Goldilocks.new pi.sumOutputsSscl, Goldilocks.new pi.cryptoVersion,
      Goldilocks.new pi.currentSubepochId] ++
    pushBytes32 pi.utxoSetRoot ++
    [Goldilocks.new pi.cbMembershipVerified.toUInt64] ++
    pushBytes32 pi.nullifierActiveRoot ++
    pushBytes32 pi.nullifierArchivedRoot ++
    [Goldilocks.new pi.ccNonmembershipVerified.toUInt64,
      Goldilocks.new pi.outputNonzero.toUInt64,
      Goldilocks.new pi.singleUtxoSource.toUInt64] ++
    pushWords pi.commitmentHash ++
    pushWords pi.nullifierHash

/-- `from_goldilocks`; the target is not part of the layout. -/
def fromGoldilocks (v : List Goldilocks) : Option TransferPublicInputsP3 :=
  if v.length < transferPiLen then
    none
  else
    let word (index : Nat) := Goldilocks.asCanonicalU64 (v.getD index 0)
    some {
      feeTotalSscl := word 0
      sumInputsSscl := word 1
      sumOutputsSscl := word 2
      cryptoVersion := word 3
      currentSubepochId := word 4
      targetSubepochId := 0
      utxoSetRoot := readBytes32 ((v.drop 5).take 8)
      cbMembershipVerified := word 13 != 0
      nullifierActiveRoot := readBytes32 ((v.drop 14).take 8)
      nullifierArchivedRoot := readBytes32 ((v.drop 22).take 8)
      ccNonmembershipVerified := word 30 != 0
      outputNonzero := word 31 != 0
      singleUtxoSource := word 32 != 0
      commitmentHash := ![word 33, word 34, word 35, word 36]
      nullifierHash := ![word 37, word 38, word 39, word 40]
    }

/-- The layout has its fixed length. -/
theorem length_toGoldilocks (pi : TransferPublicInputsP3) :
    pi.toGoldilocks.length = transferPiLen :=
  rfl

/-- What the layout tells of two records: words modulo the prime, the rest exactly. -/
theorem toGoldilocks_eq_iff {pi pi' : TransferPublicInputsP3} :
    pi.toGoldilocks = pi'.toGoldilocks ↔
      fieldReduce pi.feeTotalSscl = fieldReduce pi'.feeTotalSscl ∧
      fieldReduce pi.sumInputsSscl = fieldReduce pi'.sumInputsSscl ∧
      fieldReduce pi.sumOutputsSscl = fieldReduce pi'.sumOutputsSscl ∧
      fieldReduce pi.cryptoVersion = fieldReduce pi'.cryptoVersion ∧
      fieldReduce pi.currentSubepochId = fieldReduce pi'.currentSubepochId ∧
      pi.utxoSetRoot = pi'.utxoSetRoot ∧
      pi.cbMembershipVerified = pi'.cbMembershipVerified ∧
      pi.nullifierActiveRoot = pi'.nullifierActiveRoot ∧
      pi.nullifierArchivedRoot = pi'.nullifierArchivedRoot ∧
      pi.ccNonmembershipVerified = pi'.ccNonmembershipVerified ∧
      pi.outputNonzero = pi'.outputNonzero ∧
      pi.singleUtxoSource = pi'.singleUtxoSource ∧
      (∀ index,
        fieldReduce (pi.commitmentHash index) =
          fieldReduce (pi'.commitmentHash index)) ∧
      ∀ index,
        fieldReduce (pi.nullifierHash index) =
          fieldReduce (pi'.nullifierHash index) := by
  have split
      {first first' rest rest' : List Goldilocks}
      (sameLength : first.length = first'.length) :
      first ++ rest = first' ++ rest' ↔ first = first' ∧ rest = rest' :=
    ⟨fun same => List.append_inj same sameLength,
      fun parts => congrArg₂ _ parts.1 parts.2⟩
  have flag (b b' : Bool) :
      fieldReduce b.toUInt64 = fieldReduce b'.toUInt64 ↔ b = b' := by
    cases b <;> cases b' <;> decide
  simp only [toGoldilocks, List.append_assoc]
  rw [split, split, split, split, split, split, split]
  · simp only [List.cons.injEq, Goldilocks.new_eq_iff, and_true, flag,
      pushBytes32_injective.eq_iff, pushWords_eq_iff, and_assoc]
  all_goals rfl

/-- Inputs cover the outputs and the fee. -/
def checkCdConservation (pi : TransferPublicInputsP3) : Bool :=
  pi.sumInputsSscl == saturatingAdd pi.sumOutputsSscl pi.feeTotalSscl

/-- The fee is not below the floor. -/
def checkCdFeeFloor (pi : TransferPublicInputsP3) : Bool :=
  decide (pi.feeTotalSscl ≥ feeFloorSscl)

/-- The crypto version is the valid one. -/
def checkCgVersion (pi : TransferPublicInputsP3) : Bool :=
  pi.cryptoVersion == validCryptoVersion

/-- The target is admissible in the current sub-epoch. -/
def checkCgValidity (pi : TransferPublicInputsP3) : Bool :=
  (cgValidity pi.currentSubepochId pi.targetSubepochId).isSome

/-- `check_all_constraints`, with the index of the first failing check. -/
def checkAllConstraints (pi : TransferPublicInputsP3) : Except Nat Unit :=
  if !pi.checkCdConservation then
    .error 0
  else if !pi.checkCdFeeFloor then
    .error 1
  else if !pi.checkCgVersion then
    .error 2
  else if !pi.checkCgValidity then
    .error 3
  else if !pi.cbMembershipVerified then
    .error 4
  else if !pi.ccNonmembershipVerified then
    .error 5
  else if !pi.outputNonzero then
    .error 6
  else if !pi.singleUtxoSource then
    .error 7
  else
    .ok ()

/-- The checks pass when each of them holds. -/
theorem checkAllConstraints_eq_ok_iff {pi : TransferPublicInputsP3} :
    pi.checkAllConstraints = .ok () ↔
      pi.sumInputsSscl = saturatingAdd pi.sumOutputsSscl pi.feeTotalSscl ∧
        feeFloorSscl ≤ pi.feeTotalSscl ∧
          pi.cryptoVersion = validCryptoVersion ∧
            (cgValidity pi.currentSubepochId
                pi.targetSubepochId).isSome = true ∧
              pi.cbMembershipVerified = true ∧
                pi.ccNonmembershipVerified = true ∧
                  pi.outputNonzero = true ∧ pi.singleUtxoSource = true := by
  simp only [checkAllConstraints, ite_error_eq_ok_iff, Bool.not_eq_true',
    Bool.not_eq_false, checkCdConservation, beq_iff_eq, checkCdFeeFloor,
    ge_iff_le, decide_eq_true_eq, checkCgVersion, checkCgValidity, and_true]

/-- The checks in the order in which they run. -/
def answers (pi : TransferPublicInputsP3) : List Bool :=
  [pi.checkCdConservation, pi.checkCdFeeFloor, pi.checkCgVersion,
    pi.checkCgValidity, pi.cbMembershipVerified, pi.ccNonmembershipVerified,
    pi.outputNonzero, pi.singleUtxoSource]

/-- The checks report the place of the first one that fails. -/
theorem checkAllConstraints_eq_firstFailing (pi : TransferPublicInputsP3) :
    pi.checkAllConstraints =
      match firstFailing pi.answers 0 with
      | none => .ok ()
      | some place => .error place := by
  unfold checkAllConstraints answers
  generalize pi.checkCdConservation = conservation
  generalize pi.checkCdFeeFloor = feeFloor
  generalize pi.checkCgVersion = version
  generalize pi.checkCgValidity = validity
  generalize pi.cbMembershipVerified = membership
  generalize pi.ccNonmembershipVerified = nonmembership
  generalize pi.outputNonzero = nonzero
  generalize pi.singleUtxoSource = single
  cases conservation <;> try rfl
  cases feeFloor <;> try rfl
  cases version <;> try rfl
  cases validity <;> try rfl
  cases membership <;> try rfl
  cases nonmembership <;> try rfl
  cases nonzero <;> try rfl
  cases single <;> rfl

end TransferPublicInputsP3

/-- The chained hash of the words of a list of arrays. -/
def accumulatedHash
    (perm : T8Permutation)
    (items : List Bytes32) :
    Digest4 :=
  poseidon2HashChained perm (items.flatMap fun item => List.ofFn item.limb)

/-- `compute_commitment_hash`. -/
def computeCommitmentHash
    (perm : T8Permutation)
    (commitments : List Bytes32) :
    Digest4 :=
  accumulatedHash perm commitments

/-- `compute_nullifier_hash`. -/
def computeNullifierHash
    (perm : T8Permutation)
    (nullifiers : List Bytes32) :
    Digest4 :=
  accumulatedHash perm nullifiers

/-- Only the field elements of the items enter the hash. -/
theorem accumulatedHash_congr
    {perm : T8Permutation}
    {items items' : List Bytes32}
    (agree : List.Forall₂ (AgreeModP 4) items items') :
    accumulatedHash perm items = accumulatedHash perm items' := by
  have sameReduced :
      (items.flatMap fun item => List.ofFn item.limb).map fieldReduce =
        (items'.flatMap fun item => List.ofFn item.limb).map fieldReduce := by
    induction agree with
    | nil =>
        rfl
    | cons first _ inductionHypothesis =>
        rw [List.flatMap_cons, List.flatMap_cons, List.map_append,
          List.map_append, inductionHypothesis, List.map_ofFn, List.map_ofFn]
        congr 2
        funext index
        exact (fieldReduce_eq_iff _ _).mpr (first index index.isLt)
  rw [accumulatedHash, accumulatedHash,
    ← poseidon2HashChained_map_fieldReduce, sameReduced,
    poseidon2HashChained_map_fieldReduce]

theorem computeNullifierHash_congr
    {perm : T8Permutation}
    {nullifiers nullifiers' : List Bytes32}
    (agree : List.Forall₂ (AgreeModP 4) nullifiers nullifiers') :
    computeNullifierHash perm nullifiers =
      computeNullifierHash perm nullifiers' :=
  accumulatedHash_congr agree

/-- A target is admissible when it is the current sub-epoch or the one before. -/
theorem cgValidity_isSome_iff
    {current target : UInt64} :
    (cgValidity current target).isSome = true ↔
      ∃ validity ≤ 1, current.toNat = target.toNat + validity := by
  unfold cgValidity
  by_cases before : current < target
  · have below := UInt64.lt_iff_toNat_lt.mp before
    simp only [if_pos before, Option.isSome_none, Bool.false_eq_true,
      false_iff, not_exists, not_and]
    omega
  · have notBelow : target ≤ current := UInt64.not_lt.mp before
    have order := UInt64.le_iff_toNat_le.mp notBelow
    have distance := UInt64.toNat_sub_of_le _ _ notBelow
    simp only [if_neg before]
    by_cases stale : current - target > cgMaxValidity
    · have far := UInt64.lt_iff_toNat_lt.mp stale
      have one : cgMaxValidity.toNat = 1 := rfl
      simp only [if_pos stale, Option.isSome_none, Bool.false_eq_true,
        false_iff, not_exists, not_and]
      omega
    · have near := UInt64.le_iff_toNat_le.mp (UInt64.not_lt.mp stale)
      have one : cgMaxValidity.toNat = 1 := rfl
      simp only [if_neg stale, Option.isSome_some, true_iff]
      exact ⟨current.toNat - target.toNat, by omega, by omega⟩

end ScalarCore
