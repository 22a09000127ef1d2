import ScalarCore.ImtCompleteness

namespace ScalarCore

/-!
# The trees of the independent verifier

The membership check of the incremental tree and the paths of the quaternary
tree, as the second implementation computes them over unbounded integers.  Its
membership check is the one of the first implementation; its quaternary paths
read each byte of a key from the other end.
-/

/-- `QSMT_DEPTH`. -/
def qsmtDepth : Nat :=
  16

/-- `QSMT_BITS_PER_LEVEL`. -/
def qsmtBitsPerLevel : Nat :=
  2

/--
`child_index_at`: the two bits of a key that a level reads, from the top of a
byte down.  There is none where the byte index is out of range.
-/
def childIndexAt (key : Bytes32) (level : Nat) : Option Nat :=
  let bitOffset := level * qsmtBitsPerLevel
  let byteIdx := bitOffset / 8
  let bitIdx := 6 - bitOffset % 8
  key.bytes[byteIdx]?.map fun byte =>
    ((byte >>> UInt8.ofNat bitIdx) &&& 0x03).toNat

namespace VerifierPy

/-- `int.from_bytes` of little-endian bytes. -/
def intFromBytes (bytes : List UInt8) : Nat :=
  Nat.ofDigits 256 (bytes.map UInt8.toNat)

/-- `to_bytes` of eight little-endian bytes. -/
def toBytes8 (value : Nat) : List UInt8 :=
  (List.range 8).map fun index => UInt8.ofNat (value / 256 ^ index)

/-- `field_reduce`, which first truncates to a word. -/
def fieldReduce (x : Nat) : Nat :=
  (x &&& 0xFFFFFFFFFFFFFFFF) % goldilocksP

/-- `bytes32_to_u64s`; the length that it asserts is part of the type. -/
def bytes32ToU64s (b : Bytes32) : Vector Nat 4 :=
  Vector.ofFn fun i =>
    fieldReduce (intFromBytes ((b.bytes.drop (i.val * 8)).take 8))

/-- `field8_to_bytes32`. -/
def field8ToBytes32 (state : Vector Nat 8) : Bytes32 where
  bytes :=
    toBytes8 (state.get (digestPosition 0) &&& 0xFFFFFFFFFFFFFFFF) ++
      toBytes8 (state.get (digestPosition 1) &&& 0xFFFFFFFFFFFFFFFF) ++
      toBytes8 (state.get (digestPosition 2) &&& 0xFFFFFFFFFFFFFFFF) ++
      toBytes8 (state.get (digestPosition 3) &&& 0xFFFFFFFFFFFFFFFF)
  length_eq := by simp [toBytes8]

def domainImtLeafLo : Nat :=
  fieldReduce (intFromBytes (asciiBytes "scalar_i"))

def domainImtLeafHi : Nat :=
  fieldReduce (intFromBytes (asciiBytes "mt_leaf" ++ [0]))

def domainImtNodeLo : Nat :=
  fieldReduce (intFromBytes (asciiBytes "scalar_i"))

def domainImtNodeHi : Nat :=
  fieldReduce (intFromBytes (asciiBytes "mt_node" ++ [0]))

/-- `hash_imt_leaf`. -/
def hashImtLeaf (commitment : Bytes32) (leafIndex : Nat) : Bytes32 :=
  let c := bytes32ToU64s commitment
  field8ToBytes32 (poseidon2PermuteT8
    #v[domainImtLeafLo, domainImtLeafHi, c.get 0, c.get 1, c.get 2, c.get 3,
      fieldReduce leafIndex, 0])

/-- `hash_imt_node`. -/
def hashImtNode (left right : Bytes32) : Bytes32 :=
  let l := bytes32ToU64s left
  let r := bytes32ToU64s right
  field8ToBytes32 (poseidon2PermuteT8
    #v[domainImtNodeLo, domainImtNodeHi, l.get 0, l.get 1, l.get 2, l.get 3,
      r.get 0, r.get 1])

/-- One round of the sibling loop: the digest so far and the index left. -/
def membershipStep (state : Bytes32 × Nat) (sibling : Bytes32) : Bytes32 × Nat :=
  let (current, idx) := state
  if idx % 2 = 0 then
    (hashImtNode current sibling, idx >>> 1)
  else
    (hashImtNode sibling current, idx >>> 1)

/-- `imt_verify_membership`; no verdict where the assertion on the length fails. -/
def imtVerifyMembership
    (commitment : Bytes32)
    (leafIndex : Nat)
    (siblings : List Bytes32)
    (root : Bytes32) :
    Option Bool :=
  if siblings.length ≠ imtDepth then
    none
  else
    let (current, _) :=
      siblings.foldl membershipStep
        (hashImtLeaf commitment leafIndex, leafIndex)
    some (decide (current = root))

/-- `qsmt_child_index_at`: the two bits that a level reads, from the bottom up. -/
def qsmtChildIndexAt (key : Bytes32) (level : Nat) : Option Nat := do
  let bitOffset := level * qsmtBitsPerLevel
  let byteIdx := bitOffset / 8
  let bitInByte := bitOffset % 8
  if byteIdx ≥ 32 then
    return 0
  let val := (← key.bytes[byteIdx]?).toNat
  if bitInByte + qsmtBitsPerLevel ≤ 8 then
    return (val >>> bitInByte) &&& 0x3
  let lo := (val >>> bitInByte) &&& ((1 <<< (8 - bitInByte)) - 1)
  let next := (← key.bytes[byteIdx + 1]?).toNat
  let hi := next &&& ((1 <<< (qsmtBitsPerLevel - (8 - bitInByte))) - 1)
  return lo ||| (hi <<< (8 - bitInByte))

/-- Both implementations compute one permutation. -/
def SamePermutation (perm : T8Permutation) : Prop :=
  ∀ state : State8,
    (∀ index : Fin 8, state.get index < goldilocksPrime) →
      poseidon2PermuteT8 (state.map UInt64.toNat) =
        (perm.permute state).map UInt64.toNat

/-- Truncating to a word changes no word. -/
theorem toNat_and_mask (word : UInt64) :
    word.toNat &&& 0xFFFFFFFFFFFFFFFF = word.toNat := by
  have bound := word.toNat_lt
  have mask : (0xFFFFFFFFFFFFFFFF : Nat) = 2 ^ 64 - 1 := rfl
  rw [mask, Nat.and_two_pow_sub_one_eq_mod, Nat.mod_eq_of_lt bound]

/-- Both reductions of a word. -/
theorem fieldReduce_toNat (word : UInt64) :
    fieldReduce word.toNat = (ScalarCore.fieldReduce word).toNat := by
  rw [fieldReduce, toNat_and_mask, toNat_fieldReduce]
  rfl

/-- Eight bytes read as an integer and as a word. -/
theorem intFromBytes_eq
    {bytes : List UInt8}
    (atMostEight : bytes.length ≤ 8) :
    intFromBytes bytes = (fromLeBytes bytes).toNat :=
  (toNat_fromLeBytes atMostEight).symm

/-- Both readings of an array as field elements. -/
theorem get_bytes32ToU64s
    (b : Bytes32)
    (i : Fin 4) :
    (bytes32ToU64s b).get i =
      (ScalarCore.fieldReduce (b.limb i)).toNat := by
  rw [bytes32ToU64s, get_vectorOfFn, Bytes32.limb, ← fieldReduce_toNat,
    intFromBytes_eq (List.length_take_le _ _)]

/-- Both renderings of a state. -/
theorem field8ToBytes32_map (state : State8) :
    field8ToBytes32 (state.map UInt64.toNat) =
      ScalarCore.field8ToBytes32 state := by
  apply Bytes32.ext
  simp only [field8ToBytes32, get_vectorMap, toNat_and_mask]
  rfl

/-- Both hashes of one permutation input. -/
theorem hash_eq
    {perm : T8Permutation}
    (same : SamePermutation perm)
    {numbers : Vector Nat 8}
    {input : State8}
    (isInput :
      numbers = (input.map ScalarCore.fieldReduce).map UInt64.toNat) :
    field8ToBytes32 (poseidon2PermuteT8 numbers) =
      ScalarCore.field8ToBytes32
        (ScalarCore.poseidon2PermuteT8 perm input) := by
  have canonical (index : Fin 8) :
      (input.map ScalarCore.fieldReduce).get index < goldilocksPrime := by
    rw [get_vectorMap]
    exact fieldReduce_lt _
  rw [isInput, same _ canonical, field8ToBytes32_map]
  rfl

/-- Both hashes of a leaf. -/
theorem hashImtLeaf_eq
    {perm : T8Permutation}
    (same : SamePermutation perm)
    (commitment : Bytes32)
    (leafIndex : UInt64) :
    hashImtLeaf commitment leafIndex.toNat =
      (poseidonImtHash perm).hashLeaf commitment leafIndex := by
  have c (i : Fin 4) := get_bytes32ToU64s commitment i
  have isInput :
      #v[domainImtLeafLo, domainImtLeafHi,
          (bytes32ToU64s commitment).get 0, (bytes32ToU64s commitment).get 1,
          (bytes32ToU64s commitment).get 2, (bytes32ToU64s commitment).get 3,
          fieldReduce leafIndex.toNat, 0] =
        ((imtLeafInput commitment leafIndex).map
          ScalarCore.fieldReduce).map UInt64.toNat := by
    rw [c 0, c 1, c 2, c 3, fieldReduce_toNat]
    simp only [imtLeafInput, Vector.map_mk, List.map_toArray, List.map_cons,
      List.map_nil, fieldReduce_idem]
    rfl
  exact hash_eq same isInput

/-- Both hashes of a node. -/
theorem hashImtNode_eq
    {perm : T8Permutation}
    (same : SamePermutation perm)
    (left right : Bytes32) :
    hashImtNode left right =
      (poseidonImtHash perm).hashNode left right := by
  have l (i : Fin 4) := get_bytes32ToU64s left i
  have r (i : Fin 4) := get_bytes32ToU64s right i
  have isInput :
      #v[domainImtNodeLo, domainImtNodeHi,
          (bytes32ToU64s left).get 0, (bytes32ToU64s left).get 1,
          (bytes32ToU64s left).get 2, (bytes32ToU64s left).get 3,
          (bytes32ToU64s right).get 0, (bytes32ToU64s right).get 1] =
        ((imtNodeInput left right).map
          ScalarCore.fieldReduce).map UInt64.toNat := by
    rw [l 0, l 1, l 2, l 3, r 0, r 1]
    simp only [imtNodeInput, Vector.map_mk, List.map_toArray, List.map_cons,
      List.map_nil, fieldReduce_idem]
    rfl
  exact hash_eq same isInput

/--
The sibling loop climbs the tree along the bits of the index.  The induction
takes the siblings from the last one, as the loop state is known before it.
-/
theorem foldl_membershipStep
    {perm : T8Permutation}
    (same : SamePermutation perm)
    (start : Bytes32)
    (leafIndex : Nat)
    (siblings : List Bytes32) :
    siblings.foldl membershipStep (start, leafIndex) =
      (PerfectTree.climb (poseidonImtHash perm).hashNode
          (fun level => siblings.getD level .zero) leafIndex start
          siblings.length,
        leafIndex / 2 ^ siblings.length) := by
  induction siblings using List.reverseRecOn with
  | nil =>
      simp [PerfectTree.climb]
  | append_singleton siblings sibling inductionHypothesis =>
      have below :
          PerfectTree.climb (poseidonImtHash perm).hashNode
              (fun level => (siblings ++ [sibling]).getD level .zero)
              leafIndex start siblings.length =
            PerfectTree.climb (poseidonImtHash perm).hashNode
              (fun level => siblings.getD level .zero)
              leafIndex start siblings.length := by
        apply PerfectTree.climb_congr
        intro level inside
        simp only [List.getD_eq_getElem?_getD,
          List.getElem?_append_left inside]
      have last :
          (siblings ++ [sibling]).getD siblings.length .zero = sibling := by
        simp
      have shifted :
          (leafIndex / 2 ^ siblings.length) >>> 1 =
            leafIndex / 2 ^ (siblings.length + 1) := by
        rw [Nat.shiftRight_one, Nat.div_div_eq_div_mul, Nat.pow_succ]
      rw [List.foldl_append, inductionHypothesis, List.foldl_cons,
        List.foldl_nil, List.length_append, List.length_singleton,
        PerfectTree.climb, below, last, membershipStep]
      simp only [hashImtNode_eq same, shifted,
        Nat.testBit_eq_decide_div_mod_eq, decide_eq_true_eq]
      rcases Nat.mod_two_eq_zero_or_one (leafIndex / 2 ^ siblings.length) with
        even | odd
      · simp [even]
      · simp [odd]

/-- The membership checks agree below every count that admits the index. -/
theorem imtVerifyMembership_eq
    {perm : T8Permutation}
    (same : SamePermutation perm)
    (commitment : Bytes32)
    {leafIndex count : UInt64}
    (belowCount : leafIndex < count)
    {siblings : List Bytes32}
    (fullLength : siblings.length = imtDepth)
    (root : Bytes32) :
    imtVerifyMembership commitment leafIndex.toNat siblings root =
      some (imtMembershipVerify (poseidonImtHash perm) commitment
        { siblings, leafIndex } root count) := by
  rw [imtMembershipVerify_eq_climb _ _ _ belowCount fullLength,
    imtVerifyMembership, if_neg (not_not_intro fullLength),
    foldl_membershipStep same, hashImtLeaf_eq same, fullLength]
  rfl

/-- The byte of a key that a level reads. -/
def pathByte (key : Bytes32) (level : Nat) : Nat :=
  (key.byteAt (level / 4)).toNat

/-- The byte index of a level is in range. -/
theorem getElem?_pathByte
    {key : Bytes32}
    {level : Nat}
    (inDepth : level < qsmtDepth) :
    key.bytes[level * qsmtBitsPerLevel / 8]? = some (key.byteAt (level / 4)) := by
  have sameIndex : level * qsmtBitsPerLevel / 8 = level / 4 := by
    rw [qsmtBitsPerLevel]
    omega
  have inRange : level / 4 < key.bytes.length := by
    rw [key.length_eq]
    rw [qsmtDepth] at inDepth
    omega
  rw [sameIndex, Bytes32.byteAt, List.getD_eq_getElem?_getD,
    List.getElem?_eq_getElem inRange, Option.getD_some]

/-- The first implementation reads a byte from the top. -/
theorem childIndexAt_eq
    {key : Bytes32}
    {level : Nat}
    (inDepth : level < qsmtDepth) :
    childIndexAt key level =
      some (pathByte key level / 2 ^ (6 - 2 * (level % 4)) % 4) := by
  have offset : 6 - level * qsmtBitsPerLevel % 8 = 6 - 2 * (level % 4) := by
    rw [qsmtBitsPerLevel]
    omega
  have shift : (6 - 2 * (level % 4)) % 2 ^ 8 % 8 = 6 - 2 * (level % 4) := by
    omega
  have three : (0x03 : UInt8).toNat = 2 ^ 2 - 1 := rfl
  simp only [childIndexAt, getElem?_pathByte inDepth, Option.map_some, offset,
    UInt8.toNat_and, UInt8.toNat_shiftRight, UInt8.toNat_ofNat', shift, three,
    Nat.and_two_pow_sub_one_eq_mod, Nat.shiftRight_eq_div_pow]
  rfl

/-- The second implementation reads a byte from the bottom. -/
theorem qsmtChildIndexAt_eq
    {key : Bytes32}
    {level : Nat}
    (inDepth : level < qsmtDepth) :
    qsmtChildIndexAt key level =
      some (pathByte key level / 2 ^ (2 * (level % 4)) % 4) := by
  have inKey : ¬level * qsmtBitsPerLevel / 8 ≥ 32 := by
    rw [qsmtDepth] at inDepth
    rw [qsmtBitsPerLevel]
    omega
  have offset : level * qsmtBitsPerLevel % 8 = 2 * (level % 4) := by
    rw [qsmtBitsPerLevel]
    omega
  have oneByte : 2 * (level % 4) + qsmtBitsPerLevel ≤ 8 := by
    rw [qsmtBitsPerLevel]
    omega
  have three : 0x3 = 2 ^ 2 - 1 := rfl
  simp only [qsmtChildIndexAt, if_neg inKey, getElem?_pathByte inDepth, offset,
    Option.bind_eq_bind, Option.bind_some, if_pos oneByte, Option.pure_def,
    three, Nat.and_two_pow_sub_one_eq_mod, Nat.shiftRight_eq_div_pow]
  rfl

/-- Two numbers agree in their lowest two bits. -/
theorem mod_four_eq_iff {x y : Nat} :
    x % 4 = y % 4 ↔
      x.testBit 0 = y.testBit 0 ∧ x.testBit 1 = y.testBit 1 := by
  simp only [Nat.testBit_eq_decide_div_mod_eq, decide_eq_decide, pow_zero,
    pow_one]
  omega

/-- The byte that a level reads holds the same two bits from either end. -/
def MirroredPair (key : Bytes32) (level : Nat) : Prop :=
  let lowest := 2 * (level % 4)
  (pathByte key level).testBit lowest =
      (pathByte key level).testBit (6 - lowest) ∧
    (pathByte key level).testBit (lowest + 1) =
      (pathByte key level).testBit (7 - lowest)

/-- The paths of the two implementations agree in a level that reads a mirrored pair. -/
theorem qsmtChildIndexAt_eq_iff
    {key : Bytes32}
    {level : Nat}
    (inDepth : level < qsmtDepth) :
    qsmtChildIndexAt key level = childIndexAt key level ↔
      MirroredPair key level := by
  have above : 7 - 2 * (level % 4) = 6 - 2 * (level % 4) + 1 := by
    omega
  rw [qsmtChildIndexAt_eq inDepth, childIndexAt_eq inDepth,
    Option.some.injEq, mod_four_eq_iff]
  simp only [MirroredPair, Nat.testBit_div_two_pow, above, Nat.zero_add,
    Nat.add_comm 1]

/-- The level that reads the same byte from the other end. -/
def mirrorLevel (level : Nat) : Nat :=
  4 * (level / 4) + (3 - level % 4)

/-- The second implementation takes the levels of each byte in reverse. -/
theorem qsmtChildIndexAt_eq_mirror
    {key : Bytes32}
    {level : Nat}
    (inDepth : level < qsmtDepth) :
    qsmtChildIndexAt key level = childIndexAt key (mirrorLevel level) := by
  have mirrorInDepth : mirrorLevel level < qsmtDepth := by
    rw [qsmtDepth] at inDepth ⊢
    rw [mirrorLevel]
    omega
  have sameByte : mirrorLevel level / 4 = level / 4 := by
    rw [mirrorLevel]
    omega
  have fromTop : 6 - 2 * (mirrorLevel level % 4) = 2 * (level % 4) := by
    rw [mirrorLevel]
    omega
  rw [qsmtChildIndexAt_eq inDepth, childIndexAt_eq mirrorInDepth, fromTop,
    pathByte, pathByte, sameByte]

/-- Both tree checks of the two implementations on one input. -/
def PathsAgree
    (perm : T8Permutation)
    (key : Bytes32)
    (level : Nat)
    (commitment : Bytes32)
    (leafIndex : UInt64)
    (siblings : List Bytes32)
    (root : Bytes32)
    (count : UInt64) : Prop :=
  qsmtChildIndexAt key level = childIndexAt key level ∧
    imtVerifyMembership commitment leafIndex.toNat siblings root =
      some (imtMembershipVerify (poseidonImtHash perm) commitment
        { siblings, leafIndex } root count)

/--
The implementations agree where the level reads a mirrored pair of the key.
The membership check never separates them.
-/
theorem pathsAgree_iff
    {perm : T8Permutation}
    (same : SamePermutation perm)
    {key : Bytes32}
    {level : Nat}
    (inDepth : level < qsmtDepth)
    {commitment : Bytes32}
    {leafIndex count : UInt64}
    (belowCount : leafIndex < count)
    {siblings : List Bytes32}
    (fullLength : siblings.length = imtDepth)
    {root : Bytes32} :
    PathsAgree perm key level commitment leafIndex siblings root count ↔
      MirroredPair key level := by
  rw [PathsAgree, qsmtChildIndexAt_eq_iff inDepth]
  exact and_iff_left
    (imtVerifyMembership_eq same commitment belowCount fullLength root)

/-- The verifier's own permutation is the one on machine words. -/
theorem samePermutation_t8Permutation : SamePermutation t8Permutation := by
  intro state _
  apply Vector.ext
  intro index inRange
  have bound := poseidon2PermuteT8_lt (state.map UInt64.toNat) ⟨index, inRange⟩
  have wordBound : goldilocksP < 2 ^ 64 := by
    decide
  simp only [t8Permutation, Vector.getElem_map, UInt64.toNat_ofNat']
  exact (Nat.mod_eq_of_lt (bound.trans wordBound)).symm

/-- A key each of whose bytes reads the same pairs from both ends, 2 1 1 2. -/
def mirroredKey : Bytes32 :=
  .replicate 0x96

/-- Siblings of the second leaf, whose path turns right at first. -/
def secondLeafSiblings : List Bytes32 :=
  .endingIn 4 :: List.replicate 31 (.endingIn 3)

/-- The root that these siblings lead to from a commitment. -/
def secondLeafRoot : Bytes32 :=
  PerfectTree.climb (poseidonImtHash t8Permutation).hashNode
    (fun level => secondLeafSiblings.getD level .zero) 1
    ((poseidonImtHash t8Permutation).hashLeaf (.endingIn 7) 1) imtDepth

/--
On the mirrored key the paths agree in a level of its second byte, and so do the checks
of a commitment at the second leaf, which both accept.
-/
theorem pathsAgree_mirroredKey :
    PathsAgree t8Permutation mirroredKey 5 (.endingIn 7) 1 secondLeafSiblings
        secondLeafRoot 2 ∧
      imtMembershipVerify (poseidonImtHash t8Permutation) (.endingIn 7)
        { siblings := secondLeafSiblings, leafIndex := 1 } secondLeafRoot 2 = true := by
  have fullLength : secondLeafSiblings.length = imtDepth := rfl
  have belowCount : (1 : UInt64) < 2 := by
    decide
  constructor
  · exact
      (pathsAgree_iff samePermutation_t8Permutation (by decide) belowCount
        fullLength).mpr ⟨by decide, by decide⟩
  · rw [imtMembershipVerify_eq_climb _ _ _ belowCount fullLength, decide_eq_true_iff]
    rfl

/-- A key whose first byte holds its only bit at the bottom. -/
def lowBitKey : Bytes32 where
  bytes := 0x01 :: List.replicate 31 0
  length_eq := rfl

/-- The first step of that key's path goes to two different children. -/
theorem tree_paths_disagree :
    qsmtChildIndexAt lowBitKey 0 = some 1 ∧
      childIndexAt lowBitKey 0 = some 0 ∧
      ¬∀ (key : Bytes32) (level : Nat),
        level < qsmtDepth →
          qsmtChildIndexAt key level = childIndexAt key level := by
  have bottom : qsmtChildIndexAt lowBitKey 0 = some 1 := by
    decide
  have top : childIndexAt lowBitKey 0 = some 0 := by
    decide
  refine ⟨bottom, top, fun agree => ?_⟩
  have same := agree lowBitKey 0 (by decide)
  rw [bottom, top] at same
  exact absurd (Option.some.inj same) (by decide)

end VerifierPy

end ScalarCore
