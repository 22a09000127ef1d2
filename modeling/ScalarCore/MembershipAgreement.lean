import ScalarCore.MembershipAir

namespace ScalarCore.MembershipAir

/-!
# The two membership checks

The circuit and the native check hash the same states: the words of a sibling or
of a digest enter both as field elements, in the same places.  The digests of
the native check are the bytes of the circuit's words at every level.
-/

open Poseidon2Air

/-- `bytes32_to_field4`: four words, not reduced. -/
def bytes32ToField4 (b : Bytes32) : Digest4 :=
  b.limb

/-- A state of words as a state of field elements. -/
def fieldState (state : State8) : FieldState :=
  fun index => Goldilocks.new (state.get index)

variable {perm : T8Permutation}

/-- A state of field elements is hashed to the words of the native digest. -/
theorem poseidon2Hash_fieldState (state : State8) :
    poseidon2Hash perm (fieldState state) =
      bytes32ToField4 (field8ToBytes32 (poseidon2PermuteT8 perm state)) := by
  have canonicalInput :
      (Vector.ofFn fun position =>
          Goldilocks.asCanonicalU64 (fieldState state position)) =
        state.map fieldReduce := by
    apply Vector.ext
    intro position inside
    rw [Vector.getElem_ofFn, Vector.getElem_map, fieldState,
      Goldilocks.asCanonicalU64_new]
    rfl
  funext index
  have canonicalOutput :
      fieldReduce
          ((poseidon2PermuteT8 perm state).get (digestPosition index)) =
        (poseidon2PermuteT8 perm state).get (digestPosition index) :=
    fieldReduce_of_lt (perm.canonical _ _)
  calc
    poseidon2Hash perm (fieldState state) index
      = fieldReduce
          ((poseidon2PermuteT8 perm state).get (digestPosition index)) := by
        rw [poseidon2Hash, digestWords, permute, canonicalInput,
          Goldilocks.asCanonicalU64_new]
        rfl
    _ = bytes32ToField4
          (field8ToBytes32 (poseidon2PermuteT8 perm state)) index := by
        rw [canonicalOutput, bytes32ToField4, limb_field8ToBytes32]

/-- The circuit packs a leaf as the native hash does. -/
theorem leafHashInput_eq
    (commitment : Bytes32)
    (leafIndex : UInt64) :
    leafHashInput commitment leafIndex =
      fieldState (imtLeafInput commitment leafIndex) := by
  funext index
  fin_cases index <;> rfl

/-- The circuit packs a node as the native hash does. -/
theorem nodeHashInput_eq (left right : Bytes32) :
    nodeHashInput (bytes32ToField4 left) (bytes32ToField4 right) =
      fieldState (imtNodeInput left right) := by
  funext index
  fin_cases index <;> rfl

/-- The leaf hashes agree. -/
theorem poseidon2Hash_leafHashInput
    (commitment : Bytes32)
    (leafIndex : UInt64) :
    poseidon2Hash perm (leafHashInput commitment leafIndex) =
      bytes32ToField4
        ((poseidonImtHash perm).hashLeaf commitment leafIndex) := by
  rw [leafHashInput_eq, poseidon2Hash_fieldState]
  rfl

/-- The node hashes agree. -/
theorem poseidon2Hash_nodeHashInput (left right : Bytes32) :
    poseidon2Hash perm
        (nodeHashInput (bytes32ToField4 left) (bytes32ToField4 right)) =
      bytes32ToField4 ((poseidonImtHash perm).hashNode left right) := by
  rw [nodeHashInput_eq, poseidon2Hash_fieldState]
  rfl

/-- One level of the native check. -/
def nativeStep
    (perm : T8Permutation)
    (leafIndex : UInt64)
    (siblings : Fin imtDepth → Bytes32)
    (current : Bytes32)
    (level : Fin imtDepth) :
    Bytes32 :=
  let isRight := (leafIndex >>> UInt64.ofNat level) &&& 1
  if isRight = 0 then
    (poseidonImtHash perm).hashNode current (siblings level)
  else
    (poseidonImtHash perm).hashNode (siblings level) current

/-- The witness of the circuit for byte arrays. -/
def witnessOf
    (commitment : Bytes32)
    (leafIndex : UInt64)
    (siblings : Fin imtDepth → Bytes32) :
    MembershipWitness where
  commitment := commitment
  leafIndex := leafIndex
  siblings := fun level => bytes32ToField4 (siblings level)

variable {commitment : Bytes32}
variable {leafIndex : UInt64}
variable {siblings : Fin imtDepth → Bytes32}

/-- A level takes the words of a digest to the words of the next one. -/
theorem pathStep_snd
    (inputs : List FieldState)
    (current : Bytes32)
    (level : Fin imtDepth) :
    (pathStep perm (witnessOf commitment leafIndex siblings)
        (inputs, bytes32ToField4 current) level).2 =
      bytes32ToField4 (nativeStep perm leafIndex siblings current level) := by
  by_cases isLeft : (leafIndex >>> UInt64.ofNat level) &&& 1 = 0
  · have native :
        nativeStep perm leafIndex siblings current level =
          (poseidonImtHash perm).hashNode current (siblings level) :=
      if_pos isLeft
    have circuit :
        (pathStep perm (witnessOf commitment leafIndex siblings)
            (inputs, bytes32ToField4 current) level).2 =
          poseidon2Hash perm
            (nodeHashInput (bytes32ToField4 current)
              (bytes32ToField4 (siblings level))) :=
      congrArg (poseidon2Hash perm) (if_pos isLeft)
    rw [native, circuit, poseidon2Hash_nodeHashInput]
  · have native :
        nativeStep perm leafIndex siblings current level =
          (poseidonImtHash perm).hashNode (siblings level) current :=
      if_neg isLeft
    have circuit :
        (pathStep perm (witnessOf commitment leafIndex siblings)
            (inputs, bytes32ToField4 current) level).2 =
          poseidon2Hash perm
            (nodeHashInput (bytes32ToField4 (siblings level))
              (bytes32ToField4 current)) :=
      congrArg (poseidon2Hash perm) (if_neg isLeft)
    rw [native, circuit, poseidon2Hash_nodeHashInput]

/-- So do any levels in turn. -/
theorem foldl_pathStep_snd
    (levels : List (Fin imtDepth))
    (inputs : List FieldState)
    (current : Bytes32) :
    (levels.foldl (pathStep perm (witnessOf commitment leafIndex siblings))
        (inputs, bytes32ToField4 current)).2 =
      bytes32ToField4
        (levels.foldl (nativeStep perm leafIndex siblings) current) := by
  induction levels generalizing inputs current with
  | nil =>
      rfl
  | cons level rest inductionHypothesis =>
      have step :=
        @pathStep_snd perm commitment leafIndex siblings inputs current level
      rw [List.foldl_cons, List.foldl_cons, ← inductionHypothesis, ← step]

/-- The native check walks the levels and compares the last digest. -/
theorem imtMembershipVerify_eq_true_iff
    {root : Bytes32}
    {count : UInt64}
    (inRange : leafIndex < count) :
    imtMembershipVerify (poseidonImtHash perm) commitment
        { siblings := List.ofFn siblings, leafIndex } root count = true ↔
      (List.finRange imtDepth).foldl (nativeStep perm leafIndex siblings)
          ((poseidonImtHash perm).hashLeaf commitment leafIndex) =
        root := by
  have notOver : ¬ leafIndex ≥ count :=
    UInt64.not_le.mpr inRange
  have fullLength : ¬ (List.ofFn siblings).length ≠ imtDepth :=
    not_not.mpr List.length_ofFn
  have levels :
      List.range imtDepth = (List.finRange imtDepth).map Fin.val := by
    decide
  have steps :
      (List.finRange imtDepth).foldl
          (fun current (level : Fin imtDepth) =>
            let sibling :=
              (List.ofFn siblings).getD level (poseidonImtHash perm).emptyLeaf
            let isRight := (leafIndex >>> UInt64.ofNat level) &&& 1
            if isRight = 0 then
              (poseidonImtHash perm).hashNode current sibling
            else
              (poseidonImtHash perm).hashNode sibling current)
          ((poseidonImtHash perm).hashLeaf commitment leafIndex) =
        (List.finRange imtDepth).foldl (nativeStep perm leafIndex siblings)
          ((poseidonImtHash perm).hashLeaf commitment leafIndex) := by
    congr 1
    funext current level
    have sibling :
        (List.ofFn siblings).getD level (poseidonImtHash perm).emptyLeaf =
          siblings level := by
      rw [List.getD_eq_getElem?_getD, List.getElem?_ofFn,
        dif_pos level.isLt, Option.getD_some]
    simp only [sibling]
    rfl
  rw [imtMembershipVerify, if_neg notOver, if_neg fullLength,
    decide_eq_true_iff, levels, List.foldl_map, ← steps]

/--
The native check accepts a path exactly when the circuit computes the words of
the root from the words of its siblings, reduced or not.
-/
theorem imtMembershipVerify_iff_membershipTraceInputs
    (perm : T8Permutation)
    (commitment : Bytes32)
    {leafIndex count : UInt64}
    (inRange : leafIndex < count)
    (siblings : Fin imtDepth → Bytes32)
    (root : Bytes32) :
    imtMembershipVerify (poseidonImtHash perm) commitment
        { siblings := List.ofFn siblings, leafIndex } root count = true ↔
      (membershipTraceInputs perm
          { commitment, leafIndex
            siblings := fun level => bytes32ToField4 (siblings level) }).2 =
        bytes32ToField4 root := by
  have circuit :=
    @foldl_pathStep_snd perm commitment leafIndex siblings
      (List.finRange imtDepth) [leafHashInput commitment leafIndex]
      ((poseidonImtHash perm).hashLeaf commitment leafIndex)
  rw [imtMembershipVerify_eq_true_iff inRange, membershipTraceInputs,
    poseidon2Hash_leafHashInput, ← Bytes32.limb_injective.eq_iff]
  exact (Eq.congr_left circuit).symm

/-- Different siblings, the lowest of which has words that are not reduced. -/
def mixedSiblings (level : Fin imtDepth) : Bytes32 :=
  .replicate (UInt8.ofNat (255 - level.val))

/-- The root that they lead to from a commitment at leaf index 5, with two right turns. -/
def mixedRoot : Bytes32 :=
  (List.finRange imtDepth).foldl
    (nativeStep VerifierPy.t8Permutation 5 mixedSiblings)
    ((poseidonImtHash VerifierPy.t8Permutation).hashLeaf (.endingIn 7) 5)

/-- Mixed siblings lead from a leaf to the root that both checks compute. -/
theorem imtMembershipVerify_mixedSiblings :
    imtMembershipVerify (poseidonImtHash VerifierPy.t8Permutation) (.endingIn 7)
        { siblings := List.ofFn mixedSiblings, leafIndex := 5 } mixedRoot 9 = true ∧
      (membershipTraceInputs VerifierPy.t8Permutation
          { commitment := .endingIn 7, leafIndex := 5
            siblings := fun level => bytes32ToField4 (mixedSiblings level) }).2 =
        bytes32ToField4 mixedRoot := by
  have inRange : (5 : UInt64) < 9 := by
    decide
  have accepted := (imtMembershipVerify_eq_true_iff inRange).mpr (rfl : mixedRoot = _)
  exact ⟨accepted,
    (imtMembershipVerify_iff_membershipTraceInputs VerifierPy.t8Permutation
      (.endingIn 7) inRange mixedSiblings mixedRoot).mp accepted⟩

end ScalarCore.MembershipAir
