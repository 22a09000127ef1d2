import ScalarCore.ImtBinding

namespace ScalarCore

/-!
# Openings that are the only one

An accepted commitment has a second opening at its leaf index whenever the
verification does not look at all of the first one's bytes.  It reads a word as
a field element, so a word with a second representative can be exchanged for
it, and it drops half of every right sibling.  An opening without such words is
the only one, up to collisions.

A digest below a right turn is absorbed in two words, so two openings may also
meet above states that differ and agree in these two words.  The openings to be
told apart are free of collisions in as many words as a width asks for.
-/

/-- A commitment and the path shown for it. -/
structure ImtOpening where
  commitment : Bytes32
  path : ImtPath Bytes32

/-- No other word stands for the field element of any of the words. -/
def Bytes32.HasLoneWords (value : Bytes32) : Prop :=
  ∀ index,
    0xFFFFFFFF ≤ value.limb index ∧ value.limb index < goldilocksPrime

/-- The array of the other words of the same elements. -/
def otherBytes (value : Bytes32) : Bytes32 :=
  .ofLimbs fun index => otherWord (value.limb index)

/-- An array that differs in a word dropped from right children. -/
def otherDropped (value : Bytes32) : Bytes32 :=
  .ofLimbs (Function.update value.limb 2 (value.limb 2 + 1))

/-- Another sibling that the node hash absorbs in the same way. -/
def otherSibling (leafIndex level : Nat) (sibling : Bytes32) : Bytes32 :=
  if leafIndex.testBit level then
    otherBytes sibling
  else
    otherDropped sibling

namespace ImtOpening

variable {perm : T8Permutation} {width : Nat → Nat} {root : Bytes32}
  {count : UInt64} {opening other : ImtOpening}

/-- The verifier accepts the opening. -/
def Accepted
    (perm : T8Permutation)
    (root : Bytes32)
    (count : UInt64)
    (opening : ImtOpening) : Prop :=
  imtMembershipVerify (poseidonImtHash perm) opening.commitment opening.path
    root count = true

/-- The state that the verification of the opening hashes at a level. -/
def hashedAt
    (perm : T8Permutation)
    (opening : ImtOpening) :
    Nat → State8 :=
  hashedState perm opening.commitment opening.path

/-- A second accepted opening at the leaf index, with no collision of some widths. -/
structure Rival
    (perm : T8Permutation)
    (width : Nat → Nat)
    (root : Bytes32)
    (opening other : ImtOpening) : Prop where
  sameIndex : opening.path.leafIndex = other.path.leafIndex
  accepted : ∃ count, other.Accepted perm root count
  free :
    ∀ level,
      level ≤ 32 →
      NoCollision perm (width level)
        (opening.hashedAt perm level) (other.hashedAt perm level)

/-- All openings at the leaf index, up to collisions, have these bytes. -/
def Binds
    (perm : T8Permutation)
    (width : Nat → Nat)
    (root : Bytes32)
    (opening : ImtOpening) : Prop :=
  ∀ other,
    opening.Rival perm width root other →
    other.commitment = opening.commitment ∧
      other.path.siblings = opening.path.siblings

/-- The verification looks at all bytes: every turn is right and every word alone. -/
structure Determined (opening : ImtOpening) : Prop where
  commitment : opening.commitment.HasLoneWords
  turnsRight :
    ∀ level, level < 32 → opening.path.leafIndex.toNat.testBit level = true
  siblings : ∀ level, level < 32 → (siblingAt opening.path level).HasLoneWords

/-- The opening with the other bytes that are absorbed in the same way. -/
def aliased (opening : ImtOpening) : ImtOpening where
  commitment := otherBytes opening.commitment
  path := {
    siblings :=
      opening.path.siblings.mapIdx
        (otherSibling opening.path.leafIndex.toNat)
    leafIndex := opening.path.leafIndex
  }

end ImtOpening

/-!
## The bytes that are absorbed in the same way
-/

theorem agreeModP_otherBytes (value : Bytes32) :
    AgreeModP 4 value (otherBytes value) := by
  intro index _
  rw [otherBytes, Bytes32.limb_ofLimbs, ← fieldReduce_eq_iff,
    fieldReduce_otherWord]

theorem otherBytes_eq_self_iff {value : Bytes32} :
    otherBytes value = value ↔ value.HasLoneWords := by
  have sameWords :
      otherBytes value = value ↔
        ∀ index, otherWord (value.limb index) = value.limb index := by
    rw [← Bytes32.limb_injective.eq_iff, funext_iff]
    simp only [otherBytes, Bytes32.limb_ofLimbs]
  rw [sameWords]
  exact forall_congr' fun _ => otherWord_eq_self_iff

theorem agreeModP_otherDropped (value : Bytes32) :
    AgreeModP 2 value (otherDropped value) := by
  intro index inWidth
  have notDropped : index ≠ 2 := by
    rintro rfl
    exact absurd inWidth (by decide)
  rw [otherDropped, Bytes32.limb_ofLimbs, Function.update_of_ne notDropped]

theorem otherDropped_ne (value : Bytes32) : otherDropped value ≠ value := by
  intro same
  have sameWord := congrFun (congrArg Bytes32.limb same) 2
  rw [otherDropped, Bytes32.limb_ofLimbs, Function.update_self] at sameWord
  exact absurd sameWord (by simp)

/-- Lone words are read back from their elements. -/
theorem Bytes32.HasLoneWords.eq_of_agreeModP
    {value value' : Bytes32}
    (lone : value.HasLoneWords)
    (agree : AgreeModP 4 value value') :
    value' = value := by
  apply Bytes32.limb_injective
  funext index
  have sameElement :=
    (fieldReduce_eq_iff _ _).mpr (agree index index.isLt)
  rw [fieldReduce_of_lt (lone index).2] at sameElement
  rw [sameElement]
  exact
    (fieldReduce_eq_self_of_le (sameElement ▸ (lone index).1)).symm

/-- Other siblings agree on the words that are absorbed. -/
theorem agreeModP_otherSibling
    (leafIndex level : Nat)
    (sibling : Bytes32) :
    AgreeModP (siblingWidth leafIndex level) sibling
      (otherSibling leafIndex level sibling) := by
  rw [siblingWidth, otherSibling]
  split
  · exact agreeModP_otherBytes sibling
  · exact agreeModP_otherDropped sibling

/-- No other sibling is absorbed alike below a left sibling of lone words only. -/
theorem otherSibling_eq_self_iff
    {leafIndex level : Nat}
    {sibling : Bytes32} :
    otherSibling leafIndex level sibling = sibling ↔
      leafIndex.testBit level = true ∧ sibling.HasLoneWords := by
  rw [otherSibling]
  split
  · next turnsRight =>
      rw [otherBytes_eq_self_iff, and_iff_right turnsRight]
  · next turnsLeft =>
      exact
        iff_of_false (otherDropped_ne sibling) fun both => turnsLeft both.1

/-- Freedom from collisions of few words is freedom from those of more. -/
theorem NoCollision.mono
    {perm : T8Permutation}
    {few more : Nat}
    {first second : State8}
    (atMost : few ≤ more)
    (free : NoCollision perm few first second) :
    NoCollision perm more first second :=
  fun agree => free fun index inFew => agree index (inFew.trans_le atMost)

namespace ImtOpening

variable {perm : T8Permutation} {width : Nat → Nat} {root : Bytes32}
  {count : UInt64} {opening other : ImtOpening}

theorem Accepted.length_siblings
    (accepted : opening.Accepted perm root count) :
    opening.path.siblings.length = 32 :=
  (imtMembershipVerify_iff.mp accepted).2.1

/-- Siblings of full paths are compared level by level. -/
theorem siblings_eq_iff
    (fullLength : opening.path.siblings.length = 32)
    (fullLength' : other.path.siblings.length = 32) :
    other.path.siblings = opening.path.siblings ↔
      ∀ level,
        level < 32 → siblingAt other.path level = siblingAt opening.path level := by
  constructor
  · intro same level _
    rw [siblingAt, siblingAt, same]
  · intro same
    apply List.ext_getElem (fullLength'.trans fullLength.symm)
    intro level inOther inOpening
    have sameSibling := same level (fullLength' ▸ inOther)
    rwa [siblingAt, siblingAt, List.getD_eq_getElem _ _ inOther,
      List.getD_eq_getElem _ _ inOpening] at sameSibling

theorem siblingAt_aliased
    (fullLength : opening.path.siblings.length = 32)
    {level : Nat}
    (inDepth : level < 32) :
    siblingAt opening.aliased.path level =
      otherSibling opening.path.leafIndex.toNat level
        (siblingAt opening.path level) := by
  have inSiblings : level < opening.path.siblings.length :=
    fullLength ▸ inDepth
  rw [siblingAt, siblingAt, aliased, List.getD_eq_getElem _ _ inSiblings,
    List.getD_eq_getElem _ _ (by rwa [List.length_mapIdx]), List.getElem_mapIdx]

/-- The alias of an accepted opening hashes the same states. -/
theorem hashedAt_aliased
    (fullLength : opening.path.siblings.length = 32)
    {level : Nat}
    (inDepth : level ≤ 32) :
    opening.hashedAt perm level = opening.aliased.hashedAt perm level := by
  have sameLeaf : opening.hashedAt perm 0 = opening.aliased.hashedAt perm 0 :=
    imtLeafInput_eq_iff.mpr (agreeModP_otherBytes opening.commitment)
  have sameIndex :
      opening.path.leafIndex = opening.aliased.path.leafIndex :=
    rfl
  refine hashedState_eq_up sameIndex sameLeaf ?_ (Nat.zero_le level) inDepth
  intro level _ inDepth
  rw [siblingAt_aliased fullLength inDepth]
  exact agreeModP_otherSibling _ _ _

/-- The alias of an accepted opening is a rival that no collision tells apart. -/
theorem rival_aliased
    (accepted : opening.Accepted perm root count) :
    opening.Rival perm width root opening.aliased where
  sameIndex := rfl
  accepted := by
    obtain ⟨belowCount, fullLength, reached⟩ :=
      imtMembershipVerify_iff.mp accepted
    refine ⟨count, imtMembershipVerify_iff.mpr ⟨belowCount, ?_, ?_⟩⟩
    · rw [aliased, List.length_mapIdx, fullLength]
    · rw [← reached, digestAt_eq, digestAt_eq]
      exact
        congrArg (fun state => field8ToBytes32 (poseidon2PermuteT8 perm state))
          (hashedAt_aliased fullLength le_rfl).symm
  free level inDepth := .of_eq (hashedAt_aliased accepted.length_siblings inDepth)

/-- An opening that binds is its own alias, and so is determined. -/
theorem Binds.determined
    (binds : opening.Binds perm width root)
    (accepted : opening.Accepted perm root count) :
    opening.Determined := by
  have rival : opening.Rival perm width root opening.aliased :=
    rival_aliased accepted
  obtain ⟨sameCommitment, sameSiblings⟩ := binds _ rival
  obtain ⟨count', accepted'⟩ := rival.accepted
  have ownSibling (level : Nat) (inDepth : level < 32) :
      opening.path.leafIndex.toNat.testBit level = true ∧
        (siblingAt opening.path level).HasLoneWords := by
    rw [← otherSibling_eq_self_iff,
      ← siblingAt_aliased accepted.length_siblings inDepth]
    exact
      (siblings_eq_iff accepted.length_siblings accepted'.length_siblings).mp
        sameSiblings level inDepth
  exact {
    commitment := otherBytes_eq_self_iff.mp sameCommitment
    turnsRight := fun level inDepth => (ownSibling level inDepth).1
    siblings := fun level inDepth => (ownSibling level inDepth).2
  }

end ImtOpening

end ScalarCore
