import ScalarCore.ImtCompleteness
import Mathlib.Data.Fin.VecNotation

namespace ScalarCore

/-!
# What a membership path binds

A verification hashes one state for the leaf and one for each of the 32 levels.
Two accepted verifications against one root are compared state by state from
the root downwards.  Equal states fix what the hash input holds of the children
and nothing more: all four words of a left child and two words of a right
child, each as a field element.  The two-word digest of a right child is also
why descending through it needs the first two output elements to be free of
collisions, where descending to the left needs only all four.
-/

/-- The sibling a verification reads at a level. -/
def siblingAt (path : ImtPath Bytes32) (level : Nat) : Bytes32 :=
  path.siblings.getD level .zero

/-- The digest a verification has reached below a level. -/
def digestAt
    (perm : T8Permutation)
    (commitment : Bytes32)
    (path : ImtPath Bytes32)
    (level : Nat) :
    Bytes32 :=
  PerfectTree.climb (poseidonImtHash perm).hashNode (siblingAt path)
    path.leafIndex.toNat
    ((poseidonImtHash perm).hashLeaf commitment path.leafIndex) level

/-- The permutation input a verification hashes at a level, the leaf's first. -/
def hashedState
    (perm : T8Permutation)
    (commitment : Bytes32)
    (path : ImtPath Bytes32) :
    Nat → State8
  | 0 => imtLeafInput commitment path.leafIndex
  | level + 1 =>
      if path.leafIndex.toNat.testBit level then
        imtNodeInput (siblingAt path level)
          (digestAt perm commitment path level)
      else
        imtNodeInput (digestAt perm commitment path level)
          (siblingAt path level)

/-- Two states that agree on the first output elements are the same state. -/
def NoCollision
    (perm : T8Permutation)
    (width : Nat)
    (first second : State8) : Prop :=
  (∀ index : Fin 4,
    index.val < width →
      (poseidon2PermuteT8 perm first).get (digestPosition index) =
        (poseidon2PermuteT8 perm second).get (digestPosition index)) →
  first = second

/-- The words of a sibling that the node hash absorbs. -/
def siblingWidth (leafIndex level : Nat) : Nat :=
  if leafIndex.testBit level then 4 else 2

/-- The words of a digest that the next node hash absorbs. -/
def digestWidth (leafIndex level : Nat) : Nat :=
  if leafIndex.testBit level then 2 else 4

theorem digestAt_eq
    (perm : T8Permutation)
    (commitment : Bytes32)
    (path : ImtPath Bytes32)
    (level : Nat) :
    digestAt perm commitment path level =
      field8ToBytes32
        (poseidon2PermuteT8 perm
          (hashedState perm commitment path level)) := by
  cases level with
  | zero =>
      rfl
  | succ level =>
      rw [digestAt, PerfectTree.climb, hashedState]
      split <;> rfl

/-- The verifier compares the topmost digest with the root. -/
theorem imtMembershipVerify_iff
    {perm : T8Permutation}
    {commitment : Bytes32}
    {path : ImtPath Bytes32}
    {root : Bytes32}
    {count : UInt64} :
    imtMembershipVerify (poseidonImtHash perm) commitment path root count =
        true ↔
      path.leafIndex < count ∧
        path.siblings.length = imtDepth ∧
        digestAt perm commitment path imtDepth = root := by
  by_cases belowCount : path.leafIndex < count
  · by_cases fullLength : path.siblings.length = imtDepth
    · rw [imtMembershipVerify_eq_climb _ _ _ belowCount fullLength,
        decide_eq_true_iff]
      simp only [belowCount, fullLength, true_and]
      rfl
    · simp [imtMembershipVerify, belowCount, fullLength]
  · have beyond : path.leafIndex ≥ count :=
      UInt64.not_lt.mp belowCount
    simp [imtMembershipVerify, belowCount, beyond]

/-- Leaf inputs are equal exactly when the commitments agree modulo `p`. -/
theorem imtLeafInput_eq_iff
    {first second : Bytes32}
    {leafIndex : UInt64} :
    imtLeafInput first leafIndex = imtLeafInput second leafIndex ↔
      AgreeModP 4 first second := by
  simp only [imtLeafInput, AgreeModP, ← fieldReduce_eq_iff]
  constructor
  · intro same index _
    simp at same
    obtain ⟨same0, same1, same2, same3⟩ := same
    fin_cases index <;> assumption
  · intro agree
    simp [agree 0, agree 1, agree 2, agree 3]

/-- Node inputs are equal exactly when the absorbed words agree modulo `p`. -/
theorem imtNodeInput_eq_iff
    {left right left' right' : Bytes32} :
    imtNodeInput left right = imtNodeInput left' right' ↔
      AgreeModP 4 left left' ∧ AgreeModP 2 right right' := by
  simp only [imtNodeInput, AgreeModP, ← fieldReduce_eq_iff]
  constructor
  · intro same
    simp at same
    obtain ⟨left0, left1, left2, left3, right0, right1⟩ := same
    constructor
    · intro index _
      fin_cases index <;> assumption
    · intro index absorbed
      fin_cases index <;> simp_all
  · rintro ⟨leftAgree, rightAgree⟩
    simp [leftAgree 0, leftAgree 1, leftAgree 2, leftAgree 3,
      rightAgree 0, rightAgree 1]

section TwoVerifications

variable {perm : T8Permutation}
  {commitment1 commitment2 : Bytes32}
  {path1 path2 : ImtPath Bytes32}

/-- Equal states above a level agree on the sibling and digest absorbed there. -/
theorem hashedState_succ_eq_iff
    (sameIndex : path1.leafIndex = path2.leafIndex)
    (level : Nat) :
    hashedState perm commitment1 path1 (level + 1) =
        hashedState perm commitment2 path2 (level + 1) ↔
      AgreeModP (siblingWidth path1.leafIndex.toNat level)
          (siblingAt path1 level) (siblingAt path2 level) ∧
        AgreeModP (digestWidth path1.leafIndex.toNat level)
          (digestAt perm commitment1 path1 level)
          (digestAt perm commitment2 path2 level) := by
  simp only [hashedState, siblingWidth, digestWidth, ← sameIndex]
  cases path1.leafIndex.toNat.testBit level with
  | true =>
      simpa using imtNodeInput_eq_iff
  | false =>
      simp only [Bool.false_eq_true, ↓reduceIte]
      rw [imtNodeInput_eq_iff, and_comm]

/-- Equal states at a level and agreeing siblings give equal states above. -/
theorem hashedState_eq_up
    (sameIndex : path1.leafIndex = path2.leafIndex)
    {bottom : Nat}
    (sameBottom :
      hashedState perm commitment1 path1 bottom =
        hashedState perm commitment2 path2 bottom)
    (siblingsAgree :
      ∀ level,
        bottom ≤ level → level < imtDepth →
        AgreeModP (siblingWidth path1.leafIndex.toNat level)
          (siblingAt path1 level) (siblingAt path2 level))
    {level : Nat}
    (above : bottom ≤ level)
    (inDepth : level ≤ imtDepth) :
    hashedState perm commitment1 path1 level =
      hashedState perm commitment2 path2 level := by
  induction above with
  | refl =>
      exact sameBottom
  | @step level above inductionHypothesis =>
      have stateBelow :=
        inductionHypothesis (Nat.le_of_succ_le inDepth)
      refine
        (hashedState_succ_eq_iff sameIndex level).mpr
          ⟨siblingsAgree level above inDepth, ?_⟩
      rw [digestAt_eq, digestAt_eq, stateBelow]
      exact fun _ _ => rfl

/--
Commitments and siblings that agree on the absorbed words are verified alike,
so nothing beyond these words is bound.
-/
theorem imtMembershipVerify_congr
    (sameIndex : path1.leafIndex = path2.leafIndex)
    (sameLength : path1.siblings.length = path2.siblings.length)
    (commitmentsAgree : AgreeModP 4 commitment1 commitment2)
    (siblingsAgree :
      ∀ level,
        level < imtDepth →
        AgreeModP (siblingWidth path1.leafIndex.toNat level)
          (siblingAt path1 level) (siblingAt path2 level))
    (root : Bytes32)
    (count : UInt64) :
    imtMembershipVerify (poseidonImtHash perm) commitment1 path1 root count =
      imtMembershipVerify (poseidonImtHash perm) commitment2 path2 root count := by
  have sameLeaf :
      hashedState perm commitment1 path1 0 =
        hashedState perm commitment2 path2 0 := by
    rw [hashedState, hashedState, ← sameIndex]
    exact imtLeafInput_eq_iff.mpr commitmentsAgree
  have sameTop :
      digestAt perm commitment1 path1 imtDepth =
        digestAt perm commitment2 path2 imtDepth := by
    rw [digestAt_eq, digestAt_eq,
      hashedState_eq_up sameIndex sameLeaf
        (fun level _ => siblingsAgree level) (Nat.zero_le _) le_rfl]
  rw [Bool.eq_iff_iff, imtMembershipVerify_iff, imtMembershipVerify_iff,
    sameIndex, sameLength, sameTop]

end TwoVerifications

/-! ## Two encodings of one absorbed input -/

/-- Equal states do not collide. -/
theorem NoCollision.of_eq
    {perm : T8Permutation}
    {width : Nat}
    {first second : State8}
    (same : first = second) :
    NoCollision perm width first second :=
  fun _ => same

/-- The permutation that leaves canonical states as they are. -/
def mirrorPermutation : T8Permutation where
  permute state := state.map fieldReduce
  canonical state index := by
    rw [get_vectorMap]
    exact fieldReduce_lt _

end ScalarCore
