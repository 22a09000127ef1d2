import ScalarCore.NonMembershipAir
import ScalarCore.SmtRefinement

namespace ScalarCore

/-!
# The node's tree and the circuit's paths

The circuit is meant to show that a nullifier is absent from the tree whose
root the node keeps.  The two hash differently: the tree has its own internal
hash and leaves a subtree without entries unhashed, the circuit hashes every
level.  The root of the tree is empty or an internal hash, and a path of the
circuit ends in neither.
-/

open NonMembershipAir

section Translation

variable {Digest Digest' : Type}

/-- A translation of digests that respects the hashes respects the roots. -/
theorem reconstructRoot_map
    {hash : PathHash Digest}
    {hash' : PathHash Digest'}
    {translate : Digest → Digest'}
    (zeroLeaf : translate hash.zeroLeaf = hash'.zeroLeaf)
    (nodeHash : ∀ left right,
      translate (hash.nodeHash left right) =
        hash'.nodeHash (translate left) (translate right))
    (nullifier : Bytes32)
    (siblings : Fin smtDepth → Digest) :
    translate (reconstructRoot hash nullifier siblings).1 =
      (reconstructRoot hash' nullifier (translate ∘ siblings)).1 := by
  have levels
      (rest : List (Fin smtDepth))
      (state : Digest × List Digest)
      (state' : Digest' × List Digest')
      (same : translate state.1 = state'.1) :
      translate (rest.foldl (levelStep hash nullifier siblings) state).1 =
        (rest.foldl (levelStep hash' nullifier (translate ∘ siblings))
          state').1 := by
    induction rest generalizing state state' with
    | nil =>
        exact same
    | cons level rest inductionHypothesis =>
        apply inductionHypothesis
        simp only [levelStep, Function.comp_apply]
        by_cases isLeft : nullifierBit nullifier level = 0
        · rw [if_pos isLeft, if_pos isLeft, nodeHash, same]
        · rw [if_neg isLeft, if_neg isLeft, nodeHash, same]
  exact levels _ _ _ zeroLeaf

/-- The hashes of the circuit on digests as the node stores them. -/
def bytesPathHash
    (perm : T8Permutation)
    (tree : NonMembershipAir.SparseTree) :
    PathHash Bytes32 where
  zeroLeaf := Bytes32.ofLimbs (poseidonPathHash perm tree).zeroLeaf
  nodeHash left right :=
    Bytes32.ofLimbs
      ((poseidonPathHash perm tree).nodeHash left.limb right.limb)

/-- Paths over stored digests are the paths of the circuit. -/
theorem limb_reconstructRoot
    (perm : T8Permutation)
    (tree : NonMembershipAir.SparseTree)
    (nullifier : Bytes32)
    (siblings : Fin smtDepth → Bytes32) :
    (reconstructRoot (bytesPathHash perm tree) nullifier siblings).1.limb =
      (NonMembershipWitness.reconstructRoot perm
        { nullifier, siblings := Bytes32.limb ∘ siblings, tree }).1 := by
  apply reconstructRoot_map
  · funext index
    exact Bytes32.limb_ofLimbs _ index
  · intro left right
    funext index
    exact Bytes32.limb_ofLimbs _ index

end Translation

section Gap

variable {Digest : Type} [DecidableEq Digest]
variable {hash : SmtHash Digest} {pathHash : PathHash Digest}

/--
The circuit's node hash answers neither the empty digest nor a digest of the
node's tree: its function is another one.
-/
structure SeparatedHashes
    (hash : SmtHash Digest)
    (pathHash : PathHash Digest) : Prop where
  nodeHash_ne_empty :
    ∀ left right, pathHash.nodeHash left right ≠ hash.emptyRoot
  nodeHash_ne_internal :
    ∀ left right left' right',
      pathHash.nodeHash left right ≠ hash.hashInternal left' right'

/-- Some path of a nullifier leads to the root of the node's tree. -/
def HasCircuitPath
    (pathHash : PathHash Digest)
    (tree : SparseMerkleTree hash)
    (nullifier : Bytes32) : Prop :=
  ∃ siblings : Fin smtDepth → Digest,
    (reconstructRoot pathHash nullifier siblings).1 = tree.root

/-- The absent nullifiers are those with a path, the others have none. -/
def CircuitPathExact
    (pathHash : PathHash Digest)
    (tree : SparseMerkleTree hash)
    (nullifier : Bytes32) : Prop :=
  (tree.contains nullifier = false →
      HasCircuitPath pathHash tree nullifier) ∧
    (tree.contains nullifier = true →
      ¬HasCircuitPath pathHash tree nullifier)

/-- The root of a tree is empty or an internal hash. -/
theorem root_cases (tree : SparseMerkleTree hash) :
    tree.root = hash.emptyRoot ∨
      ∃ left right, tree.root = hash.hashInternal left right := by
  rw [tree.root_eq_rootOf, smtDepth, SparseTree.Hash.rootOf,
    SmtHash.join_tree]
  split
  · exact Or.inl rfl
  · exact Or.inr ⟨_, _, rfl⟩

/-- The empty tree has no path when no hash is the empty digest. -/
theorem not_hasCircuitPath_new
    (nonempty : ∀ left right, pathHash.nodeHash left right ≠ hash.emptyRoot)
    (nullifier : Bytes32) :
    ¬HasCircuitPath pathHash (SparseMerkleTree.new hash) nullifier := by
  rintro ⟨siblings, reached⟩
  obtain ⟨left, right, hashed⟩ :=
    exists_root_children pathHash nullifier siblings
  exact nonempty left right (hashed.symm.trans reached)

/-- No tree has a path when the hashes are separated. -/
theorem not_hasCircuitPath
    (separated : SeparatedHashes hash pathHash)
    (tree : SparseMerkleTree hash)
    (nullifier : Bytes32) :
    ¬HasCircuitPath pathHash tree nullifier := by
  rintro ⟨siblings, reached⟩
  obtain ⟨left, right, hashed⟩ :=
    exists_root_children pathHash nullifier siblings
  rw [hashed] at reached
  rcases root_cases tree with empty | ⟨left', right', internal⟩
  · exact separated.nodeHash_ne_empty left right (reached.trans empty)
  · exact separated.nodeHash_ne_internal left right left' right'
      (reached.trans internal)

/--
Paths tell absent from contained nullifiers only for the contained ones: an
absent nullifier has no path in any tree the node can reach.
-/
theorem circuitPathExact_iff
    (separated : SeparatedHashes hash pathHash)
    (changes : List SparseMerkleTree.Change)
    (nullifier : Bytes32) :
    CircuitPathExact pathHash (SparseMerkleTree.afterChanges hash changes)
        nullifier ↔
      (SparseMerkleTree.afterChanges hash changes).contains nullifier =
        true := by
  have noPath :=
    not_hasCircuitPath separated (SparseMerkleTree.afterChanges hash changes)
      nullifier
  constructor
  · rintro ⟨absentHas, -⟩
    by_contra absent
    exact noPath (absentHas (Bool.eq_false_of_not_eq_true absent))
  · intro contained
    constructor
    · intro absent
      rw [contained] at absent
      cases absent
    · intro _
      exact noPath

end Gap

/-- Digests of both trees as the terms that were hashed. -/
inductive GapDigest where
  | zero
  | leaf (nullifier : Bytes32) (epochId : UInt64)
  | internal (left right : GapDigest)
  | archived (prevArchivedRoot : GapDigest) (sorted : List Bytes32)
  | pathNode (left right : GapDigest)
  deriving DecidableEq

/-- The hashes of the node's tree without any collision. -/
def gapSmtHash : SmtHash GapDigest where
  hashInternal := .internal
  hashLeaf := .leaf
  emptyRoot := .zero
  hashArchived := .archived

/-- The hashes of the circuit without any collision. -/
def gapPathHash : PathHash GapDigest where
  zeroLeaf := .zero
  nodeHash := .pathNode

theorem separatedHashes_gap : SeparatedHashes gapSmtHash gapPathHash where
  nodeHash_ne_empty _ _ := nofun
  nodeHash_ne_internal _ _ _ _ := nofun

/-- A stored nullifier has no path. -/
theorem circuitPathExact_inserted :
    CircuitPathExact gapPathHash
      (SparseMerkleTree.afterChanges gapSmtHash [.insert Bytes32.zero 1])
      Bytes32.zero :=
  (circuitPathExact_iff separatedHashes_gap [.insert Bytes32.zero 1]
    Bytes32.zero).mpr
      (SparseMerkleTree.contains_iff.mpr (Finmap.mem_insert.mpr (Or.inl rfl)))

/-- An absent nullifier has no path either: here the tree is empty. -/
theorem not_circuitPathExact_empty :
    ¬CircuitPathExact gapPathHash
      (SparseMerkleTree.afterChanges gapSmtHash []) Bytes32.zero := by
  rintro ⟨absentHas, -⟩
  exact not_hasCircuitPath_new separatedHashes_gap.nodeHash_ne_empty
    Bytes32.zero (absentHas rfl)

end ScalarCore
