import ScalarCore.CgWindow
import ScalarCore.DuplicateLast

namespace ScalarCore

/-!
# The tree over the ordering keys

A micro-commitment holds the root of a hash tree over the ordering keys of its
transactions, in which the last node of an odd level is duplicated.  An
inclusion proof is accepted for exactly the keys that are listed.  The root
itself binds the completed list: a list is not told apart from one that spells
out the copies.

The hash is a parameter.  It is taken to be an ideal one where keys are to be
told apart, which no hash into 32 bytes is.
-/

open DuplicateLast

/-- The hashes of the ordering tree. -/
structure OrderingHash (Digest : Type) where
  leaf : Bytes32 → Digest
  node : Digest → Digest → Digest
  empty : Digest

/-- The hashes that the nodes use. -/
def mcOrderingHash (blake3 : List UInt8 → Bytes32) : OrderingHash Bytes32 where
  leaf := mcMerkleLeaf blake3
  node := mcMerkleNode blake3
  empty := blake3 (asciiBytes "scalar.mc.merkle.empty")

namespace OrderingHash

variable {Digest : Type}

/-- Leaves and nodes are told apart. -/
structure Separates (hash : OrderingHash Digest) : Prop where
  leaf_injective : Function.Injective hash.leaf
  node_injective : ∀ left right left' right',
    hash.node left right = hash.node left' right' →
      left = left' ∧ right = right'
  leaf_ne_node : ∀ key left right, hash.leaf key ≠ hash.node left right

/-- The root of the empty list is told apart as well. -/
structure SeparatesEmpty (hash : OrderingHash Digest) : Prop
    extends hash.Separates where
  empty_ne_leaf : ∀ key, hash.empty ≠ hash.leaf key
  empty_ne_node : ∀ left right, hash.empty ≠ hash.node left right

/-- `compute_tx_merkle_root`. -/
def computeTxMerkleRoot
    (hash : OrderingHash Digest)
    (orderingKeys : List Bytes32) : Digest :=
  if orderingKeys.isEmpty then
    hash.empty
  else
    -- a level of the loop is never empty
    (top hash.node (orderingKeys.map hash.leaf)).getD hash.empty

/-- `merkle_proof`. -/
def merkleProof
    (hash : OrderingHash Digest)
    (orderingKeys : List Bytes32)
    (index : Nat) : Option (List (Digest × Bool)) :=
  if index ≥ orderingKeys.length then
    none
  else
    some (path hash.node (orderingKeys.map hash.leaf) index)

/-- `verify_ordering_key_inclusion`, for any digests. -/
def verifyInclusion
    [DecidableEq Digest]
    (hash : OrderingHash Digest)
    (root : Digest)
    (orderingKey : Bytes32)
    (siblings : List (Digest × Bool)) : Bool :=
  decide (climb hash.node (hash.leaf orderingKey) siblings = root)

/-- The nodes verify with the hashes that they use. -/
theorem verifyInclusion_mcOrderingHash
    (blake3 : List UInt8 → Bytes32)
    (root orderingKey : Bytes32)
    (proof : MerkleProof) :
    (mcOrderingHash blake3).verifyInclusion root orderingKey proof.siblings =
      verifyOrderingKeyInclusion blake3 root orderingKey proof :=
  rfl

variable {hash : OrderingHash Digest} {keys first second : List Bytes32}

/-- The root of a list that is not empty is the top of its tree. -/
theorem top_eq_root (nonempty : keys ≠ []) :
    top hash.node (keys.map hash.leaf) =
      some (hash.computeTxMerkleRoot keys) := by
  obtain ⟨tree, _, isTree, _⟩ := exists_treeOf nonempty
  rw [computeTxMerkleRoot, if_neg (by simpa using nonempty), top_map_leaf,
    isTree, Option.map_some, Option.getD_some]

section Inclusion

variable [DecidableEq Digest]

/-- An accepted proof leads from the leaf of the key to the top. -/
theorem verifyInclusion_iff
    (nonempty : keys ≠ [])
    {orderingKey : Bytes32}
    {siblings : List (Digest × Bool)} :
    hash.verifyInclusion (hash.computeTxMerkleRoot keys) orderingKey
        siblings = true ↔
      top hash.node (keys.map hash.leaf) =
        some (climb hash.node (hash.leaf orderingKey) siblings) := by
  rw [verifyInclusion, decide_eq_true_iff, top_eq_root nonempty,
    Option.some.injEq, eq_comm]

/-- The proof of a position is accepted, whatever the hash. -/
theorem verifyInclusion_merkleProof
    (hash : OrderingHash Digest)
    {index : Nat}
    {key : Bytes32}
    (found : keys[index]? = some key) :
    ∃ siblings,
      hash.merkleProof keys index = some siblings ∧
        hash.verifyInclusion (hash.computeTxMerkleRoot keys) key siblings =
          true := by
  have inKeys : index < keys.length := (List.getElem?_eq_some_iff.mp found).1
  have nonempty : keys ≠ [] := List.ne_nil_of_mem (List.mem_of_getElem? found)
  have foundLeaf : (keys.map hash.leaf)[index]? = some (hash.leaf key) := by
    rw [List.getElem?_map, found, Option.map_some]
  refine ⟨_, if_neg (Nat.not_le.mpr inKeys), ?_⟩
  rw [verifyInclusion_iff nonempty]
  exact top_eq_climb_path foundLeaf

/-- A key with an accepted proof is listed. -/
theorem mem_of_verifyInclusion
    (separates : hash.Separates)
    (nonempty : keys ≠ [])
    {key : Bytes32}
    {siblings : List (Digest × Bool)}
    (accepted :
      hash.verifyInclusion (hash.computeTxMerkleRoot keys) key siblings =
        true) :
    key ∈ keys := by
  let isLeaf (digest : Digest) : Prop := ∃ other, hash.leaf other = digest
  have nodesApart (left right : Digest) : ¬ isLeaf (hash.node left right) := by
    rintro ⟨other, same⟩
    exact separates.leaf_ne_node other left right same
  have areLeaves : ∀ leaf ∈ keys.map hash.leaf, isLeaf leaf := by
    intro leaf listed
    obtain ⟨other, _, same⟩ := List.mem_map.mp listed
    exact ⟨other, same⟩
  have startIsLeaf : isLeaf (hash.leaf key) := ⟨key, rfl⟩
  have leafListed : hash.leaf key ∈ keys.map hash.leaf :=
    mem_of_climb_eq_top separates.node_injective nodesApart areLeaves
      startIsLeaf ((verifyInclusion_iff nonempty).mp accepted)
  obtain ⟨other, listed, sameLeaf⟩ := List.mem_map.mp leafListed
  rwa [← separates.leaf_injective sameLeaf]

end Inclusion

/-- A digest of a tree is not that of the empty list. -/
theorem empty_ne_root
    (separates : hash.SeparatesEmpty)
    (nonempty : keys ≠ []) :
    hash.computeTxMerkleRoot keys ≠ hash.empty := by
  intro isEmpty
  have isTop :
      top hash.node (keys.map hash.leaf) =
        some (hash.computeTxMerkleRoot keys) :=
    top_eq_root nonempty
  obtain ⟨tree, _, isTree, _⟩ := exists_treeOf nonempty
  rw [top_map_leaf, isTree, Option.map_some, Option.some.injEq, isEmpty]
    at isTop
  cases tree with
  | leaf key =>
      exact separates.empty_ne_leaf key isTop.symm
  | node left right =>
      exact separates.empty_ne_node _ _ isTop.symm

/-- The completion of a list is empty when the list is. -/
theorem completion_ne_nil (nonempty : keys ≠ []) : completion keys ≠ [] := by
  intro isNil
  have isPrefix := (completion_spec keys).1
  rw [isNil] at isPrefix
  exact nonempty (List.prefix_nil.mp isPrefix)

/-- Two lists have one root exactly when they are completed alike. -/
theorem root_eq_iff_completion (separates : hash.SeparatesEmpty) :
    hash.computeTxMerkleRoot first = hash.computeTxMerkleRoot second ↔
      completion first = completion second := by
  have emptyRoot : hash.computeTxMerkleRoot [] = hash.empty := rfl
  have emptyCompletion : completion ([] : List Bytes32) = [] := by
    simp [completion, top]
  by_cases firstEmpty : first = []
  · subst firstEmpty
    by_cases secondEmpty : second = []
    · subst secondEmpty
      exact iff_of_true rfl rfl
    · rw [emptyRoot, emptyCompletion]
      exact
        iff_of_false (empty_ne_root separates secondEmpty).symm
          (completion_ne_nil secondEmpty).symm
  · by_cases secondEmpty : second = []
    · subst secondEmpty
      rw [emptyRoot, emptyCompletion]
      exact
        iff_of_false (empty_ne_root separates firstEmpty)
          (completion_ne_nil firstEmpty)
    · rw [← top_eq_iff_completion separates.leaf_injective
          separates.node_injective separates.leaf_ne_node firstEmpty
          secondEmpty,
        top_eq_root firstEmpty, top_eq_root secondEmpty, Option.some.injEq]

/-- The last key of three may be spelled out once more. -/
theorem root_copied_third
    (hash : OrderingHash Digest)
    (first second third : Bytes32) :
    hash.computeTxMerkleRoot [first, second, third] =
      hash.computeTxMerkleRoot [first, second, third, third] := by
  simp [computeTxMerkleRoot, top, nextLevel]

section IdealHash

/-- The hash that writes its arguments down. -/
def spelledOut : OrderingHash (HashTree (Option Bytes32)) where
  leaf key := .leaf (some key)
  node := .node
  empty := .leaf none

/-- What is written down is told apart. -/
theorem spelledOut_separates : spelledOut.SeparatesEmpty where
  leaf_injective := by
    intro key other same
    injection same with sameValue
    exact Option.some.inj sameValue
  node_injective := by
    intro left right left' right' same
    injection same with sameLeft sameRight
    exact ⟨sameLeft, sameRight⟩
  leaf_ne_node := by
    intro key left right same
    cases same
  empty_ne_leaf := by
    intro key same
    cases same
  empty_ne_node := by
    intro left right same
    cases same

end IdealHash

/-!
## What proofs and roots say about the keys
-/

/-- Some proof of a key is accepted exactly when the key is listed. -/
theorem inclusion_exact
    [DecidableEq Digest]
    (separates : hash.Separates)
    (nonempty : keys ≠ []) :
    (∀ key,
      (∃ siblings,
        hash.verifyInclusion (hash.computeTxMerkleRoot keys) key siblings =
          true) ↔
        key ∈ keys) ∧
      ∀ index key, keys[index]? = some key →
        ∃ siblings,
          hash.merkleProof keys index = some siblings ∧
            hash.verifyInclusion (hash.computeTxMerkleRoot keys) key
              siblings = true := by
  refine ⟨?_, fun index key found => verifyInclusion_merkleProof hash found⟩
  intro key
  constructor
  · rintro ⟨siblings, accepted⟩
    exact mem_of_verifyInclusion separates nonempty accepted
  · intro listed
    obtain ⟨index, found⟩ := List.getElem?_of_mem listed
    obtain ⟨siblings, _, accepted⟩ := verifyInclusion_merkleProof hash found
    exact ⟨siblings, accepted⟩

/-- Three keys: the last one has a proof, and a key that is not there has none. -/
theorem inclusion_exact_threeKeys :
    (∃ siblings,
      spelledOut.verifyInclusion
        (spelledOut.computeTxMerkleRoot
          [Bytes32.endingIn 1, Bytes32.endingIn 2, Bytes32.endingIn 3])
        (Bytes32.endingIn 3) siblings = true) ∧
      ¬ ∃ siblings,
        spelledOut.verifyInclusion
          (spelledOut.computeTxMerkleRoot
            [Bytes32.endingIn 1, Bytes32.endingIn 2, Bytes32.endingIn 3])
          (Bytes32.endingIn 4) siblings = true := by
  have nonempty :
      [Bytes32.endingIn 1, Bytes32.endingIn 2, Bytes32.endingIn 3] ≠ [] :=
    List.cons_ne_nil _ _
  have exactly :=
    (inclusion_exact spelledOut_separates.toSeparates nonempty).1
  constructor
  · exact (exactly _).mpr (by decide)
  · exact (exactly _).not.mpr (by decide)

/-- Lists with one root are completed alike; as many keys, or unrepeated ones,
are then the same. -/
theorem root_binds_completion (separates : hash.SeparatesEmpty) :
    (hash.computeTxMerkleRoot first = hash.computeTxMerkleRoot second ↔
      completion first = completion second) ∧
      (first.length = second.length ∨ first.Nodup ∧ second.Nodup →
        hash.computeTxMerkleRoot first = hash.computeTxMerkleRoot second →
          first = second) := by
  refine ⟨root_eq_iff_completion separates, ?_⟩
  intro comparable sameRoot
  have sameCompletion := (root_eq_iff_completion separates).mp sameRoot
  rcases comparable with sameLength | ⟨firstDistinct, secondDistinct⟩
  · exact eq_of_completion_of_length sameCompletion sameLength
  · exact
      eq_of_completion_of_nodup sameCompletion firstDistinct secondDistinct

/-- Two keys in the other order have another root. -/
theorem root_binds_completion_twoKeys :
    (spelledOut.computeTxMerkleRoot
          [Bytes32.endingIn 1, Bytes32.endingIn 2] =
        spelledOut.computeTxMerkleRoot
          [Bytes32.endingIn 2, Bytes32.endingIn 1] ↔
      completion [Bytes32.endingIn 1, Bytes32.endingIn 2] =
        completion [Bytes32.endingIn 2, Bytes32.endingIn 1]) ∧
      ¬ spelledOut.computeTxMerkleRoot
          [Bytes32.endingIn 1, Bytes32.endingIn 2] =
        spelledOut.computeTxMerkleRoot
          [Bytes32.endingIn 2, Bytes32.endingIn 1] := by
  refine ⟨(root_binds_completion spelledOut_separates).1, ?_⟩
  intro sameRoot
  have sameKeys :
      [Bytes32.endingIn 1, Bytes32.endingIn 2] =
        [Bytes32.endingIn 2, Bytes32.endingIn 1] :=
    (root_binds_completion spelledOut_separates).2 (Or.inl rfl) sameRoot
  exact absurd sameKeys (by decide)

/-- A copy of the third key gives the same root, under every hash. -/
theorem spelled_out_copy_same_root :
    (∀ blake3 : List UInt8 → Bytes32,
      (mcOrderingHash blake3).computeTxMerkleRoot
          [Bytes32.endingIn 1, Bytes32.endingIn 2, Bytes32.endingIn 3] =
        (mcOrderingHash blake3).computeTxMerkleRoot
          [Bytes32.endingIn 1, Bytes32.endingIn 2, Bytes32.endingIn 3,
            Bytes32.endingIn 3]) ∧
      ¬ ∀ hash : OrderingHash (HashTree (Option Bytes32)),
        hash.SeparatesEmpty →
          ∀ first second,
            hash.computeTxMerkleRoot first = hash.computeTxMerkleRoot second →
              first = second := by
  refine ⟨fun blake3 => root_copied_third _ _ _ _, ?_⟩
  intro binding
  have same :=
    binding spelledOut spelledOut_separates _ _
      (root_copied_third spelledOut (Bytes32.endingIn 1) (Bytes32.endingIn 2)
        (Bytes32.endingIn 3))
  exact absurd (congrArg List.length same) (by decide)

end OrderingHash

end ScalarCore
