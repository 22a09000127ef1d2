import ScalarCore.QuaternarySmt

namespace ScalarCore

/-!
# Proofs against the quaternary tree

What an accepted proof shows is that its path is empty, whatever its flag says.  A
proof of membership that is accepted is therefore wrong, and a key whose first four
bytes are those of a stored nullifier has no proof at all.
-/

variable {Digest : Type} [DecidableEq Digest] {hash : QsmtHash Digest}

namespace QuaternarySparseMerkleTree

@[simp] theorem contains_iff
    {tree : QuaternarySparseMerkleTree hash}
    {nullifier : Bytes32} :
    tree.contains nullifier = true ↔ nullifier ∈ tree.leaves :=
  decide_eq_true_iff

/-- A stored nullifier has the first four bytes of the key. -/
def Occupied (tree : QuaternarySparseMerkleTree hash) (key : Bytes32) : Prop :=
  ∃ stored ∈ tree.leaves,
    ∀ byteIdx, byteIdx < 4 → stored.byteAt byteIdx = key.byteAt byteIdx

/-- The siblings are those of the tree on the path of the key, as field elements. -/
def SiblingsOf
    (tree : QuaternarySparseMerkleTree hash)
    (proof : QuaternarySmtProof Digest) : Prop :=
  proof.siblings.length = qsmtDepth ∧
    hash.tree.Matches (qsmtPath proof.key) proof.siblings tree.content

/-- The path of a key is empty where no stored nullifier has its first four bytes. -/
theorem content_eq_none_iff_not_occupied
    {tree : QuaternarySparseMerkleTree hash}
    {key : Bytes32} :
    tree.content (qsmtPath key) = none ↔ ¬ tree.Occupied key := by
  simp only [content_eq_none_iff, Occupied, ne_eq, qsmtPath_eq_iff, not_exists, not_and]

/-- A stored nullifier occupies its own path. -/
theorem contains_eq_false_of_not_occupied
    {tree : QuaternarySparseMerkleTree hash}
    {key : Bytes32}
    (free : ¬ tree.Occupied key) :
    tree.contains key = false := by
  rw [← Bool.not_eq_true, contains_iff]
  exact fun stored => free ⟨key, stored, fun _ _ => rfl⟩

/-- Exactly the siblings of an empty path are accepted. -/
theorem verify_root_iff
    (ideal : hash.tree.Ideal)
    (lawful : hash.tree.Lawful)
    {tree : QuaternarySparseMerkleTree hash}
    {proof : QuaternarySmtProof Digest} :
    proof.verify hash tree.root = true ↔
      ¬ tree.Occupied proof.key ∧ tree.SiblingsOf proof := by
  rw [QuaternarySmtProof.verify_iff, SiblingsOf, and_left_comm]
  refine and_congr_right fun fullLength => ?_
  have sameLength : proof.siblings.length = (qsmtPath proof.key).length := by
    rw [fullLength, length_qsmtPath]
  have climbed :
      hash.tree.climb (qsmtPath proof.key) proof.siblings hash.emptyRoot =
          hash.tree.rootOf (qsmtPath proof.key).length tree.content ↔
        tree.content (qsmtPath proof.key) = none ∧
          hash.tree.Matches (qsmtPath proof.key) proof.siblings tree.content :=
    ideal.climb_eq_rootOf_iff lawful sameLength
  rw [length_qsmtPath, ← tree.root_eq_rootOf, content_eq_none_iff_not_occupied] at climbed
  exact climbed

/-- On an empty path the siblings of the tree are accepted, under either flag. -/
theorem exists_verify
    {tree : QuaternarySparseMerkleTree hash}
    {key : Bytes32}
    (free : ¬ tree.Occupied key)
    (isMember : Bool) :
    ∃ proof : QuaternarySmtProof Digest,
      proof.key = key ∧
        proof.isMember = isMember ∧ proof.verify hash tree.root = true := by
  have climbed := hash.tree.climb_siblings (qsmtPath key) tree.content
  rw [content_eq_none_iff_not_occupied.mpr free, length_qsmtPath, ← tree.root_eq_rootOf]
    at climbed
  refine
    ⟨{ siblings := hash.tree.siblings (qsmtPath key) tree.content, isMember, key },
      rfl, rfl, ?_⟩
  rw [QuaternarySmtProof.verify_iff, WideTree.Hash.length_siblings, length_qsmtPath]
  exact ⟨rfl, climbed⟩

/-- What is asked of the proofs against one tree. -/
def ProofsExact (tree : QuaternarySparseMerkleTree hash) : Prop :=
  (∀ proof : QuaternarySmtProof Digest,
    proof.verify hash tree.root = true → tree.contains proof.key = proof.isMember) ∧
    ∀ key, tree.contains key = false →
      ∃ proof : QuaternarySmtProof Digest,
        proof.key = key ∧
          proof.isMember = false ∧ proof.verify hash tree.root = true

end QuaternarySparseMerkleTree

/-!
## The hashes of the source
-/

section Poseidon2

variable (perm : T8Permutation)

theorem reduceLimbs_of_lt
    {value : Bytes32}
    (canonical : ∀ index, value.limb index < goldilocksPrime) :
    reduceLimbs value = value := by
  have same : (fun index => fieldReduce (value.limb index)) = value.limb :=
    funext fun index => fieldReduce_of_lt (canonical index)
  rw [reduceLimbs, same, Bytes32.ofLimbs_limb]

/-- What is squeezed after a permutation is canonical. -/
theorem poseidon2HashChained_lt
    {input : List UInt64}
    (nonempty : input ≠ [])
    (index : Fin 4) :
    poseidon2HashChained perm input index < goldilocksPrime := by
  have chunked : rateChunks input ≠ [] := by
    match input, nonempty with
    | [_], _ => exact List.cons_ne_nil _ _
    | [_, _], _ => exact List.cons_ne_nil _ _
    | [_, _, _], _ => exact List.cons_ne_nil _ _
    | _ :: _ :: _ :: _ :: _, _ => exact List.cons_ne_nil _ _
  obtain ⟨earlier, last, isChunks⟩ := (List.eq_nil_or_concat _).resolve_left chunked
  rw [poseidon2HashChained]
  simp only [isChunks, List.concat_eq_append, List.foldl_append, List.foldl_cons,
    List.foldl_nil]
  exact perm.canonical _ (digestPosition index)

/-- Every digest of the source is canonical. -/
theorem poseidon2QsmtHash_lawful : (poseidon2QsmtHash perm).tree.Lawful := by
  have squeezed {input : List UInt64} (nonempty : input ≠ []) :
      reduceLimbs (poseidon2HashChainedBytes32 perm input) =
        poseidon2HashChainedBytes32 perm input := by
    refine reduceLimbs_of_lt fun index => ?_
    rw [poseidon2HashChainedBytes32, Bytes32.limb_ofLimbs]
    exact poseidon2HashChained_lt perm nonempty index
  have zeroCanonical : ∀ index, Bytes32.zero.limb index < goldilocksPrime := by
    decide
  refine ⟨?_, ?_, ?_, ?_⟩
  · intro digest
    refine reduceLimbs_of_lt fun index => ?_
    change (Bytes32.ofLimbs fun index => fieldReduce (digest.limb index)).limb index < _
    rw [Bytes32.limb_ofLimbs]
    exact fieldReduce_lt _
  · intro entry
    exact squeezed (List.cons_ne_nil _ _)
  · intro children
    exact squeezed (List.cons_ne_nil _ _)
  · exact reduceLimbs_of_lt zeroCanonical

end Poseidon2

/-!
## The symbolic hashes
-/

/-- Digests as the terms that were hashed. -/
inductive SymbolicQsmtDigest where
  | empty
  | leaf (nullifier : Bytes32) (epochId : UInt64)
  | node (child0 child1 child2 child3 : SymbolicQsmtDigest)
  deriving DecidableEq

/-- The hashes without any collision. -/
def symbolicQsmtHash : QsmtHash SymbolicQsmtDigest where
  chainedNode children := .node (children 0) (children 1) (children 2) (children 3)
  chainedLeaf := .leaf
  reduce := id
  emptyRoot := .empty

theorem symbolicQsmtHash_lawful : symbolicQsmtHash.tree.Lawful :=
  ⟨fun _ => rfl, fun _ => rfl, fun _ => rfl, rfl⟩

/-- The symbolic hashes are ideal. -/
theorem symbolicQsmtHash_ideal : symbolicQsmtHash.tree.Ideal where
  node_injective := by
    intro first second _ _ same
    injection same with same0 same1 same2 same3
    funext index
    fin_cases index
    · exact same0
    · exact same1
    · exact same2
    · exact same3
  leaf_ne_empty _ := SymbolicQsmtDigest.noConfusion
  node_ne_empty _ := SymbolicQsmtDigest.noConfusion

namespace QuaternarySparseMerkleTree

/-- A proof of membership in the empty tree is accepted. -/
theorem membership_accepted_in_emptyTree :
    ¬ ∀ hash : QsmtHash SymbolicQsmtDigest,
      hash.tree.Ideal →
        hash.tree.Lawful →
          ∀ changes, (afterChanges hash changes).ProofsExact := by
  intro always
  obtain ⟨sound, -⟩ := always symbolicQsmtHash symbolicQsmtHash_ideal symbolicQsmtHash_lawful []
  have free : ¬ (new symbolicQsmtHash).Occupied Bytes32.zero := by
    rintro ⟨stored, listed, -⟩
    exact Finmap.notMem_empty listed
  obtain ⟨proof, isKey, marked, accepted⟩ := exists_verify free true
  have present := sound proof accepted
  rw [marked, isKey] at present
  exact free ⟨Bytes32.zero, contains_iff.mp present, fun _ _ => rfl⟩

/--
An accepted proof says the truth exactly where it is not a proof of membership or
is not accepted anyway; an absent key has a proof exactly where no stored nullifier
has its first four bytes.
-/
theorem proofs_exact_iff
    (ideal : hash.tree.Ideal)
    (lawful : hash.tree.Lawful)
    (changes : List SparseMerkleTree.Change) :
    (∀ proof : QuaternarySmtProof Digest,
      (proof.verify hash (afterChanges hash changes).root = true →
          (afterChanges hash changes).contains proof.key = proof.isMember) ↔
        proof.isMember = false ∨
          (afterChanges hash changes).Occupied proof.key ∨
            ¬ (afterChanges hash changes).SiblingsOf proof) ∧
      ∀ key, (afterChanges hash changes).contains key = false →
        ((∃ proof : QuaternarySmtProof Digest,
            proof.key = key ∧
              proof.isMember = false ∧
                proof.verify hash (afterChanges hash changes).root = true) ↔
          ¬ (afterChanges hash changes).Occupied key) := by
  generalize afterChanges hash changes = tree
  constructor
  · intro proof
    rw [verify_root_iff ideal lawful]
    constructor
    · intro sound
      by_cases accepted : ¬ tree.Occupied proof.key ∧ tree.SiblingsOf proof
      · refine .inl ?_
        rw [← sound accepted]
        exact contains_eq_false_of_not_occupied accepted.1
      · rw [not_and_or, not_not] at accepted
        exact .inr accepted
    · rintro (notMember | occupied | notSiblings) ⟨free, areSiblings⟩
      · rw [notMember]
        exact contains_eq_false_of_not_occupied free
      · exact absurd occupied free
      · exact absurd areSiblings notSiblings
  · intro key _
    constructor
    · rintro ⟨proof, rfl, -, accepted⟩
      exact ((verify_root_iff ideal lawful).mp accepted).1
    · intro free
      exact exists_verify free false

/-- A key that differs from the array of ones only after its first four bytes. -/
def sharedPrefixKey : Bytes32 where
  bytes := List.replicate 4 1 ++ List.replicate 28 0
  length_eq := rfl

/-- One entry, under the array of ones. -/
def oneEntry : List SparseMerkleTree.Change :=
  [.insert (Bytes32.replicate 1) 5]

theorem mem_leaves_oneEntry (nullifier : Bytes32) :
    nullifier ∈ (afterChanges symbolicQsmtHash oneEntry).leaves ↔
      nullifier = Bytes32.replicate 1 := by
  change nullifier ∈ (∅ : SmtLeaves).insert (Bytes32.replicate 1) 5 ↔ _
  rw [Finmap.mem_insert, or_iff_left Finmap.notMem_empty]

/--
Against the tree of one entry the accepted proofs of absence are true.  A key of another
prefix has one; an absent key of the same prefix has none.
-/
theorem proofs_exact_iff_oneEntry :
    (∀ proof : QuaternarySmtProof SymbolicQsmtDigest,
        proof.isMember = false →
        proof.verify symbolicQsmtHash (afterChanges symbolicQsmtHash oneEntry).root =
          true →
        (afterChanges symbolicQsmtHash oneEntry).contains proof.key = false) ∧
      (∃ proof : QuaternarySmtProof SymbolicQsmtDigest,
          proof.key = Bytes32.replicate 2 ∧
            proof.isMember = false ∧
              proof.verify symbolicQsmtHash
                (afterChanges symbolicQsmtHash oneEntry).root = true) ∧
        ¬ ∃ proof : QuaternarySmtProof SymbolicQsmtDigest,
            proof.key = sharedPrefixKey ∧
              proof.isMember = false ∧
                proof.verify symbolicQsmtHash
                  (afterChanges symbolicQsmtHash oneEntry).root = true := by
  obtain ⟨sound, complete⟩ :=
    proofs_exact_iff symbolicQsmtHash_ideal symbolicQsmtHash_lawful oneEntry
  have absent
      {key : Bytes32}
      (different : key ≠ Bytes32.replicate 1) :
      (afterChanges symbolicQsmtHash oneEntry).contains key = false := by
    rw [← Bool.not_eq_true, contains_iff, mem_leaves_oneEntry]
    exact different
  have shared : (afterChanges symbolicQsmtHash oneEntry).Occupied sharedPrefixKey :=
    ⟨Bytes32.replicate 1, (mem_leaves_oneEntry _).mpr rfl, by decide⟩
  have free : ¬ (afterChanges symbolicQsmtHash oneEntry).Occupied (Bytes32.replicate 2) := by
    rintro ⟨stored, listed, samePrefix⟩
    rw [(mem_leaves_oneEntry _).mp listed] at samePrefix
    exact absurd (samePrefix 0 (by decide)) (by decide)
  refine ⟨fun proof notMember accepted => ?_, ?_, ?_⟩
  · rw [(sound proof).mpr (.inl notMember) accepted, notMember]
  · exact (complete _ (absent (by decide))).mpr free
  · exact (complete _ (absent (by decide))).not.mpr (not_not_intro shared)

end QuaternarySparseMerkleTree

end ScalarCore
