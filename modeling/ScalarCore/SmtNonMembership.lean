import ScalarCore.SmtRefinement

namespace ScalarCore

/-!
# Non-membership in the active tree

A non-membership proof shows that a path is empty.  No accepted proof is wrong,
whoever made it.  But a stored nullifier occupies the path of every key with
its first 32 bits, and those keys have no proof although they are absent.
-/

variable {Digest : Type} [DecidableEq Digest] {hash : SmtHash Digest}

/-- The path of a stored nullifier is not empty. -/
theorem SparseMerkleTree.not_mem_of_content_eq_none
    {tree : SparseMerkleTree hash}
    {nullifier : Bytes32}
    (empty : tree.content (smtPath nullifier) = none) :
    nullifier ∉ tree.leaves := by
  intro stored
  exact content_eq_none_iff.mp empty nullifier stored rfl

/-- An accepted proof leads to an empty path, whatever siblings it gives. -/
theorem SmtProof.content_eq_none_of_verify
    (ideal : hash.tree.Ideal)
    {proof : SmtProof Digest}
    {tree : SparseMerkleTree hash}
    (accepted : proof.verify hash tree.root = true) :
    tree.content (smtPath proof.key) = none := by
  obtain ⟨fullLength, reached⟩ := SmtProof.verify_iff.mp accepted
  have sameLength :
      proof.siblings.length = (smtPath proof.key).length := by
    rw [fullLength, length_smtPath]
  apply ideal.climb_empty_sound sameLength
  rw [length_smtPath, ← tree.root_eq_rootOf]
  exact reached

/-- A non-membership proof is accepted when it is one and verifies. -/
theorem SmtProof.verifyNonMembership_iff
    {proof : SmtProof Digest}
    {root : Digest} :
    proof.verifyNonMembership hash root = true ↔
      proof.isMember = false ∧ proof.verify hash root = true := by
  unfold verifyNonMembership
  by_cases fullLength : proof.siblings.length = smtDepth
  · cases isMember : proof.isMember with
    | true =>
        simp
    | false =>
        simp [fullLength]
  · simp [fullLength, verify_iff]

/-- Externally supplied non-membership proofs are sound. -/
theorem SmtProof.verifyNonMembership_sound
    (ideal : hash.tree.Ideal)
    {proof : SmtProof Digest}
    {tree : SparseMerkleTree hash}
    (accepted : proof.verifyNonMembership hash tree.root = true) :
    proof.key ∉ tree.leaves :=
  SparseMerkleTree.not_mem_of_content_eq_none
    (content_eq_none_of_verify ideal (verifyNonMembership_iff.mp accepted).2)

namespace SparseMerkleTree

/-- The siblings of an empty path lead to the root. -/
theorem climb_computeSiblings
    {tree : SparseMerkleTree hash}
    {nullifier : Bytes32}
    (empty : tree.content (smtPath nullifier) = none) :
    hash.tree.climb (smtPath nullifier) (tree.computeSiblings nullifier)
        hash.emptyRoot =
      tree.root := by
  have climbed := hash.tree.climb_siblings (smtPath nullifier) tree.content
  rw [empty, length_smtPath, ← tree.root_eq_rootOf,
    ← tree.computeSiblings_eq] at climbed
  exact climbed

@[simp] theorem length_computeSiblings
    (tree : SparseMerkleTree hash)
    (target : Bytes32) :
    (tree.computeSiblings target).length = smtDepth := by
  simp [computeSiblings]

/-- The tree checks its own proof for the keys it does not contain. -/
theorem verifyNonMembership_iff
    {tree : SparseMerkleTree hash}
    {nullifier : Bytes32} :
    tree.verifyNonMembership nullifier = true ↔
      tree.contains nullifier = false ∧
        (tree.generateProof nullifier).verifyNonMembership hash tree.root =
          true := by
  unfold verifyNonMembership
  cases tree.contains nullifier with
  | true =>
      simp
  | false =>
      simp

/-- The tree confirms the absence of exactly the keys whose path is empty. -/
theorem verifyNonMembership_iff_content
    (ideal : hash.tree.Ideal)
    (tree : SparseMerkleTree hash)
    (nullifier : Bytes32) :
    tree.verifyNonMembership nullifier = true ↔
      tree.content (smtPath nullifier) = none := by
  rw [verifyNonMembership_iff]
  constructor
  · rintro ⟨_, accepted⟩
    have empty :=
      SmtProof.content_eq_none_of_verify ideal
        (SmtProof.verifyNonMembership_iff.mp accepted).2
    exact empty
  · intro empty
    have absent : tree.contains nullifier = false :=
      contains_eq_false_iff.mpr (not_mem_of_content_eq_none empty)
    have accepted :
        (tree.generateProof nullifier).verify hash tree.root = true :=
      SmtProof.verify_iff.mpr
        ⟨tree.length_computeSiblings nullifier,
          climb_computeSiblings empty⟩
    exact ⟨absent, SmtProof.verifyNonMembership_iff.mpr ⟨absent, accepted⟩⟩

/--
Non-membership is exact for a key exactly when the key is stored or no stored
key has its first 32 bits.
-/
theorem verifyNonMembership_exact_iff
    (ideal : hash.tree.Ideal)
    (changes : List Change)
    (nullifier : Bytes32) :
    (((afterChanges hash changes).verifyNonMembership nullifier = true ↔
        (afterChanges hash changes).contains nullifier = false) ∧
      ∀ proof : SmtProof Digest,
        proof.key = nullifier →
        proof.verifyNonMembership hash (afterChanges hash changes).root =
          true →
        (afterChanges hash changes).contains nullifier = false) ↔
      (afterChanges hash changes).contains nullifier = true ∨
        ∀ stored,
          (afterChanges hash changes).contains stored = true →
          prefixMatchesExcept stored nullifier smtDepth = false := by
  generalize afterChanges hash changes = tree
  have sound :
      ∀ proof : SmtProof Digest,
        proof.key = nullifier →
        proof.verifyNonMembership hash tree.root = true →
        tree.contains nullifier = false := by
    rintro proof rfl accepted
    exact
      contains_eq_false_iff.mpr
        (SmtProof.verifyNonMembership_sound ideal accepted)
  have emptyIff :
      tree.content (smtPath nullifier) = none ↔
        ∀ stored,
          tree.contains stored = true →
          prefixMatchesExcept stored nullifier smtDepth = false := by
    simp only [content_eq_none_iff, contains_iff, ne_eq, smtPath_eq_iff,
      Bool.not_eq_true]
  rw [verifyNonMembership_iff_content ideal, emptyIff.symm,
    and_iff_left sound]
  constructor
  · intro exactHere
    cases present : tree.contains nullifier with
    | true =>
        exact Or.inl rfl
    | false =>
        exact Or.inr (exactHere.mpr present)
  · rintro (present | empty)
    · have occupied : tree.content (smtPath nullifier) ≠ none := by
        intro empty
        exact not_mem_of_content_eq_none empty (contains_iff.mp present)
      simp [occupied, present]
    · have absent : nullifier ∉ tree.leaves :=
        not_mem_of_content_eq_none empty
      simp [empty, absent]

/-- The tree that holds the nullifier of zero bytes only. -/
theorem contains_afterInsertZero
    {stored : Bytes32} :
    (afterChanges symbolicSmtHash [.insert Bytes32.zero 1]).contains stored =
        true ↔
      stored = Bytes32.zero := by
  simp [afterChanges, change, Finmap.notMem_empty]

/-- Exactness for a key that differs from the stored one in its first bit. -/
theorem verifyNonMembership_exact_allOnes :
    ((afterChanges symbolicSmtHash [.insert Bytes32.zero 1]).verifyNonMembership
          (Bytes32.replicate 255) = true ↔
        (afterChanges symbolicSmtHash [.insert Bytes32.zero 1]).contains
          (Bytes32.replicate 255) = false) ∧
      ∀ proof : SmtProof SymbolicDigest,
        proof.key = Bytes32.replicate 255 →
        proof.verifyNonMembership symbolicSmtHash
            (afterChanges symbolicSmtHash [.insert Bytes32.zero 1]).root =
          true →
        (afterChanges symbolicSmtHash [.insert Bytes32.zero 1]).contains
          (Bytes32.replicate 255) = false := by
  apply
    (verifyNonMembership_exact_iff symbolicSmtHash_ideal
      [.insert Bytes32.zero 1] (Bytes32.replicate 255)).mpr
  right
  intro stored present
  rw [contains_afterInsertZero.mp present]
  decide

/--
With the nullifier of zero bytes stored, the absence of the nullifier that
differs in its last byte only is not confirmed.
-/
theorem verifyNonMembership_not_exact :
    symbolicSmtHash.tree.Ideal ∧
      (afterChanges symbolicSmtHash [.insert Bytes32.zero 1]).contains
          (Bytes32.endingIn 1) = false ∧
      (afterChanges symbolicSmtHash
          [.insert Bytes32.zero 1]).verifyNonMembership
          (Bytes32.endingIn 1) = false := by
  have differs : Bytes32.endingIn 1 ≠ Bytes32.zero := by
    decide
  have samePrefix :
      prefixMatchesExcept Bytes32.zero (Bytes32.endingIn 1) smtDepth =
        true := by
    decide
  have stored :
      (afterChanges symbolicSmtHash [.insert Bytes32.zero 1]).contains
          Bytes32.zero = true :=
    contains_afterInsertZero.mpr rfl
  refine ⟨symbolicSmtHash_ideal, ?_, ?_⟩
  · rw [← Bool.not_eq_true, contains_afterInsertZero]
    exact differs
  · rw [← Bool.not_eq_true,
      verifyNonMembership_iff_content symbolicSmtHash_ideal,
      content_eq_none_iff]
    intro noneOnPath
    exact
      noneOnPath Bytes32.zero (contains_iff.mp stored)
        (smtPath_eq_iff.mpr samePrefix)

end SparseMerkleTree

end ScalarCore
