import ScalarCore.SmtRefinement

namespace ScalarCore

/-!
# What the root of the active tree binds

The root determines the visible entries, those with the smallest nullifier of
their path, and nothing else: the leaf level hashes one entry and drops the
others.  Trees that differ in shadowed entries only have one root.
-/

/-- The stored entries that no smaller nullifier shadows. -/
def SmtLeaves.visible (leaves : SmtLeaves) : Set (Bytes32 × UInt64) :=
  {entry |
    leaves.lookup entry.1 = some entry.2 ∧ ¬ leaves.Shadowed entry.1}

/-- The stored entries that share their first 32 bits with a smaller one. -/
def SmtLeaves.hidden (leaves : SmtLeaves) : Set (Bytes32 × UInt64) :=
  {entry |
    leaves.lookup entry.1 = some entry.2 ∧ leaves.Shadowed entry.1}

/-- Maps are equal when both kinds of entries are. -/
theorem SmtLeaves.eq_iff_visible_hidden
    {first second : SmtLeaves} :
    first = second ↔
      first.visible = second.visible ∧ first.hidden = second.hidden := by
  constructor
  · rintro rfl
    exact ⟨rfl, rfl⟩
  · rintro ⟨sameVisible, sameHidden⟩
    have stored
        {leaves : SmtLeaves}
        {nullifier : Bytes32}
        {epoch : UInt64} :
        leaves.lookup nullifier = some epoch ↔
          (nullifier, epoch) ∈ leaves.visible ∨
            (nullifier, epoch) ∈ leaves.hidden := by
      by_cases shadowed : leaves.Shadowed nullifier
      · simp [visible, hidden, shadowed]
      · simp [visible, hidden, shadowed]
    apply Finmap.ext_lookup
    intro nullifier
    apply Option.ext
    intro epoch
    rw [stored, stored, sameVisible, sameHidden]

/-- No two stored nullifiers share their first 32 bits. -/
def SmtLeaves.DistinctPaths (leaves : SmtLeaves) : Prop :=
  ∀ nullifier ∈ leaves, ∀ other ∈ leaves,
    prefixMatchesExcept nullifier other smtDepth = true →
    nullifier = other

/-- Without two nullifiers on one path nothing is hidden. -/
theorem SmtLeaves.DistinctPaths.hidden_eq_empty
    {leaves : SmtLeaves}
    (distinctPaths : leaves.DistinctPaths) :
    leaves.hidden = ∅ := by
  rw [Set.eq_empty_iff_forall_notMem]
  rintro ⟨nullifier, epoch⟩ ⟨found, smaller, stored, isSmaller, samePrefix⟩
  have same :=
    distinctPaths smaller stored nullifier
      (Finmap.mem_of_lookup_eq_some found) samePrefix
  exact isSmaller.ne same

/-- What a shadowed nullifier would shadow is shadowed without it. -/
theorem SmtLeaves.shadowed_insert_iff
    {leaves : SmtLeaves}
    {nullifier : Bytes32}
    (alreadyShadowed : leaves.Shadowed nullifier)
    (epoch : UInt64)
    (other : Bytes32) :
    (SmtLeaves.Shadowed (leaves.insert nullifier epoch) other) ↔
      leaves.Shadowed other := by
  constructor
  · rintro ⟨smaller, stored, isSmaller, samePrefix⟩
    rcases Finmap.mem_insert.mp stored with rfl | wasStored
    · rcases alreadyShadowed with
        ⟨smallest, wasStored, isSmallest, samePrefix'⟩
      have samePath :=
        (smtPath_eq_iff.mpr samePrefix').trans (smtPath_eq_iff.mpr samePrefix)
      exact
        ⟨smallest, wasStored, isSmallest.trans isSmaller,
          smtPath_eq_iff.mp samePath⟩
    · exact ⟨smaller, wasStored, isSmaller, samePrefix⟩
  · rintro ⟨smaller, wasStored, isSmaller, samePrefix⟩
    exact
      ⟨smaller, Finmap.mem_insert.mpr (Or.inr wasStored), isSmaller,
        samePrefix⟩

/-- Entering a shadowed nullifier shows no entry and hides none. -/
theorem SmtLeaves.visible_insert_shadowed
    {leaves : SmtLeaves}
    {nullifier : Bytes32}
    (alreadyShadowed : leaves.Shadowed nullifier)
    (epoch : UInt64) :
    SmtLeaves.visible (leaves.insert nullifier epoch) = leaves.visible := by
  ext ⟨other, epoch'⟩
  simp only [visible, Set.mem_ofPred_eq,
    shadowed_insert_iff alreadyShadowed epoch]
  by_cases same : other = nullifier
  · subst same
    simp [alreadyShadowed]
  · rw [Finmap.lookup_insert_of_ne leaves same]

section Hashing

variable {Digest : Type} [DecidableEq Digest] {hash : SmtHash Digest}

namespace SparseMerkleTree

/-- An entry is visible when it is the content at the end of its path. -/
theorem mem_visible_iff
    {tree : SparseMerkleTree hash}
    {entry : Bytes32 × UInt64} :
    entry ∈ tree.leaves.visible ↔
      tree.content (smtPath entry.1) = some entry := by
  rw [content_eq_some_iff]
  simp [SmtLeaves.visible]

/-- Trees with the same visible entries have the same root, under any hash. -/
theorem root_eq_of_visible_eq
    {first second : SparseMerkleTree hash}
    (sameVisible : first.leaves.visible = second.leaves.visible) :
    first.root = second.root := by
  have sameContent : first.content = second.content := by
    funext path
    apply Option.ext
    rintro ⟨nullifier, epoch⟩
    have visibleAt
        (tree : SparseMerkleTree hash) :
        tree.content path = some (nullifier, epoch) ↔
          (nullifier, epoch) ∈ tree.leaves.visible ∧
            smtPath nullifier = path := by
      rw [content_eq_some_iff]
      simp only [SmtLeaves.visible, Set.mem_ofPred_eq]
      tauto
    rw [visibleAt first, visibleAt second, sameVisible]
  rw [first.root_eq_rootOf, second.root_eq_rootOf, sameContent]

/-- Under ideal hashes the root determines the visible entries. -/
theorem root_eq_iff_visible_eq
    (ideal : hash.tree.Ideal)
    {first second : SparseMerkleTree hash} :
    first.root = second.root ↔
      first.leaves.visible = second.leaves.visible := by
  constructor
  · intro sameRoot
    rw [first.root_eq_rootOf, second.root_eq_rootOf,
      ideal.rootOf_eq_iff] at sameRoot
    ext entry
    rw [mem_visible_iff, mem_visible_iff,
      sameRoot (smtPath entry.1) (length_smtPath entry.1)]
  · exact root_eq_of_visible_eq

/-- Trees that hold at most one nullifier on each path are bound by the root. -/
theorem leaves_eq_of_root_eq
    (ideal : hash.tree.Ideal)
    {first second : SparseMerkleTree hash}
    (distinctFirst : first.leaves.DistinctPaths)
    (distinctSecond : second.leaves.DistinctPaths)
    (sameRoot : first.root = second.root) :
    first.leaves = second.leaves := by
  rw [SmtLeaves.eq_iff_visible_hidden, distinctFirst.hidden_eq_empty,
    distinctSecond.hidden_eq_empty]
  exact ⟨(root_eq_iff_visible_eq ideal).mp sameRoot, rfl⟩

/-- Entering a shadowed nullifier leaves the root as it was. -/
theorem root_insert_shadowed
    {tree : SparseMerkleTree hash}
    {nullifier : Bytes32}
    (alreadyShadowed : tree.leaves.Shadowed nullifier)
    (epochId : UInt64) :
    (tree.insert nullifier epochId).root = tree.root :=
  root_eq_of_visible_eq
    (SmtLeaves.visible_insert_shadowed alreadyShadowed epochId)

/--
Equal roots imply equal entries, except for trees that differ in hidden entries
only.
-/
theorem root_binds_leaves_iff
    (ideal : hash.tree.Ideal)
    (first second : List Change) :
    ((afterChanges hash first).root = (afterChanges hash second).root →
        (afterChanges hash first).leaves =
          (afterChanges hash second).leaves) ↔
      ¬ ((afterChanges hash first).leaves.visible =
            (afterChanges hash second).leaves.visible ∧
          (afterChanges hash first).leaves.hidden ≠
            (afterChanges hash second).leaves.hidden) := by
  rw [root_eq_iff_visible_eq ideal, SmtLeaves.eq_iff_visible_hidden]
  constructor
  · rintro binds ⟨sameVisible, differentHidden⟩
    exact differentHidden (binds sameVisible).2
  · intro notHiddenOnly sameVisible
    by_contra notSame
    exact
      notHiddenOnly
        ⟨sameVisible, fun sameHidden => notSame ⟨sameVisible, sameHidden⟩⟩

/-- Two trees with one entry each, at different paths, have different roots. -/
theorem root_binds_leaves_zero_allOnes :
    (afterChanges symbolicSmtHash [.insert Bytes32.zero 1]).leaves ≠
        (afterChanges symbolicSmtHash
          [.insert (Bytes32.replicate 255) 1]).leaves ∧
      (afterChanges symbolicSmtHash [.insert Bytes32.zero 1]).root ≠
        (afterChanges symbolicSmtHash
          [.insert (Bytes32.replicate 255) 1]).root := by
  have different : Bytes32.zero ≠ Bytes32.replicate 255 := by
    decide
  have unshadowed :
      (Bytes32.zero, (1 : UInt64)) ∈
        (afterChanges symbolicSmtHash
          [.insert Bytes32.zero 1]).leaves.visible := by
    simp only [SmtLeaves.visible, SmtLeaves.Shadowed, afterChanges, change,
      List.foldl_cons, List.foldl_nil, leaves_insert, leaves_new,
      Set.mem_ofPred_eq, Finmap.lookup_insert, Finmap.mem_insert,
      Finmap.notMem_empty, or_false, exists_eq_left, true_and]
    decide
  have differentVisible :
      (afterChanges symbolicSmtHash [.insert Bytes32.zero 1]).leaves.visible ≠
        (afterChanges symbolicSmtHash
          [.insert (Bytes32.replicate 255) 1]).leaves.visible := by
    intro sameVisible
    rw [sameVisible] at unshadowed
    simp [SmtLeaves.visible, afterChanges, change,
      Finmap.lookup_insert_of_ne _ different] at unshadowed
  have differentLeaves :
      (afterChanges symbolicSmtHash [.insert Bytes32.zero 1]).leaves ≠
        (afterChanges symbolicSmtHash
          [.insert (Bytes32.replicate 255) 1]).leaves :=
    fun sameLeaves => differentVisible (congrArg _ sameLeaves)
  have binds :=
    (root_binds_leaves_iff symbolicSmtHash_ideal [.insert Bytes32.zero 1]
      [.insert (Bytes32.replicate 255) 1]).mpr
      fun hiddenOnly => differentVisible hiddenOnly.1
  exact ⟨differentLeaves, fun sameRoot => differentLeaves (binds sameRoot)⟩

/--
Next to the nullifier of zero bytes, the nullifier that differs in its last
byte only leaves no trace in the root.
-/
theorem root_not_binds_leaves :
    symbolicSmtHash.tree.Ideal ∧
      (afterChanges symbolicSmtHash
            [.insert Bytes32.zero 1, .insert (Bytes32.endingIn 1) 1]).root =
          (afterChanges symbolicSmtHash [.insert Bytes32.zero 1]).root ∧
      (afterChanges symbolicSmtHash
            [.insert Bytes32.zero 1, .insert (Bytes32.endingIn 1) 1]).leaves ≠
          (afterChanges symbolicSmtHash [.insert Bytes32.zero 1]).leaves := by
  have shadowed :
      (afterChanges symbolicSmtHash
          [.insert Bytes32.zero 1]).leaves.Shadowed (Bytes32.endingIn 1) := by
    refine ⟨Bytes32.zero, ?_, ?_, ?_⟩
    · simp [afterChanges, change]
    · decide
    · decide
  refine ⟨symbolicSmtHash_ideal, root_insert_shadowed shadowed 1, ?_⟩
  intro sameLeaves
  have sameEpoch :=
    congrArg (Finmap.lookup (Bytes32.endingIn 1)) sameLeaves
  have different : Bytes32.endingIn 1 ≠ Bytes32.zero := by
    decide
  simp [afterChanges, change,
    Finmap.lookup_insert_of_ne _ different] at sameEpoch

end SparseMerkleTree

end Hashing

end ScalarCore
