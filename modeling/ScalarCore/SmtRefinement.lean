import ScalarCore.Smt

namespace ScalarCore

/-!
# The active tree as a sparse tree of entries

The root, the siblings and the proof check of the source are those of a sparse
hash tree of height 32.  At the end of each path the tree holds the entry with
the smallest nullifier among those that have this path; the other entries of
the path are shadowed and leave no trace in any hash.
-/

open SparseTree

/-- Path bits of a key, `remaining` of them from `startDepth` on. -/
def pathFrom (key : Bytes32) : Nat → Nat → List Bool
  | _, 0 => []
  | startDepth, remaining + 1 =>
      bitAt key startDepth :: pathFrom key (startDepth + 1) remaining

/-- The path of a key, its first 32 bits. -/
def smtPath (key : Bytes32) : List Bool :=
  pathFrom key 0 smtDepth

@[simp] theorem length_pathFrom
    (key : Bytes32)
    (startDepth remaining : Nat) :
    (pathFrom key startDepth remaining).length = remaining := by
  induction remaining generalizing startDepth with
  | zero =>
      rfl
  | succ remaining inductionHypothesis =>
      simp only [pathFrom, List.length_cons, inductionHypothesis]

@[simp] theorem length_smtPath (key : Bytes32) :
    (smtPath key).length = smtDepth :=
  length_pathFrom key 0 smtDepth

/-- Two paths agree when the keys match in as many bits. -/
theorem pathFrom_eq_iff
    {left right : Bytes32}
    {startDepth remaining : Nat} :
    pathFrom left startDepth remaining =
        pathFrom right startDepth remaining ↔
      (List.range' startDepth remaining).all
        (fun d => bitAt left d == bitAt right d) = true := by
  induction remaining generalizing startDepth with
  | zero =>
      simp [pathFrom]
  | succ remaining inductionHypothesis =>
      simp only [pathFrom, List.cons.injEq, inductionHypothesis,
        List.range'_succ, List.all_cons, Bool.and_eq_true, beq_iff_eq]

theorem smtPath_eq_iff
    {left right : Bytes32} :
    smtPath left = smtPath right ↔
      prefixMatchesExcept left right smtDepth = true := by
  rw [smtPath, smtPath, pathFrom_eq_iff, prefixMatchesExcept,
    List.range_eq_range']

/-- What a list of entries puts at the ends of the paths of a subtree. -/
def contentFrom
    (leaves : List (Bytes32 × UInt64))
    (startDepth remaining : Nat) :
    Content (Bytes32 × UInt64) :=
  fun path =>
    leaves.find? fun entry =>
      pathFrom entry.1 startDepth remaining == path

/-- Below one child are the entries with that bit. -/
theorem below_contentFrom
    (leaves : List (Bytes32 × UInt64))
    (startDepth remaining : Nat)
    (side : Bool) :
    (contentFrom leaves startDepth (remaining + 1)).below side =
      contentFrom
        (leaves.filter fun entry => bitAt entry.1 startDepth == side)
        (startDepth + 1) remaining := by
  funext rest
  simp only [Content.below, contentFrom, pathFrom, List.cons_beq_cons,
    List.find?_filter, Bool.decide_and, Bool.decide_eq_true]

section Hashing

variable {Digest : Type} [DecidableEq Digest] {hash : SmtHash Digest}

/-- The hashes of the active tree. -/
def SmtHash.tree (hash : SmtHash Digest) :
    SparseTree.Hash (Bytes32 × UInt64) Digest where
  leaf entry := hash.hashLeaf entry.1 entry.2
  node := hash.hashInternal
  empty := hash.emptyRoot

/-- Joining is what the source does with two child roots. -/
theorem SmtHash.join_tree (left right : Digest) :
    hash.tree.join left right =
      if left = hash.emptyRoot ∧ right = hash.emptyRoot then
        hash.emptyRoot
      else
        hash.hashInternal left right :=
  rfl

/-- The recursive root of the source is the root of the sparse tree. -/
theorem subtreeRoot_eq_rootOf
    (leaves : List (Bytes32 × UInt64))
    (startDepth remaining : Nat) :
    subtreeRoot hash remaining leaves startDepth =
      hash.tree.rootOf remaining
        (contentFrom leaves startDepth remaining) := by
  induction remaining generalizing leaves startDepth with
  | zero =>
      cases leaves with
      | nil =>
          rfl
      | cons leaf rest =>
          rfl
  | succ remaining inductionHypothesis =>
      have children (side : Bool) :=
        inductionHypothesis
          (leaves.filter fun entry => bitAt entry.1 startDepth == side)
          (startDepth + 1)
      simp only [SparseTree.Hash.rootOf, below_contentFrom, ← children]
      cases leaves with
      | nil =>
          simp [subtreeRoot, SmtHash.join_tree]
      | cons leaf rest =>
          simp only [subtreeRoot, SmtHash.join_tree, beq_true, beq_false]

/-- The content of the whole tree. -/
def SparseMerkleTree.content
    (tree : SparseMerkleTree hash) : Content (Bytes32 × UInt64) :=
  contentFrom tree.leaves.entriesSorted 0 smtDepth

/-- The root kept by the source is the root of its content. -/
theorem SparseMerkleTree.root_eq_rootOf
    (tree : SparseMerkleTree hash) :
    tree.root = hash.tree.rootOf smtDepth tree.content := by
  rw [tree.root_eq, recomputeRoot, content, ← subtreeRoot_eq_rootOf]
  split
  · next noKeys =>
      have noEntries : tree.leaves.entriesSorted = [] := by
        simp [SmtLeaves.entriesSorted, noKeys, SmtLeaves.entriesOf]
      rw [noEntries, smtDepth, subtreeRoot]
  · rfl

/-- Matching one more bit selects among the entries matched so far. -/
theorem filter_prefixMatchesExcept
    (leaves : List (Bytes32 × UInt64))
    (target : Bytes32)
    (depth : Nat) :
    (leaves.filter fun entry =>
        prefixMatchesExcept entry.1 target depth).filter
        (fun entry => bitAt entry.1 depth == bitAt target depth) =
      leaves.filter fun entry =>
        prefixMatchesExcept entry.1 target (depth + 1) := by
  rw [List.filter_filter]
  apply List.filter_congr
  intro entry _
  rw [Bool.and_comm]
  simp only [prefixMatchesExcept, List.range_succ, List.all_append,
    List.all_cons, List.all_nil, Bool.and_true]

variable (hash) in
/--
The siblings of the source, one prefix filter for each depth, are those met on
the way down.  The induction descends: what is left at a depth are the entries
that match the target so far.
-/
theorem map_siblings_from
    (leaves : List (Bytes32 × UInt64))
    (target : Bytes32)
    (startDepth remaining : Nat) :
    (List.range' startDepth remaining).map
        (fun depth =>
          subtreeRoot hash (startDepth + remaining - (depth + 1))
            ((leaves.filter fun entry =>
                prefixMatchesExcept entry.1 target depth).filter
              fun entry => bitAt entry.1 depth == !bitAt target depth)
            (depth + 1)) =
      hash.tree.siblings (pathFrom target startDepth remaining)
        (contentFrom
          (leaves.filter fun entry =>
            prefixMatchesExcept entry.1 target startDepth)
          startDepth remaining) := by
  induction remaining generalizing startDepth with
  | zero =>
      rfl
  | succ remaining inductionHypothesis =>
      have below := inductionHypothesis (startDepth + 1)
      have sameEnd :
          startDepth + 1 + remaining = startDepth + (remaining + 1) := by
        omega
      have levels :
          startDepth + (remaining + 1) - (startDepth + 1) = remaining := by
        omega
      rw [sameEnd] at below
      rw [List.range'_succ, List.map_cons, below, levels,
        subtreeRoot_eq_rootOf]
      simp only [pathFrom, SparseTree.Hash.siblings, length_pathFrom,
        below_contentFrom, filter_prefixMatchesExcept]

namespace SparseMerkleTree

/-- The siblings computed by the source are those of the content. -/
theorem computeSiblings_eq
    (tree : SparseMerkleTree hash)
    (target : Bytes32) :
    tree.computeSiblings target =
      hash.tree.siblings (smtPath target) tree.content := by
  have fromRoot :=
    map_siblings_from hash tree.leaves.entriesSorted target 0 smtDepth
  have allMatch :
      tree.leaves.entriesSorted.filter
          (fun entry => prefixMatchesExcept entry.1 target 0) =
        tree.leaves.entriesSorted :=
    List.filter_eq_self.mpr fun _ _ => rfl
  rw [allMatch, Nat.zero_add, ← List.range_eq_range'] at fromRoot
  exact fromRoot

end SparseMerkleTree

variable (hash) in
/-- One level of the proof check joins the child with its sibling. -/
theorem SmtProof.parent_eq
    (proof : SmtProof Digest)
    {depth : Nat}
    (inBounds : depth < proof.siblings.length)
    (current : Digest) :
    proof.parent hash depth current =
      if bitAt proof.key depth then
        hash.tree.join proof.siblings[depth] current
      else
        hash.tree.join current proof.siblings[depth] := by
  have siblingAt :
      proof.siblings.getD depth hash.emptyRoot = proof.siblings[depth] := by
    simp [inBounds]
  simp only [SmtProof.parent, SmtHash.join_tree, siblingAt]
  by_cases bothEmpty :
      current = hash.emptyRoot ∧ proof.siblings[depth] = hash.emptyRoot
  · simp [bothEmpty]
  · rw [if_neg bothEmpty, if_neg bothEmpty, if_neg (mt And.symm bothEmpty)]

variable (hash) in
/-- Folding the siblings of a proof is climbing along the path of its key. -/
theorem SmtProof.foldr_parent_eq_climb
    (proof : SmtProof Digest)
    (start : Digest)
    (startDepth remaining : Nat)
    (enough : startDepth + remaining = proof.siblings.length) :
    (List.range' startDepth remaining).foldr (proof.parent hash) start =
      hash.tree.climb (pathFrom proof.key startDepth remaining)
        (proof.siblings.drop startDepth) start := by
  induction remaining generalizing startDepth with
  | zero =>
      rfl
  | succ remaining inductionHypothesis =>
      have inBounds : startDepth < proof.siblings.length := by
        omega
      have above :=
        inductionHypothesis (startDepth + 1) (by omega)
      rw [List.range'_succ, List.foldr_cons, above,
        proof.parent_eq hash inBounds, List.drop_eq_getElem_cons inBounds]
      rfl

/-- A proof is accepted when its siblings lead from the empty leaf to the root. -/
theorem SmtProof.verify_iff
    {proof : SmtProof Digest}
    {root : Digest} :
    proof.verify hash root = true ↔
      proof.siblings.length = smtDepth ∧
        hash.tree.climb (smtPath proof.key) proof.siblings hash.emptyRoot =
          root := by
  unfold SmtProof.verify
  split
  · next wrongLength =>
      simp [wrongLength]
  · next rightLength =>
      have fullLength : proof.siblings.length = smtDepth :=
        not_not.mp rightLength
      have climbed :=
        proof.foldr_parent_eq_climb hash hash.emptyRoot 0 smtDepth
          (by omega)
      rw [List.range_eq_range', climbed, beq_iff_eq, List.drop_zero]
      exact ⟨fun reached => ⟨fullLength, reached⟩, fun both => both.2⟩

/-- The symbolic hashes are ideal. -/
theorem symbolicSmtHash_ideal : symbolicSmtHash.tree.Ideal where
  leaf_injective same := by
    simp only [SmtHash.tree, symbolicSmtHash, SymbolicDigest.leaf.injEq] at same
    exact Prod.ext same.1 same.2
  node_injective same := by
    simpa [SmtHash.tree, symbolicSmtHash] using same
  leaf_ne_empty _ := SymbolicDigest.noConfusion
  node_ne_empty _ _ := SymbolicDigest.noConfusion

/-- A smaller stored nullifier has the same first 32 bits. -/
def SmtLeaves.Shadowed (leaves : SmtLeaves) (nullifier : Bytes32) : Prop :=
  ∃ smaller ∈ leaves,
    smaller < nullifier ∧
      prefixMatchesExcept smaller nullifier smtDepth = true

namespace SparseMerkleTree

/-- A path without stored nullifiers is empty. -/
theorem content_eq_none_iff
    {tree : SparseMerkleTree hash}
    {path : List Bool} :
    tree.content path = none ↔
      ∀ stored ∈ tree.leaves, smtPath stored ≠ path := by
  simp only [content, contentFrom, List.find?_eq_none, beq_iff_eq,
    SmtLeaves.mem_entriesSorted, Prod.forall, Finmap.mem_iff]
  constructor
  · rintro noEntry stored ⟨epoch, found⟩
    exact noEntry stored epoch found
  · intro noStored stored epoch found
    exact noStored stored ⟨epoch, found⟩

/-- A path holds the entry of its smallest stored nullifier. -/
theorem content_eq_some_iff
    {tree : SparseMerkleTree hash}
    {path : List Bool}
    {entry : Bytes32 × UInt64} :
    tree.content path = some entry ↔
      tree.leaves.lookup entry.1 = some entry.2 ∧
        smtPath entry.1 = path ∧ ¬ tree.leaves.Shadowed entry.1 := by
  have ascending := tree.leaves.pairwise_entriesSorted
  simp only [content, contentFrom, List.find?_eq_some_iff_append, beq_iff_eq]
  constructor
  · rintro ⟨onPath, before, after, split, noneBefore⟩
    have listed : entry ∈ tree.leaves.entriesSorted := by
      simp [split]
    refine ⟨SmtLeaves.mem_entriesSorted.mp listed, onPath, ?_⟩
    rintro ⟨smaller, stored, isSmaller, samePrefix⟩
    have samePath := smtPath_eq_iff.mpr samePrefix
    obtain ⟨epoch, found⟩ := Finmap.mem_iff.mp stored
    have smallerListed : (smaller, epoch) ∈ before ++ entry :: after := by
      rw [← split]
      exact SmtLeaves.mem_entriesSorted.mpr found
    rw [split, List.pairwise_append, List.pairwise_cons] at ascending
    rcases List.mem_append.mp smallerListed with isBefore | isAfter
    · have offPath := noneBefore _ isBefore
      rw [← onPath] at offPath
      exact absurd samePath (by simpa [smtPath] using offPath)
    · rcases List.mem_cons.mp isAfter with isEntry | isLater
      · rw [← isEntry] at isSmaller
        exact lt_irrefl _ isSmaller
      · exact lt_asymm isSmaller (ascending.2.1.1 _ isLater)
  · rintro ⟨found, onPath, unshadowed⟩
    obtain ⟨before, after, split⟩ :=
      List.append_of_mem (SmtLeaves.mem_entriesSorted.mpr found)
    refine ⟨onPath, before, after, split, ?_⟩
    intro earlier isBefore
    rw [split, List.pairwise_append] at ascending
    have stored :
        tree.leaves.lookup earlier.1 = some earlier.2 := by
      rw [← SmtLeaves.mem_entriesSorted, split]
      exact List.mem_append_left _ isBefore
    have isSmaller := ascending.2.2 _ isBefore _ List.mem_cons_self
    simp only [Bool.not_eq_true', beq_eq_false_iff_ne]
    intro samePath
    exact
      unshadowed
        ⟨earlier.1, Finmap.mem_of_lookup_eq_some stored, isSmaller,
          smtPath_eq_iff.mp (samePath.trans onPath.symm)⟩

end SparseMerkleTree

end Hashing

end ScalarCore
