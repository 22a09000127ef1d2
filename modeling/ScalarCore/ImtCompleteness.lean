import ScalarCore.Imt
import ScalarCore.PerfectTree
import ScalarCore.Poseidon2Verifier

namespace ScalarCore

/-!
# Completeness of membership paths

The three folds of the tree -- `root`, `computeSiblings` and
`imtMembershipVerify` -- are compared with one perfect tree whose leaves are
the stored leaf hashes followed by empty markers.  The source folds lists that
shrink by half at each level; reading a level past its end gives the root of an
empty subtree, which is what makes the three folds agree.
-/

variable {Commitment Digest : Type}

namespace ImtHash

variable (hash : ImtHash Commitment Digest)

/-- The digest at every leaf position, empty beyond the stored leaves. -/
def paddedLeaf (leaves : List Digest) (index : Nat) : Digest :=
  leaves.getD index hash.emptyLeaf

/-- The list the source holds after folding a number of levels. -/
def levelAt (leaves : List Digest) (depth : Nat) : List Digest :=
  (List.range depth).foldl
    (fun level depth => hash.foldLevel depth level) leaves

theorem levelAt_succ
    (leaves : List Digest)
    (depth : Nat) :
    hash.levelAt leaves (depth + 1) =
      hash.foldLevel depth (hash.levelAt leaves depth) := by
  simp [levelAt, List.range_succ]

/-- Folding a level hashes neighbours, also where one or both are absent. -/
theorem foldLevel_getD
    (depth : Nat)
    (level : List Digest)
    (index : Nat) :
    (hash.foldLevel depth level).getD index
        (hash.emptySubtreeRoot (depth + 1)) =
      hash.hashNode
        (level.getD (2 * index) (hash.emptySubtreeRoot depth))
        (level.getD (2 * index + 1) (hash.emptySubtreeRoot depth)) := by
  induction level using foldLevel.induct generalizing index with
  | case1 =>
      simp [foldLevel, emptySubtreeRoot]
  | case2 left =>
      cases index with
      | zero =>
          simp [foldLevel]
      | succ index =>
          simp [foldLevel, emptySubtreeRoot, Nat.mul_succ]
  | case3 left right rest inductionHypothesis =>
      cases index with
      | zero =>
          simp [foldLevel]
      | succ index =>
          simpa [foldLevel, Nat.mul_succ] using inductionHypothesis index

/-- The folded lists hold the digests of the padded perfect tree. -/
theorem levelAt_getD
    (leaves : List Digest)
    (depth index : Nat) :
    (hash.levelAt leaves depth).getD index (hash.emptySubtreeRoot depth) =
      PerfectTree.nodeAt hash.hashNode (hash.paddedLeaf leaves)
        depth index := by
  induction depth generalizing index with
  | zero =>
      rfl
  | succ depth inductionHypothesis =>
      rw [levelAt_succ, foldLevel_getD, PerfectTree.nodeAt_succ,
        inductionHypothesis, inductionHypothesis]

end ImtHash

namespace IncrementalMerkleTree

variable (hash : ImtHash Commitment Digest)

/-- The root is the root of the padded perfect tree. -/
theorem root_eq_nodeAt
    (tree : IncrementalMerkleTree Digest) :
    tree.root hash =
      PerfectTree.nodeAt hash.hashNode (hash.paddedLeaf tree.leaves)
        imtDepth 0 := by
  rw [← hash.levelAt_getD]
  by_cases isEmpty : tree.count = 0
  · have noLeaves : tree.leaves = [] := by
      rw [← List.length_eq_zero_iff, ← tree.count_eq, isEmpty]
      rfl
    have levelsEmpty (depth : Nat) :
        hash.levelAt tree.leaves depth = [] := by
      induction depth with
      | zero =>
          exact noLeaves
      | succ depth inductionHypothesis =>
          rw [hash.levelAt_succ, inductionHypothesis, ImtHash.foldLevel]
    rw [root, if_pos isEmpty, levelsEmpty]
    rfl
  · rw [root, if_neg isEmpty]
    change (hash.levelAt tree.leaves imtDepth).headD hash.imtEmptyRoot = _
    cases hash.levelAt tree.leaves imtDepth <;> rfl

/--
Sibling `level` of a path is the digest next to the path at that height.  The
induction follows the loop.
-/
theorem computeSiblings_eq
    (tree : IncrementalMerkleTree Digest)
    (leafIndex : UInt64) :
    tree.computeSiblings hash leafIndex =
      (List.range imtDepth).map fun level =>
        PerfectTree.nodeAt hash.hashNode (hash.paddedLeaf tree.leaves)
          level ((leafIndex.toNat / 2 ^ level) ^^^ 1) := by
  have loopState (depth : Nat) :
      (List.range depth).foldl (siblingStep hash)
          ([], tree.leaves, leafIndex.toNat) =
        ((List.range depth).map fun level =>
            PerfectTree.nodeAt hash.hashNode (hash.paddedLeaf tree.leaves)
              level ((leafIndex.toNat / 2 ^ level) ^^^ 1),
          hash.levelAt tree.leaves depth,
          leafIndex.toNat / 2 ^ depth) := by
    induction depth with
    | zero =>
        simp [ImtHash.levelAt]
    | succ depth inductionHypothesis =>
        rw [List.range_succ, List.foldl_append, inductionHypothesis]
        simp only [List.foldl_cons, List.foldl_nil, siblingStep,
          List.map_append, List.map_cons, List.map_nil, ← hash.levelAt_getD,
          ← hash.levelAt_succ, Nat.div_div_eq_div_mul, ← Nat.pow_succ]
        congr 3
        rw [List.getD_eq_getElem?_getD]
        split
        · next inside =>
            rw [List.getElem?_eq_getElem inside]
            rfl
        · next outside =>
            rw [List.getElem?_eq_none (Nat.le_of_not_lt outside)]
            rfl
  rw [computeSiblings, loopState imtDepth]

/-- Every occupied position has a membership path. -/
theorem proveMembership_eq_ok
    {tree : IncrementalMerkleTree Digest}
    {leafIndex : UInt64}
    (occupied : leafIndex < tree.count) :
    tree.proveMembership hash leafIndex =
      .ok {
        siblings := tree.computeSiblings hash leafIndex
        leafIndex } := by
  have fullLength :
      (tree.computeSiblings hash leafIndex).length = imtDepth := by
    rw [computeSiblings_eq, List.length_map, List.length_range]
  have notBeyond : ¬ leafIndex ≥ tree.count :=
    UInt64.not_le.mpr occupied
  simp [proveMembership, ImtPath.new, notBeyond, fullLength]

end IncrementalMerkleTree

/-- The verifier's direction bit is the bit of the leaf index. -/
private theorem shifted_bit_eq_zero_iff
    (leafIndex : UInt64)
    {level : Nat}
    (inDepth : level < imtDepth) :
    (leafIndex >>> UInt64.ofNat level) &&& 1 = 0 ↔
      leafIndex.toNat.testBit level = false := by
  have shiftAmount : (UInt64.ofNat level).toNat % 64 = level := by
    unfold imtDepth at inDepth
    rw [UInt64.toNat_ofNat']
    omega
  rw [← UInt64.toNat_inj, UInt64.toNat_and, UInt64.toNat_shiftRight,
    shiftAmount, Nat.testBit_eq_decide_div_mod_eq,
    Nat.shiftRight_eq_div_pow]
  change _ &&& 1 = 0 ↔ _
  rw [Nat.and_one_is_mod, decide_eq_false_iff_not]
  omega

/-- The verifier's loop over the levels climbs them. -/
theorem foldl_siblings_eq_climb
    (hash : ImtHash Commitment Digest)
    (path : ImtPath Digest)
    (start : Digest)
    {height : Nat}
    (inDepth : height ≤ imtDepth) :
    (List.range height).foldl
        (fun current level =>
          let sibling := path.siblings.getD level hash.emptyLeaf
          let isRight := (path.leafIndex >>> UInt64.ofNat level) &&& 1
          if isRight = 0 then
            hash.hashNode current sibling
          else
            hash.hashNode sibling current)
        start =
      PerfectTree.climb hash.hashNode
        (fun level => path.siblings.getD level hash.emptyLeaf)
        path.leafIndex.toNat start height := by
  induction height with
  | zero =>
      rfl
  | succ height inductionHypothesis =>
      rw [List.range_succ, List.foldl_append,
        inductionHypothesis (Nat.le_of_succ_le inDepth)]
      simp only [List.foldl_cons, List.foldl_nil, PerfectTree.climb,
        shifted_bit_eq_zero_iff path.leafIndex inDepth]
      cases path.leafIndex.toNat.testBit height <;> rfl

/-- The verifier climbs the path of the leaf index. -/
theorem imtMembershipVerify_eq_climb
    [DecidableEq Digest]
    (hash : ImtHash Commitment Digest)
    (commitment : Commitment)
    {path : ImtPath Digest}
    {count : UInt64}
    (root : Digest)
    (belowCount : path.leafIndex < count)
    (fullLength : path.siblings.length = imtDepth) :
    imtMembershipVerify hash commitment path root count =
      decide
        (PerfectTree.climb hash.hashNode
            (fun level => path.siblings.getD level hash.emptyLeaf)
            path.leafIndex.toNat
            (hash.hashLeaf commitment path.leafIndex) imtDepth =
          root) := by
  have notBeyond : ¬ path.leafIndex ≥ count :=
    UInt64.not_le.mpr belowCount
  rw [imtMembershipVerify, if_neg notBeyond,
    if_neg (not_not_intro fullLength)]
  simp only [foldl_siblings_eq_climb hash path _ (Nat.le_refl imtDepth)]

namespace IncrementalMerkleTree

variable (hash : ImtHash Commitment Digest)

/-- Append commitments in order, stopping at the first error. -/
def appendAll
    (tree : IncrementalMerkleTree Digest) :
    List Commitment → Except ImtError (IncrementalMerkleTree Digest)
  | [] => .ok tree
  | commitment :: rest =>
      match tree.append hash commitment with
      | .error error => .error error
      | .ok (_, next) => appendAll next rest

/-- A tree holding exactly the leaf hashes of a list of commitments. -/
def Holds
    (tree : IncrementalMerkleTree Digest)
    (commitments : List Commitment) : Prop :=
  tree.leaves =
    commitments.mapIdx fun index commitment =>
      hash.hashLeaf commitment (UInt64.ofNat index)

/-- What one successful append does. -/
theorem append_holds
    {tree : IncrementalMerkleTree Digest}
    {commitments : List Commitment}
    (holds : tree.Holds hash commitments)
    (room : commitments.length < 2 ^ imtDepth)
    (commitment : Commitment) :
    ∃ next,
      tree.append hash commitment = .ok (tree.count, next) ∧
        next.Holds hash (commitments ++ [commitment]) := by
  have countIsLength : tree.count.toNat = commitments.length := by
    rw [tree.count_eq, holds, List.length_mapIdx]
  have notFull : ¬ tree.count ≥ (1 : UInt64) <<< 32 := by
    unfold imtDepth at room
    rw [ge_iff_le, UInt64.le_iff_toNat_le, countIsLength]
    simpa using room
  refine ⟨_, by rw [append, dif_neg notFull], ?_⟩
  have countAsIndex :
      UInt64.ofNat commitments.length = tree.count := by
    rw [← countIsLength, UInt64.ofNat_toNat]
  simp [Holds, List.mapIdx_append, ← holds.symm, countAsIndex]

/-- Appending to a tree within its capacity succeeds. -/
theorem appendAll_holds
    {tree : IncrementalMerkleTree Digest}
    {past : List Commitment}
    (holds : tree.Holds hash past)
    (commitments : List Commitment)
    (capacity : past.length + commitments.length ≤ 2 ^ imtDepth) :
    ∃ final,
      tree.appendAll hash commitments = .ok final ∧
        final.Holds hash (past ++ commitments) := by
  induction commitments generalizing tree past with
  | nil =>
      exact ⟨tree, rfl, by simpa using holds⟩
  | cons commitment rest inductionHypothesis =>
      rw [List.length_cons] at capacity
      obtain ⟨next, appended, nextHolds⟩ :=
        append_holds hash holds (by omega) commitment
      obtain ⟨final, restAppended, finalHolds⟩ :=
        inductionHypothesis nextHolds (by simp; omega)
      refine ⟨final, ?_, by simpa using finalHolds⟩
      rw [appendAll, appended]
      exact restAppended

/-- The assertions after a reset hold, so a reset tree is a genesis tree. -/
theorem reset_eq_some_new
    [DecidableEq Digest]
    (tree : IncrementalMerkleTree Digest) :
    tree.reset hash = some (new hash) := by
  simp [reset, new, root]

/-- Every leaf of a tree has a path that verifies against its root. -/
theorem membership_of_holds
    [DecidableEq Digest]
    {tree : IncrementalMerkleTree Digest}
    {commitments : List Commitment}
    (holds : tree.Holds hash commitments)
    (capacity : commitments.length ≤ 2 ^ imtDepth)
    {leafIndex : UInt64}
    {commitment : Commitment}
    (atIndex : commitments[leafIndex.toNat]? = some commitment) :
    ∃ path,
      tree.proveMembership hash leafIndex = .ok path ∧
        imtMembershipVerify hash commitment path
          (tree.root hash) tree.count = true := by
  have inCommitments : leafIndex.toNat < commitments.length :=
    (List.getElem?_eq_some_iff.mp atIndex).1
  have occupied : leafIndex < tree.count := by
    rw [UInt64.lt_iff_toNat_lt, tree.count_eq, holds, List.length_mapIdx]
    exact inCommitments
  refine ⟨_, proveMembership_eq_ok hash occupied, ?_⟩
  have leafHash :
      hash.hashLeaf commitment leafIndex =
        hash.paddedLeaf tree.leaves leafIndex.toNat := by
    rw [ImtHash.paddedLeaf, holds, List.getD_eq_getElem?_getD,
      List.getElem?_mapIdx, atIndex]
    simp
  have siblingAt
      (level : Nat)
      (inDepth : level < imtDepth) :
      (tree.computeSiblings hash leafIndex).getD level hash.emptyLeaf =
        PerfectTree.nodeAt hash.hashNode (hash.paddedLeaf tree.leaves)
          level ((leafIndex.toNat / 2 ^ level) ^^^ 1) := by
    rw [computeSiblings_eq, List.getD_eq_getElem?_getD, List.getElem?_map,
      List.getElem?_range inDepth]
    rfl
  have topPosition : leafIndex.toNat / 2 ^ imtDepth = 0 :=
    Nat.div_eq_of_lt (Nat.lt_of_lt_of_le inCommitments capacity)
  rw [imtMembershipVerify_eq_climb hash commitment _ occupied
    (by rw [computeSiblings_eq, List.length_map, List.length_range])]
  apply decide_eq_true
  calc _ = PerfectTree.climb hash.hashNode
          (fun level =>
            PerfectTree.nodeAt hash.hashNode (hash.paddedLeaf tree.leaves)
              level ((leafIndex.toNat / 2 ^ level) ^^^ 1))
          leafIndex.toNat
          (hash.paddedLeaf tree.leaves leafIndex.toNat) imtDepth := by
        rw [← leafHash]
        exact PerfectTree.climb_congr _ siblingAt _ _
    _ = PerfectTree.nodeAt hash.hashNode (hash.paddedLeaf tree.leaves)
          imtDepth (leafIndex.toNat / 2 ^ imtDepth) :=
        PerfectTree.climb_nodeAt ..
    _ = tree.root hash := by
        rw [topPosition, root_eq_nodeAt]

/--
Membership paths are complete: after appending any commitments within the
capacity to a new or reset tree, every leaf index has a path that verifies
against the current root and count.
-/
theorem proveMembership_complete
    [DecidableEq Digest]
    {start : IncrementalMerkleTree Digest}
    (fresh :
      start = new hash ∨
        ∃ prior : IncrementalMerkleTree Digest,
          prior.reset hash = some start)
    (commitments : List Commitment)
    (capacity : commitments.length ≤ 2 ^ 32) :
    ∃ tree,
      start.appendAll hash commitments = .ok tree ∧
        tree.count.toNat = commitments.length ∧
        ∀ (leafIndex : UInt64) (commitment : Commitment),
          commitments[leafIndex.toNat]? = some commitment →
          ∃ path,
            tree.proveMembership hash leafIndex = .ok path ∧
              imtMembershipVerify hash commitment path
                (tree.root hash) tree.count = true := by
  have startIsNew : start = new hash := by
    rcases fresh with isNew | ⟨prior, wasReset⟩
    · exact isNew
    · rw [reset_eq_some_new] at wasReset
      exact (Option.some.inj wasReset).symm
  have startHolds : start.Holds hash [] := by
    rw [startIsNew]
    rfl
  obtain ⟨tree, appended, holds⟩ :=
    appendAll_holds hash startHolds commitments
      (by simpa [imtDepth] using capacity)
  rw [List.nil_append] at holds
  refine ⟨tree, appended, ?_, fun leafIndex commitment atIndex => ?_⟩
  · rw [tree.count_eq, holds, List.length_mapIdx]
  · exact membership_of_holds hash holds capacity atIndex

/-- Three commitments, and the paths of each. -/
theorem proveMembership_complete_three :
    let hash := poseidonImtHash VerifierPy.t8Permutation
    let commitments : List Bytes32 := [.replicate 1, .replicate 2, .replicate 3]
    ∃ tree,
      (new hash).appendAll hash commitments = .ok tree ∧
        tree.count.toNat = commitments.length ∧
        ∀ (leafIndex : UInt64) (commitment : Bytes32),
          commitments[leafIndex.toNat]? = some commitment →
          ∃ path,
            tree.proveMembership hash leafIndex = .ok path ∧
              imtMembershipVerify hash commitment path
                (tree.root hash) tree.count = true :=
  proveMembership_complete _ (.inl rfl) _ (by decide)

end IncrementalMerkleTree

end ScalarCore
