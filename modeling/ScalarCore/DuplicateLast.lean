import Mathlib.Algebra.Ring.Nat
import Mathlib.Data.List.Basic
import Mathlib.Tactic.Common

namespace DuplicateLast

/-!
# Hash trees that duplicate the last node

A level of digests is hashed in pairs into the next one; the last digest of an
odd level is paired with itself.  The tree over the leaves is a perfect one
whose leaves are the given ones completed by copies.  Two lists of leaves have
one top exactly when their completions agree.

A sibling path is climbed from a leaf to the top; whatever reaches the top from
a leaf started at one of the tree's own leaves.
-/

variable {Digest : Type*}

section Levels

variable (node : Digest → Digest → Digest)

/-- The level above; a last digest without a partner is its own partner. -/
def nextLevel : List Digest → List Digest
  | [] => []
  | [last] => [node last last]
  | left :: right :: rest => node left right :: nextLevel rest

/-- A level above has half as many digests, rounded up. -/
theorem length_nextLevel (level : List Digest) :
    (nextLevel node level).length = (level.length + 1) / 2 := by
  induction level using nextLevel.induct with
  | case1 =>
      simp [nextLevel]
  | case2 last =>
      simp [nextLevel]
  | case3 left right rest inductionHypothesis =>
      rw [nextLevel, List.length_cons, inductionHypothesis, List.length_cons,
        List.length_cons]
      omega

/-- The digest that is left after hashing level by level. -/
def top (level : List Digest) : Option Digest :=
  if 1 < level.length then
    top (nextLevel node level)
  else
    level.head?
termination_by level.length
decreasing_by
  rw [length_nextLevel]
  omega

/-- The siblings of a position, level by level, with whether each is right. -/
def path (level : List Digest) (index : Nat) : List (Digest × Bool) :=
  if 1 < level.length then
    let sibling :=
      if index % 2 = 0 then
        (if index + 1 < level.length then index + 1 else index, true)
      else
        (index - 1, false)
    match level[sibling.1]? with
    | some digest =>
        (digest, sibling.2) :: path (nextLevel node level) (index / 2)
    | none => []
  else
    []
termination_by level.length
decreasing_by
  rw [length_nextLevel]
  omega

/-- Hash a digest with a sibling. -/
def climbStep (current : Digest) (sibling : Digest × Bool) : Digest :=
  if sibling.2 then
    node current sibling.1
  else
    node sibling.1 current

/-- Hash a digest with its siblings from the leaf on. -/
def climb (start : Digest) (siblings : List (Digest × Bool)) : Digest :=
  siblings.foldl (climbStep node) start

variable {node}

/-- What is on the level above is the hash of two digests of the level. -/
theorem exists_of_mem_nextLevel
    {level : List Digest}
    {digest : Digest}
    (listed : digest ∈ nextLevel node level) :
    ∃ left ∈ level, ∃ right ∈ level, node left right = digest := by
  induction level using nextLevel.induct with
  | case1 =>
      cases listed
  | case2 last =>
      rw [nextLevel, List.mem_singleton] at listed
      exact
        ⟨last, List.mem_singleton_self _, last, List.mem_singleton_self _,
          listed.symm⟩
  | case3 left right rest inductionHypothesis =>
      rw [nextLevel, List.mem_cons] at listed
      rcases listed with rfl | isLater
      · exact
          ⟨left, List.mem_cons_self, right,
            List.mem_cons_of_mem _ List.mem_cons_self, rfl⟩
      · obtain ⟨left', isLeft, right', isRight, same⟩ :=
          inductionHypothesis isLater
        exact
          ⟨left', List.mem_cons_of_mem _ (List.mem_cons_of_mem _ isLeft),
            right', List.mem_cons_of_mem _ (List.mem_cons_of_mem _ isRight),
            same⟩

/-- A property of levels that is kept from level to level holds of the last. -/
theorem top_invariant
    {holds : List Digest → Prop}
    (kept : ∀ level, holds level → holds (nextLevel node level))
    {level : List Digest}
    (initially : holds level)
    (nonempty : level ≠ []) :
    ∃ last, top node level = some last ∧ holds [last] := by
  fun_induction top node level with
  | case1 level _ inductionHypothesis =>
      refine inductionHypothesis (kept level initially) ?_
      rw [← List.length_pos_iff, length_nextLevel]
      omega
  | case2 level single =>
      have positive := List.length_pos_iff.mpr nonempty
      have isOne : level.length = 1 := by omega
      obtain ⟨last, rfl⟩ := List.length_eq_one_iff.mp isOne
      exact ⟨last, rfl, initially⟩

/-- A map that respects the hash respects the levels. -/
theorem nextLevel_map
    {Digest' : Type*}
    {node' : Digest' → Digest' → Digest'}
    {function : Digest → Digest'}
    (respects : ∀ left right,
      function (node left right) = node' (function left) (function right))
    (level : List Digest) :
    nextLevel node' (level.map function) =
      (nextLevel node level).map function := by
  induction level using nextLevel.induct with
  | case1 =>
      rfl
  | case2 last =>
      rw [nextLevel, List.map_singleton, List.map_singleton, nextLevel,
        respects]
  | case3 left right rest inductionHypothesis =>
      rw [nextLevel, List.map_cons, List.map_cons, List.map_cons, nextLevel,
        inductionHypothesis, respects]

/-- A map that respects the hash respects the top. -/
theorem top_map
    {Digest' : Type*}
    {node' : Digest' → Digest' → Digest'}
    {function : Digest → Digest'}
    (respects : ∀ left right,
      function (node left right) = node' (function left) (function right))
    (level : List Digest) :
    top node' (level.map function) = (top node level).map function := by
  fun_induction top node level with
  | case1 level several inductionHypothesis =>
      rw [top, List.length_map, if_pos several, nextLevel_map respects,
        inductionHypothesis]
  | case2 level single =>
      rw [top, List.length_map, if_neg single, List.head?_map]

/-!
## Paths
-/

theorem climb_concat
    (start : Digest)
    (siblings : List (Digest × Bool))
    (last : Digest × Bool) :
    climb node start (siblings ++ [last]) =
      climbStep node (climb node start siblings) last :=
  List.foldl_concat _ _ _ _

/-- The level above at the parent of a left position. -/
theorem nextLevel_getElem?_even
    {level : List Digest}
    {index : Nat}
    {digest : Digest}
    (found : level[2 * index]? = some digest) :
    (nextLevel node level)[index]? =
      some (node digest (level[2 * index + 1]?.getD digest)) := by
  induction level using nextLevel.induct generalizing index with
  | case1 =>
      cases found
  | case2 last =>
      cases index with
      | zero =>
          cases found
          rfl
      | succ index =>
          cases found
  | case3 left right rest inductionHypothesis =>
      cases index with
      | zero =>
          cases found
          rfl
      | succ index =>
          exact inductionHypothesis found

/-- The level above at the parent of a right position. -/
theorem nextLevel_getElem?_odd
    {level : List Digest}
    {index : Nat}
    {left right : Digest}
    (foundLeft : level[2 * index]? = some left)
    (foundRight : level[2 * index + 1]? = some right) :
    (nextLevel node level)[index]? = some (node left right) := by
  rw [nextLevel_getElem?_even foundLeft, foundRight, Option.getD_some]

/-- The path of a position leads from its digest to the top. -/
theorem top_eq_climb_path
    {level : List Digest}
    {index : Nat}
    {digest : Digest}
    (found : level[index]? = some digest) :
    top node level = some (climb node digest (path node level index)) := by
  fun_induction top node level generalizing index digest with
  | case1 level several inductionHypothesis =>
      have inLevel : index < level.length :=
        (List.getElem?_eq_some_iff.mp found).1
      rw [path, if_pos several]
      dsimp only
      rcases Nat.mod_two_eq_zero_or_one index with even | odd
      · rw [if_pos even]
        have half : index = 2 * (index / 2) := by omega
        rw [half] at found
        have above :
            (nextLevel node level)[index / 2]? =
              some (node digest (level[2 * (index / 2) + 1]?.getD digest)) :=
          nextLevel_getElem?_even found
        rw [← half] at above
        by_cases hasRight : index + 1 < level.length
        · rw [if_pos hasRight, List.getElem?_eq_getElem hasRight]
          rw [List.getElem?_eq_getElem hasRight, Option.getD_some] at above
          exact inductionHypothesis above
        · rw [if_neg hasRight]
          rw [← half] at found
          rw [List.getElem?_eq_none (Nat.le_of_not_lt hasRight),
            Option.getD_none] at above
          rw [found]
          exact inductionHypothesis above
      · have oddIndex : index % 2 ≠ 0 := by omega
        have half : index - 1 = 2 * (index / 2) := by omega
        have half' : index = 2 * (index / 2) + 1 := by omega
        have leftInLevel : index - 1 < level.length := by omega
        have foundLeft :
            level[index - 1]? = some level[index - 1] :=
          List.getElem?_eq_getElem leftInLevel
        rw [if_neg oddIndex, foundLeft]
        apply inductionHypothesis
        apply nextLevel_getElem?_odd
        · rw [← half, foundLeft]
        · rw [← half', found]
  | case2 level single =>
      rw [path, if_neg single]
      have isFirst : index = 0 := by
        have inLevel := (List.getElem?_eq_some_iff.mp found).1
        omega
      subst isFirst
      rw [List.head?_eq_getElem?, found]
      rfl

/--
What reaches the top from a leaf started at a leaf of the tree, if hashes of
different pairs differ and no leaf is a hash.
-/
theorem mem_of_climb_eq_top
    {isLeaf : Digest → Prop}
    (injective : ∀ left right left' right',
      node left right = node left' right' → left = left' ∧ right = right')
    (separate : ∀ left right, ¬ isLeaf (node left right))
    {leaves : List Digest}
    (areLeaves : ∀ leaf ∈ leaves, isLeaf leaf)
    {start : Digest}
    (startIsLeaf : isLeaf start)
    {siblings : List (Digest × Bool)}
    (reached : top node leaves = some (climb node start siblings)) :
    start ∈ leaves := by
  -- whatever of a level is reached from the leaf, the leaf is in the tree
  let sound (level : List Digest) : Prop :=
    ∀ siblings, climb node start siblings ∈ level → start ∈ leaves
  have soundLeaves : sound leaves := by
    intro siblings isReached
    rcases siblings.eq_nil_or_concat with rfl | ⟨earlier, last, rfl⟩
    · exact isReached
    · have isLeafHash := areLeaves _ isReached
      rw [List.concat_eq_append, climb_concat, climbStep] at isLeafHash
      split at isLeafHash
      · exact absurd isLeafHash (separate _ _)
      · exact absurd isLeafHash (separate _ _)
  have kept (level : List Digest) (soundBelow : sound level) :
      sound (nextLevel node level) := by
    intro siblings isReached
    obtain ⟨left, isLeft, right, isRight, same⟩ :=
      exists_of_mem_nextLevel isReached
    rcases siblings.eq_nil_or_concat with rfl | ⟨earlier, last, rfl⟩
    · have isHash : node left right = start := same
      exact absurd (isHash ▸ startIsLeaf) (separate left right)
    · rw [List.concat_eq_append, climb_concat, climbStep] at same
      split at same
      · exact soundBelow earlier ((injective _ _ _ _ same).1 ▸ isLeft)
      · exact soundBelow earlier ((injective _ _ _ _ same).2 ▸ isRight)
  have nonempty : leaves ≠ [] := by
    rintro rfl
    rw [top] at reached
    cases reached
  obtain ⟨last, isTop, soundTop⟩ := top_invariant kept soundLeaves nonempty
  rw [reached, Option.some.injEq] at isTop
  exact soundTop siblings (List.mem_singleton.mpr isTop)

end Levels

/-!
## The tree and its completed leaves
-/

/-- A binary tree with values at its leaves. -/
inductive HashTree (Leaf : Type*) where
  | leaf (value : Leaf)
  | node (left right : HashTree Leaf)
  deriving DecidableEq

variable {Leaf : Type*}

namespace HashTree

/-- The values at the leaves from left to right. -/
def leaves : HashTree Leaf → List Leaf
  | leaf value => [value]
  | node left right => left.leaves ++ right.leaves

/-- The hash of a tree. -/
def digest (hashLeaf : Leaf → Digest) (hashNode : Digest → Digest → Digest) :
    HashTree Leaf → Digest
  | leaf value => hashLeaf value
  | node left right =>
      hashNode (left.digest hashLeaf hashNode) (right.digest hashLeaf hashNode)

/-- All leaves of the tree are at one height. -/
inductive IsPerfect : Nat → HashTree Leaf → Prop where
  | leaf (value : Leaf) : IsPerfect 0 (leaf value)
  | node
      {height : Nat}
      {left right : HashTree Leaf}
      (leftPerfect : IsPerfect height left)
      (rightPerfect : IsPerfect height right) :
      IsPerfect (height + 1) (node left right)

/-- A perfect tree has a power of two leaves. -/
theorem IsPerfect.length_leaves
    {height : Nat}
    {tree : HashTree Leaf}
    (perfect : IsPerfect height tree) :
    tree.leaves.length = 2 ^ height := by
  induction perfect with
  | leaf value =>
      rfl
  | node leftPerfect rightPerfect leftHypothesis rightHypothesis =>
      rw [leaves, List.length_append, leftHypothesis, rightHypothesis,
        Nat.pow_succ, Nat.mul_two]

/-- A perfect tree is determined by its leaves. -/
theorem IsPerfect.eq_of_leaves
    {height height' : Nat}
    {tree tree' : HashTree Leaf}
    (perfect : IsPerfect height tree)
    (perfect' : IsPerfect height' tree')
    (sameLeaves : tree.leaves = tree'.leaves) :
    tree = tree' := by
  have sameLength := congrArg List.length sameLeaves
  rw [perfect.length_leaves, perfect'.length_leaves] at sameLength
  have sameHeight : height = height' :=
    (Nat.pow_right_inj Nat.one_lt_two).mp sameLength
  subst sameHeight
  clear sameLength
  induction perfect generalizing tree' with
  | leaf value =>
      cases perfect'
      rw [leaves, leaves, List.singleton_inj] at sameLeaves
      rw [sameLeaves]
  | node leftPerfect rightPerfect leftHypothesis rightHypothesis =>
      cases perfect' with
      | node leftPerfect' rightPerfect' =>
          rw [leaves, leaves] at sameLeaves
          obtain ⟨sameLeft, sameRight⟩ :=
            List.append_inj sameLeaves
              (leftPerfect.length_leaves.trans
                leftPerfect'.length_leaves.symm)
          rw [leftHypothesis sameLeft leftPerfect',
            rightHypothesis sameRight rightPerfect']

/-- Trees of one hash are one tree, if the hash tells everything apart. -/
theorem digest_injective
    {hashLeaf : Leaf → Digest}
    {hashNode : Digest → Digest → Digest}
    (leafInjective : Function.Injective hashLeaf)
    (nodeInjective : ∀ left right left' right',
      hashNode left right = hashNode left' right' →
        left = left' ∧ right = right')
    (separate : ∀ value left right, hashLeaf value ≠ hashNode left right) :
    Function.Injective (digest hashLeaf hashNode) := by
  intro tree
  induction tree with
  | leaf value =>
      intro tree' same
      cases tree' with
      | leaf value' =>
          rw [leafInjective same]
      | node left' right' =>
          exact absurd same (separate _ _ _)
  | node left right leftHypothesis rightHypothesis =>
      intro tree' same
      cases tree' with
      | leaf value' =>
          exact absurd same.symm (separate _ _ _)
      | node left' right' =>
          obtain ⟨sameLeft, sameRight⟩ := nodeInjective _ _ _ _ same
          rw [leftHypothesis sameLeft, rightHypothesis sameRight]

end HashTree

/-- The tree over values, if there are any. -/
def treeOf (values : List Leaf) : Option (HashTree Leaf) :=
  top HashTree.node (values.map HashTree.leaf)

/-- The values completed by copies to the leaves of a perfect tree. -/
def completion (values : List Leaf) : List Leaf :=
  (top (· ++ ·) (values.map ([·]))).getD []

variable {values first second : List Leaf}

/-- The top of the hashed leaves is the hash of the tree. -/
theorem top_map_leaf
    (hashLeaf : Leaf → Digest)
    (hashNode : Digest → Digest → Digest)
    (values : List Leaf) :
    top hashNode (values.map hashLeaf) =
      (treeOf values).map (HashTree.digest hashLeaf hashNode) := by
  rw [treeOf, ← top_map (fun _ _ => rfl), List.map_map]
  rfl

/-- The completed values are the leaves of the tree. -/
theorem completion_eq_leaves
    {tree : HashTree Leaf}
    (isTree : treeOf values = some tree) :
    completion values = tree.leaves := by
  have mapped :
      top (· ++ ·) (values.map ([·])) = (treeOf values).map HashTree.leaves := by
    rw [treeOf, ← top_map (fun _ _ => rfl), List.map_map]
    rfl
  rw [completion, mapped, isTree, Option.map_some, Option.getD_some]

/-- On the level above, perfect trees are one higher. -/
theorem perfect_nextLevel
    (level : List (HashTree Leaf))
    (perfect : ∃ height, ∀ tree ∈ level, tree.IsPerfect height) :
    ∃ height,
      ∀ tree ∈ nextLevel HashTree.node level, tree.IsPerfect height := by
  obtain ⟨height, perfect⟩ := perfect
  refine ⟨height + 1, ?_⟩
  intro tree listed
  obtain ⟨left, isLeft, right, isRight, rfl⟩ := exists_of_mem_nextLevel listed
  exact .node (perfect left isLeft) (perfect right isRight)

/-- Values have a tree, and it is perfect. -/
theorem exists_treeOf (nonempty : values ≠ []) :
    ∃ tree height, treeOf values = some tree ∧ tree.IsPerfect height := by
  have leavesPerfect :
      ∃ height,
        ∀ tree ∈ values.map HashTree.leaf, tree.IsPerfect height := by
    refine ⟨0, ?_⟩
    intro tree listed
    obtain ⟨value, _, rfl⟩ := List.mem_map.mp listed
    exact .leaf value
  obtain ⟨tree, isTree, height, perfect⟩ :=
    top_invariant perfect_nextLevel leavesPerfect
      (List.map_eq_nil_iff.not.mpr nonempty)
  exact ⟨tree, height, isTree, perfect tree (List.mem_singleton_self tree)⟩

/-- A level of lists is extended at its end, by what it lists already. -/
theorem flatten_nextLevel (level : List (List Leaf)) :
    level.flatten <+: (nextLevel (· ++ ·) level).flatten ∧
      ∀ value ∈ (nextLevel (· ++ ·) level).flatten,
        value ∈ level.flatten := by
  induction level using nextLevel.induct with
  | case1 =>
      exact ⟨List.prefix_rfl, fun _ listed => listed⟩
  | case2 last =>
      simp [nextLevel]
  | case3 left right rest inductionHypothesis =>
      obtain ⟨extended, known⟩ := inductionHypothesis
      rw [nextLevel, List.flatten_cons, List.flatten_cons, List.flatten_cons,
        ← List.append_assoc]
      refine ⟨(List.prefix_append_right_inj _).mpr extended, ?_⟩
      intro value listed
      rw [List.mem_append] at listed ⊢
      exact listed.imp_right (known value)

/-- The completion extends the values at their end, by values of theirs. -/
theorem completion_spec (values : List Leaf) :
    values <+: completion values ∧
      ∀ value ∈ completion values, value ∈ values := by
  by_cases nonempty : values = []
  · subst nonempty
    have nothing : completion ([] : List Leaf) = [] := by
      simp [completion, top]
    rw [nothing]
    exact ⟨List.prefix_rfl, fun _ listed => listed⟩
  · have kept (level : List (List Leaf))
        (covering :
          values <+: level.flatten ∧
            ∀ value ∈ level.flatten, value ∈ values) :
        values <+: (nextLevel (· ++ ·) level).flatten ∧
          ∀ value ∈ (nextLevel (· ++ ·) level).flatten, value ∈ values := by
      obtain ⟨extended, known⟩ := flatten_nextLevel level
      exact
        ⟨covering.1.trans extended,
          fun value listed => covering.2 value (known value listed)⟩
    have initially :
        values <+: (values.map ([·])).flatten ∧
          ∀ value ∈ (values.map ([·])).flatten, value ∈ values := by
      rw [← List.flatMap_def, List.flatMap_singleton']
      exact ⟨List.prefix_rfl, fun _ listed => listed⟩
    obtain ⟨last, isTop, extended, known⟩ :=
      top_invariant kept initially (List.map_eq_nil_iff.not.mpr nonempty)
    have isLast : completion values = last := by
      rw [completion, isTop, Option.getD_some]
    rw [List.flatten_singleton] at extended known
    rw [isLast]
    exact ⟨extended, known⟩

/-- Values that are completed alike and as many are the same. -/
theorem eq_of_completion_of_length
    (sameCompletion : completion first = completion second)
    (sameLength : first.length = second.length) :
    first = second := by
  have isPrefix := (completion_spec first).1
  rw [sameCompletion] at isPrefix
  exact
    (List.prefix_of_prefix_length_le isPrefix (completion_spec second).1
      (Nat.le_of_eq sameLength)).eq_of_length sameLength

/-- A prefix of unrepeated values that lists all of them is the whole. -/
private theorem eq_of_prefix_of_nodup
    (distinct : second.Nodup)
    (isPrefix : first <+: second)
    (known : ∀ value ∈ second, value ∈ first) :
    first = second := by
  obtain ⟨rest, rfl⟩ := isPrefix
  cases rest with
  | nil =>
      exact (List.append_nil first).symm
  | cons value rest =>
      have listed := known value (by simp)
      exact
        absurd rfl
          ((List.nodup_append.mp distinct).2.2 value listed value
            List.mem_cons_self)

/-- Values that are completed alike and not repeated are the same. -/
theorem eq_of_completion_of_nodup
    (sameCompletion : completion first = completion second)
    (firstDistinct : first.Nodup)
    (secondDistinct : second.Nodup) :
    first = second := by
  obtain ⟨firstPrefix, firstKnown⟩ := completion_spec first
  obtain ⟨secondPrefix, secondKnown⟩ := completion_spec second
  rw [sameCompletion] at firstPrefix firstKnown
  rcases Nat.le_total first.length second.length with shorter | longer
  · exact
      eq_of_prefix_of_nodup secondDistinct
        (List.prefix_of_prefix_length_le firstPrefix secondPrefix shorter)
        (fun value listed => firstKnown value (secondPrefix.subset listed))
  · exact
      (eq_of_prefix_of_nodup firstDistinct
        (List.prefix_of_prefix_length_le secondPrefix firstPrefix longer)
        (fun value listed =>
          secondKnown value (firstPrefix.subset listed))).symm

/-- Hashed lists have one top exactly when their completions agree. -/
theorem top_eq_iff_completion
    {hashLeaf : Leaf → Digest}
    {hashNode : Digest → Digest → Digest}
    (leafInjective : Function.Injective hashLeaf)
    (nodeInjective : ∀ left right left' right',
      hashNode left right = hashNode left' right' →
        left = left' ∧ right = right')
    (separate : ∀ value left right, hashLeaf value ≠ hashNode left right)
    (firstNonempty : first ≠ [])
    (secondNonempty : second ≠ []) :
    top hashNode (first.map hashLeaf) = top hashNode (second.map hashLeaf) ↔
      completion first = completion second := by
  obtain ⟨tree, height, isTree, perfect⟩ := exists_treeOf firstNonempty
  obtain ⟨tree', height', isTree', perfect'⟩ := exists_treeOf secondNonempty
  rw [top_map_leaf, top_map_leaf, isTree, isTree', Option.map_some,
    Option.map_some, Option.some.injEq, completion_eq_leaves isTree,
    completion_eq_leaves isTree',
    (HashTree.digest_injective leafInjective nodeInjective separate).eq_iff]
  exact ⟨congrArg HashTree.leaves, perfect.eq_of_leaves perfect'⟩

end DuplicateLast
