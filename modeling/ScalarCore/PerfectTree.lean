import Mathlib.Data.Nat.Bitwise
import Mathlib.Tactic.Ring

namespace PerfectTree

/-!
# Perfect binary hash trees

The complete binary tree over an assignment of digests to all leaf positions,
for an arbitrary node hash.  Positions are numbered from 0 at every height, so
the children of position `index` are `2 * index` and `2 * index + 1`.
-/

variable {Digest : Type*} (node : Digest → Digest → Digest)

/-- Digest of the subtree of a given height at a given position. -/
def nodeAt (leafAt : Nat → Digest) : Nat → Nat → Digest
  | 0, index => leafAt index
  | height + 1, index =>
      node (nodeAt leafAt height (2 * index))
        (nodeAt leafAt height (2 * index + 1))

/-- Hash a digest upwards along the path selected by the bits of `index`. -/
def climb
    (siblings : Nat → Digest)
    (index : Nat)
    (start : Digest) :
    Nat → Digest
  | 0 => start
  | height + 1 =>
      let current := climb siblings index start height
      if index.testBit height then
        node (siblings height) current
      else
        node current (siblings height)

@[simp] theorem nodeAt_zero
    (leafAt : Nat → Digest)
    (index : Nat) :
    nodeAt node leafAt 0 index = leafAt index :=
  rfl

theorem nodeAt_succ
    (leafAt : Nat → Digest)
    (height index : Nat) :
    nodeAt node leafAt (height + 1) index =
      node (nodeAt node leafAt height (2 * index))
        (nodeAt node leafAt height (2 * index + 1)) :=
  rfl

/-- Climbing reads only the siblings below its height. -/
theorem climb_congr
    {first second : Nat → Digest}
    {height : Nat}
    (same : ∀ level, level < height → first level = second level)
    (index : Nat)
    (start : Digest) :
    climb node first index start height =
      climb node second index start height := by
  induction height with
  | zero =>
      rfl
  | succ height inductionHypothesis =>
      have below :=
        inductionHypothesis fun level inside =>
          same level (Nat.lt_succ_of_lt inside)
      simp only [climb, below, same height (Nat.lt_succ_self height)]

/-- The parent of the position reached after `height` steps. -/
private theorem div_pow_succ
    (index height : Nat) :
    index / 2 ^ (height + 1) = index / 2 ^ height / 2 := by
  rw [Nat.div_div_eq_div_mul, Nat.pow_succ]

private theorem testBit_eq_odd
    (index height : Nat) :
    index.testBit height = decide (index / 2 ^ height % 2 = 1) := by
  rw [Nat.testBit_eq_decide_div_mod_eq]

/--
Climbing from a leaf with the sibling found at each height reaches the digests
of the tree on the leaf's path.
-/
theorem climb_nodeAt
    (leafAt : Nat → Digest)
    (index height : Nat) :
    climb node
        (fun level =>
          nodeAt node leafAt level ((index / 2 ^ level) ^^^ 1))
        index (leafAt index) height =
      nodeAt node leafAt height (index / 2 ^ height) := by
  induction height with
  | zero =>
      simp [climb]
  | succ height inductionHypothesis =>
      simp only [climb, inductionHypothesis, testBit_eq_odd,
        decide_eq_true_eq, div_pow_succ, nodeAt_succ]
      generalize index / 2 ^ height = position
      split
      · next isOdd =>
          have sibling : position ^^^ 1 = 2 * (position / 2) := by
            rw [Nat.xor_one_of_odd (Nat.odd_iff.mpr isOdd)]
            omega
          have self : position = 2 * (position / 2) + 1 := by
            omega
          rw [sibling, ← self]
      · next notOdd =>
          have isEven : position % 2 = 0 := by
            omega
          have sibling : position ^^^ 1 = 2 * (position / 2) + 1 := by
            rw [Nat.xor_one_of_even (Nat.even_iff.mpr isEven)]
            omega
          have self : position = 2 * (position / 2) := by
            omega
          rw [sibling, ← self]

/-!
## Walks along a list of siblings

A walk reads the side of each step from the lowest bit of what is left of the
index.  If hashes of different pairs differ, a walk that arrives at a node of the
tree has come from the node below it, past that node's own siblings.
-/

/-- Hash a digest upwards past the siblings, along the bits of `index`. -/
def walk (index : Nat) (start : Digest) : List Digest → Digest
  | [] => start
  | sibling :: rest =>
      walk (index / 2)
        (if index % 2 = 0 then node start sibling else node sibling start) rest

/-- The siblings met on `count` steps upwards from a position. -/
def pathFrom (leafAt : Nat → Digest) : Nat → Nat → Nat → List Digest
  | _, _, 0 => []
  | height, index, count + 1 =>
      nodeAt node leafAt height (index ^^^ 1) ::
        pathFrom leafAt (height + 1) (index / 2) count

@[simp] theorem length_pathFrom
    (leafAt : Nat → Digest)
    (height index count : Nat) :
    (pathFrom node leafAt height index count).length = count := by
  induction count generalizing height index with
  | zero =>
      rfl
  | succ count inductionHypothesis =>
      rw [pathFrom, List.length_cons, inductionHypothesis]

/-- Past the siblings of a node a walk stays in the tree. -/
theorem walk_pathFrom
    (leafAt : Nat → Digest)
    (height index count : Nat) :
    walk node index (nodeAt node leafAt height index)
        (pathFrom node leafAt height index count) =
      nodeAt node leafAt (height + count) (index / 2 ^ count) := by
  induction count generalizing height index with
  | zero =>
      rw [pathFrom, walk, Nat.add_zero, pow_zero, Nat.div_one]
  | succ count inductionHypothesis =>
      have parent :
          (if index % 2 = 0 then
              node (nodeAt node leafAt height index) (nodeAt node leafAt height (index ^^^ 1))
            else
              node (nodeAt node leafAt height (index ^^^ 1)) (nodeAt node leafAt height index)) =
            nodeAt node leafAt (height + 1) (index / 2) := by
        rw [nodeAt_succ]
        split
        · next isEven =>
            rw [Nat.xor_one_of_even (Nat.even_iff.mpr isEven)]
            congr 2 <;> omega
        · next isOdd =>
            rw [Nat.xor_one_of_odd (Nat.odd_iff.mpr (by omega))]
            congr 2 <;> omega
      rw [pathFrom, walk, parent, inductionHypothesis, Nat.div_div_eq_div_mul, Nat.pow_succ']
      congr 1
      omega

theorem walk_append
    (index : Nat)
    (start : Digest)
    (first second : List Digest) :
    walk node index start (first ++ second) =
      walk node (index / 2 ^ first.length) (walk node index start first) second := by
  induction first generalizing index start with
  | nil =>
      rw [List.nil_append, List.length_nil, pow_zero, Nat.div_one, walk]
  | cons sibling rest inductionHypothesis =>
      rw [List.cons_append, walk, inductionHypothesis, walk, List.length_cons,
        Nat.div_div_eq_div_mul, Nat.pow_succ']

variable {node} in
/-- The induction follows the walk; each step comes from one half of a parent. -/
theorem walk_eq_nodeAt_iff
    (injective : ∀ left right left' right',
      node left right = node left' right' → left = left' ∧ right = right')
    (leafAt : Nat → Digest)
    (height index top : Nat)
    (start : Digest)
    (siblings : List Digest) :
    walk node index start siblings = nodeAt node leafAt (height + siblings.length) top ↔
      start =
          nodeAt node leafAt height
            (2 ^ siblings.length * top + index % 2 ^ siblings.length) ∧
        siblings =
          pathFrom node leafAt height
            (2 ^ siblings.length * top + index % 2 ^ siblings.length) siblings.length := by
  induction siblings generalizing height index start with
  | nil =>
      simp [walk, pathFrom, Nat.mod_one]
  | cons sibling rest inductionHypothesis =>
      have levels : height + (rest.length + 1) = height + 1 + rest.length := by
        omega
      rw [walk, List.length_cons, levels, inductionHypothesis]
      have parity :
          index % 2 ^ (rest.length + 1) = 2 * (index / 2 % 2 ^ rest.length) + index % 2 := by
        rw [Nat.pow_succ', Nat.mod_mul, Nat.add_comm]
      generalize above : 2 ^ rest.length * top + index / 2 % 2 ^ rest.length = parent
      have position :
          2 ^ (rest.length + 1) * top + index % 2 ^ (rest.length + 1) = 2 * parent + index % 2 := by
        rw [parity, ← above]
        ring
      have parentOf : (2 * parent + index % 2) / 2 = parent := by
        omega
      rw [position, pathFrom, List.cons.injEq, nodeAt_succ, parentOf, ← and_assoc]
      refine and_congr_left fun _ => ?_
      rcases Nat.mod_two_eq_zero_or_one index with isEven | isOdd
      · have sibling : (2 * parent + 0) ^^^ 1 = 2 * parent + 1 :=
          Nat.xor_one_of_even (even_two_mul parent)
        rw [if_pos isEven, isEven, sibling]
        simp only [Nat.add_zero]
        exact ⟨injective _ _ _ _, fun ⟨left, right⟩ => by rw [left, right]⟩
      · have sibling : (2 * parent + 1) ^^^ 1 = 2 * parent := by
          rw [Nat.xor_one_of_odd (odd_two_mul_add_one parent), Nat.add_sub_cancel]
        rw [if_neg (by omega), isOdd, sibling, and_comm]
        exact ⟨injective _ _ _ _, fun ⟨left, right⟩ => by rw [left, right]⟩

/-- A walk of one step or more ends in a hash. -/
theorem exists_walk_eq_node
    (index : Nat)
    (start : Digest)
    {siblings : List Digest}
    (nonempty : siblings ≠ []) :
    ∃ left right, walk node index start siblings = node left right := by
  obtain ⟨earlier, last, rfl⟩ := (List.eq_nil_or_concat siblings).resolve_left nonempty
  rw [List.concat_eq_append, walk_append, walk, walk]
  split
  · exact ⟨_, _, rfl⟩
  · exact ⟨_, _, rfl⟩

variable {node} in
/--
If no leaf is a hash, a walk to the root of the tree started at a node of it, as
many levels below the root as there are siblings.
-/
theorem walk_eq_root_iff
    (injective : ∀ left right left' right',
      node left right = node left' right' → left = left' ∧ right = right')
    {leafAt : Nat → Digest}
    {height : Nat}
    (apart : ∀ index, index < 2 ^ height → ∀ left right, leafAt index ≠ node left right)
    {index : Nat}
    {start : Digest}
    {siblings : List Digest} :
    walk node index start siblings = nodeAt node leafAt height 0 ↔
      siblings.length ≤ height ∧
        start =
          nodeAt node leafAt (height - siblings.length) (index % 2 ^ siblings.length) ∧
        siblings =
          pathFrom node leafAt (height - siblings.length) (index % 2 ^ siblings.length)
            siblings.length := by
  by_cases short : siblings.length ≤ height
  · have step :=
      walk_eq_nodeAt_iff injective leafAt (height - siblings.length) index 0 start siblings
    rw [Nat.sub_add_cancel short, Nat.mul_zero, Nat.zero_add] at step
    rw [step]
    exact (and_iff_right short).symm
  · refine iff_of_false ?_ fun opened => short opened.1
    intro reached
    -- the last `height` steps start at a leaf, which the step before has hashed
    let split := siblings.length - height
    have lengthLast : (siblings.drop split).length = height := by
      rw [List.length_drop]
      omega
    have firstNonempty : siblings.take split ≠ [] := by
      refine List.ne_nil_of_length_pos ?_
      rw [List.length_take]
      omega
    rw [← List.take_append_drop split siblings, walk_append] at reached
    have step :=
      walk_eq_nodeAt_iff injective leafAt 0 (index / 2 ^ (siblings.take split).length) 0
        (walk node index start (siblings.take split)) (siblings.drop split)
    rw [lengthLast, Nat.zero_add, Nat.mul_zero, Nat.zero_add] at step
    obtain ⟨isLeaf, -⟩ := step.mp reached
    obtain ⟨left, right, isHash⟩ := exists_walk_eq_node node index start firstNonempty
    exact
      apart (index / 2 ^ (siblings.take split).length % 2 ^ height)
        (Nat.mod_lt _ (Nat.two_pow_pos height)) left right (isLeaf.symm.trans isHash)

end PerfectTree
