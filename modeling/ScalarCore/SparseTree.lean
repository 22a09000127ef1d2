import Mathlib.Data.List.Basic
import Mathlib.Tactic.Common

namespace SparseTree

/-!
# Sparse binary hash trees

A tree of fixed height holds at most one entry at the end of each path.  A
subtree without entries has the empty digest and two empty children form an
empty parent, so the hash of a tree follows its entries only.

Roots determine the content when the hashes are ideal: injective and never
equal to the empty digest.
-/

/-- The hashes of a tree. -/
structure Hash (Entry Digest : Type*) where
  leaf : Entry → Digest
  node : Digest → Digest → Digest
  empty : Digest

/-- Leaf and node hashes are injective and never give the empty digest. -/
structure Hash.Ideal {Entry Digest : Type*} (hash : Hash Entry Digest) : Prop where
  leaf_injective :
    ∀ {first second}, hash.leaf first = hash.leaf second → first = second
  node_injective :
    ∀ {left right left' right'},
      hash.node left right = hash.node left' right' →
      left = left' ∧ right = right'
  leaf_ne_empty : ∀ entry, hash.leaf entry ≠ hash.empty
  node_ne_empty : ∀ left right, hash.node left right ≠ hash.empty

variable {Entry Digest : Type*} [DecidableEq Digest]

/-- Content of a tree: the entry at the end of each path. -/
abbrev Content (Entry : Type*) :=
  List Bool → Option Entry

/-- The content below one child. -/
def Content.below (content : Content Entry) (side : Bool) : Content Entry :=
  fun rest => content (side :: rest)

namespace Hash

variable (hash : Hash Entry Digest)

/-- Digest of a parent. -/
def join (left right : Digest) : Digest :=
  if left = hash.empty ∧ right = hash.empty then
    hash.empty
  else
    hash.node left right

/-- Digest of a leaf position. -/
def leafAt : Option Entry → Digest
  | none => hash.empty
  | some entry => hash.leaf entry

/-- Root of the tree of a given height. -/
def rootOf : Nat → Content Entry → Digest
  | 0, content => hash.leafAt (content [])
  | height + 1, content =>
      hash.join
        (rootOf height (content.below false))
        (rootOf height (content.below true))

/-- Siblings along a path, the one below the root first. -/
def siblings : List Bool → Content Entry → List Digest
  | [], _ => []
  | side :: rest, content =>
      hash.rootOf rest.length (content.below (!side)) ::
        siblings rest (content.below side)

/-- Digest reached from the end of a path through given siblings. -/
def climb : List Bool → List Digest → Digest → Digest
  | side :: path, sibling :: rest, start =>
      let current := climb path rest start
      if side then
        hash.join sibling current
      else
        hash.join current sibling
  | _, _, start => start

/-- The siblings of a path lead from its entry to the root. -/
theorem climb_siblings
    (path : List Bool)
    (content : Content Entry) :
    hash.climb path (hash.siblings path content)
        (hash.leafAt (content path)) =
      hash.rootOf path.length content := by
  induction path generalizing content with
  | nil =>
      rfl
  | cons side rest inductionHypothesis =>
      have current := inductionHypothesis (content.below side)
      simp only [Content.below] at current
      simp only [siblings, climb, List.length_cons, rootOf, current]
      cases side <;> rfl

variable {hash}

/-- A parent is empty only where both children are. -/
theorem Ideal.join_eq_empty
    (ideal : hash.Ideal)
    {left right : Digest} :
    hash.join left right = hash.empty ↔
      left = hash.empty ∧ right = hash.empty := by
  unfold join
  split
  · next bothEmpty =>
      exact ⟨fun _ => bothEmpty, fun _ => rfl⟩
  · next notBoth =>
      exact
        ⟨fun nodeEmpty => absurd nodeEmpty (ideal.node_ne_empty _ _),
          fun bothEmpty => absurd bothEmpty notBoth⟩

/-- A parent determines its children. -/
theorem Ideal.join_injective
    (ideal : hash.Ideal)
    {left right left' right' : Digest}
    (same : hash.join left right = hash.join left' right') :
    left = left' ∧ right = right' := by
  by_cases bothEmpty : left = hash.empty ∧ right = hash.empty
  · have isEmpty := ideal.join_eq_empty.mpr bothEmpty
    rw [same, ideal.join_eq_empty] at isEmpty
    exact
      ⟨bothEmpty.1.trans isEmpty.1.symm, bothEmpty.2.trans isEmpty.2.symm⟩
  · have notEmpty :
        ¬ (left' = hash.empty ∧ right' = hash.empty) := by
      rw [← ideal.join_eq_empty, ← same, ideal.join_eq_empty]
      exact bothEmpty
    rw [join, join, if_neg bothEmpty, if_neg notEmpty] at same
    exact ideal.node_injective same

omit [DecidableEq Digest] in
theorem Ideal.leafAt_injective
    (ideal : hash.Ideal)
    {first second : Option Entry}
    (same : hash.leafAt first = hash.leafAt second) :
    first = second := by
  cases first with
  | none =>
      cases second with
      | none =>
          rfl
      | some entry =>
          exact absurd same.symm (ideal.leaf_ne_empty entry)
  | some entry =>
      cases second with
      | none =>
          exact absurd same (ideal.leaf_ne_empty entry)
      | some other =>
          exact congrArg some (ideal.leaf_injective same)

/-- Trees have equal roots exactly when they agree at the end of each path. -/
theorem Ideal.rootOf_eq_iff
    (ideal : hash.Ideal)
    {height : Nat}
    {first second : Content Entry} :
    hash.rootOf height first = hash.rootOf height second ↔
      ∀ path, path.length = height → first path = second path := by
  induction height generalizing first second with
  | zero =>
      constructor
      · intro same path isLeaf
        rw [List.length_eq_zero_iff.mp isLeaf]
        exact ideal.leafAt_injective same
      · intro same
        simp only [rootOf, same [] rfl]
  | succ height inductionHypothesis =>
      constructor
      · intro same path fullPath
        obtain ⟨leftSame, rightSame⟩ := ideal.join_injective same
        rcases path with - | ⟨side, rest⟩
        · cases fullPath
        · have restLength : rest.length = height := by
            simpa using fullPath
          cases side with
          | false =>
              exact inductionHypothesis.mp leftSame rest restLength
          | true =>
              exact inductionHypothesis.mp rightSame rest restLength
      · intro same
        have childSame (side : Bool) :
            hash.rootOf height (first.below side) =
              hash.rootOf height (second.below side) :=
          inductionHypothesis.mpr fun rest restLength =>
            same (side :: rest) (by simp [restLength])
        simp only [rootOf, childSame]

/-- Whatever siblings lead from an empty leaf to a root, its path is empty. -/
theorem Ideal.climb_empty_sound
    (ideal : hash.Ideal)
    {path : List Bool}
    {given : List Digest}
    {content : Content Entry}
    (sameLength : given.length = path.length)
    (reached :
      hash.climb path given hash.empty =
        hash.rootOf path.length content) :
    content path = none := by
  induction path generalizing given content with
  | nil =>
      have emptyLeaf :
          hash.leafAt (none : Option Entry) = hash.leafAt (content []) :=
        reached
      exact (ideal.leafAt_injective emptyLeaf).symm
  | cons side rest inductionHypothesis =>
      rcases given with - | ⟨sibling, givenRest⟩
      · cases sameLength
      · have restLength : givenRest.length = rest.length := by
          simpa using sameLength
        simp only [climb, List.length_cons, rootOf] at reached
        cases side with
        | false =>
            exact
              inductionHypothesis restLength
                (ideal.join_injective reached).1
        | true =>
            exact
              inductionHypothesis restLength
                (ideal.join_injective reached).2

end Hash

end SparseTree
