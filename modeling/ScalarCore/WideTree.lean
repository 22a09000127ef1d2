import Mathlib.Data.Fin.Tuple.Basic
import Mathlib.Tactic.Common

namespace WideTree

/-!
# Sparse hash trees of any arity

A tree of fixed height holds at most one entry at the end of each path.  A
parent of empty children is empty; any other parent hashes its children, each
brought to a canonical form first, so different digests may stand for one child.

Where the hash is ideal on canonical digests, what leads from an empty leaf to
the root of a tree is known exactly: the path is empty, and the siblings are those
of the tree up to their canonical forms, and to the letter below an empty parent.
-/

/-- The hashes of a tree in which a parent has `arity + 1` children. -/
structure Hash (arity : Nat) (Entry Digest : Type*) where
  leaf : Entry → Digest
  node : (Fin (arity + 1) → Digest) → Digest
  reduce : Digest → Digest
  empty : Digest

variable {arity : Nat} {Entry Digest : Type*}

/-- A digest in its canonical form. -/
def Hash.Canonical (hash : Hash arity Entry Digest) (digest : Digest) : Prop :=
  hash.reduce digest = digest

/-- Every digest that a tree holds is canonical. -/
structure Hash.Lawful (hash : Hash arity Entry Digest) : Prop where
  reduce_canonical : ∀ digest, hash.Canonical (hash.reduce digest)
  leaf_canonical : ∀ entry, hash.Canonical (hash.leaf entry)
  node_canonical : ∀ children, hash.Canonical (hash.node children)
  empty_canonical : hash.Canonical hash.empty

/-- Nodes are told apart by canonical children, and nothing hashes to the empty digest. -/
structure Hash.Ideal (hash : Hash arity Entry Digest) : Prop where
  node_injective :
    ∀ {first second : Fin (arity + 1) → Digest},
      (∀ side, hash.Canonical (first side)) →
        (∀ side, hash.Canonical (second side)) →
          hash.node first = hash.node second → first = second
  leaf_ne_empty : ∀ entry, hash.leaf entry ≠ hash.empty
  node_ne_empty :
    ∀ {children : Fin (arity + 1) → Digest},
      (∀ side, hash.Canonical (children side)) → hash.node children ≠ hash.empty

/-- Content of a tree: the entry at the end of each path. -/
abbrev Content (arity : Nat) (Entry : Type*) :=
  List (Fin (arity + 1)) → Option Entry

/-- The content below one child. -/
def Content.below
    (content : Content arity Entry)
    (side : Fin (arity + 1)) : Content arity Entry :=
  fun rest => content (side :: rest)

namespace Hash

variable [DecidableEq Digest] (hash : Hash arity Entry Digest)

/-- Digest of a parent. -/
def join (children : Fin (arity + 1) → Digest) : Digest :=
  if ∀ side, children side = hash.empty then
    hash.empty
  else
    hash.node fun side => hash.reduce (children side)

/-- Digest of a leaf position. -/
def leafAt : Option Entry → Digest
  | none => hash.empty
  | some entry => hash.leaf entry

/-- Root of the tree of a given height. -/
def rootOf : Nat → Content arity Entry → Digest
  | 0, content => hash.leafAt (content [])
  | height + 1, content => hash.join fun side => rootOf height (content.below side)

/-- The roots below the children of a tree. -/
def childRoots
    (height : Nat)
    (content : Content arity Entry)
    (side : Fin (arity + 1)) : Digest :=
  hash.rootOf height (content.below side)

/-- Digest reached from the end of a path through given siblings. -/
def climb : List (Fin (arity + 1)) → List (Fin arity → Digest) → Digest → Digest
  | side :: path, others :: rest, start =>
      hash.join (Fin.insertNth side (climb path rest start) others)
  | _, _, start => start

/-- Siblings along a path, the ones below the root first. -/
def siblings : List (Fin (arity + 1)) → Content arity Entry → List (Fin arity → Digest)
  | [], _ => []
  | side :: rest, content =>
      Fin.removeNth side (hash.childRoots rest.length content) ::
        siblings rest (content.below side)

/-- Siblings that stand for those of the tree, and are empty below an empty parent. -/
def Matches :
    List (Fin (arity + 1)) → List (Fin arity → Digest) → Content arity Entry → Prop
  | side :: path, others :: rest, content =>
      (∀ position,
        hash.reduce (others position) =
          hash.childRoots path.length content (side.succAbove position)) ∧
        ((∀ child, hash.childRoots path.length content child = hash.empty) →
          ∀ position, others position = hash.empty) ∧
        Matches path rest (content.below side)
  | _, _, _ => True

@[simp] theorem length_siblings
    (path : List (Fin (arity + 1)))
    (content : Content arity Entry) :
    (hash.siblings path content).length = path.length := by
  induction path generalizing content with
  | nil =>
      rfl
  | cons side rest inductionHypothesis =>
      rw [siblings, List.length_cons, List.length_cons, inductionHypothesis]

/-- The siblings of a path lead from its entry to the root. -/
theorem climb_siblings
    (path : List (Fin (arity + 1)))
    (content : Content arity Entry) :
    hash.climb path (hash.siblings path content) (hash.leafAt (content path)) =
      hash.rootOf path.length content := by
  induction path generalizing content with
  | nil =>
      rfl
  | cons side rest inductionHypothesis =>
      have current :
          hash.climb rest (hash.siblings rest (content.below side))
              (hash.leafAt (content (side :: rest))) =
            hash.childRoots rest.length content side :=
        inductionHypothesis (content.below side)
      rw [siblings, climb, current, Fin.insertNth_self_removeNth]
      rfl

variable {hash}

/-- Whatever is joined is canonical. -/
theorem Lawful.join_canonical
    (lawful : hash.Lawful)
    (children : Fin (arity + 1) → Digest) :
    hash.Canonical (hash.join children) := by
  unfold join
  split
  · exact lawful.empty_canonical
  · exact lawful.node_canonical _

/-- The root of a tree is canonical. -/
theorem Lawful.rootOf_canonical
    (lawful : hash.Lawful)
    (height : Nat)
    (content : Content arity Entry) :
    hash.Canonical (hash.rootOf height content) := by
  cases height with
  | zero =>
      rw [rootOf]
      cases content [] with
      | none =>
          exact lawful.empty_canonical
      | some entry =>
          exact lawful.leaf_canonical entry
  | succ height =>
      exact lawful.join_canonical _

/-- So is what is reached from the empty leaf. -/
theorem Lawful.climb_canonical
    (lawful : hash.Lawful)
    (path : List (Fin (arity + 1)))
    (given : List (Fin arity → Digest)) :
    hash.Canonical (hash.climb path given hash.empty) := by
  unfold climb
  split
  · exact lawful.join_canonical _
  · exact lawful.empty_canonical

/-- A parent is that of canonical children when they are met up to their canonical forms. -/
theorem Ideal.join_eq_iff
    (ideal : hash.Ideal)
    (lawful : hash.Lawful)
    {given children : Fin (arity + 1) → Digest}
    (canonical : ∀ side, hash.Canonical (children side)) :
    hash.join given = hash.join children ↔
      (∀ side, hash.reduce (given side) = children side) ∧
        ((∀ side, children side = hash.empty) → ∀ side, given side = hash.empty) := by
  have nodeNeEmpty (digests : Fin (arity + 1) → Digest) :
      hash.node (fun side => hash.reduce (digests side)) ≠ hash.empty :=
    ideal.node_ne_empty fun side => lawful.reduce_canonical (digests side)
  by_cases childrenEmpty : ∀ side, children side = hash.empty
  · rw [join, join, if_pos childrenEmpty]
    constructor
    · intro isEmpty
      have givenEmpty : ∀ side, given side = hash.empty := by
        by_contra notAll
        rw [if_neg notAll] at isEmpty
        exact nodeNeEmpty given isEmpty
      refine ⟨fun side => ?_, fun _ => givenEmpty⟩
      rw [givenEmpty side, childrenEmpty side]
      exact lawful.empty_canonical
    · rintro ⟨-, allEmpty⟩
      rw [if_pos (allEmpty childrenEmpty)]
  · have reduced : (fun side => hash.reduce (children side)) = children :=
      funext canonical
    rw [join, join, if_neg childrenEmpty, reduced]
    constructor
    · intro same
      refine ⟨?_, fun allEmpty => absurd allEmpty childrenEmpty⟩
      by_cases givenEmpty : ∀ side, given side = hash.empty
      · rw [if_pos givenEmpty, ← reduced] at same
        exact absurd same.symm (nodeNeEmpty children)
      · rw [if_neg givenEmpty] at same
        exact congrFun
          (ideal.node_injective (fun side => lawful.reduce_canonical (given side)) canonical same)
    · rintro ⟨met, -⟩
      have notGiven : ¬ ∀ side, given side = hash.empty := by
        intro givenEmpty
        refine childrenEmpty fun side => ?_
        rw [← met side, givenEmpty side]
        exact lawful.empty_canonical
      rw [if_neg notGiven, funext met]

/-- Exactly the siblings of an empty path lead from the empty leaf to the root. -/
theorem Ideal.climb_eq_rootOf_iff
    (ideal : hash.Ideal)
    (lawful : hash.Lawful)
    {path : List (Fin (arity + 1))}
    {given : List (Fin arity → Digest)}
    {content : Content arity Entry}
    (sameLength : given.length = path.length) :
    hash.climb path given hash.empty = hash.rootOf path.length content ↔
      content path = none ∧ hash.Matches path given content := by
  induction path generalizing given content with
  | nil =>
      obtain rfl := List.length_eq_zero_iff.mp sameLength
      change hash.empty = hash.leafAt (content []) ↔ content [] = none ∧ True
      rw [and_true]
      cases content [] with
      | none =>
          exact iff_of_true rfl rfl
      | some entry =>
          exact iff_of_false (ideal.leaf_ne_empty entry).symm (Option.some_ne_none entry)
  | cons side path inductionHypothesis =>
      match given, sameLength with
      | others :: rest, sameLength =>
          have restLength : rest.length = path.length :=
            Nat.succ_inj.mp sameLength
          have canonical (child : Fin (arity + 1)) :
              hash.Canonical (hash.childRoots path.length content child) :=
            lawful.rootOf_canonical path.length (content.below child)
          have below :
              hash.reduce (hash.climb path rest hash.empty) =
                  hash.childRoots path.length content side ↔
                content (side :: path) = none ∧ hash.Matches path rest (content.below side) := by
            rw [lawful.climb_canonical path rest]
            exact inductionHypothesis restLength
          rw [climb, Matches]
          refine (ideal.join_eq_iff lawful canonical).trans ?_
          -- the climbed child and its siblings, apart
          simp only [Fin.forall_iff_succAbove side, Fin.insertNth_apply_same,
            Fin.insertNth_apply_succAbove, below]
          constructor
          · rintro ⟨⟨⟨noEntry, matchesRest⟩, met⟩, emptied⟩
            exact ⟨noEntry, met, fun allEmpty => (emptied allEmpty).2, matchesRest⟩
          · rintro ⟨noEntry, met, emptied, matchesRest⟩
            refine ⟨⟨⟨noEntry, matchesRest⟩, met⟩, fun allEmpty => ⟨?_, emptied allEmpty⟩⟩
            calc
              hash.climb path rest hash.empty =
                  hash.reduce (hash.climb path rest hash.empty) :=
                (lawful.climb_canonical path rest).symm
              _ = hash.childRoots path.length content side :=
                below.mpr ⟨noEntry, matchesRest⟩
              _ = hash.empty :=
                allEmpty.1

end Hash

end WideTree
