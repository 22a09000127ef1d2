import Mathlib.Data.List.Induction
import Mathlib.Tactic.Common

namespace HashChain

/-!
# Hash chains

A chain absorbs one item after the other into a running digest.  Its digest
determines the whole sequence of items when absorbing is injective and never
gives the starting digest; it says nothing about the items as a set.
-/

variable {Digest Item : Type*}

/-- Digest of a sequence of items. -/
def digest
    (absorb : Digest → Item → Digest)
    (start : Digest)
    (items : List Item) : Digest :=
  items.foldl absorb start

/-- Absorbing has no collisions and never leads back to the start. -/
structure Ideal
    (absorb : Digest → Item → Digest)
    (start : Digest) : Prop where
  injective :
    ∀ {digest digest' item item'},
      absorb digest item = absorb digest' item' →
      digest = digest' ∧ item = item'
  ne_start : ∀ digest item, absorb digest item ≠ start

variable {absorb : Digest → Item → Digest} {start : Digest}

@[simp] theorem digest_nil : digest absorb start [] = start :=
  rfl

@[simp] theorem digest_cons
    (item : Item)
    (rest : List Item) :
    digest absorb start (item :: rest) =
      digest absorb (absorb start item) rest :=
  rfl

/-- A sequence is absorbed part by part. -/
@[simp] theorem digest_append
    (items later : List Item) :
    digest absorb start (items ++ later) =
      digest absorb (digest absorb start items) later :=
  List.foldl_append

/-- A digest determines the sequence of items. -/
theorem Ideal.digest_injective
    (ideal : Ideal absorb start)
    {items items' : List Item} :
    digest absorb start items = digest absorb start items' ↔
      items = items' := by
  constructor
  · intro same
    induction items using List.reverseRecOn generalizing items' with
    | nil =>
        rcases List.eq_nil_or_concat items' with rfl | ⟨rest, last, rfl⟩
        · rfl
        · rw [digest_nil, List.concat_eq_append, digest_append] at same
          exact absurd same.symm (ideal.ne_start _ _)
    | append_singleton items item inductionHypothesis =>
        rcases List.eq_nil_or_concat items' with rfl | ⟨rest, last, rfl⟩
        · rw [digest_nil, digest_append] at same
          exact absurd same (ideal.ne_start _ _)
        · rw [List.concat_eq_append] at same ⊢
          rw [digest_append, digest_append] at same
          obtain ⟨sameRest, sameLast⟩ := ideal.injective same
          rw [inductionHypothesis sameRest, sameLast]
  · rintro rfl
    rfl

end HashChain
