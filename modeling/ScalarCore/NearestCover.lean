import Mathlib.Data.Finset.Card
import Mathlib.Data.Set.Basic
import ScalarCore.KeyedSort

namespace NearestCover

/-!
# The nearest of a set through pools that cover it

Items have distinct keys, and the `count` items of the smallest keys are wanted
of a set that is never held as a whole.  A pool covers a set when every item that
the pool lacks has `count` items of the pool before it.  Covering composes, and
goes through unions and through sorting and truncating, so pools can be cut at
every step without losing one of the nearest items.
-/

open KeyedSort

variable {Item Key : Type*} [LinearOrder Key]

/-- The items of a pool before a given one. -/
def before (key : Item → Key) (pool : Finset Item) (item : Item) : Finset Item :=
  pool.filter fun other => key other < key item

@[simp] theorem mem_before
    {key : Item → Key}
    {pool : Finset Item}
    {item other : Item} :
    other ∈ before key pool item ↔ other ∈ pool ∧ key other < key item :=
  Finset.mem_filter

/-- A pool of known items, with `count` of them before every other known item. -/
structure Covers
    (key : Item → Key)
    (count : Nat)
    (pool : Finset Item)
    (known : Set Item) : Prop where
  subset : ∀ item ∈ pool, item ∈ known
  covered : ∀ item ∈ known, item ∉ pool → count ≤ (before key pool item).card

/-- The nearest items of a set, in order: all of them if there are fewer. -/
structure IsNearest
    (key : Item → Key)
    (count : Nat)
    (known : Set Item)
    (listed : List Item) : Prop where
  ascending : listed.Pairwise fun item other => key item < key other
  atMost : listed.length ≤ count
  subset : ∀ item ∈ listed, item ∈ known
  nearest :
    ∀ item ∈ known, item ∉ listed →
      listed.length = count ∧ ∀ other ∈ listed, key other < key item

variable {key : Item → Key} {count : Nat} {pool : Finset Item} {known : Set Item}

namespace Covers

/-- A pool covers itself. -/
theorem refl (key : Item → Key) (count : Nat) (pool : Finset Item) :
    Covers key count pool (pool : Set Item) where
  subset _ listed := listed
  covered _ listed missing := absurd listed missing

/-- A pool that covers a covering pool covers what that one covers. -/
theorem trans
    {inner : Finset Item}
    (first : Covers key count inner (pool : Set Item))
    (second : Covers key count pool known) :
    Covers key count inner known where
  subset item listed := second.subset item (first.subset item listed)
  covered item isKnown missing := by
    by_cases inPool : item ∈ pool
    · exact first.covered item inPool missing
    · have many := second.covered item isKnown inPool
      by_cases allKept : before key pool item ⊆ inner
      · refine many.trans (Finset.card_le_card fun other listed => ?_)
        exact mem_before.mpr ⟨allKept listed, (mem_before.mp listed).2⟩
      · obtain ⟨cut, listed, missing'⟩ := Finset.not_subset.mp allKept
        obtain ⟨cutInPool, cutBefore⟩ := mem_before.mp listed
        refine (first.covered cut cutInPool missing').trans
          (Finset.card_le_card fun other kept => ?_)
        obtain ⟨inInner, isBefore⟩ := mem_before.mp kept
        exact mem_before.mpr ⟨inInner, isBefore.trans cutBefore⟩

/-- Pools that cover their sets cover together what the sets hold together. -/
theorem of_each
    {Index : Type*}
    {pools : Index → Finset Item}
    {sets : Index → Set Item}
    (each : ∀ index, Covers key count (pools index) (sets index))
    (whole : ∀ item, item ∈ pool ↔ ∃ index, item ∈ pools index) :
    Covers key count pool {item | ∃ index, item ∈ sets index} where
  subset item listed := by
    obtain ⟨index, inPool⟩ := (whole item).mp listed
    exact ⟨index, (each index).subset item inPool⟩
  covered item isKnown missing := by
    obtain ⟨index, inSet⟩ := isKnown
    have missing' : item ∉ pools index := fun inPool =>
      missing ((whole item).mpr ⟨index, inPool⟩)
    refine ((each index).covered item inSet missing').trans
      (Finset.card_le_card fun other listed => ?_)
    obtain ⟨inPool, isBefore⟩ := mem_before.mp listed
    exact mem_before.mpr ⟨(whole other).mpr ⟨index, inPool⟩, isBefore⟩

/-- New items are covered when they join the pool. -/
theorem union_right
    [DecidableEq Item]
    (covers : Covers key count pool known)
    (added : Finset Item) :
    Covers key count (pool ∪ added) (known ∪ (added : Set Item)) where
  subset item listed := by
    rcases Finset.mem_union.mp listed with inPool | isNew
    · exact Or.inl (covers.subset item inPool)
    · exact Or.inr isNew
  covered item isKnown missing := by
    rw [Finset.mem_union, not_or] at missing
    rcases isKnown with wasKnown | isNew
    · refine (covers.covered item wasKnown missing.1).trans
        (Finset.card_le_card fun other listed => ?_)
      obtain ⟨inPool, isBefore⟩ := mem_before.mp listed
      exact mem_before.mpr ⟨Finset.mem_union_left added inPool, isBefore⟩
    · exact absurd isNew missing.2

end Covers

/-- Distinct items are sorted strictly when their keys differ. -/
theorem pairwise_lt_sortByKey
    (injective : Function.Injective key)
    {items : List Item}
    (nodup : items.Nodup) :
    (sortByKey key items).Pairwise fun item other => key item < key other := by
  have distinct : (sortByKey key items).Nodup :=
    (sortByKey_perm key items).nodup_iff.mpr nodup
  refine ((pairwise_sortByKey key items).and distinct).imp ?_
  rintro item other ⟨atMost, differ⟩
  exact lt_of_le_of_ne atMost (injective.ne differ)

/-- The first of the sorted items cover all of them. -/
theorem covers_take_sortByKey
    [DecidableEq Item]
    (injective : Function.Injective key)
    {items : List Item}
    (nodup : items.Nodup)
    (count : Nat) :
    Covers key count ((sortByKey key items).take count).toFinset
      (items.toFinset : Set Item) where
  subset item listed := by
    rw [List.mem_toFinset] at listed
    exact List.mem_toFinset.mpr (mem_sortByKey.mp (List.mem_of_mem_take listed))
  covered item isKnown missing := by
    have sorted := pairwise_lt_sortByKey injective nodup
    have listed : item ∈ sortByKey key items :=
      mem_sortByKey.mpr (List.mem_toFinset.mp isKnown)
    rw [List.mem_toFinset] at missing
    rw [← List.take_append_drop count (sortByKey key items)] at sorted listed
    obtain ⟨firstSorted, -, apart⟩ := List.pairwise_append.mp sorted
    have isLater := (List.mem_append.mp listed).resolve_left missing
    have long : count ≤ (sortByKey key items).length := by
      by_contra short
      rw [List.drop_eq_nil_of_le (not_le.mp short).le] at isLater
      exact absurd isLater List.not_mem_nil
    have allBefore :
        before key ((sortByKey key items).take count).toFinset item =
          ((sortByKey key items).take count).toFinset := by
      refine Finset.filter_true_of_mem fun other isFirst => ?_
      exact apart other (List.mem_toFinset.mp isFirst) item isLater
    have firstNodup : ((sortByKey key items).take count).Nodup :=
      firstSorted.imp fun below same => (below.ne (congrArg key same)).elim
    rw [allBefore, List.toFinset_card_of_nodup firstNodup, List.length_take,
      min_eq_left long]

/-- A short sorted list that covers a set lists its nearest items. -/
theorem isNearest_of_covers
    [DecidableEq Item]
    {listed : List Item}
    (ascending : listed.Pairwise fun item other => key item < key other)
    (atMost : listed.length ≤ count)
    (covers : Covers key count listed.toFinset known) :
    IsNearest key count known listed := by
  refine ⟨ascending, atMost, fun item isListed => ?_, fun item isKnown missing => ?_⟩
  · exact covers.subset item (List.mem_toFinset.mpr isListed)
  · have many := covers.covered item isKnown fun isListed =>
      missing (List.mem_toFinset.mp isListed)
    have allListed : (before key listed.toFinset item).card ≤ listed.toFinset.card :=
      Finset.card_le_card (Finset.filter_subset _ _)
    have lengths := List.toFinset_card_le listed
    have same : before key listed.toFinset item = listed.toFinset :=
      Finset.eq_of_subset_of_card_le (Finset.filter_subset _ _) (by omega)
    refine ⟨by omega, fun other isListed => ?_⟩
    have isBefore : other ∈ before key listed.toFinset item := by
      rw [same]
      exact List.mem_toFinset.mpr isListed
    exact (mem_before.mp isBefore).2

end NearestCover
