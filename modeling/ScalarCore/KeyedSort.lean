import Mathlib.Data.List.Sort
import Mathlib.Tactic.Common

namespace KeyedSort

/-!
# Sorting by a key

The stable sort of a list by a key of its items.  Where no two items share a
key, the sorted list does not depend on the order in which the items came.

A sort that is not stable leaves the order of items with one key open; what the
keys determine comes in the same order all the same.
-/

variable {Item Key : Type*} [LinearOrder Key]

/-- The items in ascending order of their keys; equal keys keep their order. -/
def sortByKey (key : Item → Key) (items : List Item) : List Item :=
  items.mergeSort fun left right => decide (key left ≤ key right)

/-- The comparison of keys is transitive. -/
theorem keyLe_trans
    (key : Item → Key)
    (first second third : Item)
    (before : decide (key first ≤ key second) = true)
    (after : decide (key second ≤ key third) = true) :
    decide (key first ≤ key third) = true :=
  decide_eq_true
    ((of_decide_eq_true before).trans (of_decide_eq_true after))

/-- The comparison of keys is total. -/
theorem keyLe_total
    (key : Item → Key)
    (left right : Item) :
    (decide (key left ≤ key right) || decide (key right ≤ key left)) = true := by
  simpa using le_total (key left) (key right)

/-- Sorting only reorders. -/
theorem sortByKey_perm (key : Item → Key) (items : List Item) :
    (sortByKey key items).Perm items :=
  List.mergeSort_perm items _

@[simp] theorem mem_sortByKey
    {key : Item → Key}
    {items : List Item}
    {item : Item} :
    item ∈ sortByKey key items ↔ item ∈ items :=
  (sortByKey_perm key items).mem_iff

/-- The keys of the sorted list ascend. -/
theorem pairwise_sortByKey (key : Item → Key) (items : List Item) :
    (sortByKey key items).Pairwise fun left right => key left ≤ key right := by
  have sorted :
      (items.mergeSort fun left right =>
          decide (key left ≤ key right)).Pairwise
        fun left right => decide (key left ≤ key right) = true :=
    List.pairwise_mergeSort (keyLe_trans key) (keyLe_total key) items
  simpa [sortByKey] using sorted

/-- Sorting commutes with a map that keeps the keys. -/
theorem map_sortByKey
    {Item' : Type*}
    (key : Item' → Key)
    (function : Item → Item')
    (items : List Item) :
    (sortByKey (fun item => key (function item)) items).map function =
      sortByKey key (items.map function) :=
  List.map_mergeSort fun _ _ _ _ => rfl

/-- A list whose keys ascend is left as it is. -/
theorem sortByKey_of_pairwise
    {key : Item → Key}
    {items : List Item}
    (ascending : items.Pairwise fun left right => key left ≤ key right) :
    sortByKey key items = items :=
  List.mergeSort_of_pairwise (by simpa using ascending)

/-- The sort is stable: the items of one key come in the order they came in. -/
theorem filter_sortByKey
    (key : Item → Key)
    (items : List Item)
    (shared : Key) :
    (sortByKey key items).filter (fun item => decide (key item = shared)) =
      items.filter fun item => decide (key item = shared) := by
  have ascending :
      (items.filter fun item => decide (key item = shared)).Pairwise
        fun left right => decide (key left ≤ key right) = true := by
    apply List.pairwise_of_forall_mem_list
    intro left leftMember right rightMember
    rw [List.mem_filter, decide_eq_true_iff] at leftMember rightMember
    exact decide_eq_true (leftMember.2.trans rightMember.2.symm).le
  have kept :
      (items.filter fun item => decide (key item = shared)).Sublist
        (sortByKey key items) :=
    List.sublist_mergeSort (keyLe_trans key) (keyLe_total key) ascending
      List.filter_sublist
  have keptShared := kept.filter fun item => decide (key item = shared)
  rw [List.filter_filter] at keptShared
  simp only [Bool.and_self] at keptShared
  exact
    (keptShared.eq_of_length
      ((sortByKey_perm key items).symm.filter _).length_eq).symm

/-- Items of distinct keys are sorted alike whatever order they came in. -/
theorem sortByKey_eq_of_perm
    {key : Item → Key}
    {items items' : List Item}
    (distinct :
      ∀ left ∈ items, ∀ right ∈ items, key left = key right → left = right)
    (same : items.Perm items') :
    sortByKey key items = sortByKey key items' := by
  have reordered : (sortByKey key items).Perm (sortByKey key items') :=
    (sortByKey_perm key items).trans
      (same.trans (sortByKey_perm key items').symm)
  refine
    reordered.eq_of_pairwise ?_ (pairwise_sortByKey key items)
      (pairwise_sortByKey key items')
  intro left right leftMember rightMember below above
  rw [mem_sortByKey] at leftMember rightMember
  exact
    distinct left leftMember right (same.mem_iff.mpr rightMember)
      (le_antisymm below above)

omit [LinearOrder Key] in
/-- Lists with the same keys agree in whatever the keys determine. -/
theorem map_eq_of_map_key_eq
    {View : Type*}
    {key : Item → Key}
    {view : Item → View}
    {items items' : List Item}
    (sameKeys : items.map key = items'.map key)
    (determined :
      ∀ left ∈ items, ∀ right ∈ items', key left = key right →
        view left = view right) :
    items.map view = items'.map view := by
  induction items generalizing items' with
  | nil =>
      rw [List.map_nil, eq_comm, List.map_eq_nil_iff] at sameKeys
      rw [sameKeys]
  | cons item rest inductionHypothesis =>
      cases items' with
      | nil =>
          cases sameKeys
      | cons item' rest' =>
          rw [List.map_cons, List.map_cons, List.cons.injEq] at sameKeys
          have sameView :=
            determined item List.mem_cons_self item' List.mem_cons_self sameKeys.1
          have sameRest :=
            inductionHypothesis sameKeys.2 fun left isLeft right isRight =>
              determined left (List.mem_cons_of_mem item isLeft) right
                (List.mem_cons_of_mem item' isRight)
          rw [List.map_cons, List.map_cons, sameView, sameRest]

/-- A sort that may order items of one key in any way. -/
structure UnstableSort (Item Key : Type*) [LinearOrder Key] where
  sort : (Item → Key) → List Item → List Item
  perm : ∀ key items, (sort key items).Perm items
  ascending :
    ∀ key items,
      (sort key items).Pairwise fun left right => key left ≤ key right

namespace UnstableSort

/-- The stable sort is one of them. -/
def stable : UnstableSort Item Key where
  sort := sortByKey
  perm := sortByKey_perm
  ascending := pairwise_sortByKey

/-- Whatever the sort, the keys come in the same order. -/
theorem map_key_eq_of_perm
    (first second : UnstableSort Item Key)
    (key : Item → Key)
    {items items' : List Item}
    (same : items.Perm items') :
    (first.sort key items).map key = (second.sort key items').map key := by
  have reordered :
      ((first.sort key items).map key).Perm ((second.sort key items').map key) :=
    ((first.perm key items).trans
      (same.trans (second.perm key items').symm)).map key
  exact
    reordered.eq_of_pairwise (fun _ _ _ _ => le_antisymm)
      (List.pairwise_map.mpr (first.ascending key items))
      (List.pairwise_map.mpr (second.ascending key items'))

/-- Whatever the sort, what the keys determine comes in the same order. -/
theorem map_eq_of_perm
    {View : Type*}
    (first second : UnstableSort Item Key)
    {key : Item → Key}
    {view : Item → View}
    {items items' : List Item}
    (same : items.Perm items')
    (determined :
      ∀ left ∈ items, ∀ right ∈ items, key left = key right →
        view left = view right) :
    (first.sort key items).map view = (second.sort key items').map view := by
  apply map_eq_of_map_key_eq (map_key_eq_of_perm first second key same)
  intro left isLeft right isRight
  rw [(first.perm key items).mem_iff] at isLeft
  rw [(second.perm key items').mem_iff, ← same.mem_iff] at isRight
  exact determined left isLeft right isRight

end UnstableSort

/-- Two listed items lead some order of the list, unless they are one. -/
theorem exists_perm_cons_cons
    {items : List Item}
    {left right : Item}
    (leftMember : left ∈ items)
    (rightMember : right ∈ items)
    (different : left ≠ right) :
    ∃ others, items.Perm (left :: right :: others) := by
  obtain ⟨before, after, rfl⟩ := List.append_of_mem leftMember
  have rightAmong : right ∈ before ++ after := by
    have placed := List.perm_middle.mem_iff.mp rightMember
    exact (List.mem_cons.mp placed).resolve_left different.symm
  obtain ⟨before', after', split⟩ := List.append_of_mem rightAmong
  refine ⟨before' ++ after', List.perm_middle.trans ?_⟩
  rw [split]
  exact List.perm_middle.cons left

/--
What the stable sort shows of the items does not depend on the order they came
in exactly when items of one key look alike.
-/
theorem map_sortByKey_eq_iff
    {View : Type*}
    {key : Item → Key}
    {view : Item → View}
    {items : List Item} :
    (∀ order, items.Perm order →
        (sortByKey key items).map view = (sortByKey key order).map view) ↔
      ∀ left ∈ items, ∀ right ∈ items, key left = key right →
        view left = view right := by
  constructor
  · intro sameView left leftMember right rightMember sameKey
    by_cases different : left = right
    · rw [different]
    -- The two items first, in one order and in the other.
    obtain ⟨others, first⟩ :=
      exists_perm_cons_cons leftMember rightMember different
    have second : items.Perm (right :: left :: others) :=
      first.trans (List.Perm.swap right left others)
    have sameViews :=
      (sameView _ first).symm.trans (sameView _ second)
    have sameKeys :=
      UnstableSort.stable.map_key_eq_of_perm UnstableSort.stable key
        (first.symm.trans second)
    have samePairs := congrArg₂ List.zip sameKeys sameViews
    simp only [UnstableSort.stable, List.zip_map'] at samePairs
    have sameShared :=
      congrArg (List.filter fun pair => decide (pair.1 = key left)) samePairs
    simp only [List.filter_map, Function.comp_def, filter_sortByKey,
      List.filter_cons, sameKey, decide_true, if_true, List.map_cons,
      List.cons.injEq] at sameShared
    exact (Prod.mk.inj sameShared.1).2
  · intro alike order reordered
    exact
      UnstableSort.stable.map_eq_of_perm UnstableSort.stable reordered alike

end KeyedSort
