import Mathlib.Order.Lattice
import Mathlib.Tactic.Common

namespace BestScan

/-!
# Scanning for the best item

A scan keeps the best item seen so far, beginning with a given one, and changes
it for a strictly better item only.  Whatever the order of the items, the result
is an item of least rank.
-/

variable {Item Rank : Type*}

/-- The best of the items and the starting one. -/
def bestOf
    (better : Item → Item → Bool)
    (start : Item)
    (items : List Item) : Item :=
  items.foldl
    (fun best item =>
      if better item best then
        item
      else
        best)
    start

/-- The result is one of the items, or the one at the start. -/
theorem bestOf_mem
    (better : Item → Item → Bool)
    (start : Item)
    (items : List Item) :
    bestOf better start items = start ∨
      bestOf better start items ∈ items := by
  induction items generalizing start with
  | nil =>
      exact .inl rfl
  | cons item rest inductionHypothesis =>
      rw [bestOf, List.foldl_cons, ← bestOf]
      split
      · rcases inductionHypothesis item with isItem | listed
        · exact .inr (List.mem_cons.mpr (.inl isItem))
        · exact .inr (List.mem_cons_of_mem item listed)
      · rcases inductionHypothesis start with isStart | listed
        · exact .inl isStart
        · exact .inr (List.mem_cons_of_mem item listed)

variable [LinearOrder Rank]
  {better : Item → Item → Bool}
  {rank : Item → Rank}
  (isBetter :
    ∀ item best, better item best = true ↔ rank item < rank best)

include isBetter

/-- Nothing has a lower rank than the result. -/
theorem rank_bestOf_le (start : Item) (items : List Item) :
    rank (bestOf better start items) ≤ rank start ∧
      ∀ item ∈ items, rank (bestOf better start items) ≤ rank item := by
  induction items generalizing start with
  | nil =>
      exact ⟨le_rfl, fun _ listed => absurd listed List.not_mem_nil⟩
  | cons item rest inductionHypothesis =>
      rw [bestOf, List.foldl_cons, ← bestOf]
      split
      · rename_i improves
        rcases inductionHypothesis item with ⟨belowItem, belowRest⟩
        refine
          ⟨belowItem.trans ((isBetter item start).mp improves).le,
            fun other listed => ?_⟩
        rcases List.mem_cons.mp listed with rfl | later
        · exact belowItem
        · exact belowRest other later
      · rename_i notBetter
        rcases inductionHypothesis start with ⟨belowStart, belowRest⟩
        refine ⟨belowStart, fun other listed => ?_⟩
        rcases List.mem_cons.mp listed with rfl | later
        · rw [isBetter, not_lt] at notBetter
          exact belowStart.trans notBetter
        · exact belowRest other later

omit isBetter

/-!
## The first item of least key
-/

variable {key : Item → Rank} {items items' : List Item} {item : Item}

/-- The first item of least key, as `Iterator::min_by_key` answers it. -/
def minByKey (key : Item → Rank) : List Item → Option Item
  | [] => none
  | item :: rest =>
      some (bestOf (fun item best => decide (key item < key best)) item rest)

/-- An item that none is better than stays the best. -/
theorem bestOf_eq_start
    {start : Item}
    (least : ∀ item ∈ items, better item start = false) :
    bestOf better start items = start := by
  induction items with
  | nil =>
      rfl
  | cons item rest inductionHypothesis =>
      rw [bestOf, List.foldl_cons, least item List.mem_cons_self,
        if_neg Bool.false_ne_true, ← bestOf]
      exact
        inductionHypothesis fun other listed =>
          least other (List.mem_cons_of_mem item listed)

/-- Some item is answered unless there is none. -/
theorem minByKey_eq_none_iff : minByKey key items = none ↔ items = [] := by
  cases items with
  | nil =>
      simp [minByKey]
  | cons item rest =>
      simp [minByKey]

/-- What is answered is one of the items, and none has a lower key. -/
theorem minByKey_spec
    (found : minByKey key items = some item) :
    item ∈ items ∧ ∀ other ∈ items, key item ≤ key other := by
  cases items with
  | nil =>
      cases found
  | cons first rest =>
      rw [minByKey, Option.some_inj] at found
      subst found
      have isBetter (item best : Item) :
          decide (key item < key best) = true ↔ key item < key best :=
        decide_eq_true_iff
      have lowest := rank_bestOf_le isBetter first rest
      constructor
      · rcases bestOf_mem _ first rest with isFirst | listed
        · exact isFirst.symm ▸ List.mem_cons_self
        · exact List.mem_cons_of_mem first listed
      · intro other listed
        rcases List.mem_cons.mp listed with rfl | later
        · exact lowest.1
        · exact lowest.2 other later

/-- An item of least key that comes first is answered. -/
theorem minByKey_cons_of_least
    (least : ∀ other ∈ items, key item ≤ key other) :
    minByKey key (item :: items) = some item := by
  rw [minByKey, bestOf_eq_start]
  intro other listed
  exact decide_eq_false (not_lt.mpr (least other listed))

/-- The best of mapped items is the mapped best. -/
theorem bestOf_map
    {Source : Type*}
    (better : Item → Item → Bool)
    (function : Source → Item)
    (start : Source)
    (sources : List Source) :
    bestOf better (function start) (sources.map function) =
      function
        (bestOf (fun item best => better (function item) (function best))
          start sources) := by
  induction sources generalizing start with
  | nil =>
      rfl
  | cons source rest inductionHypothesis =>
      have moved :=
        inductionHypothesis
          (if better (function source) (function start) then
            source
          else
            start)
      rwa [apply_ite function] at moved

/-- The keys may be computed before the items are compared. -/
theorem minByKey_map
    {Source : Type*}
    (key : Item → Rank)
    (function : Source → Item)
    (sources : List Source) :
    minByKey key (sources.map function) =
      (minByKey (fun source => key (function source)) sources).map
        function := by
  cases sources with
  | nil =>
      rfl
  | cons source rest =>
      exact congrArg some (bestOf_map _ function source rest)

/-- The items of least key all have one label. -/
def LeastAgree
    {Label : Type*}
    (key : Item → Rank)
    (label : Item → Label)
    (items : List Item) : Prop :=
  ∀ item ∈ items,
    (∀ other ∈ items, key item ≤ key other) →
    ∀ other ∈ items, key other = key item → label other = label item

/--
The label of the answer is the same for every order of the items exactly when
all items of least key have it.
-/
theorem label_minByKey_perm_iff
    {Label : Type*}
    {label : Item → Label} :
    (∀ items',
        items.Perm items' →
        (minByKey key items').map label = (minByKey key items).map label) ↔
      LeastAgree key label items := by
  classical
  constructor
  · intro always item listed least other listed' sameKey
    have answered
        {first : Item}
        (isListed : first ∈ items)
        (isLeast : ∀ other ∈ items, key first ≤ key other) :
        some (label first) = (minByKey key items).map label := by
      have isFirst :
          minByKey key (first :: items.erase first) = some first :=
        minByKey_cons_of_least fun other isOther =>
          isLeast other (List.mem_of_mem_erase isOther)
      rw [← always _ (List.perm_cons_erase isListed), isFirst,
        Option.map_some]
    have otherLeast : ∀ further ∈ items, key other ≤ key further :=
      fun further isListed => sameKey ▸ least further isListed
    exact
      Option.some_inj.mp
        ((answered listed' otherLeast).trans (answered listed least).symm)
  · intro agree items' reordered
    cases found : minByKey key items with
    | none =>
        rw [minByKey_eq_none_iff] at found
        subst found
        rw [reordered.nil_eq.symm]
        rfl
    | some item =>
        rcases minByKey_spec found with ⟨listed, least⟩
        cases found' : minByKey key items' with
        | none =>
            rw [minByKey_eq_none_iff] at found'
            subst found'
            rw [reordered.eq_nil] at listed
            exact absurd listed List.not_mem_nil
        | some item' =>
            rcases minByKey_spec found' with ⟨listed', least'⟩
            have isListed := reordered.mem_iff.mpr listed'
            rw [Option.map_some, Option.map_some, Option.some_inj]
            apply agree item listed least item' isListed
            exact
              le_antisymm (least' item (reordered.mem_iff.mp listed))
                (least item' isListed)

end BestScan
