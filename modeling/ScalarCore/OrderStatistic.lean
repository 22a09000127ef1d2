import ScalarCore.KeyedSort
import Mathlib.Data.Fintype.Card
import Mathlib.Data.Finset.Max
import Mathlib.Data.Multiset.Sort

namespace OrderStatistic

/-!
# Order statistics of a prefix

The key at a rank of a list and of a prefix of the list.  What stands at a rank
depends on the items and not on their order; what stands at that rank of a
prefix moves with the order, between two ranks of the whole list.
-/

open KeyedSort

variable {Item Key : Type*} [LinearOrder Key] {key : Item → Key}

/-- The key at a rank, counted from zero in ascending order. -/
def keyOfRank (key : Item → Key) (items : List Item) (rank : Nat) : Option Key :=
  ((sortByKey key items).map key)[rank]?

/-- The items whose keys are within a bound. -/
def countWithin (key : Item → Key) (items : List Item) (bound : Key) : Nat :=
  items.countP fun item => decide (key item ≤ bound)

/-- In an ascending list the items within a bound come first. -/
theorem lt_countWithin_iff_of_pairwise
    {items : List Item}
    (ascending : items.Pairwise fun left right => key left ≤ key right)
    {rank : Nat}
    {value bound : Key}
    (found : (items.map key)[rank]? = some value) :
    rank < countWithin key items bound ↔ value ≤ bound := by
  induction items generalizing rank with
  | nil =>
      cases found
  | cons item rest inductionHypothesis =>
      rcases List.pairwise_cons.mp ascending with ⟨least, restAscending⟩
      have noneWithin
          (beyond : ¬key item ≤ bound) :
          countWithin key (item :: rest) bound = 0 := by
        rw [countWithin, List.countP_eq_zero]
        intro other listed
        rw [decide_eq_true_eq]
        rcases List.mem_cons.mp listed with rfl | later
        · exact beyond
        · exact fun within => beyond ((least other later).trans within)
      by_cases within : key item ≤ bound
      · have count :
            countWithin key (item :: rest) bound =
              countWithin key rest bound + 1 :=
          List.countP_cons_of_pos (decide_eq_true within)
        cases rank with
        | zero =>
            cases found
            exact iff_of_true (count ▸ Nat.succ_pos _) within
        | succ rank =>
            rw [count, Nat.succ_lt_succ_iff]
            exact inductionHypothesis restAscending found
      · rw [noneWithin within]
        apply iff_of_false (Nat.not_lt_zero rank)
        intro valueWithin
        cases rank with
        | zero =>
            cases found
            exact within valueWithin
        | succ rank =>
            have inRest : (rest.map key)[rank]? = some value := found
            rcases List.mem_map.mp (List.mem_of_getElem? inRest) with
              ⟨other, later, rfl⟩
            exact within ((least other later).trans valueWithin)

/-- A rank is among the items within a bound when its key is. -/
theorem lt_countWithin_iff
    {items : List Item}
    {rank : Nat}
    {value bound : Key}
    (found : keyOfRank key items rank = some value) :
    rank < countWithin key items bound ↔ value ≤ bound := by
  rw [countWithin, ← (sortByKey_perm key items).countP_eq]
  exact lt_countWithin_iff_of_pairwise (pairwise_sortByKey key items) found

/-- Every rank below the length has a key. -/
theorem exists_keyOfRank
    (key : Item → Key)
    {items : List Item}
    {rank : Nat}
    (inRange : rank < items.length) :
    ∃ value, keyOfRank key items rank = some value := by
  have inSorted : rank < ((sortByKey key items).map key).length := by
    rw [List.length_map, (sortByKey_perm key items).length_eq]
    exact inRange
  exact ⟨_, List.getElem?_eq_getElem inSorted⟩

/-- Keys ascend with the rank. -/
theorem keyOfRank_mono
    {items : List Item}
    {rank rank' : Nat}
    {value value' : Key}
    (order : rank ≤ rank')
    (found : keyOfRank key items rank = some value)
    (found' : keyOfRank key items rank' = some value') :
    value ≤ value' :=
  (lt_countWithin_iff found).mp
    (order.trans_lt ((lt_countWithin_iff found').mpr le_rfl))

/-- The ascending keys do not depend on the order of the items. -/
theorem keyOfRank_perm
    {items items' : List Item}
    (reordered : items'.Perm items)
    (rank : Nat) :
    keyOfRank key items' rank = keyOfRank key items rank := by
  have ascending (list : List Item) :
      ((sortByKey key list).map key).Pairwise (· ≤ ·) :=
    List.pairwise_map.mpr (pairwise_sortByKey key list)
  have sameKeys :
      ((sortByKey key items').map key).Perm ((sortByKey key items).map key) :=
    ((sortByKey_perm key items').trans
      (reordered.trans (sortByKey_perm key items).symm)).map key
  rw [keyOfRank, keyOfRank,
    sameKeys.eq_of_pairwise' (ascending items') (ascending items)]

/-- The keys may be computed before the items are ranked. -/
theorem keyOfRank_map
    {Source : Type*}
    (function : Source → Item)
    (sources : List Source)
    (rank : Nat) :
    keyOfRank key (sources.map function) rank =
      keyOfRank (fun source => key (function source)) sources rank := by
  rw [keyOfRank, ← map_sortByKey, List.map_map, keyOfRank]
  rfl

/-- The keys of all ranks are the sorted multiset of keys. -/
theorem keyOfRank_eq_sort (items : List Item) (rank : Nat) :
    keyOfRank key items rank =
      ((items.map key : Multiset Key).sort (· ≤ ·))[rank]? := by
  have sameKeys :
      ((sortByKey key items).map key).Perm
        ((items.map key : Multiset Key).sort (· ≤ ·)) := by
    rw [← Multiset.coe_eq_coe, Multiset.sort_eq, Multiset.coe_eq_coe]
    exact (sortByKey_perm key items).map key
  have ascending :
      ((sortByKey key items).map key).Pairwise (· ≤ ·) :=
    List.pairwise_map.mpr (pairwise_sortByKey key items)
  rw [keyOfRank,
    sameKeys.eq_of_pairwise' ascending (Multiset.pairwise_sort _ _)]

/-- What a prefix leaves out of the items within a bound. -/
theorem countWithin_le_take
    (key : Item → Key)
    (items : List Item)
    (size : Nat)
    (bound : Key) :
    countWithin key items bound ≤
      countWithin key (items.take size) bound + (items.length - size) := by
  have parts :
      countWithin key items bound =
        countWithin key (items.take size) bound +
          countWithin key (items.drop size) bound := by
    rw [countWithin, countWithin, countWithin, ← List.countP_append,
      List.take_append_drop]
  have rest :
      countWithin key (items.drop size) bound ≤ items.length - size :=
    List.length_drop ▸ List.countP_le_length
  omega

/--
A rank of a prefix lies between two ranks of the whole list: the same rank, and
the one as far from the end as it is in the prefix.
-/
theorem keyOfRank_take_bounds
    {items : List Item}
    {size rank : Nat}
    {low value high : Key}
    (atRank : keyOfRank key items rank = some low)
    (fromEnd : keyOfRank key items (items.length - size + rank) = some high)
    (found : keyOfRank key (items.take size) rank = some value) :
    low ≤ value ∧ value ≤ high := by
  constructor
  · have inPrefix := (lt_countWithin_iff found).mpr le_rfl
    have fewer :
        countWithin key (items.take size) value ≤
          countWithin key items value :=
      (List.take_sublist size items).countP_le
    exact (lt_countWithin_iff atRank).mp (inPrefix.trans_le fewer)
  · have inAll := (lt_countWithin_iff fromEnd).mpr le_rfl
    have more := countWithin_le_take key items size high
    apply (lt_countWithin_iff found).mp
    omega

variable {items : List Item} {size rank : Nat}

/-- The ascending order has the low end of the bounds in its prefix. -/
theorem keyOfRank_take_sorted (inPrefix : rank < size) :
    keyOfRank key ((sortByKey key items).take size) rank =
      keyOfRank key items rank := by
  have ascending := (pairwise_sortByKey key items).take (i := size)
  rw [keyOfRank, sortByKey_of_pairwise ascending, List.map_take,
    List.getElem?_take_of_lt inPrefix, keyOfRank]

/-- The ascending items with the last `size` of them moved to the front. -/
def largestFirst (key : Item → Key) (items : List Item) (size : Nat) : List Item :=
  (sortByKey key items).drop (items.length - size) ++
    (sortByKey key items).take (items.length - size)

theorem largestFirst_perm : (largestFirst key items size).Perm items := by
  have moved :
      (largestFirst key items size).Perm (sortByKey key items) := by
    have whole :=
      List.take_append_drop (items.length - size) (sortByKey key items)
    exact (List.perm_append_comm.trans (List.Perm.of_eq whole))
  exact moved.trans (sortByKey_perm key items)

/-- With the largest items first the prefix has the high end of the bounds. -/
theorem keyOfRank_take_largestFirst (inItems : size ≤ items.length) :
    keyOfRank key ((largestFirst key items size).take size) rank =
      keyOfRank key items (items.length - size + rank) := by
  have last :
      ((sortByKey key items).drop (items.length - size)).length = size := by
    rw [List.length_drop, (sortByKey_perm key items).length_eq]
    omega
  have isPrefix :
      (largestFirst key items size).take size =
        (sortByKey key items).drop (items.length - size) := by
    rw [largestFirst, List.take_append_of_le_length last.ge,
      List.take_of_length_le last.le]
  have ascending :=
    (pairwise_sortByKey key items).drop (i := items.length - size)
  rw [isPrefix, keyOfRank, sortByKey_of_pairwise ascending, List.map_drop,
    List.getElem?_drop, keyOfRank]

/--
A rank of the prefix is the same for every order of the items exactly when the
two ranks that bound it coincide.
-/
theorem keyOfRank_take_perm_iff
    (inPrefix : rank < size)
    (inItems : size ≤ items.length) :
    (∀ items₁ items₂ : List Item,
        items₁.Perm items →
        items₂.Perm items →
        keyOfRank key (items₁.take size) rank =
          keyOfRank key (items₂.take size) rank) ↔
      keyOfRank key items rank =
        keyOfRank key items (items.length - size + rank) := by
  constructor
  · intro always
    rw [← keyOfRank_take_sorted inPrefix, ← keyOfRank_take_largestFirst inItems]
    exact always _ _ (sortByKey_perm key items) largestFirst_perm
  · intro coincide
    have constant
        {order : List Item}
        (reordered : order.Perm items) :
        keyOfRank key (order.take size) rank = keyOfRank key items rank := by
      have sameLength := reordered.length_eq
      obtain ⟨low, atRank⟩ :=
        exists_keyOfRank key (inPrefix.trans_le inItems)
      obtain ⟨value, found⟩ :=
        exists_keyOfRank key
          (show rank < (order.take size).length by
            rw [List.length_take, sameLength, Nat.min_eq_left inItems]
            exact inPrefix)
      have bounds :=
        keyOfRank_take_bounds
          ((keyOfRank_perm reordered rank).trans atRank)
          ((keyOfRank_perm reordered _).trans
            (sameLength ▸ coincide.symm.trans atRank))
          found
      rw [found, atRank, le_antisymm bounds.2 bounds.1]
    intro first second isOrder isOrder'
    rw [constant isOrder, constant isOrder']

/-!
## Reports that are not all honest
-/

section Reports

variable {size : Nat} {report : Fin size → Item} {liars : Finset (Fin size)}
variable {rank : Nat} {value : Key}

/-- The positions whose reports are within a bound. -/
def withinBound
    (key : Item → Key)
    (report : Fin size → Item)
    (bound : Key) : Finset (Fin size) :=
  Finset.univ.filter fun position => key (report position) ≤ bound

theorem mem_withinBound
    {bound : Key}
    {position : Fin size} :
    position ∈ withinBound key report bound ↔ key (report position) ≤ bound := by
  simp [withinBound]

/-- The reports within a bound, counted by position. -/
theorem countWithin_ofFn (bound : Key) :
    countWithin key (List.ofFn report) bound =
      (withinBound key report bound).card := by
  rw [countWithin, List.ofFn_eq_map, List.countP_map,
    List.countP_eq_length_filter]
  rfl

/-- Reports that are counted and within a bound put the rank within it. -/
theorem le_of_forall_report_le
    (found : keyOfRank key (List.ofFn report) rank = some value)
    {counted : Finset (Fin size)}
    (many : rank < counted.card)
    {bound : Key}
    (within : ∀ position ∈ counted, key (report position) ≤ bound) :
    value ≤ bound := by
  have included : counted ⊆ withinBound key report bound := by
    intro position isCounted
    exact mem_withinBound.mpr (within position isCounted)
  apply (lt_countWithin_iff found).mp
  rw [countWithin_ofFn]
  exact many.trans_le (Finset.card_le_card included)

/-- With more honest reports than the rank, one of them is at or above it. -/
theorem exists_honest_ge
    (found : keyOfRank key (List.ofFn report) rank = some value)
    (many : rank < liarsᶜ.card) :
    ∃ honest ∉ liars, value ≤ key (report honest) := by
  have someHonest : liarsᶜ.Nonempty :=
    Finset.card_pos.mp (Nat.zero_lt_of_lt many)
  obtain ⟨highest, isHonest, isHighest⟩ :=
    liarsᶜ.exists_max_image (fun position => key (report position)) someHonest
  exact
    ⟨highest, Finset.mem_compl.mp isHonest,
      le_of_forall_report_le found many isHighest⟩

/-- The positions whose reports are below every honest one. -/
def belowHonest
    (key : Item → Key)
    (report : Fin size → Item)
    (liars : Finset (Fin size)) : Finset (Fin size) :=
  Finset.univ.filter fun position =>
    ∀ honest ∉ liars, key (report position) < key (report honest)

/--
Some honest report is at or below the rank exactly when no more reports than
the rank are below all of them.
-/
theorem exists_honest_le_iff
    (found : keyOfRank key (List.ofFn report) rank = some value) :
    (∃ honest ∉ liars, key (report honest) ≤ value) ↔
      (belowHonest key report liars).card ≤ rank := by
  constructor
  · intro ⟨honest, isHonest, honestWithin⟩
    by_contra more
    have many := Nat.lt_of_not_le more
    obtain ⟨highest, isBelow, isHighest⟩ :=
      (belowHonest key report liars).exists_max_image
        (fun position => key (report position))
        (Finset.card_pos.mp (Nat.zero_lt_of_lt many))
    have valueWithin := le_of_forall_report_le found many isHighest
    have highestBelow :=
      (Finset.mem_filter.mp isBelow).2 honest isHonest
    exact
      absurd (honestWithin.trans valueWithin) (not_le_of_gt highestBelow)
  · intro few
    by_contra noneWithin
    push Not at noneWithin
    have included :
        withinBound key report value ⊆ belowHonest key report liars := by
      intro position isWithin
      refine Finset.mem_filter.mpr ⟨Finset.mem_univ _, ?_⟩
      intro honest isHonest
      exact
        lt_of_le_of_lt (mem_withinBound.mp isWithin)
          (noneWithin honest isHonest)
    have inRank := (lt_countWithin_iff found).mpr le_rfl
    rw [countWithin_ofFn] at inRank
    exact
      absurd (Finset.card_le_card included)
        (Nat.not_le.mpr (few.trans_lt inRank))

end Reports

end OrderStatistic
