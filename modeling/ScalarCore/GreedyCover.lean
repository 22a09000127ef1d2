import Mathlib.Algebra.BigOperators.Group.Multiset.Basic
import Mathlib.Algebra.Order.BigOperators.Group.Multiset
import Mathlib.Algebra.Order.Sub.Defs
import Mathlib.Tactic.Common

namespace GreedyCover

/-!
# Covering an amount with few items

An amount is covered by a pool within a number of slots when some items of the
pool, no more than the slots, reach it together.  The greatest item can always
be among them: an item of any other choice can be exchanged for it.
-/

variable {Amount : Type*} [AddCommMonoid Amount] [LinearOrder Amount]

/-- Some items of the pool, no more than the slots, reach the amount. -/
def Covers
    (slots : Nat)
    (pool : Multiset Amount)
    (needed : Amount) : Prop :=
  ∃ chosen ≤ pool, chosen.card ≤ slots ∧ needed ≤ chosen.sum

variable {slots : Nat} {pool : Multiset Amount} {needed : Amount}

/-- Without slots only nothing is covered. -/
theorem covers_noSlots_iff : Covers 0 pool needed ↔ needed ≤ 0 := by
  constructor
  · intro ⟨chosen, _, noSlots, reached⟩
    rw [Multiset.card_eq_zero.mp (Nat.le_zero.mp noSlots),
      Multiset.sum_zero] at reached
    exact reached
  · intro nothing
    exact ⟨0, Multiset.zero_le pool, le_rfl, nothing⟩

/-- One item that reaches the amount covers it. -/
theorem covers_of_mem
    {item : Amount}
    (listed : item ∈ pool)
    (reaches : needed ≤ item) :
    Covers (slots + 1) pool needed := by
  refine ⟨{item}, Multiset.singleton_le.mpr listed, ?_, ?_⟩
  · rw [Multiset.card_singleton]
    exact Nat.succ_le_succ (Nat.zero_le slots)
  · rwa [Multiset.sum_singleton]

variable [CanonicallyOrderedAdd Amount]

/-- Nothing is needed to cover nothing. -/
theorem covers_zero : Covers slots pool (0 : Amount) :=
  ⟨0, Multiset.zero_le pool, Nat.zero_le _, zero_le⟩

/-- With a slot for each item the whole pool decides. -/
theorem covers_iff_sum
    (enough : pool.card ≤ slots) :
    Covers slots pool needed ↔ needed ≤ pool.sum := by
  constructor
  · intro ⟨chosen, isPart, _, reached⟩
    obtain ⟨rest, rfl⟩ := Multiset.le_iff_exists_add.mp isPart
    rw [Multiset.sum_add]
    exact reached.trans le_self_add
  · intro reached
    exact ⟨pool, le_rfl, enough, reached⟩

variable [IsOrderedAddMonoid Amount] [Sub Amount] [OrderedSub Amount]

/-- The greatest item can be taken first. -/
theorem covers_erase_greatest_iff
    {greatest : Amount}
    (listed : greatest ∈ pool)
    (isGreatest : ∀ item ∈ pool, item ≤ greatest) :
    Covers (slots + 1) pool needed ↔
      Covers slots (pool.erase greatest) (needed - greatest) := by
  constructor
  · intro ⟨chosen, isPart, few, reached⟩
    -- the item that gives its place to the greatest one
    rcases chosen.empty_or_exists_mem with rfl | ⟨item, isChosen⟩
    · refine ⟨0, Multiset.zero_le _, Nat.zero_le slots, ?_⟩
      rw [tsub_le_iff_right]
      exact reached.trans (by simp)
    · by_cases takesGreatest : greatest ∈ chosen
      · refine
          ⟨chosen.erase greatest, Multiset.erase_le_erase greatest isPart,
            ?_, ?_⟩
        · rw [Multiset.card_erase_of_mem takesGreatest]
          exact Nat.sub_le_of_le_add few
        · rw [tsub_le_iff_right, add_comm, Multiset.sum_erase takesGreatest]
          exact reached
      · have others : chosen ≤ pool.erase greatest := by
          rw [← Multiset.erase_of_notMem takesGreatest]
          exact Multiset.erase_le_erase greatest isPart
        refine
          ⟨chosen.erase item, (Multiset.erase_le item chosen).trans others,
            ?_, ?_⟩
        · rw [Multiset.card_erase_of_mem isChosen]
          exact Nat.sub_le_of_le_add few
        · have smaller := isGreatest item (Multiset.mem_of_le isPart isChosen)
          rw [tsub_le_iff_right]
          calc needed
              ≤ chosen.sum := reached
            _ = item + (chosen.erase item).sum :=
                (Multiset.sum_erase isChosen).symm
            _ ≤ greatest + (chosen.erase item).sum := by gcongr
            _ = (chosen.erase item).sum + greatest := add_comm _ _
  · intro ⟨chosen, isPart, few, reached⟩
    refine ⟨greatest ::ₘ chosen, ?_, ?_, ?_⟩
    · rw [← Multiset.cons_erase listed]
      exact Multiset.cons_le_cons greatest isPart
    · rw [Multiset.card_cons]
      exact Nat.succ_le_succ few
    · rw [Multiset.sum_cons, add_comm]
      exact tsub_le_iff_right.mp reached

end GreedyCover
