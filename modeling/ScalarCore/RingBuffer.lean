import Mathlib.Data.Nat.ModEq
import Mathlib.Data.List.Nodup
import Mathlib.Data.List.Perm.Subperm
import Mathlib.Tactic.Common

namespace RingBuffer

/-!
# Ring buffers

A list of slots is written round and round.  What was pushed last stands just
before the next slot, and what was pushed before it one slot further back, so the
slots hold the latest items, each once.
-/

variable {α : Type*}

/-- The slot of the item that has the given number of later ones. -/
def slotOf (capacity next age : Nat) : Nat :=
  (next + (capacity - 1 - age)) % capacity

/-- The slots hold the latest of the pushed items, each in its place. -/
structure Holds
    (capacity : Nat)
    (slots : List (Option α))
    (next : Nat)
    (pushed : List α) : Prop where
  length : slots.length = capacity
  next_lt : next < capacity
  items :
    ∀ age < capacity,
      slots[slotOf capacity next age]? = some pushed.reverse[age]?

variable {capacity next age : Nat} {slots : List (Option α)} {pushed : List α}

theorem slotOf_lt (next_lt : next < capacity) (age : Nat) :
    slotOf capacity next age < capacity :=
  Nat.mod_lt _ (Nat.zero_lt_of_lt next_lt)

/-- Items of different ages have different slots. -/
theorem slotOf_injOn
    {age age' : Nat}
    (young : age < capacity)
    (young' : age' < capacity)
    (same : slotOf capacity next age = slotOf capacity next age') :
    age = age' := by
  have congruent : capacity - 1 - age ≡ capacity - 1 - age' [MOD capacity] :=
    Nat.ModEq.add_left_cancel' next same
  have equal := congruent.eq_of_lt_of_lt (by omega) (by omega)
  omega

/-- A push makes every item one step older. -/
theorem slotOf_succ (old : age + 1 < capacity) :
    slotOf capacity ((next + 1) % capacity) (age + 1) = slotOf capacity next age := by
  rw [slotOf, slotOf, Nat.mod_add_mod]
  congr 1
  omega

/-- The newest item is where the next one was to go. -/
theorem slotOf_zero (next_lt : next < capacity) :
    slotOf capacity ((next + 1) % capacity) 0 = next := by
  rw [slotOf, Nat.mod_add_mod, Nat.sub_zero]
  have whole : next + 1 + (capacity - 1) = next + capacity := by omega
  rw [whole, Nat.add_mod_right]
  exact Nat.mod_eq_of_lt next_lt

theorem holds_empty (positive : 0 < capacity) :
    Holds capacity (List.replicate capacity (none : Option α)) 0 [] where
  length := List.length_replicate
  next_lt := positive
  items age _ := by
    rw [List.getElem?_replicate, if_pos (slotOf_lt positive age)]
    rfl

/-- The slot that is written is that of the oldest item, if there are that many. -/
theorem Holds.push
    (holds : Holds capacity slots next pushed)
    (item : α) :
    Holds capacity (slots.set next (some item)) ((next + 1) % capacity) (pushed ++ [item]) where
  length := by rw [List.length_set, holds.length]
  next_lt := Nat.mod_lt _ (Nat.zero_lt_of_lt holds.next_lt)
  items age young := by
    rw [List.reverse_append, List.reverse_singleton, List.singleton_append]
    cases age with
    | zero =>
        have inSlots : next < slots.length := by
          rw [holds.length]
          exact holds.next_lt
        rw [slotOf_zero holds.next_lt, List.getElem?_set_self inSlots]
        rfl
    | succ age =>
        have elsewhere : next ≠ slotOf capacity next age := by
          intro same
          have oldest : slotOf capacity next (capacity - 1) = next := by
            rw [slotOf, Nat.sub_self, Nat.add_zero]
            exact Nat.mod_eq_of_lt holds.next_lt
          have isOldest :=
            slotOf_injOn (Nat.lt_of_succ_lt young) (by omega) (same.symm.trans oldest.symm)
          omega
        rw [slotOf_succ young, List.getElem?_set_ne elsewhere,
          holds.items age (Nat.lt_of_succ_lt young)]
        rfl

/-- The first places of a list hold its first items. -/
theorem filterMap_range_getElem? (items : List α) (count : Nat) :
    (List.range count).filterMap (items[·]?) = items.take count := by
  induction count with
  | zero =>
      rfl
  | succ count inductionHypothesis =>
      rw [List.range_succ, List.filterMap_append, inductionHypothesis, List.take_add_one,
        List.filterMap_cons]
      cases items[count]? <;> rfl

/-- The slots of all ages are all slots. -/
theorem map_slotOf_perm (next_lt : next < capacity) :
    ((List.range capacity).map (slotOf capacity next)).Perm (List.range capacity) := by
  have distinct : ((List.range capacity).map (slotOf capacity next)).Nodup :=
    List.nodup_range.map_on fun age young age' young' same =>
      slotOf_injOn (List.mem_range.mp young) (List.mem_range.mp young') same
  refine (List.subperm_of_subset distinct fun slot isSlot => ?_).perm_of_length_le ?_
  · obtain ⟨age, _, rfl⟩ := List.mem_map.mp isSlot
    exact List.mem_range.mpr (slotOf_lt next_lt age)
  · rw [List.length_map]

/-- The slots hold the latest items, in some order. -/
theorem Holds.perm (holds : Holds capacity slots next pushed) :
    (slots.filterMap id).Perm (pushed.reverse.take capacity) := by
  have places : slots = (List.range capacity).map fun slot => (slots[slot]?).join := by
    apply List.ext_getElem?
    intro slot
    rw [List.getElem?_map]
    by_cases inSlots : slot < slots.length
    · rw [List.getElem?_range (by rwa [← holds.length]), Option.map_some,
        List.getElem?_eq_getElem inSlots]
      rfl
    · rw [List.getElem?_eq_none (Nat.le_of_not_lt inSlots),
        List.getElem?_eq_none (by rw [List.length_range, ← holds.length]; omega)]
      rfl
  have byAge :
      ((List.range capacity).map (slotOf capacity next)).map (fun slot => (slots[slot]?).join) =
        (List.range capacity).map (pushed.reverse[·]?) := by
    rw [List.map_map]
    apply List.map_congr_left
    intro age young
    rw [Function.comp_apply, holds.items age (List.mem_range.mp young)]
    rfl
  have latest :
      ((List.range capacity).map (pushed.reverse[·]?)).filterMap id =
        pushed.reverse.take capacity := by
    rw [List.filterMap_map]
    exact filterMap_range_getElem? pushed.reverse capacity
  rw [← latest, ← byAge]
  conv_lhs => rw [places]
  exact (((map_slotOf_perm holds.next_lt).symm).map _).filterMap id

/-- The slot before the next one holds the last item. -/
theorem Holds.latest (holds : Holds capacity slots next pushed) :
    slots[(next + (capacity - 1)) % capacity]? = some pushed.getLast? := by
  have newest := holds.items 0 (Nat.zero_lt_of_lt holds.next_lt)
  rwa [slotOf, Nat.sub_zero, ← List.head?_eq_getElem?, List.head?_reverse] at newest

end RingBuffer
