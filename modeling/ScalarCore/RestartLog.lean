import Mathlib.Order.Basic
import ScalarCore.KeyedWrites

namespace RestartLog

/-!
# Logs of numbered items

Each key logs items of ascending rank and may restart its numbering.  An item
is retired once its key has restarted after it.  Where a restart is always a
new item and no retired item comes back, no item is logged twice: an item that
is not retired ranks no higher than the last of its key, and whatever follows
ranks above that.
-/

open KeyedWrites

variable {Item Key Rank : Type*} [DecidableEq Key] [Preorder Rank]

/-- Items are logged in a relation to the last item of their key. -/
def Linked
    (keyOf : Item → Key)
    (follows : Item → Item → Prop)
    (log : List Item) : Prop :=
  ∀ before item after,
    log = before ++ item :: after →
    ∀ last,
      lastFor keyOf (keyOf item) before = some last →
      follows last item

/-- An item is followed by a restart of its key. -/
def Retired
    (keyOf : Item → Key)
    (restarts : Item → Prop)
    (log : List Item)
    (item : Item) : Prop :=
  ∃ before restart after,
    log = before ++ restart :: after ∧
      item ∈ before ∧
      keyOf restart = keyOf item ∧
      restarts restart

/-- An item that may be logged next: a new restart, or an ascent. -/
inductive Admits
    (keyOf : Item → Key)
    (rank : Item → Rank)
    (restarts : Item → Prop)
    (log : List Item)
    (item : Item) : Prop where
  | restart
      (isRestart : restarts item)
      (isNew : item ∉ log)
  | ascent
      (notRetired : ¬ Retired keyOf restarts log item)
      (above :
        ∀ last,
          lastFor keyOf (keyOf item) log = some last →
          rank last < rank item)

/-- A log of distinct items, bounded by the last item of their key. -/
structure Ascending
    (keyOf : Item → Key)
    (rank : Item → Rank)
    (restarts : Item → Prop)
    (log : List Item) : Prop where
  nodup : log.Nodup
  bounded :
    ∀ item ∈ log,
      ¬ Retired keyOf restarts log item →
      ∀ last,
        lastFor keyOf (keyOf item) log = some last →
        rank item ≤ rank last

variable
  {keyOf : Item → Key}
  {rank : Item → Rank}
  {restarts : Item → Prop}
  {follows : Item → Item → Prop}
  {log : List Item}

/-- An occurrence in a longer log is the new item, or was there before. -/
theorem of_concat_eq
    {item item' : Item}
    {before after : List Item}
    (split : log ++ [item] = before ++ item' :: after) :
    (log = before ∧ item = item' ∧ after = []) ∨
      ∃ after', log = before ++ item' :: after' ∧ after = after' ++ [item] := by
  rcases List.eq_nil_or_concat after with rfl | ⟨after', last, rfl⟩
  · obtain ⟨sameLog, sameItem⟩ := List.append_inj' split rfl
    exact Or.inl ⟨sameLog, List.head_eq_of_cons_eq sameItem, rfl⟩
  · have regrouped : log ++ [item] = (before ++ item' :: after') ++ [last] := by
      rw [split, List.concat_eq_append, List.append_assoc, List.cons_append]
    obtain ⟨sameLog, sameItem⟩ := List.append_inj' regrouped rfl
    obtain rfl := List.head_eq_of_cons_eq sameItem
    exact Or.inr ⟨after', sameLog, List.concat_eq_append⟩

theorem linked_nil : Linked keyOf follows [] := by
  intro before item after split
  exact absurd split.symm (by simp)

/-- A log stays linked with an item that follows the last of its key. -/
theorem linked_concat
    {item : Item}
    (linked : Linked keyOf follows log)
    (followsLast :
      ∀ last,
        lastFor keyOf (keyOf item) log = some last →
        follows last item) :
    Linked keyOf follows (log ++ [item]) := by
  intro before item' after split
  rcases of_concat_eq split with ⟨rfl, rfl, rfl⟩ | ⟨after', rfl, rfl⟩
  · exact followsLast
  · exact linked before item' after' rfl

omit [DecidableEq Key] in
theorem mem_of_retired
    {item : Item}
    (retired : Retired keyOf restarts log item) :
    item ∈ log := by
  obtain ⟨before, restart, after, rfl, listed, _⟩ := retired
  exact List.mem_append_left _ listed

omit [DecidableEq Key] in
/-- The items of a key that restarts are retired. -/
theorem retired_concat_iff
    {item item' : Item} :
    Retired keyOf restarts (log ++ [item]) item' ↔
      Retired keyOf restarts log item' ∨
        (item' ∈ log ∧ keyOf item = keyOf item' ∧ restarts item) := by
  constructor
  · rintro ⟨before, restart, after, split, listed, sameKey, isRestart⟩
    rcases of_concat_eq split with ⟨rfl, rfl, rfl⟩ | ⟨after', rfl, rfl⟩
    · exact Or.inr ⟨listed, sameKey, isRestart⟩
    · exact Or.inl ⟨before, restart, after', rfl, listed, sameKey, isRestart⟩
  · rintro (⟨before, restart, after, rfl, listed, sameKey, isRestart⟩ |
      ⟨listed, sameKey, isRestart⟩)
    · exact
        ⟨before, restart, after ++ [item], by simp, listed, sameKey, isRestart⟩
    · exact ⟨log, item, [], rfl, listed, sameKey, isRestart⟩

theorem ascending_nil : Ascending keyOf rank restarts [] where
  nodup := List.nodup_nil
  bounded _ listed := absurd listed List.not_mem_nil

/-- An admitted item is new. -/
theorem not_mem_of_admits
    {item : Item}
    (ascending : Ascending keyOf rank restarts log)
    (admits : Admits keyOf rank restarts log item) :
    item ∉ log := by
  intro listed
  rcases admits with ⟨_, isNew⟩ | ⟨notRetired, above⟩
  · exact isNew listed
  · obtain ⟨last, isLast⟩ :
        ∃ last, lastFor keyOf (keyOf item) log = some last :=
      exists_lastFor listed
    have notAbove := ascending.bounded item listed notRetired last isLast
    exact not_lt_of_ge notAbove (above last isLast)

/-- A log stays ascending with an admitted item. -/
theorem ascending_concat
    {item : Item}
    (ascending : Ascending keyOf rank restarts log)
    (admits : Admits keyOf rank restarts log item) :
    Ascending keyOf rank restarts (log ++ [item]) := by
  have isNew := not_mem_of_admits ascending admits
  refine ⟨?_, ?_⟩
  · exact
      List.Nodup.append ascending.nodup (List.nodup_singleton _)
        (List.disjoint_singleton.mpr isNew)
  · intro item' listed notRetired last isLast
    rw [lastFor_concat] at isLast
    rw [retired_concat_iff, not_or] at notRetired
    obtain ⟨notRetiredBefore, notRetiredNow⟩ := notRetired
    rcases List.mem_append.mp listed with wasListed | isItem
    · by_cases sameKey : keyOf item = keyOf item'
      · rw [if_pos sameKey] at isLast
        cases isLast
        rcases admits with ⟨isRestart, _⟩ | ⟨_, above⟩
        · exact absurd ⟨wasListed, sameKey, isRestart⟩ notRetiredNow
        · obtain ⟨previous, isPrevious⟩ :
              ∃ previous, lastFor keyOf (keyOf item') log = some previous :=
            exists_lastFor wasListed
          have notAbove :=
            ascending.bounded item' wasListed notRetiredBefore previous
              isPrevious
          rw [← sameKey] at isPrevious
          exact notAbove.trans (above previous isPrevious).le
      · rw [if_neg sameKey] at isLast
        exact
          ascending.bounded item' wasListed notRetiredBefore last isLast
    · obtain rfl := List.mem_singleton.mp isItem
      rw [if_pos rfl] at isLast
      cases isLast
      exact le_refl _

end RestartLog
