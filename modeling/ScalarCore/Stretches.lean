import Mathlib.Algebra.BigOperators.Group.List.Basic
import Mathlib.Algebra.GroupWithZero.Nat
import Mathlib.Data.List.SplitBy
import Mathlib.Tactic.Common

namespace Stretches

/-!
# Stretches of one key

A list of items falls into stretches in which a key stays the same.  A key that is
never taken up again has one stretch, so what is limited in each stretch is limited
in the whole list.
-/

variable {Item Key : Type*}

/-- The longest stretches of items with one key. -/
def stretches
    [DecidableEq Key]
    (key : Item → Key)
    (items : List Item) :
    List (List Item) :=
  items.splitBy fun item item' => decide (key item = key item')

/-- Stretches that are not empty, have one key, and another key than the next one. -/
structure Stretched (key : Item → Key) (blocks : List (List Item)) : Prop where
  nonempty : ∀ block ∈ blocks, block ≠ []
  sameKey : ∀ block ∈ blocks, ∀ item ∈ block, ∀ item' ∈ block, key item = key item'
  turns :
    blocks.IsChain fun block block' => ∀ item ∈ block, ∀ item' ∈ block', key item ≠ key item'

theorem flatten_stretches
    [DecidableEq Key]
    (key : Item → Key)
    (items : List Item) :
    (stretches key items).flatten = items :=
  List.flatten_splitBy _ items

/-- A list whose neighbours share their key has one key. -/
theorem sameKey_of_isChain
    {key : Item → Key}
    {block : List Item}
    (neighbours : block.IsChain fun item item' => key item = key item') :
    ∀ item ∈ block, ∀ item' ∈ block, key item = key item' := by
  have transitive : IsTrans Item fun item item' => key item = key item' :=
    ⟨fun _ _ _ => Eq.trans⟩
  have symmetric : Std.Symm fun item item' => key item = key item' :=
    ⟨fun _ _ => Eq.symm⟩
  have pairs := List.isChain_iff_pairwise.mp neighbours
  intro item listed item' listed'
  exact
    List.Pairwise.forall_of_forall (R := fun item item' => key item = key item')
      (fun _ _ => rfl) pairs listed listed'

theorem stretched_stretches
    [DecidableEq Key]
    (key : Item → Key)
    (items : List Item) :
    Stretched key (stretches key items) := by
  have sameKey :
      ∀ block ∈ stretches key items,
        ∀ item ∈ block, ∀ item' ∈ block, key item = key item' := by
    intro block listed
    apply sameKey_of_isChain
    exact (List.isChain_of_mem_splitBy listed).imp fun _ _ => of_decide_eq_true
  refine ⟨fun block listed => List.ne_nil_of_mem_splitBy listed, sameKey, ?_⟩
  refine (List.isChain_getLast_head_splitBy _ items).imp_of_mem_imp ?_
  rintro block block' listed listed' ⟨nonempty, nonempty', differ⟩ item inBlock item' inBlock' same
  apply of_decide_eq_false differ
  calc key (block.getLast nonempty)
      = key item := sameKey block listed _ (List.getLast_mem nonempty) item inBlock
    _ = key item' := same
    _ = key (block'.head nonempty') :=
        sameKey block' listed' item' inBlock' _ (List.head_mem nonempty')

theorem Stretched.tail
    {key : Item → Key}
    {block : List Item}
    {rest : List (List Item)}
    (stretched : Stretched key (block :: rest)) :
    Stretched key rest where
  nonempty other listed := stretched.nonempty other (List.mem_cons_of_mem block listed)
  sameKey other listed := stretched.sameKey other (List.mem_cons_of_mem block listed)
  turns := stretched.turns.tail

/-- No key is taken up again after another one. -/
def NeverReturns (key : Item → Key) (items : List Item) : Prop :=
  ∀ item item' item'' : Item,
    [item, item', item''].Sublist items → key item = key item'' → key item = key item'

theorem NeverReturns.sublist
    {key : Item → Key}
    {items items' : List Item}
    (neverReturns : NeverReturns key items)
    (part : items'.Sublist items) :
    NeverReturns key items' :=
  fun item item' item'' listed => neverReturns item item' item'' (listed.trans part)

/-- A key that is not taken up again is that of one stretch only. -/
theorem Stretched.ne_of_neverReturns
    {key : Item → Key}
    {block : List Item}
    {rest : List (List Item)}
    (stretched : Stretched key (block :: rest))
    (neverReturns : NeverReturns key (block :: rest).flatten)
    {item item' : Item}
    (inBlock : item ∈ block)
    (inRest : item' ∈ rest.flatten) :
    key item ≠ key item' := by
  intro same
  cases rest with
  | nil =>
      exact absurd inRest List.not_mem_nil
  | cons next later =>
      have turns := List.isChain_cons_cons.mp stretched.turns
      obtain ⟨between, inNext⟩ :=
        List.exists_mem_of_ne_nil next (stretched.nonempty next (by simp))
      rw [List.flatten_cons, List.mem_append] at inRest
      obtain inNext' | inLater := inRest
      · exact turns.1 item inBlock item' inNext' same
      · have part : [item, between, item'].Sublist (block :: next :: later).flatten := by
          rw [List.flatten_cons, List.flatten_cons]
          exact
            (List.singleton_sublist.mpr inBlock).append
              ((List.singleton_sublist.mpr inNext).append (List.singleton_sublist.mpr inLater))
        exact turns.1 item inBlock between inNext (neverReturns _ _ _ part same)

/-- What is limited in each stretch is limited where no key is taken up again. -/
theorem Stretched.sum_min_count_le
    [DecidableEq Item]
    {key : Item → Key}
    {blocks : List (List Item)}
    (stretched : Stretched key blocks)
    (neverReturns : NeverReturns key blocks.flatten)
    (limit : Nat)
    (item : Item) :
    (blocks.map fun block => min limit (block.count item)).sum ≤ limit := by
  induction blocks with
  | nil =>
      exact Nat.zero_le limit
  | cons block rest inductionHypothesis =>
      rw [List.map_cons, List.sum_cons]
      by_cases inBlock : item ∈ block
      · have notLater : ∀ other ∈ rest, min limit (other.count item) = 0 := by
          intro other listed
          have absent : item ∉ other := by
            intro inOther
            have inRest : item ∈ rest.flatten := List.mem_flatten_of_mem listed inOther
            exact stretched.ne_of_neverReturns neverReturns inBlock inRest rfl
          rw [List.count_eq_zero_of_not_mem absent, Nat.min_zero]
        have nothingLater :
            (rest.map fun other => min limit (other.count item)).sum = 0 :=
          List.sum_eq_zero (List.forall_mem_map.mpr notLater)
        rw [nothingLater, Nat.add_zero]
        exact Nat.min_le_left _ _
      · have inRest :=
          inductionHypothesis stretched.tail
            (neverReturns.sublist (List.sublist_append_right block rest.flatten))
        rwa [List.count_eq_zero_of_not_mem inBlock, Nat.min_zero, Nat.zero_add]

end Stretches
