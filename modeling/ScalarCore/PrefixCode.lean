import Mathlib.Data.List.Basic

namespace ScalarCore

/-!
# Prefix codes

A code whose words can be split off the front of any longer text.  A list of items
is read back from its words in a row, without their number or their lengths.
-/

/-- No word of the code is empty, or begins another word. -/
structure PrefixCode
    {Item Symbol : Type*}
    (encode : Item → List Symbol) :
    Prop where
  nonempty : ∀ item, encode item ≠ []
  splits :
    ∀ {item item' : Item} {rest rest' : List Symbol},
      encode item ++ rest = encode item' ++ rest' → item = item'

namespace PrefixCode

variable {Item Symbol : Type*}
variable {encode : Item → List Symbol}

/-- Blocks of one size are a prefix code. -/
theorem of_length
    {size : Nat}
    (positive : 0 < size)
    (length_eq : ∀ item, (encode item).length = size)
    (injective : Function.Injective encode) :
    PrefixCode encode where
  nonempty item isEmpty := by
    have lengths := length_eq item
    rw [isEmpty, List.length_nil] at lengths
    exact Nat.ne_of_lt positive lengths
  splits := by
    intro item item' rest rest' same
    have sameLength := (length_eq item).trans (length_eq item').symm
    exact injective (List.append_inj_left same sameLength)

theorem append_inj
    (code : PrefixCode encode)
    {item item' : Item}
    {rest rest' : List Symbol}
    (same : encode item ++ rest = encode item' ++ rest') :
    item = item' ∧ rest = rest' := by
  obtain rfl := code.splits same
  exact ⟨rfl, List.append_cancel_left same⟩

theorem flatMap_eq_nil_iff
    (code : PrefixCode encode)
    {items : List Item} :
    items.flatMap encode = [] ↔ items = [] := by
  constructor
  · intro isEmpty
    cases items with
    | nil =>
        rfl
    | cons item rest =>
        have word := List.flatMap_eq_nil_iff.mp isEmpty item List.mem_cons_self
        exact absurd word (code.nonempty item)
  · rintro rfl
    rfl

/-- A list is read back from its words, one item after the other. -/
theorem flatMap_injective (code : PrefixCode encode) :
    Function.Injective fun items : List Item => items.flatMap encode := by
  intro items items' same
  simp only at same
  induction items generalizing items' with
  | nil =>
      exact (code.flatMap_eq_nil_iff.mp same.symm).symm
  | cons item rest inductionHypothesis =>
      cases items' with
      | nil =>
          exact absurd (code.flatMap_eq_nil_iff.mp same) (List.cons_ne_nil item rest)
      | cons item' rest' =>
          rw [List.flatMap_cons, List.flatMap_cons] at same
          obtain ⟨sameItem, sameRest⟩ := code.append_inj same
          rw [sameItem, inductionHypothesis sameRest]

end PrefixCode

end ScalarCore
