import Mathlib.Data.List.Count
import Mathlib.Data.List.Induction
import Mathlib.Order.Hom.Basic
import Mathlib.Order.OrderDual
import Mathlib.Tactic.Common

namespace ExchangeOrder

/-!
# Words of two monotone steps

Two monotone steps are taken in some order.  When it is never better to take the
second one later, the word with all the first steps before the second ones ends
lowest, and the opposite word highest.
-/

variable {Value : Type*}

/-- The steps are monotone, and the second one is better taken first. -/
structure Exchanges [Preorder Value] (step : Bool → Value → Value) : Prop where
  monotone : ∀ kind, Monotone (step kind)
  exchange : ∀ value, step false (step true value) ≤ step true (step false value)

/-- The value after a word. -/
def after (step : Bool → Value → Value) (value : Value) (word : List Bool) : Value :=
  word.foldl (fun value kind => step kind value) value

/-- The word with all the first steps before the second ones. -/
def firstThenSecond (firsts seconds : Nat) : List Bool :=
  List.replicate firsts true ++ List.replicate seconds false

/-- The word with all the second steps before the first ones. -/
def secondThenFirst (firsts seconds : Nat) : List Bool :=
  List.replicate seconds false ++ List.replicate firsts true

variable {step : Bool → Value → Value}

@[simp] theorem after_concat (value : Value) (word : List Bool) (kind : Bool) :
    after step value (word ++ [kind]) = step kind (after step value word) := by
  rw [after, List.foldl_append]
  rfl

/-- One more second step is taken at the end. -/
theorem after_firstThenSecond_succ (value : Value) (firsts seconds : Nat) :
    after step value (firstThenSecond firsts (seconds + 1)) =
      step false (after step value (firstThenSecond firsts seconds)) := by
  rw [firstThenSecond, List.replicate_succ', ← List.append_assoc, after_concat,
    firstThenSecond]

variable [Preorder Value]

/-- One more first step in front is not better than one at the end. -/
theorem after_firstThenSecond_le
    (exchanges : Exchanges step)
    (value : Value)
    (firsts seconds : Nat) :
    after step value (firstThenSecond (firsts + 1) seconds) ≤
      step true (after step value (firstThenSecond firsts seconds)) := by
  induction seconds with
  | zero =>
      rw [firstThenSecond, firstThenSecond, List.replicate_zero, List.append_nil,
        List.append_nil, List.replicate_succ', after_concat]
  | succ seconds inductionHypothesis =>
      rw [after_firstThenSecond_succ, after_firstThenSecond_succ]
      calc step false (after step value (firstThenSecond (firsts + 1) seconds))
        _ ≤ step false (step true (after step value (firstThenSecond firsts seconds))) :=
            exchanges.monotone false inductionHypothesis
        _ ≤ step true (step false (after step value (firstThenSecond firsts seconds))) :=
            exchanges.exchange _

/-- No word of the same steps ends lower. -/
theorem after_firstThenSecond_le_after
    (exchanges : Exchanges step)
    (value : Value)
    (word : List Bool) :
    after step value (firstThenSecond (word.count true) (word.count false)) ≤
      after step value word := by
  induction word using List.reverseRecOn with
  | nil =>
      exact le_rfl
  | append_singleton word kind inductionHypothesis =>
      rw [after_concat, List.count_append, List.count_append]
      have last := exchanges.monotone kind inductionHypothesis
      cases kind with
      | false =>
          exact (after_firstThenSecond_succ value _ _).le.trans last
      | true =>
          exact (after_firstThenSecond_le exchanges value _ _).trans last

/-- With the order and the parts of the steps turned round, they still exchange. -/
theorem Exchanges.dual (exchanges : Exchanges step) :
    Exchanges fun (kind : Bool) (value : Valueᵒᵈ) => (step (!kind) value : Valueᵒᵈ) where
  monotone kind := (exchanges.monotone !kind).dual
  exchange value := exchanges.exchange value

omit [Preorder Value] in
/-- A word of the turned steps is the word with its parts turned. -/
theorem after_map_not (value : Value) (word : List Bool) :
    after (fun kind => step (!kind)) value (word.map not) = after step value word := by
  rw [after, List.foldl_map, after]
  simp only [Bool.not_not]

/-- No word of the same steps ends higher. -/
theorem after_le_secondThenFirst
    (exchanges : Exchanges step)
    (value : Value)
    (word : List Bool) :
    after step value word ≤
      after step value (secondThenFirst (word.count true) (word.count false)) := by
  have turned :
      after (fun kind => step (!kind)) value (word.map not) ≤
        after (fun kind => step (!kind)) value
          (firstThenSecond ((word.map not).count true) ((word.map not).count false)) :=
    after_firstThenSecond_le_after exchanges.dual value (word.map not)
  have trues : (word.map not).count true = word.count false :=
    List.count_map_of_injective word not Bool.involutive_not.injective false
  have falses : (word.map not).count false = word.count true :=
    List.count_map_of_injective word not Bool.involutive_not.injective true
  have words (firsts seconds : Nat) :
      firstThenSecond seconds firsts = (secondThenFirst firsts seconds).map not := by
    rw [secondThenFirst, List.map_append, List.map_replicate, List.map_replicate]
    rfl
  rwa [trues, falses, words, after_map_not, after_map_not] at turned

end ExchangeOrder
