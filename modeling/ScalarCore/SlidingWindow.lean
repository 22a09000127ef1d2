import Mathlib.Data.List.Basic
import Mathlib.Tactic.Common

namespace SlidingWindow

/-!
# Limits over a sliding window

A limiter keeps the times it admitted and drops those that are a window's width
old.  Later times see in the kept list what they would see in the whole history, so
a limit on the kept list is a limit on every window of that width.
-/

/-- The times that are less than a width before now. -/
def recent (width now : Nat) (times : List Nat) : List Nat :=
  times.filter fun time => decide (now - time < width)

/-- From now on the kept times show what the admitted ones do. -/
def Covers (width now : Nat) (kept admitted : List Nat) : Prop :=
  ∀ later, now ≤ later → recent width later kept = recent width later admitted

/-- In every window of the width there are at most so many times. -/
def WindowBounded (width limit : Nat) (admitted : List Nat) : Prop :=
  ∀ start,
    (admitted.filter fun time => decide (start ≤ time ∧ time < start + width)).length ≤ limit

variable {width limit now later : Nat}
variable {kept admitted : List Nat}

theorem covers_nil (width now : Nat) : Covers width now [] [] :=
  fun _ _ => rfl

theorem Covers.mono
    (covers : Covers width now kept admitted)
    (inOrder : now ≤ later) :
    Covers width later kept admitted :=
  fun time isLater => covers time (Nat.le_trans inOrder isLater)

/-- What is dropped now would not be seen later. -/
theorem recent_recent (inOrder : now ≤ later) (times : List Nat) :
    recent width later (recent width now times) = recent width later times := by
  unfold recent
  rw [List.filter_filter]
  apply List.filter_congr
  intro time _
  simp only [Bool.and_eq_decide, decide_eq_true_eq, decide_eq_decide]
  omega

/-- Old times can be dropped. -/
theorem Covers.recent
    (covers : Covers width now kept admitted) :
    Covers width now (recent width now kept) admitted := by
  intro later inOrder
  rw [recent_recent inOrder]
  exact covers later inOrder

/-- A time that is admitted is kept. -/
theorem Covers.append
    (covers : Covers width now kept admitted)
    (time : Nat) :
    Covers width now (kept ++ [time]) (admitted ++ [time]) := by
  intro later inOrder
  have before := covers later inOrder
  unfold SlidingWindow.recent at before ⊢
  rw [List.filter_append, List.filter_append, before]

theorem windowBounded_nil (width limit : Nat) : WindowBounded width limit [] :=
  fun _ => Nat.zero_le limit

/-- A time is admitted while fewer than the limit are recent. -/
theorem WindowBounded.append
    (bounded : WindowBounded width limit admitted)
    (below : (recent width now admitted).length < limit) :
    WindowBounded width limit (admitted ++ [now]) := by
  intro start
  rw [List.filter_append, List.length_append]
  by_cases inWindow : start ≤ now ∧ now < start + width
  · -- a window that holds now has only recent times beside it
    have others :
        (admitted.filter fun time => decide (start ≤ time ∧ time < start + width)).length ≤
          (recent width now admitted).length := by
      apply List.Sublist.length_le
      apply List.monotone_filter_right
      intro time inside
      have bounds := of_decide_eq_true inside
      exact decide_eq_true (by omega)
    have single := List.length_filter_le
      (fun time => decide (start ≤ time ∧ time < start + width)) [now]
    rw [List.length_singleton] at single
    omega
  · rw [List.filter_cons_of_neg (by simpa using inWindow), List.filter_nil, List.length_nil,
      Nat.add_zero]
    exact bounded start

end SlidingWindow
