import Mathlib.Data.List.Chain
import Mathlib.Tactic.Common

namespace Spacing

/-!
# Times that are kept apart

From a list of times one is taken whenever it is late enough after the last one taken.
The times that are taken are apart, so below a bound there are few of them.
-/

/-- A time is late enough after the last one, if there is one. -/
def LateEnough (gap : Nat) (last : Option Nat) (time : Nat) : Prop :=
  ∀ lastTime ∈ last, lastTime + gap ≤ time

instance instDecidableLateEnough (gap : Nat) (last : Option Nat) (time : Nat) :
    Decidable (LateEnough gap last time) :=
  inferInstanceAs (Decidable (∀ lastTime ∈ last, lastTime + gap ≤ time))

/-- The times that are taken after a last one. -/
def spaced (gap : Nat) : Option Nat → List Nat → List Nat
  | _, [] => []
  | last, time :: rest =>
      if LateEnough gap last time then
        time :: spaced gap (some time) rest
      else
        spaced gap last rest

variable {gap : Nat} {last : Option Nat} {time : Nat}

theorem spaced_cons_of_late
    (late : LateEnough gap last time)
    (rest : List Nat) :
    spaced gap last (time :: rest) = time :: spaced gap (some time) rest :=
  if_pos late

theorem spaced_cons_of_early
    (early : ¬LateEnough gap last time)
    (rest : List Nat) :
    spaced gap last (time :: rest) = spaced gap last rest :=
  if_neg early

theorem spaced_sublist (times : List Nat) : (spaced gap last times).Sublist times := by
  induction times generalizing last with
  | nil =>
      exact List.nil_sublist []
  | cons time rest inductionHypothesis =>
      by_cases late : LateEnough gap last time
      · rw [spaced_cons_of_late late]
        exact inductionHypothesis.cons_cons time
      · rw [spaced_cons_of_early late]
        exact inductionHypothesis.cons time

/-- The times taken are apart from each other and from the last one before. -/
theorem isChain_spaced (times : List Nat) :
    (spaced gap last times).IsChain (fun time later => time + gap ≤ later) ∧
      ∀ first ∈ (spaced gap last times).head?, LateEnough gap last first := by
  induction times generalizing last with
  | nil =>
      exact ⟨.nil, nofun⟩
  | cons time rest inductionHypothesis =>
      by_cases late : LateEnough gap last time
      · rw [spaced_cons_of_late late]
        obtain ⟨apart, afterTime⟩ := @inductionHypothesis (some time)
        refine ⟨List.isChain_cons.mpr ⟨?_, apart⟩, ?_⟩
        · intro next isNext
          exact afterTime next isNext time rfl
        · intro first isFirst
          cases Option.mem_some_iff.mp isFirst
          exact late
      · rw [spaced_cons_of_early late]
        exact inductionHypothesis

/-- Times that are apart use up the room below a bound. -/
theorem mul_length_le_of_isChain
    {bound first : Nat}
    {times : List Nat}
    (apart : (first :: times).IsChain fun time later => time + gap ≤ later)
    (below : ∀ time ∈ first :: times, time ≤ bound) :
    first + gap * times.length ≤ bound := by
  induction times generalizing first with
  | nil =>
      simpa using below first List.mem_cons_self
  | cons next rest inductionHypothesis =>
      obtain ⟨isApart, restApart⟩ := List.isChain_cons_cons.mp apart
      have room := inductionHypothesis restApart fun time listed =>
        below time (List.mem_cons_of_mem first listed)
      rw [List.length_cons, Nat.mul_succ]
      omega

/-- So below a bound at most a number of times is taken. -/
theorem length_spaced_le
    (positive : 0 < gap)
    {bound : Nat}
    {times : List Nat}
    (below : ∀ time ∈ times, time ≤ bound) :
    (spaced gap last times).length ≤ bound / gap + 1 := by
  have apart := (@isChain_spaced gap last times).1
  have belowTaken : ∀ time ∈ spaced gap last times, time ≤ bound :=
    fun time taken => below time ((spaced_sublist times).subset taken)
  cases taken : spaced gap last times with
  | nil =>
      exact Nat.zero_le _
  | cons first rest =>
      rw [taken] at apart belowTaken
      have room := mul_length_le_of_isChain apart belowTaken
      have quotient : rest.length ≤ bound / gap := by
        rw [Nat.le_div_iff_mul_le positive, Nat.mul_comm]
        exact (Nat.le_add_left _ _).trans room
      exact Nat.succ_le_succ quotient

end Spacing
