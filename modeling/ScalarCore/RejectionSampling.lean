import Mathlib.Data.Nat.Find
import Mathlib.Tactic.Common

namespace RejectionSampling

/-!
# Rejection sampling from a stream

A sampler reads the words of a stream one after another and returns the first
one it accepts.  The loop is bounded by a number of words; that bound only
decides whether the loop returns, never what it returns.
-/

variable {Word : Type*}

/-- The first accepted word, looking at `fuel` words from a position on. -/
def firstAccepted
    (accepts : Word → Bool)
    (stream : Nat → Word) :
    (fuel position : Nat) → Option Word
  | 0, _ => none
  | fuel + 1, position =>
      if accepts (stream position) then
        some (stream position)
      else
        firstAccepted accepts stream fuel (position + 1)

/-- A word is the first accepted one of a stream from a position on. -/
def IsFirstAccepted
    (accepts : Word → Bool)
    (stream : Nat → Word)
    (position : Nat)
    (word : Word) : Prop :=
  ∃ skipped,
    stream (position + skipped) = word ∧
      accepts word = true ∧
      ∀ earlier < skipped, accepts (stream (position + earlier)) = false

/-- A returned word is the first accepted one. -/
theorem isFirstAccepted_of_firstAccepted
    {accepts : Word → Bool}
    {stream : Nat → Word}
    {fuel position : Nat}
    {word : Word}
    (returned : firstAccepted accepts stream fuel position = some word) :
    IsFirstAccepted accepts stream position word := by
  induction fuel generalizing position with
  | zero =>
      cases returned
  | succ fuel inductionHypothesis =>
      rw [firstAccepted] at returned
      by_cases accepted : accepts (stream position) = true
      · rw [if_pos accepted] at returned
        cases returned
        exact ⟨0, rfl, accepted, fun _ below => absurd below (Nat.not_lt_zero _)⟩
      · rw [if_neg accepted] at returned
        rcases inductionHypothesis returned with
          ⟨skipped, found, foundAccepted, rejected⟩
        refine ⟨skipped + 1, ?_, foundAccepted, ?_⟩
        · rw [← found, Nat.add_right_comm, Nat.add_assoc]
        · intro earlier below
          cases earlier with
          | zero =>
              exact eq_false_of_ne_true accepted
          | succ earlier =>
              have still := rejected earlier (Nat.lt_of_succ_lt_succ below)
              rwa [Nat.add_right_comm, Nat.add_assoc] at still

/-- Looking at enough words returns the first accepted one. -/
theorem firstAccepted_of_isFirstAccepted
    {accepts : Word → Bool}
    {stream : Nat → Word}
    {position : Nat}
    {word : Word}
    (isFirst : IsFirstAccepted accepts stream position word) :
    ∃ fuel, firstAccepted accepts stream fuel position = some word := by
  rcases isFirst with ⟨skipped, found, foundAccepted, rejected⟩
  refine ⟨skipped + 1, ?_⟩
  induction skipped generalizing position with
  | zero =>
      rw [Nat.add_zero] at found
      rw [firstAccepted, found, if_pos foundAccepted]
  | succ skipped inductionHypothesis =>
      have firstRejected := rejected 0 (Nat.succ_pos skipped)
      rw [Nat.add_zero] at firstRejected
      rw [firstAccepted, if_neg (by simp [firstRejected])]
      apply inductionHypothesis
      · rw [← found, Nat.add_right_comm, Nat.add_assoc]
      · intro earlier below
        have still := rejected (earlier + 1) (Nat.succ_lt_succ below)
        rwa [Nat.add_right_comm, Nat.add_assoc]

/-- A stream that has an accepted word has a first one. -/
theorem exists_isFirstAccepted
    {accepts : Word → Bool}
    {stream : Nat → Word}
    (available : ∃ position, accepts (stream position) = true) :
    ∃ word, IsFirstAccepted accepts stream 0 word := by
  refine
    ⟨stream (Nat.find available), Nat.find available, by rw [Nat.zero_add],
      Nat.find_spec available, ?_⟩
  intro earlier below
  rw [Nat.zero_add]
  exact eq_false_of_ne_true (Nat.find_min available below)

/-- There is at most one first accepted word. -/
theorem IsFirstAccepted.unique
    {accepts : Word → Bool}
    {stream : Nat → Word}
    {position : Nat}
    {word word' : Word}
    (isFirst : IsFirstAccepted accepts stream position word)
    (isFirst' : IsFirstAccepted accepts stream position word') :
    word = word' := by
  rcases isFirst with ⟨skipped, found, accepted, rejected⟩
  rcases isFirst' with ⟨skipped', found', accepted', rejected'⟩
  rcases Nat.lt_trichotomy skipped skipped' with earlier | rfl | later
  · have isRejected := rejected' skipped earlier
    rw [found, accepted] at isRejected
    cases isRejected
  · rw [← found, found']
  · have isRejected := rejected skipped' later
    rw [found', accepted'] at isRejected
    cases isRejected

end RejectionSampling
