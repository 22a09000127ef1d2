import Mathlib.Data.List.Induction
import Mathlib.Data.List.Nodup
import Mathlib.Order.Nat
import Mathlib.Tactic.Common

namespace RecencyList

/-!
# Lists of the keys used last

A list holds a bounded number of keys.  Touching a key moves it to the front,
and the last key leaves a list that has become too long; a key can also be
dropped.  What such a list is after a history of uses is said by the times of
the last uses alone: it is sorted by them, and a key that was touched after a
listed one and not dropped since is listed as well.
-/

variable {Key : Type*}

/-- A use of a key. -/
inductive Use (Key : Type*) where
  | touch (key : Key)
  | drop (key : Key)
  deriving DecidableEq

variable [DecidableEq Key]

/-- Touch a key of a list of bounded length. -/
def touch (capacity : Nat) (key : Key) (keys : List Key) : List Key :=
  (key :: keys.erase key).take capacity

/-- The list after a use. -/
def afterUse (capacity : Nat) (keys : List Key) : Use Key → List Key
  | .touch key => touch capacity key keys
  | .drop key => keys.erase key

/-- The list after a history of uses. -/
def recentKeys (capacity : Nat) (uses : List (Use Key)) : List Key :=
  uses.foldl (afterUse capacity) []

@[simp] theorem recentKeys_concat
    (capacity : Nat)
    (uses : List (Use Key))
    (use : Use Key) :
    recentKeys capacity (uses ++ [use]) =
      afterUse capacity (recentKeys capacity uses) use := by
  rw [recentKeys, List.foldl_append]
  rfl

/-- When a use occurred last, counted from one; zero where it never did. -/
def lastAt (use : Use Key) (uses : List (Use Key)) : Nat :=
  uses.length - uses.reverse.idxOf use

/-- No use is later than the present. -/
theorem lastAt_le_length
    (use : Use Key)
    (uses : List (Use Key)) :
    lastAt use uses ≤ uses.length :=
  Nat.sub_le _ _

@[simp] theorem lastAt_nil (use : Use Key) : lastAt use [] = 0 :=
  rfl

/-- The present use is the last one of its kind. -/
@[simp] theorem lastAt_concat_self
    (use : Use Key)
    (uses : List (Use Key)) :
    lastAt use (uses ++ [use]) = uses.length + 1 := by
  simp [lastAt]

/-- Other uses keep their times. -/
theorem lastAt_concat_of_ne
    {use present : Use Key}
    (differ : present ≠ use)
    (uses : List (Use Key)) :
    lastAt use (uses ++ [present]) = lastAt use uses := by
  have atMost : uses.reverse.idxOf use ≤ uses.length := by
    rw [← List.length_reverse]
    exact List.idxOf_le_length
  rw [lastAt, lastAt, List.reverse_append, List.reverse_singleton, List.singleton_append,
    List.idxOf_cons_ne _ differ, List.length_append, List.length_singleton]
  omega

/-- The time of the last touch of a key. -/
def lastTouch (key : Key) (uses : List (Use Key)) : Nat :=
  lastAt (.touch key) uses

/-- A key was touched, and not dropped since. -/
def Live (key : Key) (uses : List (Use Key)) : Prop :=
  lastAt (.drop key) uses < lastTouch key uses

/-- A key that is touched has the latest time. -/
@[simp] theorem lastTouch_touch
    (key : Key)
    (uses : List (Use Key)) :
    lastTouch key (uses ++ [.touch key]) = uses.length + 1 :=
  lastAt_concat_self _ uses

/-- Touching another key changes no time. -/
theorem lastTouch_touch_of_ne
    {key other : Key}
    (differ : other ≠ key)
    (uses : List (Use Key)) :
    lastTouch other (uses ++ [.touch key]) = lastTouch other uses :=
  lastAt_concat_of_ne (fun same => differ (Use.touch.inj same).symm) uses

/-- Dropping a key changes no time of a touch. -/
@[simp] theorem lastTouch_drop
    (key other : Key)
    (uses : List (Use Key)) :
    lastTouch other (uses ++ [.drop key]) = lastTouch other uses :=
  lastAt_concat_of_ne (by rintro ⟨⟩) uses

/-- A key is live when it is touched, and stays so when another one is. -/
theorem live_touch_iff
    {key other : Key}
    {uses : List (Use Key)} :
    Live other (uses ++ [.touch key]) ↔ other = key ∨ Live other uses := by
  have dropped : lastAt (.drop other) (uses ++ [.touch key]) = lastAt (.drop other) uses :=
    lastAt_concat_of_ne (by rintro ⟨⟩) uses
  unfold Live
  rw [dropped]
  by_cases same : other = key
  · subst same
    have atMost := lastAt_le_length (.drop other) uses
    rw [lastTouch_touch]
    exact iff_of_true (by omega) (Or.inl rfl)
  · rw [lastTouch_touch_of_ne same, or_iff_right same]

/-- A key stays live until it is dropped. -/
theorem live_drop_iff
    {key other : Key}
    {uses : List (Use Key)} :
    Live other (uses ++ [.drop key]) ↔ other ≠ key ∧ Live other uses := by
  unfold Live
  rw [lastTouch_drop]
  by_cases same : other = key
  · subst same
    have atMost : lastTouch other uses ≤ uses.length := lastAt_le_length _ uses
    rw [lastAt_concat_self]
    exact iff_of_false (by omega) fun both => both.1 rfl
  · rw [lastAt_concat_of_ne (fun same' => same (Use.drop.inj same').symm), and_iff_right same]

/-- A list of the keys used last. -/
structure IsRecent (capacity : Nat) (uses : List (Use Key)) (keys : List Key) : Prop where
  recentFirst :
    keys.Pairwise fun newer older => lastTouch older uses < lastTouch newer uses
  live : ∀ key ∈ keys, Live key uses
  mostRecent :
    ∀ key, Live key uses →
      ∀ other ∈ keys, lastTouch other uses < lastTouch key uses → key ∈ keys
  atMost : keys.length ≤ capacity

namespace IsRecent

variable {capacity : Nat} {uses : List (Use Key)} {keys : List Key}

/-- No key is listed twice. -/
theorem nodup (recent : IsRecent capacity uses keys) : keys.Nodup :=
  recent.recentFirst.imp fun before same => absurd before (by rw [same]; exact lt_irrefl _)

/-- The first of the list was touched last. -/
theorem lastTouch_le_head
    {first key : Key}
    {rest : List Key}
    (recent : IsRecent capacity uses (first :: rest))
    (listed : key ∈ first :: rest) :
    lastTouch key uses ≤ lastTouch first uses := by
  rcases List.mem_cons.mp listed with rfl | later
  · exact le_rfl
  · exact ((List.pairwise_cons.mp recent.recentFirst).1 key later).le

/-- A listed key that was touched after one of the first keys is one of them. -/
theorem mem_take_of_lt
    {count : Nat}
    {key other : Key}
    (sorted :
      keys.Pairwise fun newer older => lastTouch older uses < lastTouch newer uses)
    (listed : key ∈ keys)
    (isFirst : other ∈ keys.take count)
    (later : lastTouch other uses < lastTouch key uses) :
    key ∈ keys.take count := by
  rw [← List.take_append_drop count keys, List.mem_append] at listed
  rw [← List.take_append_drop count keys, List.pairwise_append] at sorted
  rcases listed with isFirst' | isLater
  · exact isFirst'
  · exact absurd (sorted.2.2 other isFirst key isLater) later.asymm

/-- Touching a key keeps the list one of the keys used last. -/
theorem touch
    (recent : IsRecent capacity uses keys)
    (key : Key) :
    IsRecent capacity (uses ++ [.touch key]) (RecencyList.touch capacity key keys) := by
  have unchanged : ∀ other ∈ keys.erase key,
      lastTouch other (uses ++ [.touch key]) = lastTouch other uses := by
    intro other listed
    exact lastTouch_touch_of_ne (recent.nodup.mem_erase_iff.mp listed).1 uses
  have sorted : (key :: keys.erase key).Pairwise fun newer older =>
      lastTouch older (uses ++ [.touch key]) < lastTouch newer (uses ++ [.touch key]) := by
    rw [List.pairwise_cons]
    constructor
    · intro other listed
      rw [unchanged other listed, lastTouch_touch]
      exact Nat.lt_succ_of_le (lastAt_le_length _ uses)
    · refine (recent.recentFirst.sublist List.erase_sublist).imp_of_mem ?_
      intro newer older newerListed olderListed before
      rwa [unchanged newer newerListed, unchanged older olderListed]
  refine ⟨sorted.sublist (List.take_sublist _ _), ?_, ?_, List.length_take_le _ _⟩
  · intro other listed
    rcases List.mem_cons.mp (List.mem_of_mem_take listed) with rfl | kept
    · exact live_touch_iff.mpr (Or.inl rfl)
    · exact live_touch_iff.mpr (Or.inr (recent.live other (List.mem_of_mem_erase kept)))
  · intro other isLive listed' isListed later
    refine mem_take_of_lt sorted ?_ isListed later
    rcases live_touch_iff.mp isLive with rfl | wasLive
    · exact List.mem_cons_self
    · by_cases same : other = key
      · subst same
        exact List.mem_cons_self
      · -- the listed key is not the one just touched, whose time is the latest
        rcases List.mem_cons.mp (List.mem_of_mem_take isListed) with rfl | kept
        · rw [lastTouch_touch] at later
          have atMost := lastAt_le_length (.touch other) (uses ++ [.touch listed'])
          rw [List.length_append, List.length_singleton] at atMost
          exact absurd later (not_lt.mpr atMost)
        · rw [unchanged _ kept, lastTouch_touch_of_ne same] at later
          have isKey :=
            recent.mostRecent other wasLive listed' (List.mem_of_mem_erase kept) later
          exact List.mem_cons_of_mem _ (recent.nodup.mem_erase_iff.mpr ⟨same, isKey⟩)

/-- Dropping a key keeps the list one of the keys used last. -/
theorem drop
    (recent : IsRecent capacity uses keys)
    (key : Key) :
    IsRecent capacity (uses ++ [.drop key]) (keys.erase key) := by
  constructor
  · simp only [lastTouch_drop]
    exact recent.recentFirst.sublist List.erase_sublist
  · intro other listed
    have ⟨differ, kept⟩ := recent.nodup.mem_erase_iff.mp listed
    exact live_drop_iff.mpr ⟨differ, recent.live other kept⟩
  · intro other isLive listed' isListed later
    rw [lastTouch_drop, lastTouch_drop] at later
    have ⟨differ, wasLive⟩ := live_drop_iff.mp isLive
    exact recent.nodup.mem_erase_iff.mpr
      ⟨differ, recent.mostRecent other wasLive listed' (List.mem_of_mem_erase isListed) later⟩
  · exact (List.length_erase_le).trans recent.atMost

/-- What touching a new key of a full list evicts is the key touched longest ago. -/
theorem exists_evicted
    (recent : IsRecent capacity uses keys)
    (positive : 0 < capacity)
    (full : keys.length = capacity)
    {key : Key}
    (isNew : key ∉ keys) :
    ∃ oldest ∈ keys,
      (∀ other ∈ keys, other ≠ oldest → lastTouch oldest uses < lastTouch other uses) ∧
        RecencyList.touch capacity key keys = key :: keys.erase oldest := by
  obtain rfl | ⟨kept, oldest, rfl⟩ := List.eq_nil_or_concat' keys
  · exact absurd full positive.ne
  · rw [List.length_append, List.length_singleton] at full
    have parts := List.pairwise_append.mp recent.recentFirst
    have onlyLast : oldest ∉ kept := fun again =>
      absurd (parts.2.2 oldest again oldest (List.mem_singleton_self _)) (lt_irrefl _)
    refine ⟨oldest, List.mem_append_right _ (List.mem_singleton_self _), ?_, ?_⟩
    · intro other listed differ
      rcases List.mem_append.mp listed with isKept | isLast
      · exact parts.2.2 other isKept oldest (List.mem_singleton_self _)
      · exact absurd (List.mem_singleton.mp isLast) differ
    · rw [RecencyList.touch, List.erase_of_not_mem isNew, ← full, List.take_succ_cons,
        List.take_left, List.erase_append_right _ onlyLast, List.erase_cons_head,
        List.append_nil]

end IsRecent

/-- The list after every history is one of the keys used last. -/
theorem isRecent_recentKeys
    (capacity : Nat)
    (uses : List (Use Key)) :
    IsRecent capacity uses (recentKeys capacity uses) := by
  induction uses using List.reverseRecOn with
  | nil =>
      exact ⟨List.Pairwise.nil, fun _ listed => absurd listed List.not_mem_nil,
        fun _ _ _ listed => absurd listed List.not_mem_nil, Nat.zero_le _⟩
  | append_singleton uses use inductionHypothesis =>
      rw [recentKeys_concat]
      cases use with
      | touch key =>
          exact inductionHypothesis.touch key
      | drop key =>
          exact inductionHypothesis.drop key

end RecencyList
