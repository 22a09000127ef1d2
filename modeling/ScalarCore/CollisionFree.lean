import Mathlib.Data.Set.Function
import ScalarCore.DuplicateLast

namespace CollisionFree

/-!
# Hashes without collisions among the messages

No hash into a fixed size is injective, so what a hash binds is said of the messages
that are hashed: as long as no two of them collide, a list of them is known from its
hashes, and the leaves of a tree of known size from its top.
-/

open DuplicateLast

variable {Message Digest : Type*}

/-- Lists of messages with the same hashes are the same. -/
theorem eq_of_map
    {hash : Message → Digest}
    {hashed : Set Message}
    (collisionFree : Set.InjOn hash hashed)
    {messages messages' : List Message}
    (areHashed : ∀ message ∈ messages, message ∈ hashed)
    (areHashed' : ∀ message ∈ messages', message ∈ hashed)
    (same : messages.map hash = messages'.map hash) :
    messages = messages' := by
  induction messages generalizing messages' with
  | nil =>
      exact (List.map_eq_nil_iff.mp same.symm).symm
  | cons message rest inductionHypothesis =>
      cases messages' with
      | nil =>
          cases same
      | cons message' rest' =>
          rw [List.map_cons, List.map_cons, List.cons_eq_cons] at same
          obtain ⟨isHashed, restHashed⟩ := List.forall_mem_cons.mp areHashed
          obtain ⟨isHashed', restHashed'⟩ := List.forall_mem_cons.mp areHashed'
          rw [collisionFree isHashed isHashed' same.1,
            inductionHypothesis restHashed restHashed' same.2]

/-!
## Levels of a tree
-/

/-- The pairs that are hashed into the level above. -/
def pairs : List Digest → List (Digest × Digest)
  | [] => []
  | [last] => [(last, last)]
  | left :: right :: rest => (left, right) :: pairs rest

section Levels

variable {node : Digest → Digest → Digest} {level level' : List Digest}

theorem nextLevel_eq_map (level : List Digest) :
    nextLevel node level = (pairs level).map fun pair => node pair.1 pair.2 := by
  induction level using pairs.induct with
  | case1 =>
      rfl
  | case2 last =>
      rfl
  | case3 left right rest inductionHypothesis =>
      rw [nextLevel, pairs, List.map_cons, inductionHypothesis]

/-- The pairs of a level of known size show its digests. -/
theorem eq_of_pairs
    (sameLength : level.length = level'.length)
    (same : pairs level = pairs level') :
    level = level' := by
  induction level using pairs.induct generalizing level' with
  | case1 =>
      exact (List.length_eq_zero_iff.mp sameLength.symm).symm
  | case2 last =>
      obtain ⟨last', rfl⟩ := List.length_eq_one_iff.mp sameLength.symm
      rw [pairs, pairs, List.singleton_inj, Prod.mk_inj] at same
      rw [same.1]
  | case3 left right rest inductionHypothesis =>
      match level', sameLength with
      | left' :: right' :: rest', sameLength =>
          rw [pairs, pairs, List.cons_eq_cons, Prod.mk_inj] at same
          obtain ⟨⟨rfl, rfl⟩, sameRest⟩ := same
          rw [inductionHypothesis (by simpa using sameLength) sameRest]

/-- The pairs that are hashed for the top. -/
def allPairs (node : Digest → Digest → Digest) (level : List Digest) :
    List (Digest × Digest) :=
  if 1 < level.length then
    pairs level ++ allPairs node (nextLevel node level)
  else
    []
termination_by level.length
decreasing_by
  rw [length_nextLevel]
  omega

/-- The top of a tree of known size shows its leaves. -/
theorem eq_of_top
    {hashed : Set (Digest × Digest)}
    (collisionFree : Set.InjOn (fun pair => node pair.1 pair.2) hashed)
    (areHashed : ∀ pair ∈ allPairs node level, pair ∈ hashed)
    (areHashed' : ∀ pair ∈ allPairs node level', pair ∈ hashed)
    (sameLength : level.length = level'.length)
    (same : top node level = top node level') :
    level = level' := by
  induction level using top.induct node generalizing level' with
  | case1 level several inductionHypothesis =>
      have several' : 1 < level'.length := sameLength ▸ several
      rw [allPairs, if_pos several] at areHashed
      rw [allPairs, if_pos several'] at areHashed'
      rw [top, if_pos several] at same
      conv at same => rhs; rw [top, if_pos several']
      have sameNext : nextLevel node level = nextLevel node level' :=
        inductionHypothesis
          (fun pair listed => areHashed pair (List.mem_append_right _ listed))
          (fun pair listed => areHashed' pair (List.mem_append_right _ listed))
          (by rw [length_nextLevel, length_nextLevel, sameLength]) same
      rw [nextLevel_eq_map, nextLevel_eq_map] at sameNext
      apply eq_of_pairs sameLength
      exact
        eq_of_map collisionFree
          (fun pair listed => areHashed pair (List.mem_append_left _ listed))
          (fun pair listed => areHashed' pair (List.mem_append_left _ listed)) sameNext
  | case2 level single =>
      have single' : ¬1 < level'.length := sameLength ▸ single
      rw [top, if_neg single] at same
      conv at same => rhs; rw [top, if_neg single']
      cases level with
      | nil =>
          exact (List.length_eq_zero_iff.mp sameLength.symm).symm
      | cons leaf rest =>
          have alone : (leaf :: rest).length = 1 := by
            rw [List.length_cons] at single ⊢
            omega
          rw [alone, eq_comm, List.length_eq_one_iff] at sameLength
          obtain ⟨leaf', rfl⟩ := sameLength
          obtain rfl : rest = [] := List.length_eq_zero_iff.mp (Nat.succ.inj alone)
          rw [List.head?_cons, List.head?_cons, Option.some_inj] at same
          rw [same]

end Levels

end CollisionFree
