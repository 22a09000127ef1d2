import Mathlib.Data.Finset.Card
import ScalarCore.Bytes

namespace ScalarCore

/-!
# The quorum of an aggregator

Ten validators vote on the manifest of an aggregator, and seven have to agree.
The votes are counted as they come, so a validator that votes again counts
again.
-/

section Repeats

variable {Item : Type*} [DecidableEq Item]

/-- Number of items of a list that come again later. -/
def repeats : List Item → Nat
  | [] => 0
  | item :: rest => (if item ∈ rest then 1 else 0) + repeats rest

/-- A list is as long as its distinct items and its repeats together. -/
theorem length_eq_card_add_repeats (items : List Item) :
    items.length = items.toFinset.card + repeats items := by
  induction items with
  | nil =>
      rfl
  | cons item rest inductionHypothesis =>
      rw [List.length_cons, inductionHypothesis, repeats, List.toFinset_cons]
      by_cases again : item ∈ rest
      · rw [if_pos again, Finset.insert_eq_of_mem (List.mem_toFinset.mpr again)]
        omega
      · rw [if_neg again,
          Finset.card_insert_of_notMem (mt List.mem_toFinset.mp again)]
        omega

theorem repeats_of_nodup
    {items : List Item}
    (distinct : items.Nodup) :
    repeats items = 0 := by
  have length_eq := length_eq_card_add_repeats items
  rw [List.toFinset_card_of_nodup distinct] at length_eq
  omega

end Repeats

/-- `AGGREGATOR_VALIDATOR_QUORUM`. -/
def aggregatorValidatorQuorum : UInt32 :=
  7

/-- The vote of a validator. -/
structure ValidationVote where
  validatorId : Bytes4
  manifestHash : Bytes32
  agrees : Bool
  deriving DecidableEq

/-- The answer of a quorum check. -/
inductive QuorumResult where
  | achieved (agreeCount : UInt32)
  | failed (agreeCount : UInt32)
  deriving Repr, DecidableEq

/-- The votes that agree with a manifest hash. -/
def agreeingVotes
    (votes : List ValidationVote)
    (expectedManifestHash : Bytes32) : List ValidationVote :=
  votes.filter fun vote =>
    vote.agrees && decide (vote.manifestHash = expectedManifestHash)

/-- `check_quorum`. -/
def checkQuorum
    (votes : List ValidationVote)
    (expectedManifestHash : Bytes32) : QuorumResult :=
  let agreeCount :=
    UInt32.ofNat (agreeingVotes votes expectedManifestHash).length
  if agreeCount ≥ aggregatorValidatorQuorum then
    .achieved agreeCount
  else
    .failed agreeCount

variable {votes : List ValidationVote} {manifestHash : Bytes32}

/-- The validators of the agreeing votes, one for each vote. -/
def agreeingIds
    (votes : List ValidationVote)
    (manifestHash : Bytes32) : List Bytes4 :=
  (agreeingVotes votes manifestHash).map ValidationVote.validatorId

/-- The validators that agree. -/
def agreeingValidators
    (votes : List ValidationVote)
    (manifestHash : Bytes32) : Finset Bytes4 :=
  (agreeingIds votes manifestHash).toFinset

theorem mem_agreeingValidators
    {validatorId : Bytes4} :
    validatorId ∈ agreeingValidators votes manifestHash ↔
      ∃ vote ∈ votes,
        vote.agrees = true ∧ vote.manifestHash = manifestHash ∧
          vote.validatorId = validatorId := by
  rw [agreeingValidators, List.mem_toFinset, agreeingIds, List.mem_map]
  simp only [agreeingVotes, List.mem_filter, Bool.and_eq_true,
    decide_eq_true_iff, and_assoc]

/-- A quorum stands for as many validators. -/
def DistinctQuorum
    (votes : List ValidationVote)
    (manifestHash : Bytes32) : Prop :=
  ∀ agreeCount,
    checkQuorum votes manifestHash = .achieved agreeCount →
    aggregatorValidatorQuorum.toNat ≤ (agreeingValidators votes manifestHash).card

/-- The check compares the number of agreeing votes, as a 32-bit number. -/
theorem checkQuorum_achieved_iff :
    (∃ agreeCount, checkQuorum votes manifestHash = .achieved agreeCount) ↔
      7 ≤ (agreeingIds votes manifestHash).length % 2 ^ 32 := by
  have value :
      aggregatorValidatorQuorum ≤
          UInt32.ofNat (agreeingVotes votes manifestHash).length ↔
        7 ≤ (agreeingIds votes manifestHash).length % 2 ^ 32 := by
    rw [UInt32.le_iff_toNat_le, UInt32.toNat_ofNat', agreeingIds, List.length_map]
    rfl
  rw [checkQuorum, ← value]
  split
  · next enough =>
      exact iff_of_true ⟨_, rfl⟩ enough
  · next tooFew =>
      refine iff_of_false ?_ tooFew
      rintro ⟨_, achieved⟩
      cases achieved

/--
A quorum stands for seven validators exactly when seven validators agree, or the
agreeing votes, with those that a validator has cast again, are fewer than seven
as a 32-bit number.
-/
theorem checkQuorum_distinct_iff
    (votes : List ValidationVote)
    (manifestHash : Bytes32) :
    DistinctQuorum votes manifestHash ↔
      7 ≤ (agreeingValidators votes manifestHash).card ∨
        ((agreeingValidators votes manifestHash).card +
            repeats (agreeingIds votes manifestHash)) % 2 ^ 32 < 7 := by
  have total := length_eq_card_add_repeats (agreeingIds votes manifestHash)
  rw [← agreeingValidators] at total
  constructor
  · intro quorum
    rw [or_iff_not_imp_right, ← total, Nat.not_lt, ← checkQuorum_achieved_iff]
    rintro ⟨agreeCount, achieved⟩
    exact quorum agreeCount achieved
  · intro enough agreeCount achieved
    have counted := checkQuorum_achieved_iff.mp ⟨agreeCount, achieved⟩
    rw [total] at counted
    exact enough.resolve_right (Nat.not_lt.mpr counted)

/-- No validator voting twice, a quorum stands for seven validators. -/
theorem distinctQuorum_of_nodup
    (oneVoteEach : (agreeingIds votes manifestHash).Nodup) :
    DistinctQuorum votes manifestHash := by
  intro agreeCount achieved
  have counted := checkQuorum_achieved_iff.mp ⟨agreeCount, achieved⟩
  rw [length_eq_card_add_repeats, repeats_of_nodup oneVoteEach,
    ← agreeingValidators] at counted
  exact counted.trans (Nat.mod_le _ _)

/-- One validator that votes seven times is a quorum. -/
theorem checkQuorum_not_distinct :
    ¬DistinctQuorum
      (List.replicate 7
        { validatorId := Bytes4.replicate 1
          manifestHash := Bytes32.zero
          agrees := true })
      Bytes32.zero := by
  intro quorum
  have enough := quorum 7 (by decide)
  exact absurd enough (by decide)

end ScalarCore
