import ScalarCore.Bytes
import ScalarCore.EmissionAccumulator
import ScalarCore.RankSum

namespace ScalarCore

/-!
# The Gini coefficient of an epoch's rewards

The rewards are sorted, weighted by their rank and summed in 64-bit words.  The
ranked sum is multiplied by two million before the first division, so the result
is there exactly when that product fits a word.
-/

open MachineInt RankSum

/-- The sum of the sorted rewards, each times its rank. -/
def weightedSum (sorted : List UInt64) : Option UInt64 :=
  sorted.zipIdx.foldlM
    (fun total entry => do
      let rank ← checkedAdd (UInt64.ofNat entry.2) 1
      let term ← checkedMul rank entry.1
      checkedAdd total term)
    0

/-- The coefficient from the number of rewards, their sum and their ranked sum. -/
def giniOfSums (n sumTotal weighted : UInt64) : Option UInt64 := do
  let doubled ← checkedMul 2 weighted
  let numerator ← checkedMul doubled 1000000
  let denominator ← checkedMul n sumTotal
  let term1 := numerator / denominator
  let following ← checkedAdd n 1
  let scaled ← checkedMul following 1000000
  let term2 := scaled / n
  if term1 > term2 then
    some (saturatingSub term1 term2)
  else
    some 0

/-- `compute_gini`: the coefficient in millionths, absent where the arithmetic overflows. -/
def computeGini (rewards : List UInt64) : Option UInt64 :=
  if rewards.isEmpty then
    some 0
  else do
    let n := UInt64.ofNat rewards.length
    let sorted := rewards.mergeSort
    let sumTotal ← sorted.foldlM checkedAdd 0
    if sumTotal = 0 then
      some 0
    else do
      let weighted ← weightedSum sorted
      giniOfSums n sumTotal weighted

/-- The rewards as numbers, in ascending order. -/
def ascendingRewards (rewards : List UInt64) : List Nat :=
  (rewards.map UInt64.toNat).mergeSort

/-- Ascending lists of the same numbers are equal. -/
theorem ascendingRewards_eq
    {rewards : List UInt64}
    {values : List Nat}
    (same : values.Perm (rewards.map UInt64.toNat))
    (ascending : values.Pairwise (· ≤ ·)) :
    ascendingRewards rewards = values :=
  ((List.mergeSort_perm _ _).trans same.symm).eq_of_pairwise'
    (List.pairwise_mergeSort' (· ≤ ·) _) ascending

/-- The sorted words are the ascending numbers. -/
theorem map_toNat_mergeSort (rewards : List UInt64) :
    rewards.mergeSort.map UInt64.toNat = ascendingRewards rewards := by
  refine (ascendingRewards_eq ((List.mergeSort_perm rewards _).map _) ?_).symm
  rw [List.pairwise_map]
  exact (List.pairwise_mergeSort' (· ≤ ·) rewards).imp UInt64.le_iff_toNat_le.mp

theorem pairwise_ascendingRewards (rewards : List UInt64) :
    (ascendingRewards rewards).Pairwise (· ≤ ·) :=
  List.pairwise_mergeSort' (· ≤ ·) _

@[simp] theorem length_ascendingRewards (rewards : List UInt64) :
    (ascendingRewards rewards).length = rewards.length := by
  rw [ascendingRewards, List.length_mergeSort, List.length_map]

theorem sum_ascendingRewards (rewards : List UInt64) :
    (ascendingRewards rewards).sum = (rewards.map UInt64.toNat).sum :=
  (List.mergeSort_perm _ _).sum_eq

/-- The order of the rewards does not matter. -/
theorem computeGini_eq_of_perm
    {rewards rewards' : List UInt64}
    (same : rewards.Perm rewards') :
    computeGini rewards = computeGini rewards' := by
  have numbers : ascendingRewards rewards = ascendingRewards rewards' :=
    mergeSort_eq_of_perm (same.map UInt64.toNat)
  rw [← map_toNat_mergeSort, ← map_toNat_mergeSort] at numbers
  have sorted : rewards.mergeSort = rewards'.mergeSort :=
    List.map_injective_iff.mpr (fun _ _ => UInt64.toNat_inj.mp) numbers
  rw [computeGini, computeGini, sorted, same.isEmpty_eq, same.length_eq]

/-- The checked ranked sum is the exact one. -/
theorem weightedSum_eq_some_iff
    {sorted : List UInt64}
    {total : UInt64}
    (countable : sorted.length ≤ maxU64) :
    weightedSum sorted = some total ↔ total.toNat = rankSum (sorted.map UInt64.toNat) := by
  have step :
      ∀ entry ∈ sorted.zipIdx, ∀ start next : UInt64,
        (do
          let rank ← checkedAdd (UInt64.ofNat entry.2) 1
          let term ← checkedMul rank entry.1
          checkedAdd start term) = some next ↔
          next.toNat = start.toNat + (entry.2 + 1) * entry.1.toNat := by
    rintro ⟨reward, index⟩ listed start next
    have below := List.snd_lt_of_mem_zipIdx listed
    have indexWord : (UInt64.ofNat index).toNat = index :=
      toNat_ofNat_of_le (by simp at below; omega)
    have nextBound := toNat_le_maxU64 next
    simp only [Option.bind_eq_bind, Option.bind_eq_some_iff, checkedAdd_eq_some_iff,
      checkedMul_eq_some_iff, indexWord, UInt64.toNat_one]
    constructor
    · rintro ⟨rank, isRank, term, isTerm, isNext⟩
      rw [isNext, isTerm, isRank]
    · intro isNext
      have rankWord : (UInt64.ofNat (index + 1)).toNat = index + 1 :=
        toNat_ofNat_of_le (by simp at below; omega)
      have termWord :
          (UInt64.ofNat ((index + 1) * reward.toNat)).toNat = (index + 1) * reward.toNat :=
        toNat_ofNat_of_le (by omega)
      refine ⟨_, rankWord, UInt64.ofNat ((index + 1) * reward.toNat), ?_, ?_⟩
      · rw [termWord, rankWord]
      · rw [isNext, termWord]
  rw [weightedSum, foldlM_eq_some_iff step, UInt64.toNat_zero, Nat.zero_add, rankSum,
    List.zipIdx_map, List.map_map]
  rfl

/-- The coefficient from the sums is there exactly when the scaled ranked sum fits a word. -/
theorem giniOfSums_eq_some_iff
    {n sumTotal weighted gini : UInt64}
    (scaledFits : (n.toNat + 1) * 1000000 ≤ maxU64)
    (denominatorFits : n.toNat * sumTotal.toNat ≤ maxU64) :
    giniOfSums n sumTotal weighted = some gini ↔
      2000000 * weighted.toNat ≤ maxU64 ∧
        gini.toNat =
          2 * weighted.toNat * 1000000 / (n.toNat * sumTotal.toNat) -
            (n.toNat + 1) * 1000000 / n.toNat := by
  have two : (2 : UInt64).toNat = 2 := rfl
  have million : (1000000 : UInt64).toNat = 1000000 := rfl
  -- the branch only spells out that the difference stops at zero
  have stops (term1 term2 : UInt64) :
      (if term1 > term2 then some (saturatingSub term1 term2) else some 0) =
        some (saturatingSub term1 term2) := by
    split
    · rfl
    · rename_i notAbove
      rw [gt_iff_lt, UInt64.lt_iff_toNat_lt, Nat.not_lt] at notAbove
      rw [Option.some_inj, ← UInt64.toNat_inj, toNat_saturatingSub,
        Nat.sub_eq_zero_of_le notAbove, UInt64.toNat_zero]
  simp only [giniOfSums, stops, Option.bind_eq_bind, Option.bind_eq_some_iff,
    checkedMul_eq_some_iff, checkedAdd_eq_some_iff, Option.some_inj, two, million,
    UInt64.toNat_one]
  constructor
  · rintro ⟨doubled, isDoubled, numerator, isNumerator, denominator, isDenominator, following,
      isFollowing, scaled, isScaled, rfl⟩
    rw [isDoubled] at isNumerator
    have numeratorBound := toNat_le_maxU64 numerator
    refine ⟨by omega, ?_⟩
    rw [toNat_saturatingSub, UInt64.toNat_div, UInt64.toNat_div, isNumerator, isDenominator,
      isScaled, isFollowing]
  · rintro ⟨fits, isGini⟩
    have word (value : Nat) (inRange : value ≤ maxU64) : (UInt64.ofNat value).toNat = value :=
      toNat_ofNat_of_le inRange
    have isDoubled := word (2 * weighted.toNat) (by omega)
    have isNumerator := word (2 * weighted.toNat * 1000000) (by linarith only [fits])
    have isDenominator := word _ denominatorFits
    have isFollowing := word (n.toNat + 1) (by omega)
    have isScaled := word ((n.toNat + 1) * 1000000) scaledFits
    refine ⟨_, isDoubled, _, isNumerator.trans ?_, _, isDenominator, _, isFollowing, _,
      isScaled.trans ?_, ?_⟩
    · rw [isDoubled]
    · rw [isFollowing]
    · rw [← UInt64.toNat_inj, toNat_saturatingSub, UInt64.toNat_div, UInt64.toNat_div,
        isNumerator, isDenominator, isScaled, isGini]

/-- The sum of the rewards fits a word. -/
theorem toNat_ofNat_sum_ascendingRewards
    {rewards : List UInt64}
    (fits : (rewards.map UInt64.toNat).sum ≤ maxU64) :
    (UInt64.ofNat (ascendingRewards rewards).sum).toNat = (ascendingRewards rewards).sum := by
  rw [← sum_ascendingRewards] at fits
  exact toNat_ofNat_of_le fits

/-- The checked sum of the sorted rewards does not overflow. -/
theorem foldlM_checkedAdd_mergeSort
    {rewards : List UInt64}
    (fits : (rewards.map UInt64.toNat).sum ≤ maxU64) :
    rewards.mergeSort.foldlM checkedAdd 0 =
      some (UInt64.ofNat (ascendingRewards rewards).sum) := by
  rw [foldlM_checkedAdd_eq_some_iff, map_toNat_mergeSort,
    toNat_ofNat_sum_ascendingRewards fits, UInt64.toNat_zero, Nat.zero_add]

/-- Rewards that sum to zero have the coefficient zero. -/
theorem computeGini_of_sum_eq_zero
    {rewards : List UInt64}
    (sumZero : (ascendingRewards rewards).sum = 0) :
    computeGini rewards = some 0 := by
  have fits : (rewards.map UInt64.toNat).sum ≤ maxU64 := by
    rw [← sum_ascendingRewards, sumZero]
    exact Nat.zero_le _
  rw [computeGini]
  split
  · rfl
  · simp [foldlM_checkedAdd_mergeSort fits, sumZero]

/-- The coefficient of rewards with a positive sum comes from their sums. -/
theorem computeGini_of_sum_pos
    {rewards : List UInt64}
    (fits : (rewards.map UInt64.toNat).sum ≤ maxU64)
    (positive : 0 < (ascendingRewards rewards).sum) :
    computeGini rewards =
      (weightedSum rewards.mergeSort).bind
        (giniOfSums (UInt64.ofNat rewards.length)
          (UInt64.ofNat (ascendingRewards rewards).sum)) := by
  have totalNonzero : UInt64.ofNat (ascendingRewards rewards).sum ≠ 0 := by
    intro isZero
    have totalWord := toNat_ofNat_sum_ascendingRewards fits
    rw [isZero, UInt64.toNat_zero] at totalWord
    omega
  have occupied : ¬ rewards.isEmpty := by
    intro isEmpty
    rw [sum_ascendingRewards, List.isEmpty_iff.mp isEmpty] at positive
    exact absurd positive (Nat.lt_irrefl 0)
  simp only [computeGini, if_neg occupied, foldlM_checkedAdd_mergeSort fits,
    Option.bind_eq_bind, Option.bind_some, if_neg totalNonzero]

/--
Where the denominators fit a word, the coefficient is there exactly when the scaled
ranked sum does.
-/
theorem computeGini_eq_some_iff_of_fits
    {rewards : List UInt64}
    {gini : UInt64}
    (scaledFits : (rewards.length + 1) * 1000000 ≤ maxU64)
    (denominatorFits : rewards.length * (ascendingRewards rewards).sum ≤ maxU64) :
    computeGini rewards = some gini ↔
      2000000 * rankSum (ascendingRewards rewards) ≤ maxU64 ∧
        gini.toNat = giniFloor 1000000 (ascendingRewards rewards) := by
  obtain sumZero | positive := Nat.eq_zero_or_pos (ascendingRewards rewards).sum
  · obtain ⟨rankZero, floorZero⟩ := giniFloor_of_sum_eq_zero 1000000 sumZero
    rw [computeGini_of_sum_eq_zero sumZero, rankZero, floorZero, Option.some_inj,
      ← UInt64.toNat_inj, UInt64.toNat_zero, eq_comm, Nat.mul_zero]
    exact (and_iff_right (Nat.zero_le maxU64)).symm
  · have nonempty : 0 < rewards.length := by
      rw [← length_ascendingRewards]
      exact List.length_pos_of_sum_pos _ positive
    have countable : rewards.mergeSort.length ≤ maxU64 := by
      rw [List.length_mergeSort]
      omega
    have lengthWord : (UInt64.ofNat rewards.length).toNat = rewards.length :=
      toNat_ofNat_of_le (by omega)
    have sumFits : (rewards.map UInt64.toNat).sum ≤ maxU64 := by
      rw [← sum_ascendingRewards]
      exact (Nat.le_mul_of_pos_left _ nonempty).trans denominatorFits
    have totalWord := toNat_ofNat_sum_ascendingRewards sumFits
    have scaledWord : ((UInt64.ofNat rewards.length).toNat + 1) * 1000000 ≤ maxU64 := by
      rwa [lengthWord]
    have denominatorWord :
        (UInt64.ofNat rewards.length).toNat *
          (UInt64.ofNat (ascendingRewards rewards).sum).toNat ≤ maxU64 := by
      rwa [lengthWord, totalWord]
    rw [computeGini_of_sum_pos sumFits positive, Option.bind_eq_some_iff]
    simp only [weightedSum_eq_some_iff countable, map_toNat_mergeSort]
    constructor
    · rintro ⟨weighted, isWeighted, present⟩
      rw [giniOfSums_eq_some_iff scaledWord denominatorWord, isWeighted, lengthWord, totalWord]
        at present
      rwa [giniFloor, length_ascendingRewards]
    · rintro ⟨fits, isGini⟩
      have rankWord :
          (UInt64.ofNat (rankSum (ascendingRewards rewards))).toNat =
            rankSum (ascendingRewards rewards) :=
        toNat_ofNat_of_le (by omega)
      refine ⟨_, rankWord, ?_⟩
      rw [giniOfSums_eq_some_iff scaledWord denominatorWord, rankWord, lengthWord, totalWord]
      rw [giniFloor, length_ascendingRewards] at isGini
      exact ⟨fits, isGini⟩

/-- The coefficient is there exactly when the scaled ranked sum fits a word. -/
theorem computeGini_eq_some_iff
    {rewards : List UInt64}
    {gini : UInt64}
    (short : rewards.length ≤ 10000)
    (bounded : (rewards.map UInt64.toNat).sum ≤ 2 * e0Sscl.toNat) :
    computeGini rewards = some gini ↔
      2000000 * rankSum (ascendingRewards rewards) ≤ maxU64 ∧
        gini.toNat = giniFloor 1000000 (ascendingRewards rewards) := by
  have e0 : e0Sscl.toNat = 12600000000000 := rfl
  rw [← sum_ascendingRewards] at bounded
  refine computeGini_eq_some_iff_of_fits (by unfold maxU64; omega) ?_
  calc
    rewards.length * (ascendingRewards rewards).sum ≤ 10000 * (2 * e0Sscl.toNat) :=
      Nat.mul_le_mul short bounded
    _ ≤ maxU64 := by
      unfold maxU64
      omega

/-- Doubling every reward doubles the ascending numbers. -/
theorem ascendingRewards_double
    {rewards : List UInt64}
    (bounded : (rewards.map UInt64.toNat).sum ≤ e0Sscl.toNat) :
    ascendingRewards (rewards.map (2 * ·)) = (ascendingRewards rewards).map (2 * ·) := by
  have e0 : e0Sscl.toNat = 12600000000000 := rfl
  have doubled :
      (rewards.map (2 * ·)).map UInt64.toNat = (rewards.map UInt64.toNat).map (2 * ·) := by
    rw [List.map_map, List.map_map]
    refine List.map_congr_left ?_
    intro reward listed
    have single := List.le_sum_of_mem (List.mem_map_of_mem (f := UInt64.toNat) listed)
    change (2 * reward).toNat = 2 * reward.toNat
    rw [UInt64.toNat_mul]
    change 2 * reward.toNat % 2 ^ 64 = _
    omega
  refine ascendingRewards_eq ?_ ?_
  · rw [doubled]
    exact (List.mergeSort_perm _ _).map _
  · rw [List.pairwise_map]
    exact (pairwise_ascendingRewards rewards).imp (Nat.mul_le_mul_left 2)

/-- The doubled rewards have the same coefficient, once twice the ranked sum fits a word. -/
theorem computeGini_double_eq_some_iff
    {rewards : List UInt64}
    {gini : UInt64}
    (short : rewards.length ≤ 10000)
    (bounded : (rewards.map UInt64.toNat).sum ≤ e0Sscl.toNat) :
    computeGini (rewards.map (2 * ·)) = some gini ↔
      4000000 * rankSum (ascendingRewards rewards) ≤ maxU64 ∧
        gini.toNat = giniFloor 1000000 (ascendingRewards rewards) := by
  have doubledShort : (rewards.map (2 * ·)).length ≤ 10000 := by
    rwa [List.length_map]
  have doubledAscending := ascendingRewards_double bounded
  have doubledBounded :
      ((rewards.map (2 * ·)).map UInt64.toNat).sum ≤ 2 * e0Sscl.toNat := by
    rw [← sum_ascendingRewards, doubledAscending, sum_map_mul, sum_ascendingRewards]
    exact Nat.mul_le_mul_left 2 bounded
  rw [computeGini_eq_some_iff doubledShort doubledBounded, doubledAscending, rankSum_map_mul,
    giniFloor_map_mul Nat.two_pos, ← Nat.mul_assoc]

/-- What is asked of the coefficient of one epoch's rewards. -/
structure GiniRight (rewards : List UInt64) (gini : UInt64) : Prop where
  /-- Nothing overflows. -/
  computed : computeGini rewards = some gini
  /-- It is below one. -/
  below : gini.toNat < 1000000
  /-- The order of the rewards does not matter. -/
  permuted : ∀ rewards', rewards.Perm rewards' → computeGini rewards' = some gini
  /-- Neither does doubling them, up to rounding. -/
  doubled :
    ∃ gini', computeGini (rewards.map (2 * ·)) = some gini' ∧
      gini'.toNat ≤ gini.toNat + 1 ∧ gini.toNat ≤ gini'.toNat + 1
  /-- It is the exact coefficient, up to one unit. -/
  accurate :
    0 < (ascendingRewards rewards).sum →
      |(gini.toNat : ℚ) - RankSum.gini 1000000 (ascendingRewards rewards)| ≤ 1

/-- The coefficient of a whole epoch's emission given to one node is not computed. -/
theorem wholeEpochReward_overflows :
    ¬ ∀ rewards : List UInt64,
      rewards.length ≤ 10000 →
        (rewards.map UInt64.toNat).sum ≤ e0Sscl.toNat →
          ∃ gini, GiniRight rewards gini := by
  intro always
  obtain ⟨gini, right⟩ := always [e0Sscl] (by decide) (by decide)
  have fits := ((computeGini_eq_some_iff (by decide) (by decide)).mp right.computed).1
  rw [ascendingRewards, List.map_singleton, List.mergeSort_singleton] at fits
  exact absurd fits (by decide)

/-- The coefficient is right exactly when four million times the ranked sum fits a word. -/
theorem computeGini_right_iff
    {rewards : List UInt64}
    (short : rewards.length ≤ 10000)
    (bounded : (rewards.map UInt64.toNat).sum ≤ e0Sscl.toNat) :
    (∃ gini, GiniRight rewards gini) ↔
      4000000 * rankSum (ascendingRewards rewards) ≤ maxU64 := by
  have singleBounded : (rewards.map UInt64.toNat).sum ≤ 2 * e0Sscl.toNat := by
    omega
  constructor
  · rintro ⟨gini, right⟩
    obtain ⟨gini', computed', -⟩ := right.doubled
    exact ((computeGini_double_eq_some_iff short bounded).mp computed').1
  · intro fits
    have belowScale : giniFloor 1000000 (ascendingRewards rewards) < 1000000 := by
      refine giniFloor_lt (by omega) ?_
      rw [length_ascendingRewards]
      omega
    have giniWord :
        (UInt64.ofNat (giniFloor 1000000 (ascendingRewards rewards))).toNat =
          giniFloor 1000000 (ascendingRewards rewards) :=
      toNat_ofNat_of_le (by unfold maxU64; omega)
    have computed :
        computeGini rewards =
          some (UInt64.ofNat (giniFloor 1000000 (ascendingRewards rewards))) :=
      (computeGini_eq_some_iff short singleBounded).mpr ⟨by omega, giniWord⟩
    have computedDouble :
        computeGini (rewards.map (2 * ·)) =
          some (UInt64.ofNat (giniFloor 1000000 (ascendingRewards rewards))) :=
      (computeGini_double_eq_some_iff short bounded).mpr ⟨fits, giniWord⟩
    refine ⟨_, computed, ?_, ?_, ⟨_, computedDouble, Nat.le_succ _, Nat.le_succ _⟩, ?_⟩
    · rwa [giniWord]
    · intro rewards' same
      rw [← computeGini_eq_of_perm same, computed]
    · intro positive
      rw [giniWord]
      exact abs_giniFloor_sub_gini_le 1000000 (pairwise_ascendingRewards rewards) positive

/--
The coefficient of three different rewards is right, and no longer when a
reward takes the ranked sum out of the word.
-/
theorem computeGini_right_unequalRewards :
    (∃ gini, GiniRight [700, 100, 300] gini) ∧
      ¬ ∃ gini, GiniRight [700, 10000000000000, 300] gini := by
  have sorted : ascendingRewards [700, 100, 300] = [100, 300, 700] :=
    ascendingRewards_eq (by decide) (by decide)
  have sortedLarge :
      ascendingRewards [700, 10000000000000, 300] =
        [300, 700, 10000000000000] :=
    ascendingRewards_eq (by decide) (by decide)
  constructor
  · apply (computeGini_right_iff (by decide) (by decide)).mpr
    rw [sorted]
    decide
  · intro right
    have fits := (computeGini_right_iff (by decide) (by decide)).mp right
    rw [sortedLarge] at fits
    exact absurd fits (by decide)

end ScalarCore
