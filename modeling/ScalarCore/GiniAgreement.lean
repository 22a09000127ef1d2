import ScalarCore.GiniCoefficient

namespace ScalarCore

/-!
# The two Gini coefficients

The equity module compares every two distributions and divides once, the boost
calculator weights the sorted rewards by rank and subtracts two quotients.  On
sorted numbers the distances are the weighted sum less the mean weights, so the
two differ by rounding only.
-/

open MachineInt RankSum

namespace Equity

/-- `u64::abs_diff`. -/
def absDiff (left right : UInt64) : UInt64 :=
  if left < right then right - left else left - right

/-- The inner loop: the differences of one distribution from all. -/
def addDifferences
    (dists : List UInt64)
    (sum : UInt64)
    (dist : UInt64) :
    Option UInt64 :=
  dists.foldlM (fun sum other => checkedAdd sum (absDiff dist other)) sum

/-- One round of the outer loop over the sum of differences and the total. -/
def addDistribution
    (dists : List UInt64)
    (sums : UInt64 × UInt64)
    (dist : UInt64) :
    Option (UInt64 × UInt64) := do
  let total ← checkedAdd sums.2 dist
  let sumOfAbsoluteDifferences ← addDifferences dists sums.1 dist
  some (sumOfAbsoluteDifferences, total)

/-- `FIXED_POINT_BASIS`. -/
def fixedPointBasis : UInt64 :=
  1000000

/-- The coefficient from the number of distributions, their differences and their total. -/
def giniOfDifferences (n sumOfAbsoluteDifferences total : UInt64) : Option UInt64 := do
  let doubled ← checkedMul 2 n
  let denominator ← checkedMul doubled total
  let scaled ← checkedMul sumOfAbsoluteDifferences fixedPointBasis
  some (scaled / denominator)

/-- `equity::compute_gini`, absent where the arithmetic overflows. -/
def computeGini (distributions : List UInt64) : Option UInt64 :=
  if distributions.isEmpty then
    some 0
  else do
    let dists := distributions.mergeSort
    let n := UInt64.ofNat dists.length
    let (sumOfAbsoluteDifferences, total) ← dists.foldlM (addDistribution dists) (0, 0)
    if total = 0 then
      some 0
    else
      giniOfDifferences n sumOfAbsoluteDifferences total

/-- The difference of words is the distance of their numbers. -/
theorem toNat_absDiff (left right : UInt64) :
    (absDiff left right).toNat = Nat.dist left.toNat right.toNat := by
  unfold absDiff
  split
  · next below =>
      have le := UInt64.le_of_lt below
      rw [UInt64.toNat_sub_of_le _ _ le, Nat.dist_eq_sub_of_le (UInt64.le_iff_toNat_le.mp le)]
  · next notBelow =>
      have le := UInt64.not_lt.mp notBelow
      rw [UInt64.toNat_sub_of_le _ _ le,
        Nat.dist_eq_sub_of_le_right (UInt64.le_iff_toNat_le.mp le)]

theorem addDifferences_eq_some_iff
    {dists : List UInt64}
    {start dist total : UInt64} :
    addDifferences dists start dist = some total ↔
      total.toNat =
        start.toNat + ((dists.map UInt64.toNat).map (Nat.dist dist.toNat)).sum := by
  rw [List.map_map]
  refine foldlM_eq_some_iff ?_
  intro other _ start next
  rw [checkedAdd_eq_some_iff, toNat_absDiff]
  rfl

/-- The outer loop over a part of the distributions gives both exact sums. -/
theorem foldlM_addDistribution
    {dists items : List UInt64}
    {start : UInt64 × UInt64}
    {differences total : Nat}
    (isDifferences :
      differences =
        start.1.toNat +
          (items.map fun dist =>
            ((dists.map UInt64.toNat).map (Nat.dist dist.toNat)).sum).sum)
    (isTotal : total = start.2.toNat + (items.map UInt64.toNat).sum)
    (differencesFit : differences ≤ maxU64)
    (totalFits : total ≤ maxU64) :
    items.foldlM (addDistribution dists) start =
      some (UInt64.ofNat differences, UInt64.ofNat total) := by
  induction items generalizing start with
  | nil =>
      rw [List.map_nil, List.sum_nil, Nat.add_zero] at isDifferences isTotal
      rw [List.foldlM_nil, isDifferences, isTotal, UInt64.ofNat_toNat, UInt64.ofNat_toNat]
      rfl
  | cons dist rest inductionHypothesis =>
      rw [List.map_cons, List.sum_cons, ← Nat.add_assoc] at isDifferences isTotal
      have totalWord :
          (UInt64.ofNat (start.2.toNat + dist.toNat)).toNat = start.2.toNat + dist.toNat :=
        toNat_ofNat_of_le (by omega)
      have differencesWord :
          (UInt64.ofNat
              (start.1.toNat +
                ((dists.map UInt64.toNat).map (Nat.dist dist.toNat)).sum)).toNat =
            start.1.toNat + ((dists.map UInt64.toNat).map (Nat.dist dist.toNat)).sum :=
        toNat_ofNat_of_le (by omega)
      have added := checkedAdd_eq_some_iff.mpr totalWord
      have compared := addDifferences_eq_some_iff.mpr differencesWord
      rw [List.foldlM_cons, addDistribution, added]
      simp only [Option.bind_eq_bind, Option.bind_some, compared]
      apply inductionHypothesis
      · rw [isDifferences, differencesWord]
      · rw [isTotal, totalWord]

/-- Both sums of the sorted distributions are exact where they fit a word. -/
theorem foldlM_mergeSort
    {distributions : List UInt64}
    (differencesFit : distanceSum (ascendingRewards distributions) ≤ maxU64)
    (totalFits : (ascendingRewards distributions).sum ≤ maxU64) :
    distributions.mergeSort.foldlM (addDistribution distributions.mergeSort) (0, 0) =
      some (UInt64.ofNat (distanceSum (ascendingRewards distributions)),
        UInt64.ofNat (ascendingRewards distributions).sum) := by
  apply foldlM_addDistribution _ _ differencesFit totalFits
  · rw [UInt64.toNat_zero, Nat.zero_add, map_toNat_mergeSort, distanceSum,
      ← map_toNat_mergeSort, List.map_map]
    rfl
  · rw [UInt64.toNat_zero, Nat.zero_add, map_toNat_mergeSort]

/-- Distributions that sum to zero have the coefficient zero. -/
theorem computeGini_of_sum_eq_zero
    {distributions : List UInt64}
    (sumZero : (ascendingRewards distributions).sum = 0) :
    computeGini distributions = some 0 := by
  have differencesZero : distanceSum (ascendingRewards distributions) = 0 := by
    have atMost := distanceSum_le (pairwise_ascendingRewards distributions)
    rwa [sumZero, Nat.mul_zero, Nat.mul_zero, Nat.le_zero] at atMost
  have sums :=
    foldlM_mergeSort (differencesZero.le.trans (Nat.zero_le _)) (sumZero.le.trans (Nat.zero_le _))
  rw [computeGini]
  split
  · rfl
  · simp [sums, sumZero]

/-- The quotient is there exactly when its terms fit a word. -/
theorem giniOfDifferences_eq_some_iff {n differences total gini : UInt64} :
    giniOfDifferences n differences total = some gini ↔
      2 * n.toNat * total.toNat ≤ maxU64 ∧
        2 * n.toNat ≤ maxU64 ∧
        differences.toNat * 1000000 ≤ maxU64 ∧
        gini.toNat = differences.toNat * 1000000 / (2 * n.toNat * total.toNat) := by
  have two : (2 : UInt64).toNat = 2 := rfl
  have million : fixedPointBasis.toNat = 1000000 := rfl
  simp only [giniOfDifferences, Option.bind_eq_bind, Option.bind_eq_some_iff,
    checkedMul_eq_some_iff, Option.some_inj, two, million]
  constructor
  · rintro ⟨doubled, isDoubled, denominator, isDenominator, scaled, isScaled, rfl⟩
    rw [isDoubled] at isDenominator
    rw [UInt64.toNat_div, ← isScaled, ← isDenominator, ← isDoubled]
    exact
      ⟨toNat_le_maxU64 denominator, toNat_le_maxU64 doubled, toNat_le_maxU64 scaled, rfl⟩
  · rintro ⟨denominatorFits, doubledFits, scaledFits, isGini⟩
    have doubledWord := toNat_ofNat_of_le doubledFits
    have denominatorWord := toNat_ofNat_of_le denominatorFits
    have scaledWord := toNat_ofNat_of_le scaledFits
    refine ⟨_, doubledWord, _, denominatorWord.trans ?_, _, scaledWord, ?_⟩
    · rw [doubledWord]
    · rw [← UInt64.toNat_inj, UInt64.toNat_div, scaledWord, denominatorWord, isGini]

/-- The coefficient is the quotient of the exact sums where its terms fit a word. -/
theorem computeGini_eq_some
    {distributions : List UInt64}
    {gini : UInt64}
    (positive : 0 < (ascendingRewards distributions).sum)
    (denominatorFits :
      2 * distributions.length * (ascendingRewards distributions).sum ≤ maxU64)
    (scaledFits : distanceSum (ascendingRewards distributions) * 1000000 ≤ maxU64)
    (isGini :
      gini.toNat =
        distanceSum (ascendingRewards distributions) * 1000000 /
          (2 * distributions.length * (ascendingRewards distributions).sum)) :
    computeGini distributions = some gini := by
  have nonempty : 0 < distributions.length := by
    rw [← length_ascendingRewards]
    exact List.length_pos_of_sum_pos _ positive
  have doubledFits : 2 * distributions.length ≤ maxU64 :=
    (Nat.le_mul_of_pos_right _ positive).trans denominatorFits
  have totalFits : (ascendingRewards distributions).sum ≤ maxU64 :=
    (Nat.le_mul_of_pos_left _ (by omega)).trans denominatorFits
  have lengthWord : (UInt64.ofNat distributions.length).toNat = distributions.length :=
    toNat_ofNat_of_le (by omega)
  have totalWord := toNat_ofNat_of_le totalFits
  have differencesFit : distanceSum (ascendingRewards distributions) ≤ maxU64 :=
    (Nat.le_mul_of_pos_right _ (by decide)).trans scaledFits
  have differencesWord := toNat_ofNat_of_le differencesFit
  have totalNonzero : UInt64.ofNat (ascendingRewards distributions).sum ≠ 0 := by
    intro isZero
    rw [isZero, UInt64.toNat_zero] at totalWord
    omega
  have occupied : ¬ distributions.isEmpty := by
    intro isEmpty
    rw [List.isEmpty_iff.mp isEmpty] at nonempty
    exact absurd nonempty (Nat.lt_irrefl 0)
  simp only [computeGini, if_neg occupied, List.length_mergeSort,
    foldlM_mergeSort differencesFit totalFits, Option.bind_eq_bind, Option.bind_some,
    if_neg totalNonzero]
  rw [giniOfDifferences_eq_some_iff, lengthWord, totalWord, differencesWord]
  exact ⟨denominatorFits, doubledFits, scaledFits, isGini⟩

end Equity

/--
Where two million times the number and the sum of the values fits a word, neither
implementation overflows and the boost calculator answers the coefficient of the
equity module, or one more.
-/
theorem gini_implementations_agree
    (values : List UInt64)
    (bounded : 2000000 * values.length * (values.map UInt64.toNat).sum < 2 ^ 64) :
    ∃ boost equity : UInt64,
      computeGini values = some boost ∧
        Equity.computeGini values = some equity ∧
          (boost.toNat = equity.toNat ∨ boost.toNat = equity.toNat + 1) := by
  rw [← sum_ascendingRewards] at bounded
  obtain sumZero | positive := Nat.eq_zero_or_pos (ascendingRewards values).sum
  · exact
      ⟨0, 0, computeGini_of_sum_eq_zero sumZero, Equity.computeGini_of_sum_eq_zero sumZero,
        Or.inl rfl⟩
  · have ascending := pairwise_ascendingRewards values
    have nonempty : 0 < values.length := by
      rw [← length_ascendingRewards]
      exact List.length_pos_of_sum_pos _ positive
    have ranked := rankSum_le (ascendingRewards values)
    have distances := distanceSum_le ascending
    have rounded := giniFloor_eq_distances_or 1000000 ascending positive
    rw [length_ascendingRewards] at ranked distances rounded
    have product :
        2000000 * (values.length * (ascendingRewards values).sum) ≤ maxU64 := by
      rw [← Nat.mul_assoc]
      exact Nat.le_pred_of_lt bounded
    have scaledLength : (values.length + 1) * 1000000 ≤ maxU64 := by
      have lengthProduct := Nat.le_mul_of_pos_right values.length positive
      omega
    have rankedFits : 2000000 * rankSum (ascendingRewards values) ≤ maxU64 :=
      (Nat.mul_le_mul_left _ ranked).trans product
    have distancesFit : distanceSum (ascendingRewards values) * 1000000 ≤ maxU64 := by
      linarith only [distances, product]
    have productFits : values.length * (ascendingRewards values).sum ≤ maxU64 :=
      (Nat.le_mul_of_pos_left _ (by decide)).trans product
    have denominatorFits :
        2 * values.length * (ascendingRewards values).sum ≤ maxU64 := by
      rw [Nat.mul_assoc]
      exact (Nat.mul_le_mul_right _ (by decide)).trans product
    have equityFits :
        distanceSum (ascendingRewards values) * 1000000 /
            (2 * values.length * (ascendingRewards values).sum) ≤ maxU64 :=
      (Nat.div_le_self _ _).trans distancesFit
    have boostFits : giniFloor 1000000 (ascendingRewards values) ≤ maxU64 := by
      refine (Nat.sub_le _ _).trans ((Nat.div_le_self _ _).trans ?_)
      linarith only [rankedFits]
    have equityWord := toNat_ofNat_of_le equityFits
    have boostWord := toNat_ofNat_of_le boostFits
    refine
      ⟨_, _,
        (computeGini_eq_some_iff_of_fits scaledLength productFits).mpr ⟨rankedFits, boostWord⟩,
        Equity.computeGini_eq_some positive denominatorFits distancesFit equityWord, ?_⟩
    rw [equityWord, boostWord]
    exact rounded

/-- Two implementations, one distribution that they round differently. -/
theorem gini_implementations_agree_thirds :
    2000000 * [(1 : UInt64), 1, 2].length * ([(1 : UInt64), 1, 2].map UInt64.toNat).sum <
        2 ^ 64 ∧
      ∃ boost equity : UInt64,
        computeGini [1, 1, 2] = some boost ∧
          Equity.computeGini [1, 1, 2] = some equity ∧
            (boost.toNat = equity.toNat ∨ boost.toNat = equity.toNat + 1) :=
  ⟨by decide, gini_implementations_agree [1, 1, 2] (by decide)⟩

end ScalarCore
