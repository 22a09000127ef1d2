import Mathlib.Algebra.BigOperators.Group.List.Basic
import Mathlib.Algebra.BigOperators.Ring.List
import Mathlib.Algebra.Order.Field.Rat
import Mathlib.Data.List.Induction
import Mathlib.Data.List.Sort
import Mathlib.Data.Nat.Cast.Order.Field
import Mathlib.Data.Nat.Dist
import Mathlib.Data.Rat.Cast.Order
import Mathlib.Tactic.FieldSimp
import Mathlib.Tactic.Linarith
import Mathlib.Tactic.LinearCombination
import Mathlib.Tactic.Positivity
import Mathlib.Tactic.Ring

namespace RankSum

/-!
# Sums weighted by rank

Each number of a list is weighted by its position, from one on.  In ascending
order the large numbers have the large weights, so the weighted sum is at least
the mean weight times the sum.  This bounds the Gini coefficient of the list and
of its computation by whole numbers.
-/

/-- Each number times its position. -/
def rankSum (values : List Nat) : Nat :=
  (values.zipIdx.map fun entry => (entry.2 + 1) * entry.1).sum

@[simp] theorem rankSum_nil : rankSum [] = 0 :=
  rfl

/-- The last number has the length as its weight. -/
theorem rankSum_concat (values : List Nat) (value : Nat) :
    rankSum (values ++ [value]) = rankSum values + (values.length + 1) * value := by
  rw [rankSum, List.zipIdx_append, List.map_append, List.sum_append, Nat.zero_add,
    List.zipIdx_singleton, List.map_singleton, List.sum_singleton]
  rfl

/-- Scaling the numbers scales their weighted sum. -/
theorem rankSum_map_mul (factor : Nat) (values : List Nat) :
    rankSum (values.map (factor * ·)) = factor * rankSum values := by
  induction values using List.reverseRecOn with
  | nil =>
      rfl
  | append_singleton values value inductionHypothesis =>
      rw [List.map_append, List.map_singleton, rankSum_concat, rankSum_concat,
        inductionHypothesis, List.length_map]
      ring

/-- Scaling the numbers scales their sum. -/
theorem sum_map_mul (factor : Nat) (values : List Nat) :
    (values.map (factor * ·)).sum = factor * values.sum := by
  rw [List.sum_map_mul_left, List.map_id']

/-- No weight is larger than the length. -/
theorem rankSum_le (values : List Nat) : rankSum values ≤ values.length * values.sum := by
  induction values using List.reverseRecOn with
  | nil =>
      rfl
  | append_singleton values value inductionHypothesis =>
      rw [rankSum_concat, List.length_append, List.length_singleton, List.sum_append,
        List.sum_singleton]
      calc
        rankSum values + (values.length + 1) * value ≤
            values.length * values.sum + (values.length + 1) * value :=
          Nat.add_le_add_right inductionHypothesis _
        _ ≤ (values.length + 1) * values.sum + (values.length + 1) * value := by
          gcongr
          exact Nat.le_succ _
        _ = (values.length + 1) * (values.sum + value) :=
          (Nat.mul_add _ _ _).symm

/-- The sum is at least the sum of the first numbers, each taken at most at the last one. -/
theorem sum_le_length_mul
    {values : List Nat}
    {bound : Nat}
    (bounded : ∀ value ∈ values, value ≤ bound) :
    values.sum ≤ values.length * bound := by
  have sumBound := List.sum_le_card_nsmul values bound bounded
  rwa [Nat.nsmul_eq_mul] at sumBound

/-- In ascending order the weighted sum is at least that of the mean weight. -/
theorem le_two_mul_rankSum
    {values : List Nat}
    (ascending : values.Pairwise (· ≤ ·)) :
    (values.length + 1) * values.sum ≤ 2 * rankSum values := by
  induction values using List.reverseRecOn with
  | nil =>
      rfl
  | append_singleton values value inductionHypothesis =>
      obtain ⟨firstAscending, -, before⟩ := List.pairwise_append.mp ascending
      have earlier := inductionHypothesis firstAscending
      have atMost := sum_le_length_mul fun other listed =>
        before other listed value (List.mem_singleton_self value)
      rw [rankSum_concat, List.length_append, List.length_singleton, List.sum_append,
        List.sum_singleton]
      -- the last number is at least the mean of those before it
      calc
        (values.length + 1 + 1) * (values.sum + value) =
            (values.length + 1) * values.sum + values.sum + (values.length + 2) * value := by
          ring
        _ ≤ 2 * rankSum values + values.length * value + (values.length + 2) * value := by
          gcongr
        _ = 2 * (rankSum values + (values.length + 1) * value) := by
          ring

/-- The Gini coefficient of ascending numbers, in units of `1 / scale`. -/
def gini (scale : Nat) (values : List Nat) : ℚ :=
  scale * (2 * rankSum values / (values.length * values.sum) -
    (values.length + 1) / values.length)

/-- The Gini coefficient computed with whole numbers. -/
def giniFloor (scale : Nat) (values : List Nat) : Nat :=
  2 * rankSum values * scale / (values.length * values.sum) -
    (values.length + 1) * scale / values.length

/-- The sum of all distances between two numbers of the list, in both orders. -/
def distanceSum (values : List Nat) : Nat :=
  (values.map fun value => (values.map (Nat.dist value)).sum).sum

/-- The distances from an upper bound, with the numbers, are the bound each time. -/
theorem sum_dist_add_sum
    {values : List Nat}
    {bound : Nat}
    (bounded : ∀ value ∈ values, value ≤ bound) :
    (values.map (Nat.dist bound)).sum + values.sum = values.length * bound := by
  induction values with
  | nil =>
      rw [List.map_nil, List.sum_nil, List.length_nil, Nat.zero_mul, Nat.add_zero]
  | cons value rest inductionHypothesis =>
      have first := Nat.dist_eq_sub_of_le_right (bounded value List.mem_cons_self)
      have below := bounded value List.mem_cons_self
      have others :=
        inductionHypothesis fun other listed => bounded other (List.mem_cons_of_mem _ listed)
      rw [List.map_cons, List.sum_cons, List.sum_cons, List.length_cons, Nat.succ_mul, first]
      omega

/-- A number at the end is compared with all others twice. -/
theorem distanceSum_concat (values : List Nat) (value : Nat) :
    distanceSum (values ++ [value]) =
      distanceSum values + 2 * (values.map (Nat.dist value)).sum := by
  have column (other : Nat) :
      ((values ++ [value]).map (Nat.dist other)).sum =
        (values.map (Nat.dist other)).sum + Nat.dist value other := by
    rw [List.map_append, List.sum_append, List.map_singleton, List.sum_singleton,
      Nat.dist_comm other]
  have rows :
      (values.map fun other => (values.map (Nat.dist other)).sum + Nat.dist value other).sum =
        distanceSum values + (values.map (Nat.dist value)).sum :=
    List.sum_map_add
  rw [distanceSum, List.map_congr_left fun other _ => column other, List.map_append,
    List.sum_append, List.map_singleton, List.sum_singleton, rows, Nat.dist_self, Nat.add_zero,
    Nat.add_assoc, ← Nat.two_mul]

/-- In ascending order the distances are the weighted sum less the mean weights. -/
theorem distanceSum_add
    {values : List Nat}
    (ascending : values.Pairwise (· ≤ ·)) :
    distanceSum values + 2 * ((values.length + 1) * values.sum) = 4 * rankSum values := by
  induction values using List.reverseRecOn with
  | nil =>
      rfl
  | append_singleton values value inductionHypothesis =>
      obtain ⟨firstAscending, -, before⟩ := List.pairwise_append.mp ascending
      have earlier := inductionHypothesis firstAscending
      have last := sum_dist_add_sum fun other listed =>
        before other listed value (List.mem_singleton_self value)
      rw [distanceSum_concat, rankSum_concat, List.length_append, List.length_singleton,
        List.sum_append, List.sum_singleton]
      linear_combination earlier + 2 * last

/-- The distances are at most twice the largest weighted sum. -/
theorem distanceSum_le
    {values : List Nat}
    (ascending : values.Pairwise (· ≤ ·)) :
    distanceSum values ≤ 2 * (values.length * values.sum) := by
  have exact := distanceSum_add ascending
  have largest := rankSum_le values
  have smallest : values.length * values.sum ≤ (values.length + 1) * values.sum :=
    Nat.mul_le_mul_right _ (Nat.le_succ _)
  omega

/--
The coefficient with one division is the one with two, or one unit less.
-/
theorem giniFloor_eq_distances_or
    (scale : Nat)
    {values : List Nat}
    (ascending : values.Pairwise (· ≤ ·))
    (positive : 0 < values.sum) :
    giniFloor scale values = distanceSum values * scale / (2 * values.length * values.sum) ∨
      giniFloor scale values =
        distanceSum values * scale / (2 * values.length * values.sum) + 1 := by
  have exact := distanceSum_add ascending
  have second :
      (values.length + 1) * scale / values.length =
        (values.length + 1) * values.sum * scale / (values.length * values.sum) := by
    rw [← Nat.mul_div_mul_right _ _ positive, Nat.mul_right_comm]
  -- half of the distances are what the ranked sum has above the mean weights
  obtain ⟨half, isHalf⟩ : ∃ half, distanceSum values = 2 * half := by
    refine ⟨2 * rankSum values - (values.length + 1) * values.sum, ?_⟩
    omega
  have ranked :
      2 * rankSum values * scale = (values.length + 1) * values.sum * scale + half * scale := by
    rw [← Nat.add_mul]
    congr 1
    omega
  have one :
      distanceSum values * scale / (2 * values.length * values.sum) =
        half * scale / (values.length * values.sum) := by
    rw [isHalf, Nat.mul_assoc, Nat.mul_assoc, Nat.mul_div_mul_left _ _ Nat.two_pos]
  have denominatorPositive : 0 < values.length * values.sum :=
    Nat.mul_pos (List.length_pos_of_sum_pos _ positive) positive
  rw [giniFloor, second, one, ranked, Nat.add_div denominatorPositive, Nat.add_assoc,
    Nat.add_sub_cancel_left]
  split
  · exact Or.inr rfl
  · exact Or.inl rfl

/-- Numbers that are all zero have the coefficient zero. -/
theorem giniFloor_of_sum_eq_zero
    (scale : Nat)
    {values : List Nat}
    (sumZero : values.sum = 0) :
    rankSum values = 0 ∧ giniFloor scale values = 0 := by
  have rankZero : rankSum values = 0 := by
    have rankBound := rankSum_le values
    rwa [sumZero, Nat.mul_zero, Nat.le_zero] at rankBound
  refine ⟨rankZero, ?_⟩
  rw [giniFloor, rankZero, sumZero, Nat.mul_zero, Nat.mul_zero, Nat.div_zero, Nat.zero_sub]

/-- The Gini coefficient does not depend on the unit of the numbers. -/
theorem giniFloor_map_mul
    {factor : Nat}
    (positive : 0 < factor)
    (scale : Nat)
    (values : List Nat) :
    giniFloor scale (values.map (factor * ·)) = giniFloor scale values := by
  have numerator : 2 * (factor * rankSum values) * scale =
      factor * (2 * rankSum values * scale) := by
    ring
  have denominator : values.length * (factor * values.sum) =
      factor * (values.length * values.sum) := by
    ring
  rw [giniFloor, giniFloor, rankSum_map_mul, sum_map_mul, List.length_map, numerator,
    denominator, Nat.mul_div_mul_left _ _ positive]

/-- The coefficient is below the scale. -/
theorem giniFloor_lt
    {scale : Nat}
    {values : List Nat}
    (positive : 0 < scale)
    (short : values.length ≤ scale) :
    giniFloor scale values < scale := by
  rcases Nat.eq_zero_or_pos values.length with isEmpty | nonempty
  · rw [giniFloor, isEmpty, Nat.zero_mul, Nat.div_zero, Nat.zero_sub]
    exact positive
  · have first : 2 * rankSum values * scale / (values.length * values.sum) ≤ 2 * scale := by
      refine Nat.div_le_of_le_mul ?_
      calc
        2 * rankSum values * scale ≤ 2 * (values.length * values.sum) * scale := by
          gcongr
          exact rankSum_le values
        _ = values.length * values.sum * (2 * scale) := by
          ring
    have second : scale + 1 ≤ (values.length + 1) * scale / values.length := by
      rw [Nat.le_div_iff_mul_le nonempty]
      calc
        (scale + 1) * values.length = values.length * scale + values.length := by
          ring
        _ ≤ values.length * scale + scale := by
          gcongr
        _ = (values.length + 1) * scale := by
          ring
    rw [giniFloor]
    omega

/-- A quotient of whole numbers is the exact one rounded down. -/
theorem floorDiv_le
    (numerator : Nat)
    {denominator : Nat}
    (positive : 0 < denominator) :
    ((numerator / denominator : Nat) : ℚ) ≤ numerator / denominator ∧
      (numerator : ℚ) / denominator < (numerator / denominator : Nat) + 1 := by
  have positiveRat : (0 : ℚ) < denominator :=
    Nat.cast_pos.mpr positive
  refine ⟨Nat.cast_div_le, ?_⟩
  rw [div_lt_iff₀ positiveRat]
  exact_mod_cast Nat.lt_mul_of_div_lt (Nat.lt_succ_self _) positive

/-- The coefficient in whole numbers is the exact one, up to one unit. -/
theorem abs_giniFloor_sub_gini_le
    (scale : Nat)
    {values : List Nat}
    (ascending : values.Pairwise (· ≤ ·))
    (positive : 0 < values.sum) :
    |(giniFloor scale values : ℚ) - gini scale values| ≤ 1 := by
  have nonempty : 0 < values.length :=
    List.length_pos_iff.mpr (by rintro rfl; exact positive.false)
  obtain ⟨firstLow, firstHigh⟩ :=
    floorDiv_le (2 * rankSum values * scale) (Nat.mul_pos nonempty positive)
  obtain ⟨secondLow, secondHigh⟩ := floorDiv_le ((values.length + 1) * scale) nonempty
  -- the ranked term is the larger one, so nothing is cut off
  have ordered :
      (values.length + 1) * scale / values.length ≤
        2 * rankSum values * scale / (values.length * values.sum) := by
    rw [← Nat.mul_div_mul_right _ _ positive]
    refine Nat.div_le_div_right ?_
    calc
      (values.length + 1) * scale * values.sum = (values.length + 1) * values.sum * scale := by
        ring
      _ ≤ 2 * rankSum values * scale :=
        Nat.mul_le_mul_right scale (le_two_mul_rankSum ascending)
  have exact : gini scale values =
      ((2 * rankSum values * scale : Nat) : ℚ) / (values.length * values.sum : Nat) -
        ((values.length + 1) * scale : Nat) / (values.length : Nat) := by
    rw [gini]
    push_cast
    ring
  rw [giniFloor, Nat.cast_sub ordered, exact, abs_le]
  constructor <;> linarith

end RankSum
