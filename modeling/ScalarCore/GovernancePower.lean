import ScalarCore.Bytes
import ScalarCore.FloorShares
import ScalarCore.MachineInt
import Mathlib.Order.Monotone.Basic

namespace ScalarCore

/-!
# Governance power

The power of an account is its weight, scaled by a factor that grows with the days it has
been convinced.  The factor is read off a table and interpolated between its points.
Power never falls when the days, the weight or the score grow, and an account gains none by
dividing its weight among others, except above the cap, which is one for each account.
-/

open FloorShares MachineInt

/-- The table of `ConvictionTable::interpolate`. -/
def convictionCheckpoints : List (UInt32 × UInt64) :=
  [(0, 0), (7, 521799), (14, 771361), (22, 901504), (30, 957584), (60, 998187),
    (365, 1000000)]

/-- The loop of `ConvictionTable::interpolate` over the windows of the table. -/
def interpolateIn : List (UInt32 × UInt64) → UInt32 → UInt64
  | (t1, v1) :: (t2, v2) :: rest, t =>
      if t ≥ t1 ∧ t ≤ t2 then
        let range := (t2 - t1).toUInt64
        let progress := (t - t1).toUInt64
        v1 + (v2 - v1) * progress / range
      else
        interpolateIn ((t2, v2) :: rest) t
  | _, _ =>
      1000000

/-- `ConvictionTable::interpolate`. -/
def interpolateConviction (t : UInt32) : UInt64 :=
  interpolateIn convictionCheckpoints t

/-- `ConvictionTable::conviction_factor`. -/
def convictionFactor (tDays : UInt32) : UInt64 :=
  if tDays = 0 then 0
  else if tDays = 1 then 100000
  else if tDays = 2 then 190000
  else if tDays = 3 then 271000
  else if tDays = 4 then 344000
  else if tDays = 5 then 410000
  else if tDays = 6 then 469000
  else if tDays = 7 then 521799
  else if tDays = 14 then 771361
  else if tDays = 22 then 901504
  else if tDays = 30 then 957584
  else if tDays = 60 then 998187
  else if 365 ≤ tDays then 1000000
  else interpolateConviction tDays

/-- `ai_resistance_multiplier`. -/
def aiResistanceMultiplier (convictionDays : UInt32) : UInt64 :=
  if convictionDays ≤ 6 then
    10000
  else if 30 ≤ convictionDays then
    1000000
  else
    let range : UInt32 := 30 - 7
    let progress := convictionDays - 7
    10000 + 990000 * progress.toUInt64 / range.toUInt64

/-- `GovernancePowerCalculator::compute_governance_power`; none where it overflows. -/
def computeGovernancePower (convictionDays : UInt32) (govWeight : UInt64) : Option UInt64 := do
  let cf := convictionFactor convictionDays
  let aiMult := aiResistanceMultiplier convictionDays
  let scaled ← checkedMul cf govWeight
  let intermediate := scaled / 1000000
  let product ← checkedMul intermediate aiMult
  some (product / 1000000)

/-- `compute_governance_power_v9`: the quotient is cast to a word. -/
def computeGovernancePowerV9 (uptimeWeightFp convictionFactorFp : UInt64) : UInt64 :=
  UInt64.ofNat
    ((checkedDiv128 (saturatingMul128 uptimeWeightFp.toNat convictionFactorFp.toNat)
      1000000).getD 0)

/-- `compute_total_gp`. -/
def computeTotalGp (participants : List (UInt64 × UInt64)) : UInt64 :=
  participants.foldl
    (fun acc participant =>
      saturatingAdd acc (computeGovernancePowerV9 participant.1 participant.2)) 0

/-- `NODESCORE_HIGH_THRESHOLD`. -/
def nodescoreHighThreshold : UInt32 :=
  800000

/-- `NODESCORE_GP_HIGH_CAP`. -/
def nodescoreGpHighCap : UInt64 :=
  1000000

/-- `NODESCORE_GP_LOW_CAP`. -/
def nodescoreGpLowCap : UInt64 :=
  200000

/-- `gov_max_fp`. -/
def govMaxFp (nodeScorePrevEpoch : UInt32) : UInt64 :=
  if nodeScorePrevEpoch ≥ nodescoreHighThreshold then
    nodescoreGpHighCap
  else
    nodescoreGpLowCap

/-- `compute_base_gp`: the quotient is cast to a word. -/
def computeBaseGp (convictionFactorFp maturityFp : UInt64) : UInt64 :=
  UInt64.ofNat
    ((checkedDiv128 (saturatingMul128 convictionFactorFp.toNat maturityFp.toNat)
      1000000).getD 0)

/-- `compute_governance_power_v12`. -/
def computeGovernancePowerV12
    (nodeScorePrevEpoch : UInt32)
    (convictionFactorFp maturityFp : UInt64) : UInt64 :=
  let baseGp := computeBaseGp convictionFactorFp maturityFp
  min baseGp (govMaxFp nodeScorePrevEpoch)

/-- `GOVERNANCE_MIN_STAKE_SSCL`. -/
def governanceMinStakeSscl : UInt64 :=
  100000

/-- `AntiSybilResult`. -/
inductive AntiSybilResult where
  | valid (governanceId : Bytes32) (gp : UInt64)
  | insufficientStake (stake required : UInt64)
  | duplicateGovernanceId (governanceId : Bytes32)
  | zeroGovernancePower
  deriving DecidableEq

/-- `validate_governance_participant`. -/
def validateGovernanceParticipant
    (governanceId : Bytes32)
    (stakeSscl uptimeWeightFp convictionFactorFp : UInt64)
    (existingIds : List Bytes32) : AntiSybilResult :=
  if stakeSscl < governanceMinStakeSscl then
    .insufficientStake stakeSscl governanceMinStakeSscl
  else if governanceId ∈ existingIds then
    .duplicateGovernanceId governanceId
  else
    let gp := computeGovernancePowerV9 uptimeWeightFp convictionFactorFp
    if gp = 0 then
      .zeroGovernancePower
    else
      .valid governanceId gp

section Growth

/-- A function of days that grows up to a day and is constant from there grows. -/
theorem toNat_le_of_growth
    {factor : UInt32 → UInt64}
    {last : Nat}
    (grows :
      ∀ day < last,
        (factor (UInt32.ofNat day)).toNat ≤ (factor (UInt32.ofNat (day + 1))).toNat)
    (saturates : ∀ days : UInt32, last ≤ days.toNat → factor days = factor (UInt32.ofNat last))
    {days later : UInt32}
    (isLater : days ≤ later) :
    (factor days).toNat ≤ (factor later).toNat := by
  have clamped (days : UInt32) : factor days = factor (UInt32.ofNat (min days.toNat last)) := by
    rcases Nat.le_total days.toNat last with early | late
    · rw [Nat.min_eq_left early, UInt32.ofNat_toNat]
    · rw [Nat.min_eq_right late, saturates days late]
  have monotone : Monotone fun day => (factor (UInt32.ofNat (min day last))).toNat := by
    refine monotone_nat_of_le_succ fun day => ?_
    rcases Nat.lt_or_ge day last with early | late
    · rw [Nat.min_eq_left early.le, Nat.min_eq_left early]
      exact grows day early
    · rw [Nat.min_eq_right late, Nat.min_eq_right (Nat.le_succ_of_le late)]
  rw [clamped days, clamped later]
  exact monotone (UInt32.le_iff_toNat_le.mp isLater)

/-- The factor is saturated after a year. -/
theorem convictionFactor_of_le
    {days : UInt32}
    (saturated : 365 ≤ days) :
    convictionFactor days = 1000000 := by
  have late : 365 ≤ days.toNat := UInt32.le_iff_toNat_le.mp saturated
  have other (day : UInt32) (early : day.toNat < 365) : days ≠ day := by
    rintro rfl
    omega
  rw [convictionFactor, if_neg (other 0 (by decide)), if_neg (other 1 (by decide)),
    if_neg (other 2 (by decide)), if_neg (other 3 (by decide)), if_neg (other 4 (by decide)),
    if_neg (other 5 (by decide)), if_neg (other 6 (by decide)), if_neg (other 7 (by decide)),
    if_neg (other 14 (by decide)), if_neg (other 22 (by decide)),
    if_neg (other 30 (by decide)), if_neg (other 60 (by decide)), if_pos saturated]

/-- From one day to the next the factor grows, over the days of the table. -/
theorem convictionFactor_succ_le :
    ∀ day < 365,
      (convictionFactor (UInt32.ofNat day)).toNat ≤
        (convictionFactor (UInt32.ofNat (day + 1))).toNat := by
  decide +kernel

/-- The factor never falls. -/
theorem convictionFactor_mono
    {days later : UInt32}
    (isLater : days ≤ later) :
    (convictionFactor days).toNat ≤ (convictionFactor later).toNat := by
  refine toNat_le_of_growth convictionFactor_succ_le (fun days late => ?_) isLater
  rw [convictionFactor_of_le (UInt32.le_iff_toNat_le.mpr late)]
  rfl

/-- The factor is at most a million. -/
theorem convictionFactor_le (days : UInt32) : (convictionFactor days).toNat ≤ 1000000 := by
  rcases UInt32.le_total days 365 with early | late
  · exact convictionFactor_mono early
  · rw [convictionFactor_of_le late]
    decide

/-- The multiplier is full after thirty days. -/
theorem aiResistanceMultiplier_of_le
    {days : UInt32}
    (full : 30 ≤ days) :
    aiResistanceMultiplier days = 1000000 := by
  have late : 30 ≤ days.toNat := UInt32.le_iff_toNat_le.mp full
  have notEarly : ¬days ≤ 6 := by
    rw [UInt32.le_iff_toNat_le, show (6 : UInt32).toNat = 6 from rfl]
    omega
  rw [aiResistanceMultiplier, if_neg notEarly, if_pos full]

/-- From one day to the next the multiplier grows, up to full power. -/
theorem aiResistanceMultiplier_succ_le :
    ∀ day < 30,
      (aiResistanceMultiplier (UInt32.ofNat day)).toNat ≤
        (aiResistanceMultiplier (UInt32.ofNat (day + 1))).toNat := by
  decide +kernel

/-- The multiplier never falls. -/
theorem aiResistanceMultiplier_mono
    {days later : UInt32}
    (isLater : days ≤ later) :
    (aiResistanceMultiplier days).toNat ≤ (aiResistanceMultiplier later).toNat := by
  refine toNat_le_of_growth aiResistanceMultiplier_succ_le (fun days late => ?_)
    isLater
  rw [aiResistanceMultiplier_of_le (UInt32.le_iff_toNat_le.mpr late)]
  rfl

/-- The multiplier is at most a million. -/
theorem aiResistanceMultiplier_le (days : UInt32) :
    (aiResistanceMultiplier days).toNat ≤ 1000000 := by
  rcases UInt32.le_total days 30 with early | late
  · exact aiResistanceMultiplier_mono early
  · rw [aiResistanceMultiplier_of_le late]
    decide

end Growth

/-- The scaled weight of an account, before any cap. -/
def scaledWeight (weight factor : UInt64) : Nat :=
  weight.toNat * factor.toNat / 1000000

section Power

variable {weight more factor : UInt64} {days later score better : UInt32}

/-- A weight within a million is not scaled up. -/
theorem scaledWeight_le
    (factorBound : factor.toNat ≤ 1000000) :
    scaledWeight weight factor ≤ weight.toNat :=
  share_le factorBound weight.toNat

/-- The quotient of the formulas, where the weights are in range. -/
theorem toNat_computeGovernancePowerV9
    (inRange : weight.toNat ≤ 1000000)
    (factorBound : factor.toNat ≤ 1000000) :
    (computeGovernancePowerV9 weight factor).toNat = scaledWeight weight factor := by
  have product := Nat.mul_le_mul inRange factorBound
  have scaled : scaledWeight weight factor ≤ weight.toNat := scaledWeight_le factorBound
  rw [computeGovernancePowerV9, saturatingMul128_eq (by unfold maxU128; omega),
    checkedDiv128_eq (by decide), Option.getD_some, ← scaledWeight, toNat_ofNat_of_le]
  exact scaled.trans (toNat_le_maxU64 weight)

/-- The base is that of the other formula. -/
theorem computeBaseGp_eq (factor weight : UInt64) :
    computeBaseGp factor weight = computeGovernancePowerV9 weight factor := by
  rw [computeBaseGp, computeGovernancePowerV9, saturatingMul128, saturatingMul128, Nat.mul_comm]

/-- The cap grows with the score. -/
theorem govMaxFp_mono
    (isBetter : score ≤ better) :
    (govMaxFp score).toNat ≤ (govMaxFp better).toNat := by
  rw [govMaxFp, govMaxFp]
  split
  · rename_i high
    rw [if_pos (UInt32.le_trans high isBetter)]
  · split <;> decide

/-- The capped power is the uncapped one or the cap. -/
theorem toNat_computeGovernancePowerV12
    (inRange : weight.toNat ≤ 1000000)
    (factorBound : factor.toNat ≤ 1000000) :
    (computeGovernancePowerV12 score factor weight).toNat =
      min (scaledWeight weight factor) (govMaxFp score).toNat := by
  rw [computeGovernancePowerV12, toNat_min, computeBaseGp_eq,
    toNat_computeGovernancePowerV9 inRange factorBound]

/-- The first formula answers where the weight is in range. -/
theorem exists_computeGovernancePower
    (inRange : weight.toNat ≤ 1000000)
    (days : UInt32) :
    ∃ power,
      computeGovernancePower days weight = some power ∧
        power.toNat =
          scaledWeight weight (convictionFactor days) *
            (aiResistanceMultiplier days).toNat / 1000000 := by
  have product := Nat.mul_le_mul (convictionFactor_le days) inRange
  obtain ⟨scaled, isScaled, exact⟩ :=
    exists_checkedMul
      (show (convictionFactor days).toNat * weight.toNat ≤ maxU64 by unfold maxU64; omega)
  have intermediate :
      (scaled / 1000000).toNat = scaledWeight weight (convictionFactor days) := by
    rw [UInt64.toNat_div, exact, Nat.mul_comm]
    rfl
  have intermediateBound : (scaled / 1000000).toNat ≤ 1000000 :=
    (intermediate.le.trans (scaledWeight_le (convictionFactor_le days))).trans inRange
  have nextProduct := Nat.mul_le_mul intermediateBound (aiResistanceMultiplier_le days)
  obtain ⟨multiplied, isMultiplied, exactNext⟩ :=
    exists_checkedMul
      (show (scaled / 1000000).toNat * (aiResistanceMultiplier days).toNat ≤ maxU64 by
        unfold maxU64; omega)
  refine ⟨multiplied / 1000000, ?_, ?_⟩
  · rw [computeGovernancePower, isScaled, Option.bind_eq_bind, Option.bind_some]
    dsimp only
    rw [isMultiplied, Option.bind_some]
  · rw [UInt64.toNat_div, exactNext, intermediate]
    rfl

/-- The scaled weight grows with the weight and the days. -/
theorem scaledWeight_mono
    (isMore : weight ≤ more)
    (isLater : days ≤ later) :
    scaledWeight weight (convictionFactor days) ≤ scaledWeight more (convictionFactor later) :=
  Nat.div_le_div_right
    (Nat.mul_le_mul (UInt64.le_iff_toNat_le.mp isMore) (convictionFactor_mono isLater))

end Power

/-- An account registers with the least stake, under a new id and with some power. -/
theorem exists_valid_iff
    {governanceId : Bytes32}
    {stakeSscl uptimeWeightFp convictionFactorFp : UInt64}
    {existingIds : List Bytes32} :
    (∃ gp,
        validateGovernanceParticipant governanceId stakeSscl uptimeWeightFp convictionFactorFp
            existingIds =
          .valid governanceId gp) ↔
      governanceMinStakeSscl ≤ stakeSscl ∧ governanceId ∉ existingIds ∧
        computeGovernancePowerV9 uptimeWeightFp convictionFactorFp ≠ 0 := by
  have noneValid {result : AntiSybilResult}
      (refused : ∀ gp, result ≠ .valid governanceId gp) :
      ¬∃ gp, result = .valid governanceId gp := by
    rintro ⟨gp, isValid⟩
    exact refused gp isValid
  rw [validateGovernanceParticipant]
  by_cases small : stakeSscl < governanceMinStakeSscl
  · rw [if_pos small]
    exact iff_of_false (noneValid fun _ => AntiSybilResult.noConfusion) fun all =>
      UInt64.not_lt.mpr all.1 small
  · by_cases isKnown : governanceId ∈ existingIds
    · rw [if_neg small, if_pos isKnown]
      exact iff_of_false (noneValid fun _ => AntiSybilResult.noConfusion) fun all =>
        all.2.1 isKnown
    · rw [if_neg small, if_neg isKnown]
      by_cases isZero : computeGovernancePowerV9 uptimeWeightFp convictionFactorFp = 0
      · rw [if_pos isZero]
        exact iff_of_false (noneValid fun _ => AntiSybilResult.noConfusion) fun all =>
          all.2.2 isZero
      · rw [if_neg isZero]
        exact iff_of_true ⟨_, rfl⟩ ⟨UInt64.not_lt.mp small, isKnown, isZero⟩

/-- The powers of accounts among which a weight is divided, and what they make together. -/
structure FairPower
    (days score : UInt32)
    (whole : UInt64)
    (weights : List UInt64) : Prop where
  divided :
    (computeTotalGp (weights.map fun weight => (weight, convictionFactor days))).toNat ≤
        (computeGovernancePowerV9 whole (convictionFactor days)).toNat ∧
      (weights ≠ [] →
        (computeGovernancePowerV9 whole (convictionFactor days)).toNat <
          (computeTotalGp (weights.map fun weight => (weight, convictionFactor days))).toNat +
            weights.length)
  aboveCap :
    (∀ weight ∈ weights, weight.toNat ≤ (govMaxFp score).toNat) →
    (weights.map fun weight =>
        (computeGovernancePowerV12 score (convictionFactor days) weight).toNat).sum =
      (computeTotalGp (weights.map fun weight => (weight, convictionFactor days))).toNat
  cliff :
    ∃ power,
      computeGovernancePower days whole = some power ∧
        power.toNat ≤ (computeGovernancePowerV9 whole (convictionFactor days)).toNat ∧
        (30 ≤ days → power = computeGovernancePowerV9 whole (convictionFactor days)) ∧
        (days ≤ 6 →
          power.toNat =
            (computeGovernancePowerV9 whole (convictionFactor days)).toNat / 100)
  grows :
    ∀ later better more,
      days ≤ later →
      score ≤ better →
      whole ≤ more →
      more.toNat ≤ 1000000 →
      (computeGovernancePowerV9 whole (convictionFactor days)).toNat ≤
          (computeGovernancePowerV9 more (convictionFactor later)).toNat ∧
        (computeGovernancePowerV12 score (convictionFactor days) whole).toNat ≤
          (computeGovernancePowerV12 better (convictionFactor later) more).toNat ∧
        ∃ power grown,
          computeGovernancePower days whole = some power ∧
            computeGovernancePower later more = some grown ∧ power.toNat ≤ grown.toNat
  registers :
    ∀ governanceId stakeSscl existingIds,
      (∃ gp,
          validateGovernanceParticipant governanceId stakeSscl whole (convictionFactor days)
              existingIds =
            .valid governanceId gp) ↔
        governanceMinStakeSscl ≤ stakeSscl ∧ governanceId ∉ existingIds ∧
          1000000 ≤ whole.toNat * (convictionFactor days).toNat

/-- The total of the powers of weights that are in range together. -/
theorem toNat_computeTotalGp
    {weights : List UInt64}
    (inRange : (weights.map UInt64.toNat).sum ≤ 1000000)
    (days : UInt32) :
    (computeTotalGp (weights.map fun weight => (weight, convictionFactor days))).toNat =
      (shares (convictionFactor days).toNat 1000000 (weights.map UInt64.toNat)).sum := by
  have each (weight : UInt64) (listed : weight ∈ weights) :
      (computeGovernancePowerV9 weight (convictionFactor days)).toNat =
        (convictionFactor days).toNat * weight.toNat / 1000000 := by
    have small := (List.le_sum_of_mem (List.mem_map_of_mem listed)).trans inRange
    rw [toNat_computeGovernancePowerV9 small (convictionFactor_le days), scaledWeight,
      Nat.mul_comm]
  have bounded :
      (shares (convictionFactor days).toNat 1000000 (weights.map UInt64.toNat)).sum ≤
        1000000 :=
    (sum_shares_le inRange _).trans (convictionFactor_le days)
  have sameSum :
      (weights.map fun weight =>
          (computeGovernancePowerV9 weight (convictionFactor days)).toNat).sum =
        (shares (convictionFactor days).toNat 1000000 (weights.map UInt64.toNat)).sum := by
    rw [List.map_congr_left each, shares, List.map_map]
    rfl
  rw [computeTotalGp, List.foldl_map, toNat_foldl_saturatingAdd, UInt64.toNat_zero,
    Nat.zero_add, sameSum, Nat.min_eq_left (by unfold maxU64; omega)]

/--
Where a weight is in range, dividing it among accounts gains no power and loses less than
one for each account; only the cap is passed, when each part is below it.  The first
formula gives a hundredth of the power in the first week and all of it after thirty days.
No power falls when the days, the score or the weight grow.  An account registers exactly
with the least stake, under a new id and with some power.
-/
theorem governance_power_fair
    {whole : UInt64}
    {weights : List UInt64}
    (divides : (weights.map UInt64.toNat).sum = whole.toNat)
    (inRange : whole.toNat ≤ 1000000)
    (days score : UInt32) :
    FairPower days score whole weights := by
  have factorBound := convictionFactor_le days
  have wholePower := toNat_computeGovernancePowerV9 inRange factorBound
  have totalPower := toNat_computeTotalGp (divides.le.trans inRange) days
  refine
    { divided := ?_
      aboveCap := fun below => ?_
      cliff := ?_
      grows := fun later better more isLater isBetter isMore moreInRange => ?_
      registers := fun governanceId stakeSscl existingIds => ?_ }
  · have gained := sum_shares_le_div (convictionFactor days).toNat 1000000
      (weights.map UInt64.toNat)
    rw [divides, Nat.mul_comm, ← scaledWeight, ← wholePower] at gained
    rw [totalPower]
    refine ⟨gained, fun shared => ?_⟩
    have lost := div_lt_sum_shares
      (mt List.map_eq_nil_iff.mp shared : weights.map UInt64.toNat ≠ [])
      (convictionFactor days).toNat 1000000
    rwa [divides, Nat.mul_comm, ← scaledWeight, ← wholePower, List.length_map] at lost
  · rw [totalPower, shares, List.map_map]
    refine congrArg List.sum (List.map_congr_left fun weight listed => ?_)
    have small : weight.toNat ≤ 1000000 := by
      have part := List.le_sum_of_mem (List.mem_map_of_mem (f := UInt64.toNat) listed)
      omega
    rw [toNat_computeGovernancePowerV12 small factorBound,
      Nat.min_eq_left ((scaledWeight_le factorBound).trans (below weight listed)),
      scaledWeight, Nat.mul_comm]
    rfl
  · obtain ⟨power, answered, exact⟩ := exists_computeGovernancePower inRange days
    rw [← wholePower] at exact
    refine ⟨power, answered, ?_, fun full => ?_, fun early => ?_⟩
    · rw [exact]
      exact share_le (aiResistanceMultiplier_le days) _
    · rw [← UInt64.toNat_inj, exact, aiResistanceMultiplier_of_le full]
      exact Nat.mul_div_cancel _ (by decide)
    · rw [exact, aiResistanceMultiplier, if_pos early]
      exact Nat.mul_div_mul_right _ 100 (by decide)
  · have laterBound := convictionFactor_le later
    have scaled := scaledWeight_mono isMore isLater
    obtain ⟨power, answered, exact⟩ := exists_computeGovernancePower inRange days
    obtain ⟨grown, grownAnswered, grownExact⟩ := exists_computeGovernancePower moreInRange later
    refine ⟨?_, ?_, power, grown, answered, grownAnswered, ?_⟩
    · rwa [wholePower, toNat_computeGovernancePowerV9 moreInRange laterBound]
    · rw [toNat_computeGovernancePowerV12 inRange factorBound,
        toNat_computeGovernancePowerV12 moreInRange laterBound]
      exact min_le_min scaled (govMaxFp_mono isBetter)
    · rw [exact, grownExact]
      exact Nat.div_le_div_right (Nat.mul_le_mul scaled (aiResistanceMultiplier_mono isLater))
  · have hasPower :
        computeGovernancePowerV9 whole (convictionFactor days) ≠ 0 ↔
          1000000 ≤ whole.toNat * (convictionFactor days).toNat := by
      rw [Ne, ← UInt64.toNat_inj, wholePower, UInt64.toNat_zero, ← Ne, ← Nat.pos_iff_ne_zero,
        scaledWeight, Nat.div_pos_iff]
      exact and_iff_right (by decide)
    rw [← hasPower]
    exact exists_valid_iff

/-- Half a million is divided between two accounts, over ten days. -/
theorem governance_power_fair_halves : FairPower 10 700000 500000 [250000, 250000] :=
  governance_power_fair (by decide) (by decide) 10 700000

end ScalarCore
