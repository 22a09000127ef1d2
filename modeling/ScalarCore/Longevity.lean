import ScalarCore.ExchangeOrder
import ScalarCore.MachineInt

namespace ScalarCore

/-!
# The longevity boost

A node gains boost in every epoch in which it takes part, up to a cap, and loses
four times as much in every other one, down to zero.  The simulation of a history
assumes that the node took part first: of all orders this is the worst.
-/

open ExchangeOrder MachineInt

/-- `LONGEVITY_GAIN_PER_EPOCH_FP`. -/
def longevityGainPerEpochFp : UInt64 :=
  1000

/-- `LONGEVITY_DECAY_PER_EPOCH_FP`. -/
def longevityDecayPerEpochFp : UInt64 :=
  4000

/-- `LONGEVITY_CAP_FP`. -/
def longevityCapFp : UInt64 :=
  500000

/-- `update_longevity_boost`; there is no boost where the sum overflows. -/
def updateLongevityBoost (currentBoostFp : UInt64) (participated : Bool) : Option UInt64 :=
  if participated then do
    let gained ← checkedAdd currentBoostFp longevityGainPerEpochFp
    some (min gained longevityCapFp)
  else
    some (saturatingSub currentBoostFp longevityDecayPerEpochFp)

/-- `compute_longevity_boost`; there is no boost where a product overflows. -/
def computeLongevityBoost (epochsParticipated epochsAbsent : UInt64) : Option UInt64 := do
  let gained ← checkedMul epochsParticipated longevityGainPerEpochFp
  let afterGain := min gained longevityCapFp
  let lost ← checkedMul epochsAbsent longevityDecayPerEpochFp
  some (saturatingSub afterGain lost)

/-- `LongevityResult`. -/
structure LongevityResult where
  baseReward : UInt64
  longevityBonus : UInt64
  remainingFeePool : UInt64
  deriving DecidableEq

/-- `apply_longevity_bonus`. -/
def applyLongevityBonus (baseReward feePool longevityBoostFp : UInt64) : LongevityResult :=
  let cappedBoost := min longevityBoostFp longevityCapFp
  let targetBonus :=
    UInt64.ofNat
      ((checkedDiv128 (saturatingMul128 baseReward.toNat cappedBoost.toNat) 1000000).getD 0)
  let actualBonus := min targetBonus feePool
  {
    baseReward
    longevityBonus := actualBonus
    remainingFeePool := saturatingSub feePool actualBonus
  }

/-- The boost after epochs, of a node that starts without. -/
def boostAfter (history : List Bool) : Option UInt64 :=
  history.foldlM updateLongevityBoost 0

/-!
## The boost in numbers
-/

/-- An epoch, in numbers. -/
def boostStep (participated : Bool) (boost : Nat) : Nat :=
  if participated then min (boost + 1000) 500000 else boost - 4000

@[simp] theorem boostStep_true (boost : Nat) :
    boostStep true boost = min (boost + 1000) 500000 :=
  if_pos rfl

@[simp] theorem boostStep_false (boost : Nat) : boostStep false boost = boost - 4000 :=
  if_neg Bool.false_ne_true

/-- It is better to be absent first. -/
theorem boostStep_exchanges : Exchanges boostStep where
  monotone participated lower higher ordered := by
    cases participated with
    | false =>
        rw [boostStep_false, boostStep_false]
        exact Nat.sub_le_sub_right ordered 4000
    | true =>
        rw [boostStep_true, boostStep_true]
        exact min_le_min_right 500000 (Nat.add_le_add_right ordered 1000)
  exchange boost := by
    rw [boostStep_true, boostStep_true, boostStep_false, boostStep_false]
    omega

theorem boostStep_le
    {boost : Nat}
    (capped : boost ≤ 500000)
    (participated : Bool) :
    boostStep participated boost ≤ 500000 := by
  cases participated with
  | false =>
      rw [boostStep_false]
      exact (Nat.sub_le boost 4000).trans capped
  | true =>
      rw [boostStep_true]
      exact min_le_right _ _

/-- Under the cap no sum overflows. -/
theorem updateLongevityBoost_spec
    {boost : UInt64}
    (capped : boost.toNat ≤ 500000)
    (participated : Bool) :
    ∃ boost',
      updateLongevityBoost boost participated = some boost' ∧
        boost'.toNat = boostStep participated boost.toNat := by
  cases participated with
  | false =>
      refine ⟨_, if_neg Bool.false_ne_true, ?_⟩
      rw [toNat_saturatingSub, boostStep_false]
      rfl
  | true =>
      have gain : longevityGainPerEpochFp.toNat = 1000 := rfl
      have fits : boost.toNat + longevityGainPerEpochFp.toNat ≤ maxU64 := by
        rw [gain]
        change _ ≤ 2 ^ 64 - 1
        omega
      have gained :
          checkedAdd boost longevityGainPerEpochFp = some (boost + longevityGainPerEpochFp) :=
        if_pos fits
      refine ⟨_, by rw [updateLongevityBoost, if_pos rfl, gained]; rfl, ?_⟩
      rw [toNat_min, checkedAdd_eq_some_iff.mp gained, gain, boostStep_true]
      rfl

/-- A history never overflows, and its boost never exceeds the cap. -/
theorem boostAfter_spec (history : List Bool) :
    ∃ boost,
      boostAfter history = some boost ∧
        boost.toNat = after boostStep 0 history ∧
        boost.toNat ≤ 500000 := by
  induction history using List.reverseRecOn with
  | nil =>
      exact ⟨0, rfl, rfl, Nat.zero_le _⟩
  | append_singleton earlier participated inductionHypothesis =>
      obtain ⟨before, reached, same, capped⟩ := inductionHypothesis
      obtain ⟨boost, updated, next⟩ := updateLongevityBoost_spec capped participated
      refine ⟨boost, ?_, ?_, ?_⟩
      · rw [boostAfter, List.foldlM_append, ← boostAfter, reached, Option.bind_eq_bind,
          Option.bind_some, List.foldlM_cons, updated]
        rfl
      · rw [next, same, after_concat]
      · rw [next]
        exact boostStep_le capped participated

/-- The boost of epochs of participation, one after another. -/
theorem after_replicate_true (count : Nat) :
    after boostStep 0 (List.replicate count true) = min (count * 1000) 500000 := by
  induction count with
  | zero =>
      rfl
  | succ count inductionHypothesis =>
      rw [List.replicate_succ', after_concat, inductionHypothesis, boostStep_true]
      omega

/-- What is left of a boost after epochs of absence. -/
theorem after_append_replicate_false (word : List Bool) (count : Nat) :
    after boostStep 0 (word ++ List.replicate count false) =
      after boostStep 0 word - count * 4000 := by
  induction count with
  | zero =>
      rw [List.replicate_zero, List.append_nil, Nat.zero_mul, Nat.sub_zero]
  | succ count inductionHypothesis =>
      rw [List.replicate_succ', ← List.append_assoc, after_concat, inductionHypothesis,
        boostStep_false]
      omega

/-- Of a node that has no boost, absences take nothing. -/
theorem after_secondThenFirst (participated absent : Nat) :
    after boostStep 0 (secondThenFirst participated absent) =
      min (participated * 1000) 500000 := by
  have nothing : after boostStep 0 (List.replicate absent false) = 0 := by
    have lost := after_append_replicate_false [] absent
    rw [List.nil_append] at lost
    exact lost.trans (Nat.zero_sub _)
  rw [secondThenFirst, after, List.foldl_append, ← after, ← after, nothing]
  exact after_replicate_true participated

/-- The simulation is that of the history with all participations first. -/
theorem toNat_computeLongevityBoost
    {participated absent boost : UInt64}
    (computed : computeLongevityBoost participated absent = some boost) :
    boost.toNat =
      after boostStep 0 (firstThenSecond participated.toNat absent.toNat) := by
  rw [computeLongevityBoost, Option.bind_eq_bind, Option.bind_eq_some_iff] at computed
  obtain ⟨gained, isGained, computed⟩ := computed
  dsimp only at computed
  rw [Option.bind_eq_some_iff] at computed
  obtain ⟨lost, isLost, computed⟩ := computed
  rw [← Option.some.inj computed, toNat_saturatingSub, toNat_min,
    checkedMul_eq_some_iff.mp isGained, checkedMul_eq_some_iff.mp isLost, firstThenSecond,
    after_append_replicate_false, after_replicate_true]
  rfl

/-!
## The bonus
-/

/-- A bonus is taken from the pool, and is at most half of the reward. -/
structure BonusPaid (baseReward feePool : UInt64) (result : LongevityResult) : Prop where
  fromPool :
    result.longevityBonus.toNat + result.remainingFeePool.toNat = feePool.toNat
  atMostHalf : 2 * result.longevityBonus.toNat ≤ baseReward.toNat

/-- The bonus, in numbers. -/
theorem toNat_longevityBonus (baseReward feePool boost : UInt64) :
    (applyLongevityBonus baseReward feePool boost).longevityBonus.toNat =
      min (baseReward.toNat * min boost.toNat 500000 / 1000000) feePool.toNat := by
  have bounded := baseReward.toNat_lt
  have capped : (min boost longevityCapFp).toNat = min boost.toNat 500000 := toNat_min _ _
  have product : baseReward.toNat * min boost.toNat 500000 ≤ 2 ^ 64 * 500000 :=
    Nat.mul_le_mul bounded.le (min_le_right _ _)
  have fits : baseReward.toNat * min boost.toNat 500000 ≤ maxU128 :=
    product.trans (by decide)
  rw [applyLongevityBonus]
  dsimp only
  rw [toNat_min, capped, saturatingMul128_eq fits, checkedDiv128_eq (by decide),
    Option.getD_some, UInt64.toNat_ofNat_of_lt']
  change _ < 2 ^ 64
  omega

theorem bonusPaid_applyLongevityBonus (baseReward feePool boost : UInt64) :
    BonusPaid baseReward feePool (applyLongevityBonus baseReward feePool boost) := by
  have bonus := toNat_longevityBonus baseReward feePool boost
  have remaining :
      (applyLongevityBonus baseReward feePool boost).remainingFeePool.toNat =
        feePool.toNat -
          (applyLongevityBonus baseReward feePool boost).longevityBonus.toNat :=
    toNat_saturatingSub _ _
  constructor
  · rw [remaining, bonus]
    omega
  · have share : baseReward.toNat * min boost.toNat 500000 ≤ baseReward.toNat * 500000 :=
      Nat.mul_le_mul_left _ (min_le_right _ _)
    rw [bonus]
    omega

/-- A greater boost pays at least as much. -/
theorem longevityBonus_mono
    {lower higher : UInt64}
    (ordered : lower.toNat ≤ higher.toNat)
    (baseReward feePool : UInt64) :
    (applyLongevityBonus baseReward feePool lower).longevityBonus.toNat ≤
      (applyLongevityBonus baseReward feePool higher).longevityBonus.toNat := by
  rw [toNat_longevityBonus, toNat_longevityBonus]
  exact
    min_le_min_right _
      (Nat.div_le_div_right (Nat.mul_le_mul_left _ (min_le_min_right _ ordered)))

/-- How the boost of a history compares with those of its rearrangements. -/
structure BoostOf (history : List Bool) (boost : UInt64) : Prop where
  atMost : boost.toNat ≤ min (history.count true * 1000) 500000
  highest :
    (boostAfter (secondThenFirst (history.count true) (history.count false))).map UInt64.toNat =
      some (min (history.count true * 1000) 500000)
  simulated :
    ∀ participated absent least,
      participated.toNat = history.count true →
      absent.toNat = history.count false →
      computeLongevityBoost participated absent = some least →
      boostAfter (firstThenSecond (history.count true) (history.count false)) = some least ∧
        least.toNat ≤ boost.toNat ∧
        ∀ baseReward feePool,
          (applyLongevityBonus baseReward feePool least).longevityBonus.toNat ≤
            (applyLongevityBonus baseReward feePool boost).longevityBonus.toNat
  paid :
    ∀ baseReward feePool,
      BonusPaid baseReward feePool (applyLongevityBonus baseReward feePool boost)
  grows :
    ∀ other baseReward feePool,
      boost.toNat ≤ other.toNat →
      (applyLongevityBonus baseReward feePool boost).longevityBonus.toNat ≤
        (applyLongevityBonus baseReward feePool other).longevityBonus.toNat

/--
Every history has a boost.  What the simulation computes from the numbers of its
epochs is the boost of the order with the participations first, and no order has a
lower one; the highest is that of the opposite order.  The bonus comes from the pool
and grows with the boost.
-/
theorem boostAfter_lawful (history : List Bool) :
    ∃ boost, boostAfter history = some boost ∧ BoostOf history boost := by
  obtain ⟨boost, reached, same, _⟩ := boostAfter_spec history
  refine
    ⟨boost, reached, ?_, ?_, ?_, fun _ _ => bonusPaid_applyLongevityBonus _ _ _,
      fun _ baseReward feePool ordered => longevityBonus_mono ordered baseReward feePool⟩
  · rw [same, ← after_secondThenFirst (history.count true) (history.count false)]
    exact after_le_secondThenFirst boostStep_exchanges 0 history
  · obtain ⟨highest, reachedHighest, sameHighest, _⟩ :=
      boostAfter_spec (secondThenFirst (history.count true) (history.count false))
    rw [reachedHighest, Option.map_some, sameHighest, after_secondThenFirst]
  · intro participated absent least participations absences computed
    have lowest := toNat_computeLongevityBoost computed
    rw [participations, absences] at lowest
    obtain ⟨first, reachedFirst, sameFirst, _⟩ :=
      boostAfter_spec (firstThenSecond (history.count true) (history.count false))
    have isLeast : first = least := UInt64.toNat_inj.mp (sameFirst.trans lowest.symm)
    have ordered : least.toNat ≤ boost.toNat := by
      rw [lowest, same]
      exact after_firstThenSecond_le_after boostStep_exchanges 0 history
    exact ⟨by rw [reachedFirst, isLeast], ordered, longevityBonus_mono ordered⟩

end ScalarCore
