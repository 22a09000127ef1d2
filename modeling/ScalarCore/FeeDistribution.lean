import ScalarCore.EmissionAccumulator
import ScalarCore.FloorShares
import ScalarCore.MachineInt

namespace ScalarCore

/-!
# Distribution of fees

Of the fees of an epoch 95 in 100 go to the nodes, in proportion to their
weights, and the rest goes to the security fund together with what rounding
leaves over.  The split is written twice: `distributeFee` multiplies in a
64-bit word, where the product can overflow, and the accumulator in a 128-bit
one.  An operation that overflows has no result.
-/

open FloorShares MachineInt

/-- Percentage of the node pool. -/
def feeNodePoolPercent : UInt64 :=
  95

/-- The least total weight that is assumed. -/
def wFloorFp : UInt64 :=
  1000000000

/-- The two parts of the fees. -/
structure FeeDistribution where
  nodePool : UInt64
  securityFund : UInt64
  deriving Repr, DecidableEq

/-- `compute_w_effective`. -/
def computeWEffective (wActualFp : UInt64) : UInt64 :=
  max wActualFp wFloorFp

/-- `distribute_fee`. -/
def distributeFee (feeTotal : UInt64) : Option FeeDistribution := do
  let scaled ← checkedMul feeTotal feeNodePoolPercent
  let nodePool := scaled / 100
  return {
    nodePool
    securityFund := saturatingSub feeTotal nodePool }

/-- `compute_node_fee_reward`: the quotient is cast to a word. -/
def computeNodeFeeReward (feePool wIFp wEffectiveFp : UInt64) : UInt64 :=
  if wEffectiveFp = 0 ∨ wIFp = 0 then
    0
  else
    UInt64.ofNat
      ((checkedDiv128 (saturatingMul128 feePool.toNat wIFp.toNat)
        wEffectiveFp.toNat).getD 0)

/-- `compute_fee_residual`. -/
def computeFeeResidual (feePool sumNodeRewards : UInt64) : UInt64 :=
  saturatingSub feePool sumNodeRewards

/-- `compute_r_sec`. -/
def computeRSec (feeTotal sumNodeRewards : UInt64) : Option UInt64 := do
  let dist ← distributeFee feeTotal
  let feeResidual := computeFeeResidual dist.nodePool sumNodeRewards
  return saturatingAdd dist.securityFund feeResidual

/-- The fees of an epoch. -/
structure FeeAccumulator where
  totalFee : UInt64
  deriving Repr, DecidableEq

namespace FeeAccumulator

/-- No fees. -/
def new : FeeAccumulator where
  totalFee := 0

/-- `add_fee`. -/
def addFee
    (acc : FeeAccumulator)
    (fee : UInt64) : Except EmissionError FeeAccumulator :=
  match checkedAdd acc.totalFee fee with
  | none => .error .overflow
  | some totalFee => .ok { totalFee }

/-- `distribution`, with 128-bit intermediates. -/
def distribution (acc : FeeAccumulator) : UInt64 × UInt64 :=
  let nodePool := UInt64.ofNat (acc.totalFee.toNat * 95 / 100)
  (nodePool, saturatingSub acc.totalFee nodePool)

end FeeAccumulator

/-- The rewards of nodes that share the pool by their weights. -/
def nodeRewards (nodePool totalWeight : UInt64) (weights : List UInt64) :
    List UInt64 :=
  weights.map fun weight =>
    computeNodeFeeReward nodePool weight (computeWEffective totalWeight)

/-!
## Each function as a function of numbers
-/

/-- The effective weight is at least the floor. -/
theorem toNat_computeWEffective (wActualFp : UInt64) :
    (computeWEffective wActualFp).toNat = max wActualFp.toNat 1000000000 :=
  toNat_max _ _

/-- The pool of the accumulator is the exact one. -/
theorem toNat_distribution_fst (acc : FeeAccumulator) :
    acc.distribution.1.toNat = acc.totalFee.toNat * 95 / 100 := by
  have bound := acc.totalFee.toNat_lt
  apply toNat_ofNat_of_le
  unfold maxU64
  omega

/-- A fee is added exactly, or refused. -/
theorem addFee_eq_ok_iff
    {acc after : FeeAccumulator}
    {fee : UInt64} :
    acc.addFee fee = .ok after ↔
      after.totalFee.toNat = acc.totalFee.toNat + fee.toNat := by
  rw [← checkedAdd_eq_some_iff, FeeAccumulator.addFee]
  cases checkedAdd acc.totalFee fee with
  | none =>
      exact ⟨nofun, nofun⟩
  | some totalFee =>
      simp only [Except.ok.injEq, Option.some.injEq]
      constructor
      · rintro rfl
        rfl
      · rintro rfl
        rfl

/-- The fees of an epoch are accumulated exactly, in whatever order they come. -/
theorem foldlM_addFee_eq_ok_iff
    {fees : List UInt64}
    {acc after : FeeAccumulator} :
    fees.foldlM FeeAccumulator.addFee acc = .ok after ↔
      after.totalFee.toNat =
        acc.totalFee.toNat + (fees.map UInt64.toNat).sum := by
  induction fees generalizing acc with
  | nil =>
      rw [List.foldlM_nil, List.map_nil, List.sum_nil, Nat.add_zero,
        UInt64.toNat_inj]
      constructor
      · rintro ⟨⟩
        rfl
      · intro same
        exact congrArg Except.ok (congrArg FeeAccumulator.mk same.symm)
  | cons fee rest inductionHypothesis =>
      rw [List.foldlM_cons, List.map_cons, List.sum_cons, ← Nat.add_assoc]
      cases added : acc.addFee fee with
      | error failure =>
          constructor
          · nofun
          · intro exact
            have bound := after.totalFee.toNat_lt
            have fits :
                (UInt64.ofNat (acc.totalFee.toNat + fee.toNat)).toNat =
                  acc.totalFee.toNat + fee.toNat :=
              toNat_ofNat_of_le (by unfold maxU64; omega)
            have accepted :
                acc.addFee fee =
                  .ok ⟨UInt64.ofNat (acc.totalFee.toNat + fee.toNat)⟩ :=
              addFee_eq_ok_iff.mpr fits
            rw [added] at accepted
            cases accepted
      | ok next =>
          rw [← addFee_eq_ok_iff.mp added]
          exact inductionHypothesis

/-- A product that overflows is refused, and any other split is the exact one. -/
theorem distributeFee_eq (feeTotal : UInt64) :
    distributeFee feeTotal =
      if feeTotal.toNat * 95 ≤ maxU64 then
        some {
          nodePool := (FeeAccumulator.mk feeTotal).distribution.1
          securityFund := (FeeAccumulator.mk feeTotal).distribution.2 }
      else
        none := by
  have percent : feeNodePoolPercent.toNat = 95 := rfl
  unfold distributeFee checkedMul
  rw [percent]
  split
  · rename_i fits
    have product :
        (feeTotal * feeNodePoolPercent).toNat =
          feeTotal.toNat * feeNodePoolPercent.toNat :=
      checkedMul_eq_some_iff.mp (if_pos fits)
    have samePool :
        feeTotal * feeNodePoolPercent / 100 =
          (FeeAccumulator.mk feeTotal).distribution.1 := by
      rw [← UInt64.toNat_inj, toNat_distribution_fst, UInt64.toNat_div, product]
      rfl
    change some _ = some _
    rw [samePool]
    rfl
  · rfl

/-- A reward is the weighted share of the pool. -/
theorem toNat_computeNodeFeeReward
    {feePool wIFp wEffectiveFp : UInt64}
    (positive : 0 < wEffectiveFp.toNat)
    (covered : wIFp.toNat ≤ wEffectiveFp.toNat) :
    (computeNodeFeeReward feePool wIFp wEffectiveFp).toNat =
      feePool.toNat * wIFp.toNat / wEffectiveFp.toNat := by
  have poolBound := feePool.toNat_lt
  have weightBound := wIFp.toNat_lt
  have isShare := share_le covered feePool.toNat
  unfold computeNodeFeeReward
  split
  · rename_i trivially
    rcases trivially with noTotal | noWeight
    · rw [noTotal] at positive
      exact absurd positive (lt_irrefl _)
    · rw [noWeight, UInt64.toNat_zero, Nat.mul_zero, Nat.zero_div]
  · have noClamp : feePool.toNat * wIFp.toNat ≤ maxU128 := by
      have product : feePool.toNat * wIFp.toNat ≤ (2 ^ 64 - 1) * (2 ^ 64 - 1) :=
        Nat.mul_le_mul (by omega) (by omega)
      unfold maxU128
      omega
    rw [saturatingMul128_eq noClamp, checkedDiv128_eq positive,
      Option.getD_some, toNat_ofNat_of_le]
    unfold maxU64
    omega

/-- Rewards are the shares of the pool. -/
theorem map_toNat_nodeRewards
    {weights : List UInt64}
    {totalWeight : UInt64}
    (isTotal : totalWeight.toNat = (weights.map UInt64.toNat).sum)
    (nodePool : UInt64) :
    (nodeRewards nodePool totalWeight weights).map UInt64.toNat =
      shares nodePool.toNat (computeWEffective totalWeight).toNat
        (weights.map UInt64.toNat) := by
  rw [nodeRewards, shares, List.map_map, List.map_map]
  apply List.map_congr_left
  intro weight listed
  have partOfTotal : weight.toNat ≤ (weights.map UInt64.toNat).sum :=
    List.le_sum_of_mem (List.mem_map_of_mem listed)
  apply toNat_computeNodeFeeReward
  · rw [toNat_computeWEffective]
    omega
  · rw [toNat_computeWEffective]
    omega

/-- The rewards are within the pool. -/
theorem sum_nodeRewards_le
    {weights : List UInt64}
    {totalWeight : UInt64}
    (isTotal : totalWeight.toNat = (weights.map UInt64.toNat).sum)
    (nodePool : UInt64) :
    ((nodeRewards nodePool totalWeight weights).map UInt64.toNat).sum ≤
      nodePool.toNat := by
  rw [map_toNat_nodeRewards isTotal]
  apply sum_shares_le
  rw [toNat_computeWEffective, isTotal]
  exact Nat.le_max_left _ _

/-- Where products wrap around, a pool whose product overflows is too small. -/
theorem wrapped_nodePool_lt
    {feeTotal : UInt64}
    (overflows : maxU64 < feeTotal.toNat * 95) :
    (feeTotal * feeNodePoolPercent / 100).toNat < 95 * feeTotal.toNat / 100 := by
  have percent : feeNodePoolPercent.toNat = 95 := rfl
  have hundred : (100 : UInt64).toNat = 100 := rfl
  have bound := feeTotal.toNat_lt
  unfold maxU64 at overflows
  rw [UInt64.toNat_div, UInt64.toNat_mul, percent, hundred]
  omega

/-!
## Conservation
-/

/-- The fees of an epoch, paid to the nodes and to the security fund. -/
structure ConservedSplit
    (feeTotal totalWeight : UInt64)
    (weights : List UInt64)
    (dist : FeeDistribution)
    (paid rSec : UInt64) : Prop where
  distributed : distributeFee feeTotal = some dist
  poolExact : dist.nodePool.toNat = 95 * feeTotal.toNat / 100
  sameSplit :
    (dist.nodePool, dist.securityFund) =
      (FeeAccumulator.mk feeTotal).distribution
  rewardsExact :
    (nodeRewards dist.nodePool totalWeight weights).map UInt64.toNat =
      shares dist.nodePool.toNat (computeWEffective totalWeight).toNat
        (weights.map UInt64.toNat)
  summed :
    (nodeRewards dist.nodePool totalWeight weights).foldlM checkedAdd 0 =
      some paid
  withinPool : paid ≤ dist.nodePool
  secured : computeRSec feeTotal paid = some rSec
  conserved : paid.toNat + rSec.toNat = feeTotal.toNat

/-- Nothing overflows, and every unit of the fees is paid once. -/
def FeesConserved
    (feeTotal totalWeight : UInt64)
    (weights : List UInt64) : Prop :=
  ∃ dist paid rSec, ConservedSplit feeTotal totalWeight weights dist paid rSec

/-- The residual completes what was paid to the fees. -/
theorem add_computeRSec
    {feeTotal paid : UInt64}
    {dist : FeeDistribution}
    (distributed : distributeFee feeTotal = some dist)
    (withinPool : paid ≤ dist.nodePool) :
    ∃ rSec,
      computeRSec feeTotal paid = some rSec ∧
        paid.toNat + rSec.toNat = feeTotal.toNat := by
  have isSplit := distributeFee_eq feeTotal
  rw [distributed] at isSplit
  split at isSplit
  · rw [Option.some_inj] at isSplit
    have pool : dist.nodePool.toNat = feeTotal.toNat * 95 / 100 := by
      rw [isSplit]
      exact toNat_distribution_fst _
    have fund :
        dist.securityFund.toNat =
          feeTotal.toNat - feeTotal.toNat * 95 / 100 := by
      rw [isSplit, ← toNat_distribution_fst (FeeAccumulator.mk feeTotal)]
      exact toNat_saturatingSub _ _
    have bound := feeTotal.toNat_lt
    have within := UInt64.le_iff_toNat_le.mp withinPool
    refine ⟨_, congrArg (· >>= _) distributed, ?_⟩
    rw [computeFeeResidual, toNat_saturatingAdd, toNat_saturatingSub, fund,
      pool]
    unfold maxU64
    omega
  · cases isSplit

/--
The fees of an epoch are conserved, for any nodes, exactly when 95 times the
fees fit the word.
-/
theorem feesConserved_iff
    {weights : List UInt64}
    {totalWeight : UInt64}
    (isTotal : totalWeight.toNat = (weights.map UInt64.toNat).sum)
    (feeTotal : UInt64) :
    FeesConserved feeTotal totalWeight weights ↔
      95 * feeTotal.toNat ≤ maxU64 := by
  rw [Nat.mul_comm 95]
  constructor
  · rintro ⟨dist, paid, rSec, split⟩
    have distributed := split.distributed
    rw [distributeFee_eq] at distributed
    by_contra overflows
    rw [if_neg overflows] at distributed
    cases distributed
  · intro fits
    have distributed := distributeFee_eq feeTotal
    rw [if_pos fits] at distributed
    have paidLe :=
      sum_nodeRewards_le isTotal (FeeAccumulator.mk feeTotal).distribution.1
    have paidExact :
        (UInt64.ofNat
            ((nodeRewards (FeeAccumulator.mk feeTotal).distribution.1
              totalWeight weights).map UInt64.toNat).sum).toNat =
          ((nodeRewards (FeeAccumulator.mk feeTotal).distribution.1
              totalWeight weights).map UInt64.toNat).sum := by
      apply toNat_ofNat_of_le
      apply paidLe.trans
      exact Nat.le_of_lt_succ (UInt64.toNat_lt _)
    have withinPool :=
      UInt64.le_iff_toNat_le.mpr (paidExact.trans_le paidLe)
    obtain ⟨rSec, secured, conserved⟩ :=
      add_computeRSec distributed withinPool
    exact
      ⟨_, _, rSec, {
        distributed
        poolExact := by
          rw [toNat_distribution_fst, Nat.mul_comm 95]
        sameSplit := rfl
        rewardsExact := map_toNat_nodeRewards isTotal _
        summed := by
          rw [foldlM_checkedAdd_eq_some_iff, paidExact]
          exact (Nat.zero_add _).symm
        withinPool
        secured
        conserved }⟩

/-- Two nodes share the fees of an epoch. -/
theorem feesConserved_twoNodes :
    FeesConserved 1000 3000000000 [1000000000, 2000000000] :=
  (feesConserved_iff rfl 1000).mpr (by decide)

/-- The largest fees overflow. -/
theorem fees_not_conserved :
    ¬ ∀ feeTotal totalWeight weights,
        totalWeight.toNat = (weights.map UInt64.toNat).sum →
        FeesConserved feeTotal totalWeight weights := by
  intro always
  obtain ⟨dist, paid, rSec, split⟩ := always 18446744073709551615 0 [] rfl
  have refused : distributeFee 18446744073709551615 = none := by
    decide
  rw [split.distributed] at refused
  cases refused

end ScalarCore
