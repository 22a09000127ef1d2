import ScalarCore.FloorShares
import ScalarCore.MachineInt
import Mathlib.Algebra.Order.Ring.Nat
import Mathlib.Data.Finset.Card

namespace ScalarCore

/-!
# Defense against eclipse

A report says that a node may be eclipsed when one sender made most of the deposits, when
its peers are in too few regions or when too few of them are connected.  The sums and
products of the report can overflow; where they do not, it tells exactly that, in whatever
order the deposits and the peers are listed.  The entropy of the deposits is measured on a
scale on which it cannot come near the ideal one.
-/

open FloorShares MachineInt

/-- `H_THRESHOLD_PERCENT`. -/
def hThresholdPercent : UInt64 :=
  50

/-- `FIXED_POINT_BASIS`. -/
def eclipseFixedPointBasis : UInt64 :=
  1000000

/-- `ECLIPSE_CRITICAL_THRESHOLD`. -/
def eclipseCriticalThreshold : UInt64 :=
  800000

/-- `ECLIPSE_WARNING_THRESHOLD`. -/
def eclipseWarningThreshold : UInt64 :=
  600000

/-- `MIN_GEOGRAPHIC_REGIONS`. -/
def minGeographicRegions : Nat :=
  2

/-- `EclipseStatus`. -/
inductive EclipseStatus where
  | clean
  | warning (dominantFractionFp : UInt64)
  | critical (dominantFractionFp : UInt64)
  deriving DecidableEq

/-- `GeoRegion`. -/
inductive GeoRegion where
  | americas
  | emea
  | asiaPacific
  | unknown
  deriving DecidableEq

/-- `PartitionStatus`. -/
inductive PartitionStatus where
  | connected
  | partitioned
  deriving DecidableEq

/-- `u64::leading_zeros`. -/
def leadingZerosU64 (value : UInt64) : UInt64 :=
  if value = 0 then
    64
  else
    UInt64.ofNat (63 - value.toNat.log2)

/-- One round of the loop of `compute_pheromone_entropy_fp`. -/
def entropyRound (total entropyFp deposit : UInt64) : Option UInt64 :=
  if deposit = 0 then
    some entropyFp
  else do
    let scaled ← checkedMul deposit eclipseFixedPointBasis
    let pFp := scaled / total
    if pFp = 0 then
      some entropyFp
    else
      let log2Approx := saturatingSub 63 (leadingZerosU64 pFp)
      let weighted ← checkedMul pFp log2Approx
      some (saturatingAdd entropyFp (weighted / eclipseFixedPointBasis))

/-- `compute_pheromone_entropy_fp`; none where it overflows. -/
def computePheromoneEntropyFp (deposits : List UInt64) : Option UInt64 := do
  let total ← deposits.foldlM checkedAdd 0
  if total = 0 ∨ deposits = [] then
    some 0
  else
    deposits.foldlM (entropyRound total) 0

/-- `compute_ideal_entropy_fp`. -/
def computeIdealEntropyFp (numSenders : UInt64) : Option UInt64 :=
  if numSenders ≤ 1 then
    some 0
  else
    let log2N := saturatingSub 63 (leadingZerosU64 numSenders)
    checkedMul log2N eclipseFixedPointBasis

/-- `detect_eclipse_via_entropy`; none where it overflows. -/
def detectEclipseViaEntropy (deposits : List UInt64) : Option EclipseStatus := do
  let total ← deposits.foldlM checkedAdd 0
  if total = 0 ∨ deposits = [] then
    some .clean
  else
    let maxDeposit := deposits.foldl max 0
    let scaled ← checkedMul maxDeposit eclipseFixedPointBasis
    let maxFractionFp := scaled / total
    if maxFractionFp > eclipseCriticalThreshold then
      some (.critical maxFractionFp)
    else if maxFractionFp > eclipseWarningThreshold then
      some (.warning maxFractionFp)
    else
      some .clean

/-- `check_geographic_diversity`. -/
def checkGeographicDiversity (peerRegions : List GeoRegion) : Bool :=
  let uniqueKnown := (peerRegions.filter fun region => region ≠ .unknown).toFinset
  minGeographicRegions ≤ uniqueKnown.card

/-- `evaluate_partition_status`; none where it overflows. -/
def evaluatePartitionStatus
    (connectedPeers totalExpectedPeers : UInt64) : Option PartitionStatus :=
  if totalExpectedPeers = 0 then
    some .partitioned
  else do
    let scaled ← checkedMul connectedPeers 100
    if scaled / totalExpectedPeers ≥ 67 then
      some .connected
    else
      some .partitioned

/-- `EclipseDefenseReport`. -/
structure EclipseDefenseReport where
  entropyStatus : EclipseStatus
  geographicDiversityOk : Bool
  partitionStatus : PartitionStatus
  eclipseDetected : Bool
  deriving DecidableEq

/-- `EclipseDefenseReport::evaluate`. -/
def EclipseDefenseReport.evaluate
    (pheromoneDeposits : List UInt64)
    (peerRegions : List GeoRegion)
    (connectedPeers totalExpectedPeers : UInt64) : Option EclipseDefenseReport := do
  let entropyStatus ← detectEclipseViaEntropy pheromoneDeposits
  let geographicDiversityOk := checkGeographicDiversity peerRegions
  let partitionStatus ← evaluatePartitionStatus connectedPeers totalExpectedPeers
  let eclipseDetected :=
    entropyStatus ≠ .clean ∨ geographicDiversityOk = false ∨ partitionStatus = .partitioned
  some { entropyStatus, geographicDiversityOk, partitionStatus, eclipseDetected }

/-- All deposits together. -/
def totalDeposits (deposits : List UInt64) : Nat :=
  (deposits.map UInt64.toNat).sum

/-- One deposit is at least so many millionths of all. -/
def Dominated (parts : Nat) (deposits : List UInt64) : Prop :=
  0 < totalDeposits deposits ∧
    ∃ deposit ∈ deposits, parts * totalDeposits deposits ≤ 1000000 * deposit.toNat

/-- Two of the known regions are listed. -/
def SeveralRegions (regions : List GeoRegion) : Prop :=
  ∃ region ∈ regions, ∃ other ∈ regions,
    region ≠ .unknown ∧ other ≠ .unknown ∧ region ≠ other

/-- The products with a deposit fit the word, and so does the sum. -/
def DepositsFit (deposits : List UInt64) : Prop :=
  totalDeposits deposits ≤ maxU64 ∧
    ∀ deposit ∈ deposits, deposit.toNat * 1000000 ≤ maxU64

/-- The number of a word that is not zero is not zero. -/
theorem toNat_ne_zero
    {value : UInt64}
    (nonzero : value ≠ 0) :
    value.toNat ≠ 0 := by
  rwa [← UInt64.toNat_zero, Ne, UInt64.toNat_inj]

section Deposits

variable {deposits : List UInt64}

/-- The greatest deposit is a deposit or the start, and no deposit is greater. -/
theorem foldl_max_greatest (start : UInt64) (deposits : List UInt64) :
    (deposits.foldl max start = start ∨ deposits.foldl max start ∈ deposits) ∧
      start.toNat ≤ (deposits.foldl max start).toNat ∧
        ∀ deposit ∈ deposits, deposit.toNat ≤ (deposits.foldl max start).toNat := by
  induction deposits generalizing start with
  | nil =>
      exact ⟨Or.inl rfl, Nat.le_refl _, List.forall_mem_nil _⟩
  | cons deposit rest inductionHypothesis =>
      obtain ⟨attained, atLeast, others⟩ := inductionHypothesis (max start deposit)
      have isMax := toNat_max start deposit
      rw [List.foldl_cons]
      refine ⟨?_, by omega, List.forall_mem_cons.mpr ⟨by omega, others⟩⟩
      rcases attained with isStart | listed
      · rw [isStart,
          show max start deposit = if start ≤ deposit then deposit else start from rfl]
        split
        · exact Or.inr List.mem_cons_self
        · exact Or.inl rfl
      · exact Or.inr (List.mem_cons_of_mem _ listed)

/-- The greatest deposit is one, where there are deposits at all. -/
theorem exists_greatest (positive : 0 < totalDeposits deposits) :
    deposits.foldl max 0 ∈ deposits := by
  obtain ⟨attained, -, others⟩ := foldl_max_greatest 0 deposits
  refine attained.resolve_left fun isZero => ?_
  rw [isZero] at others
  have nothing : totalDeposits deposits = 0 := by
    refine List.sum_eq_zero fun amount listed => ?_
    obtain ⟨deposit, isDeposit, rfl⟩ := List.mem_map.mp listed
    exact Nat.le_zero.mp (others deposit isDeposit)
  omega

/-- The greatest deposit is nothing, where the deposits are nothing together. -/
theorem greatest_eq_zero (isZero : totalDeposits deposits = 0) :
    (deposits.foldl max 0).toNat = 0 := by
  obtain ⟨isStart | listed, -⟩ := foldl_max_greatest 0 deposits
  · rw [isStart, UInt64.toNat_zero]
  · exact Nat.le_zero.mp (isZero ▸ List.le_sum_of_mem (List.mem_map_of_mem listed))

/-- The sum is answered when it fits. -/
theorem foldlM_checkedAdd_deposits (deposits : List UInt64) :
    deposits.foldlM checkedAdd 0 =
      if totalDeposits deposits ≤ maxU64 then
        some (UInt64.ofNat (totalDeposits deposits))
      else
        none := by
  split
  · rename_i fits
    rw [foldlM_checkedAdd_eq_some_iff, toNat_ofNat_of_le fits, UInt64.toNat_zero, Nat.zero_add,
      totalDeposits]
  · rename_i overflows
    cases answer : deposits.foldlM checkedAdd 0 with
    | none =>
        rfl
    | some total =>
        rw [foldlM_checkedAdd_eq_some_iff, UInt64.toNat_zero, Nat.zero_add] at answer
        have large := toNat_le_maxU64 total
        rw [answer] at large
        exact absurd large overflows

/-- The part of the greatest deposit, in millionths. -/
def dominantFraction (deposits : List UInt64) : Nat :=
  (deposits.foldl max 0).toNat * 1000000 / totalDeposits deposits

/-- The part of the greatest deposit is above a bound where one deposit dominates. -/
theorem lt_dominantFraction_iff {bound : Nat} :
    bound < dominantFraction deposits ↔ Dominated (bound + 1) deposits := by
  rcases Nat.eq_zero_or_pos (totalDeposits deposits) with isZero | positive
  · rw [dominantFraction, isZero, Nat.div_zero]
    exact iff_of_false (Nat.not_lt_zero _) fun dominated => absurd dominated.1 (by omega)
  · rw [dominantFraction, ← Nat.succ_le_iff, Nat.le_div_iff_mul_le positive]
    constructor
    · intro large
      exact ⟨positive, _, exists_greatest positive, by rwa [Nat.mul_comm 1000000]⟩
    · rintro ⟨-, deposit, listed, large⟩
      have atMost := (foldl_max_greatest 0 deposits).2.2 deposit listed
      exact large.trans (by omega)

/-- The status for the part of the greatest deposit. -/
def statusOf (fraction : Nat) : EclipseStatus :=
  if 800000 < fraction then
    .critical (UInt64.ofNat fraction)
  else if 600000 < fraction then
    .warning (UInt64.ofNat fraction)
  else
    .clean

/-- The thresholds are compared with a word as with its number. -/
theorem statusOf_toNat (fraction : UInt64) :
    (if fraction > eclipseCriticalThreshold then
        some (EclipseStatus.critical fraction)
      else if fraction > eclipseWarningThreshold then
        some (.warning fraction)
      else
        some .clean) =
      some (statusOf fraction.toNat) := by
  rw [statusOf, UInt64.ofNat_toNat]
  simp only [gt_iff_lt, UInt64.lt_iff_toNat_lt]
  rw [show eclipseCriticalThreshold.toNat = 800000 from rfl,
    show eclipseWarningThreshold.toNat = 600000 from rfl]
  split
  · rfl
  · split <;> rfl

/-- The detection answers when its products fit, and then by the greatest deposit. -/
theorem detectEclipseViaEntropy_eq (deposits : List UInt64) :
    detectEclipseViaEntropy deposits =
      if totalDeposits deposits ≤ maxU64 ∧
          (deposits.foldl max 0).toNat * 1000000 ≤ maxU64 then
        some (statusOf (dominantFraction deposits))
      else
        none := by
  rw [detectEclipseViaEntropy, foldlM_checkedAdd_deposits]
  by_cases sumFits : totalDeposits deposits ≤ maxU64
  · rw [if_pos sumFits, Option.bind_eq_bind, Option.bind_some]
    rcases Nat.eq_zero_or_pos (totalDeposits deposits) with isZero | positive
    · rw [isZero, if_pos (show UInt64.ofNat 0 = 0 ∨ _ from Or.inl rfl),
        if_pos ⟨Nat.zero_le _, by rw [greatest_eq_zero isZero]; exact Nat.zero_le _⟩,
        dominantFraction, isZero, Nat.div_zero]
      rfl
    · have nonempty : deposits ≠ [] := List.ne_nil_of_mem (exists_greatest positive)
      have total := toNat_ofNat_of_le sumFits
      have isPositive : UInt64.ofNat (totalDeposits deposits) ≠ 0 := by
        rw [Ne, ← UInt64.toNat_inj, total, UInt64.toNat_zero]
        omega
      rw [if_neg (not_or.mpr ⟨isPositive, nonempty⟩)]
      dsimp only
      by_cases productFits : (deposits.foldl max 0).toNat * 1000000 ≤ maxU64
      · obtain ⟨scaled, isScaled, exact⟩ := exists_checkedMul
          (show (deposits.foldl max 0).toNat * eclipseFixedPointBasis.toNat ≤ maxU64
            from productFits)
        have quotient :
            (scaled / UInt64.ofNat (totalDeposits deposits)).toNat =
              dominantFraction deposits := by
          rw [UInt64.toNat_div, exact, total]
          rfl
        rw [if_pos ⟨sumFits, productFits⟩, isScaled, Option.bind_some, ← quotient]
        exact statusOf_toNat _
      · have overflows :
            checkedMul (deposits.foldl max 0) eclipseFixedPointBasis = none :=
          if_neg productFits
        rw [if_neg fun fits => productFits fits.2, overflows, Option.bind_none]
  · rw [if_neg sumFits, if_neg fun fits => sumFits fits.1]
    rfl

/-- What the detection needs of the greatest deposit it needs of all. -/
theorem depositsFit_iff :
    DepositsFit deposits ↔
      totalDeposits deposits ≤ maxU64 ∧
        (deposits.foldl max 0).toNat * 1000000 ≤ maxU64 := by
  refine and_congr_right fun _ => ?_
  obtain ⟨attained, -, others⟩ := foldl_max_greatest 0 deposits
  constructor
  · intro fit
    rcases attained with isStart | listed
    · rw [isStart, UInt64.toNat_zero, Nat.zero_mul]
      exact Nat.zero_le _
    · exact fit _ listed
  · intro fits deposit listed
    exact (Nat.mul_le_mul_right _ (others deposit listed)).trans fits

/-- A status is not clean when one deposit is above the warning threshold. -/
theorem statusOf_ne_clean_iff :
    statusOf (dominantFraction deposits) ≠ .clean ↔ Dominated 600001 deposits := by
  rw [← lt_dominantFraction_iff, statusOf]
  split
  · rename_i critical
    exact iff_of_true nofun (by omega)
  · split
    · rename_i warning
      exact iff_of_true nofun warning
    · rename_i low
      exact iff_of_false (not_not.mpr rfl) low

/-- A status is critical when one deposit is above the critical threshold. -/
theorem statusOf_critical_iff :
    (∃ fraction, statusOf (dominantFraction deposits) = .critical fraction) ↔
      Dominated 800001 deposits := by
  rw [← lt_dominantFraction_iff, statusOf]
  split
  · rename_i critical
    exact iff_of_true ⟨_, rfl⟩ critical
  · rename_i low
    refine iff_of_false ?_ low
    rintro ⟨fraction, isCritical⟩
    split at isCritical <;> cases isCritical

/-- The order of the deposits does not matter. -/
theorem detectEclipseViaEntropy_perm
    {others : List UInt64}
    (perm : deposits.Perm others) :
    detectEclipseViaEntropy deposits = detectEclipseViaEntropy others := by
  have sameTotal : totalDeposits deposits = totalDeposits others :=
    (perm.map UInt64.toNat).sum_eq
  have sameGreatest : deposits.foldl max 0 = others.foldl max 0 := by
    refine perm.foldl_eq' (fun left _ right _ greatest => ?_) 0
    rw [← UInt64.toNat_inj, toNat_max, toNat_max, toNat_max, toNat_max]
    omega
  rw [detectEclipseViaEntropy_eq, detectEclipseViaEntropy_eq, dominantFraction, dominantFraction,
    sameTotal, sameGreatest]

end Deposits

/-- The peers are diverse when two of the known regions are listed. -/
theorem checkGeographicDiversity_iff {regions : List GeoRegion} :
    checkGeographicDiversity regions = true ↔ SeveralRegions regions := by
  rw [checkGeographicDiversity, decide_eq_true_iff, minGeographicRegions, Nat.succ_le_iff,
    Finset.one_lt_card]
  simp only [List.mem_toFinset, List.mem_filter, decide_eq_true_iff]
  constructor
  · rintro ⟨region, ⟨listed, known⟩, other, ⟨otherListed, otherKnown⟩, differ⟩
    exact ⟨region, listed, other, otherListed, known, otherKnown, differ⟩
  · rintro ⟨region, listed, other, otherListed, known, otherKnown, differ⟩
    exact ⟨region, ⟨listed, known⟩, other, ⟨otherListed, otherKnown⟩, differ⟩

/-- The order of the peers does not matter. -/
theorem checkGeographicDiversity_perm
    {regions others : List GeoRegion}
    (perm : regions.Perm others) :
    checkGeographicDiversity regions = checkGeographicDiversity others := by
  rw [Bool.eq_iff_iff, checkGeographicDiversity_iff, checkGeographicDiversity_iff]
  unfold SeveralRegions
  simp only [perm.mem_iff]

/-- Fewer than 67 in 100 of the expected peers are connected. -/
def FewConnected (connectedPeers totalExpectedPeers : UInt64) : Prop :=
  totalExpectedPeers = 0 ∨ 100 * connectedPeers.toNat < 67 * totalExpectedPeers.toNat

/-- The connected peers are counted in hundreds without overflow, where peers are expected. -/
def ConnectedFit (connectedPeers totalExpectedPeers : UInt64) : Prop :=
  totalExpectedPeers ≠ 0 → connectedPeers.toNat * 100 ≤ maxU64

/-- The partition status answers when its product fits. -/
theorem evaluatePartitionStatus_cases (connectedPeers totalExpectedPeers : UInt64) :
    (ConnectedFit connectedPeers totalExpectedPeers ∧
        ∃ status,
          evaluatePartitionStatus connectedPeers totalExpectedPeers = some status ∧
            (status = .partitioned ↔ FewConnected connectedPeers totalExpectedPeers)) ∨
      (¬ConnectedFit connectedPeers totalExpectedPeers ∧
        evaluatePartitionStatus connectedPeers totalExpectedPeers = none) := by
  rw [evaluatePartitionStatus]
  by_cases isZero : totalExpectedPeers = 0
  · refine Or.inl ⟨fun nonzero => absurd isZero nonzero, .partitioned, if_pos isZero, ?_⟩
    exact iff_of_true rfl (Or.inl isZero)
  · have positive : 0 < totalExpectedPeers.toNat := Nat.pos_of_ne_zero (toNat_ne_zero isZero)
    rw [if_neg isZero]
    by_cases fits : connectedPeers.toNat * 100 ≤ maxU64
    · refine Or.inl ⟨fun _ => fits, ?_⟩
      obtain ⟨scaled, isScaled, exact⟩ := exists_checkedMul
        (show connectedPeers.toNat * (100 : UInt64).toNat ≤ maxU64 from fits)
      have reached :
          scaled / totalExpectedPeers ≥ 67 ↔
            67 * totalExpectedPeers.toNat ≤ connectedPeers.toNat * 100 := by
        rw [ge_iff_le, UInt64.le_iff_toNat_le, UInt64.toNat_div, exact]
        exact Nat.le_div_iff_mul_le positive
      rw [isScaled, Option.bind_eq_bind, Option.bind_some]
      by_cases enough : scaled / totalExpectedPeers ≥ 67
      · refine ⟨.connected, if_pos enough, iff_of_false nofun ?_⟩
        rintro (none | few)
        · exact isZero none
        · have := reached.mp enough
          omega
      · refine ⟨.partitioned, if_neg enough, iff_of_true rfl (Or.inr ?_)⟩
        have := mt reached.mpr enough
        omega
    · refine Or.inr ⟨fun fit => fits (fit isZero), ?_⟩
      rw [show checkedMul connectedPeers 100 = none from if_neg fits]
      rfl

/-- The logarithm of a word, as it is computed. -/
theorem toNat_log2Approx
    {value : UInt64}
    (nonzero : value ≠ 0) :
    (saturatingSub 63 (leadingZerosU64 value)).toNat = value.toNat.log2 := by
  have small : value.toNat.log2 < 64 :=
    (Nat.log2_lt (toNat_ne_zero nonzero)).mpr value.toNat_lt
  rw [toNat_saturatingSub, leadingZerosU64, if_neg nonzero,
    toNat_ofNat_of_le (by unfold maxU64; omega), show (63 : UInt64).toNat = 63 from rfl]
  omega

/-- A round adds at most 19 times the part of its deposit. -/
theorem entropyRound_le
    {total entropyFp deposit next : UInt64}
    (round : entropyRound total entropyFp deposit = some next)
    (isPart : deposit.toNat ≤ total.toNat) :
    next.toNat ≤
      entropyFp.toNat + 19 * (1000000 * deposit.toNat / total.toNat) / 1000000 := by
  rw [entropyRound] at round
  split at round
  · cases round
    exact Nat.le_add_right _ _
  · obtain ⟨scaled, isScaled, rest⟩ := Option.bind_eq_some_iff.mp round
    have exact := checkedMul_eq_some_iff.mp isScaled
    dsimp only at rest
    split at rest
    · cases rest
      exact Nat.le_add_right _ _
    · rename_i nonzero
      obtain ⟨weighted, isWeighted, added⟩ := Option.bind_eq_some_iff.mp rest
      cases added
      have isProduct := checkedMul_eq_some_iff.mp isWeighted
      have part : (scaled / total).toNat = 1000000 * deposit.toNat / total.toNat := by
        rw [UInt64.toNat_div, exact, Nat.mul_comm]
        rfl
      have partLe : (scaled / total).toNat ≤ 1000000 := part ▸ share_le isPart 1000000
      have logLe : (scaled / total).toNat.log2 ≤ 19 :=
        Nat.le_of_lt_succ ((Nat.log2_lt (toNat_ne_zero nonzero)).mpr (by omega))
      rw [toNat_saturatingAdd, UInt64.toNat_div, isProduct, toNat_log2Approx nonzero, ← part,
        Nat.mul_comm 19]
      refine (Nat.min_le_left _ _).trans (Nat.add_le_add_left ?_ _)
      exact Nat.div_le_div_right (Nat.mul_le_mul_left _ logLe)

/-- The rounds add at most 19 times the parts of the deposits. -/
theorem entropyRounds_le
    {total : UInt64}
    {deposits : List UInt64}
    (areParts : ∀ deposit ∈ deposits, deposit.toNat ≤ total.toNat)
    {start entropyFp : UInt64}
    (rounds : deposits.foldlM (entropyRound total) start = some entropyFp) :
    entropyFp.toNat ≤
      start.toNat +
        (shares 19 1000000 (shares 1000000 total.toNat (deposits.map UInt64.toNat))).sum := by
  induction deposits generalizing start with
  | nil =>
      cases rounds
      exact Nat.le_add_right _ _
  | cons deposit rest inductionHypothesis =>
      rw [List.foldlM_cons, Option.bind_eq_bind, Option.bind_eq_some_iff] at rounds
      obtain ⟨next, round, laterRounds⟩ := rounds
      obtain ⟨isPart, areRest⟩ := List.forall_mem_cons.mp areParts
      have first := entropyRound_le round isPart
      have later := inductionHypothesis areRest laterRounds
      rw [shares, shares, List.map_cons, List.map_cons, List.map_cons, List.sum_cons, ← shares,
        ← shares]
      omega

/-- The entropy is at most 19, however the deposits are spread. -/
theorem computePheromoneEntropyFp_le
    {deposits : List UInt64}
    {entropyFp : UInt64}
    (computed : computePheromoneEntropyFp deposits = some entropyFp) :
    entropyFp.toNat ≤ 19 := by
  obtain ⟨total, isTotal, rest⟩ := Option.bind_eq_some_iff.mp computed
  have exact : total.toNat = totalDeposits deposits := by
    rw [foldlM_checkedAdd_eq_some_iff, UInt64.toNat_zero, Nat.zero_add] at isTotal
    exact isTotal
  split at rest
  · cases rest
    exact Nat.zero_le _
  · have areParts (deposit : UInt64) (listed : deposit ∈ deposits) :
        deposit.toNat ≤ total.toNat := by
      rw [exact]
      exact List.le_sum_of_mem (List.mem_map_of_mem listed)
    have bounded := entropyRounds_le areParts rest
    have parts :
        (shares 1000000 total.toNat (deposits.map UInt64.toNat)).sum ≤ 1000000 :=
      sum_shares_le exact.ge 1000000
    rw [UInt64.toNat_zero, Nat.zero_add] at bounded
    exact bounded.trans (sum_shares_le parts 19)

/-- The ideal entropy of two or more senders is at least a million. -/
theorem le_computeIdealEntropyFp
    {numSenders : UInt64}
    (several : 2 ≤ numSenders.toNat) :
    ∃ idealFp, computeIdealEntropyFp numSenders = some idealFp ∧ 1000000 ≤ idealFp.toNat := by
  have nonzero : numSenders ≠ 0 := by
    rintro rfl
    exact absurd several (by decide)
  have notOne : ¬numSenders ≤ 1 := by
    rw [UInt64.le_iff_toNat_le, UInt64.toNat_one]
    omega
  have logBound : numSenders.toNat.log2 < 64 :=
    (Nat.log2_lt (by omega)).mpr numSenders.toNat_lt
  have logPositive : 1 ≤ numSenders.toNat.log2 := (Nat.le_log2 (by omega)).mpr several
  have log := toNat_log2Approx nonzero
  have basis : eclipseFixedPointBasis.toNat = 1000000 := rfl
  obtain ⟨idealFp, isProduct, exact⟩ := exists_checkedMul
    (show (saturatingSub 63 (leadingZerosU64 numSenders)).toNat * eclipseFixedPointBasis.toNat ≤
      maxU64 by rw [log, basis]; unfold maxU64; omega)
  refine ⟨idealFp, ?_, by rw [exact, log, basis]; omega⟩
  rw [computeIdealEntropyFp, if_neg notOne]
  exact isProduct

/-- A report is made where its sums and products fit, from what each part tells. -/
theorem report_parts
    {deposits : List UInt64}
    {regions : List GeoRegion}
    {connectedPeers totalExpectedPeers : UInt64}
    {report : EclipseDefenseReport}
    (isReport :
      EclipseDefenseReport.evaluate deposits regions connectedPeers totalExpectedPeers =
        some report) :
    DepositsFit deposits ∧ ConnectedFit connectedPeers totalExpectedPeers ∧
      report.entropyStatus = statusOf (dominantFraction deposits) ∧
        (report.eclipseDetected = true ↔
          Dominated 600001 deposits ∨ ¬SeveralRegions regions ∨
            FewConnected connectedPeers totalExpectedPeers) := by
  obtain ⟨status, detected, rest⟩ := Option.bind_eq_some_iff.mp isReport
  obtain ⟨partition, evaluated, isLast⟩ := Option.bind_eq_some_iff.mp rest
  cases isLast
  rw [detectEclipseViaEntropy_eq] at detected
  split at detected
  · rename_i fit
    cases detected
    rcases evaluatePartitionStatus_cases connectedPeers totalExpectedPeers with
      ⟨connectedFit, known, isKnown, partitionedIff⟩ | ⟨-, isNone⟩
    · rw [evaluated] at isKnown
      cases isKnown
      refine ⟨depositsFit_iff.mpr fit, connectedFit, rfl, ?_⟩
      rw [decide_eq_true_iff, statusOf_ne_clean_iff, ← Bool.not_eq_true,
        checkGeographicDiversity_iff, partitionedIff]
    · rw [evaluated] at isNone
      cases isNone
  · cases detected

/-- What the report tells of a node. -/
structure Reports
    (deposits : List UInt64)
    (regions : List GeoRegion)
    (connectedPeers totalExpectedPeers : UInt64) : Prop where
  answers :
    (EclipseDefenseReport.evaluate deposits regions connectedPeers totalExpectedPeers).isSome =
        true ↔
      DepositsFit deposits ∧ ConnectedFit connectedPeers totalExpectedPeers
  detects :
    ∀ report,
      EclipseDefenseReport.evaluate deposits regions connectedPeers totalExpectedPeers =
        some report →
      (report.eclipseDetected = true ↔
        Dominated 600001 deposits ∨ ¬SeveralRegions regions ∨
          FewConnected connectedPeers totalExpectedPeers)
  critical :
    ∀ report,
      EclipseDefenseReport.evaluate deposits regions connectedPeers totalExpectedPeers =
        some report →
      ((∃ fraction, report.entropyStatus = .critical fraction) ↔ Dominated 800001 deposits)
  reordered :
    ∀ otherDeposits otherRegions,
      deposits.Perm otherDeposits →
      regions.Perm otherRegions →
      EclipseDefenseReport.evaluate otherDeposits otherRegions connectedPeers
          totalExpectedPeers =
        EclipseDefenseReport.evaluate deposits regions connectedPeers totalExpectedPeers
  entropyIsLow :
    ∀ entropyFp numSenders,
      computePheromoneEntropyFp deposits = some entropyFp →
      2 ≤ numSenders.toNat →
      ∃ idealFp,
        computeIdealEntropyFp numSenders = some idealFp ∧
          100 * entropyFp.toNat < hThresholdPercent.toNat * idealFp.toNat

/--
A report is made where its sums and products fit, and then tells of an eclipse exactly
when one deposit is more than 600000 millionths of all, when fewer than two known regions
are listed, or when fewer than 67 in 100 of the expected peers are connected.  The order
of the deposits and of the peers does not matter.  The entropy as it is computed is below
the threshold for any number of senders, however their deposits are spread.
-/
theorem report_detects
    (deposits : List UInt64)
    (regions : List GeoRegion)
    (connectedPeers totalExpectedPeers : UInt64) :
    Reports deposits regions connectedPeers totalExpectedPeers := by
  refine
    { answers := ⟨fun isSome => ?_, fun fit => ?_⟩
      detects := fun report isReport => (report_parts isReport).2.2.2
      critical := fun report isReport => ?_
      reordered := fun otherDeposits otherRegions sameDeposits sameRegions => ?_
      entropyIsLow := fun entropyFp numSenders computed several => ?_ }
  · obtain ⟨report, isReport⟩ := Option.isSome_iff_exists.mp isSome
    exact ⟨(report_parts isReport).1, (report_parts isReport).2.1⟩
  · rcases evaluatePartitionStatus_cases connectedPeers totalExpectedPeers with
      ⟨-, status, evaluated, -⟩ | ⟨notFit, -⟩
    · rw [EclipseDefenseReport.evaluate, detectEclipseViaEntropy_eq,
        if_pos (depositsFit_iff.mp fit.1), evaluated]
      rfl
    · exact absurd fit.2 notFit
  · rw [(report_parts isReport).2.2.1, statusOf_critical_iff]
  · rw [EclipseDefenseReport.evaluate, EclipseDefenseReport.evaluate,
      detectEclipseViaEntropy_perm sameDeposits, checkGeographicDiversity_perm sameRegions]
  · obtain ⟨idealFp, isIdeal, large⟩ := le_computeIdealEntropyFp several
    have small := computePheromoneEntropyFp_le computed
    refine ⟨idealFp, isIdeal, ?_⟩
    rw [show hThresholdPercent.toNat = 50 from rfl]
    omega

end ScalarCore
