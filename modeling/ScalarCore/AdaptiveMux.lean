import Mathlib.Data.List.Induction
import ScalarCore.Bytes
import ScalarCore.KeyedSort
import ScalarCore.KeyedWrites
import ScalarCore.MachineInt

namespace ScalarCore

/-!
# The adaptive choice of a transport

Every channel to a peer has a conductivity, which grows with the flow over it and
decays otherwise.  The tiers of a peer are chosen with the squares of their
conductivities as weights.

The estimate of a fifth root is a parameter: the source takes it in floating point.
-/

open KeyedSort KeyedWrites MachineInt

/-- `TransportTier`. -/
inductive TransportTier where
  | internet
  | loRa
  | hfRadio
  | localMesh
  | visualQr
  deriving Repr, DecidableEq

/-- `TransportTier::all`. -/
def TransportTier.all : List TransportTier :=
  [.internet, .loRa, .hfRadio, .localMesh, .visualQr]

/-- `DECAY_RATE_FP`. -/
def decayRateFp : UInt64 :=
  10000

/-- `FIXED_POINT_BASIS` of the conductivities. -/
def conductivityBasis : UInt64 :=
  1000000

/-- `CONDUCTIVITY_MIN`. -/
def conductivityMin : UInt64 :=
  1000

/-- `CONDUCTIVITY_MAX`. -/
def conductivityMax : UInt64 :=
  10000000

/-!
## The growth with a flow
-/

/-- The Newton steps of a fifth root; powers stay under a limit. -/
def newtonSteps (limit x : Nat) : Nat → Nat → Nat
  | 0, guess => guess
  | rounds + 1, guess =>
      let g4 := min (guess ^ 4) limit
      if g4 = 0 then
        guess
      else
        let next := (4 * guess + x / g4) / 5
        if next ≥ guess then guess else newtonSteps limit x rounds next

/-- `fifth_root_u64` and `fifth_root_u128`, which differ in their width and rounds. -/
def fifthRoot (estimate : Nat → Nat) (limit rounds x : Nat) : Nat :=
  if x = 0 then
    0
  else if x = 1 then
    1
  else
    newtonSteps limit x rounds (max 1 (estimate x))

/-- `pow_gamma_fp`. -/
def powGammaFp (estimate : Nat → Nat) (flowFp : UInt64) : UInt64 :=
  if flowFp = 0 then
    0
  else if flowFp ≤ conductivityBasis then
    UInt64.ofNat (fifthRoot estimate maxU64 5 (min (flowFp.toNat ^ 4) maxU64))
  else
    let flow := flowFp.toNat
    let flow4 := saturatingMul128 (saturatingMul128 (saturatingMul128 flow flow) flow) flow
    UInt64.ofNat (min (fifthRoot estimate maxU128 8 flow4) conductivityMax.toNat)

/-- `ChannelConductivity`. -/
structure ChannelConductivity where
  conductivityFp : UInt64
  deriving DecidableEq

namespace ChannelConductivity

/-- `default` and `new`. -/
def new : ChannelConductivity where
  conductivityFp := conductivityMin

variable (estimate : Nat → Nat)

/-- `update`. -/
def update
    (channel : ChannelConductivity)
    (flowFp elapsedSecsFp : UInt64) : ChannelConductivity :=
  let flowGamma := powGammaFp estimate flowFp
  let decayTerm := saturatingMul channel.conductivityFp decayRateFp / conductivityBasis
  let delta :=
    if flowGamma ≥ decayTerm then
      saturatingMul (saturatingSub flowGamma decayTerm) elapsedSecsFp / conductivityBasis
    else
      0
  let decayDelta :=
    if decayTerm > flowGamma then
      saturatingMul (saturatingSub decayTerm flowGamma) elapsedSecsFp / conductivityBasis
    else
      0
  let moved := saturatingSub (saturatingAdd channel.conductivityFp delta) decayDelta
  { conductivityFp := min (max moved conductivityMin) conductivityMax }

end ChannelConductivity

/-- The arguments of `record_flow`. -/
structure RecordedFlow where
  peerId : Bytes32
  tier : TransportTier
  flowFp : UInt64
  elapsedSecsFp : UInt64

/-- `AdaptiveMux`. -/
structure AdaptiveMux where
  channels : Finmap fun _ : Bytes32 × TransportTier => ChannelConductivity

namespace AdaptiveMux

/-- `new`. -/
def new : AdaptiveMux where
  channels := ∅

/-- The conductivity of a tier of a peer. -/
def conductivity (mux : AdaptiveMux) (peerId : Bytes32) (tier : TransportTier) : UInt64 :=
  ((mux.channels.lookup (peerId, tier)).map ChannelConductivity.conductivityFp).getD
    conductivityMin

/-- `record_flow`, with the channel of `channel_mut`. -/
def recordFlow
    (estimate : Nat → Nat)
    (mux : AdaptiveMux)
    (flow : RecordedFlow) : AdaptiveMux where
  channels :=
    let channel := (mux.channels.lookup (flow.peerId, flow.tier)).getD .new
    mux.channels.insert (flow.peerId, flow.tier)
      (channel.update estimate flow.flowFp flow.elapsedSecsFp)

/-- The square of a conductivity, as a word. -/
def squared (conductivityFp : UInt64) : UInt64 :=
  UInt64.ofNat
    (min (saturatingMul128 conductivityFp.toNat conductivityFp.toNat) maxU64)

/-- `tier_probabilities`, over some unstable sort; there are none where the sum overflows. -/
def tierProbabilities
    (unstable : UnstableSort (TransportTier × UInt64) Natᵒᵈ)
    (mux : AdaptiveMux)
    (peerId : Bytes32) : Option (List (TransportTier × UInt64)) := do
  let dSquared := TransportTier.all.map fun tier => (tier, squared (mux.conductivity peerId tier))
  let sumD2 ← (dSquared.map Prod.snd).foldlM checkedAdd 0
  if sumD2 = 0 then
    let prob := conductivityBasis / UInt64.ofNat TransportTier.all.length
    some (TransportTier.all.map fun tier => (tier, prob))
  else
    let probs :=
      dSquared.map fun item =>
        (item.1,
          UInt64.ofNat
            (saturatingMul128 item.2.toNat conductivityBasis.toNat / sumD2.toNat))
    some (unstable.sort (fun item => OrderDual.toDual item.2.toNat) probs)

/-- `best_tier`. -/
def bestTier
    (unstable : UnstableSort (TransportTier × UInt64) Natᵒᵈ)
    (mux : AdaptiveMux)
    (peerId : Bytes32) : Option TransportTier := do
  let probs ← mux.tierProbabilities unstable peerId
  some ((probs.head?.map Prod.fst).getD .internet)

end AdaptiveMux

/-!
## Shares rounded down
-/

/-- Shares of a total, rounded down, do not exceed the whole. -/
theorem sum_roundedShares_le
    (weights : List Nat)
    (basis total : Nat) :
    (weights.map fun weight => weight * basis / total).sum * total ≤ weights.sum * basis := by
  induction weights with
  | nil =>
      simp
  | cons weight rest inductionHypothesis =>
      rw [List.map_cons, List.sum_cons, List.sum_cons, Nat.add_mul, Nat.add_mul]
      exact Nat.add_le_add (Nat.div_mul_le_self _ _) inductionHypothesis

/-- Each share that is rounded down loses less than one. -/
theorem sum_roundedShares_lt
    (weights : List Nat)
    (some : weights ≠ [])
    (basis : Nat)
    {total : Nat}
    (positive : 0 < total) :
    weights.sum * basis <
      ((weights.map fun weight => weight * basis / total).sum + weights.length) * total := by
  induction weights with
  | nil =>
      exact absurd rfl some
  | cons weight rest inductionHypothesis =>
      have first : weight * basis < (weight * basis / total + 1) * total :=
        Nat.lt_mul_of_div_lt (Nat.lt_succ_self _) positive
      rw [List.map_cons, List.sum_cons, List.sum_cons, List.length_cons]
      cases rest with
      | nil =>
          simpa using first
      | cons weight' rest =>
          have later := inductionHypothesis (List.cons_ne_nil weight' rest)
          nlinarith

namespace AdaptiveMux

variable {estimate : Nat → Nat} {mux : AdaptiveMux} {peerId : Bytes32} {tier : TransportTier}

/-- A conductivity between the least and the greatest. -/
def Conducts (conductivityFp : UInt64) : Prop :=
  1000 ≤ conductivityFp.toNat ∧ conductivityFp.toNat ≤ 10000000

theorem conducts_clamp (moved : UInt64) :
    Conducts (min (max moved conductivityMin) conductivityMax) := by
  have least : conductivityMin.toNat = 1000 := rfl
  have greatest : conductivityMax.toNat = 10000000 := rfl
  rw [Conducts, toNat_min, toNat_max, least, greatest]
  omega

@[simp] theorem lookup_recordFlow
    (mux : AdaptiveMux)
    (flow : RecordedFlow)
    (key : Bytes32 × TransportTier) :
    (recordFlow estimate mux flow).channels.lookup key =
      if key = (flow.peerId, flow.tier) then
        some
          (((mux.channels.lookup key).getD .new).update estimate flow.flowFp
            flow.elapsedSecsFp)
      else
        mux.channels.lookup key := by
  rw [recordFlow]
  by_cases same : key = (flow.peerId, flow.tier)
  · rw [if_pos same, same, Finmap.lookup_insert]
  · rw [if_neg same, Finmap.lookup_insert_of_ne _ same]

/-- The mux after flows. -/
def afterFlows (estimate : Nat → Nat) (flows : List RecordedFlow) : AdaptiveMux :=
  flows.foldl (recordFlow estimate) new

@[simp] theorem afterFlows_concat (flows : List RecordedFlow) (flow : RecordedFlow) :
    afterFlows estimate (flows ++ [flow]) =
      recordFlow estimate (afterFlows estimate flows) flow := by
  rw [afterFlows, List.foldl_append]
  rfl

/-- Every channel conducts. -/
theorem conducts_conductivity (flows : List RecordedFlow) :
    Conducts ((afterFlows estimate flows).conductivity peerId tier) := by
  rw [conductivity]
  induction flows using List.reverseRecOn with
  | nil =>
      rw [afterFlows, List.foldl_nil, new, Finmap.lookup_empty]
      exact ⟨by decide, by decide⟩
  | append_singleton earlier flow inductionHypothesis =>
      rw [afterFlows_concat, lookup_recordFlow]
      split
      · exact conducts_clamp _
      · exact inductionHypothesis

/-- The channels of a peer depend on the flows to that peer only. -/
theorem lookup_afterFlows_filter (flows : List RecordedFlow) :
    (afterFlows estimate flows).channels.lookup (peerId, tier) =
      (afterFlows estimate (flows.filter fun flow => flow.peerId = peerId)).channels.lookup
        (peerId, tier) := by
  induction flows using List.reverseRecOn with
  | nil =>
      rfl
  | append_singleton earlier flow inductionHypothesis =>
      rw [List.filter_append, afterFlows_concat, lookup_recordFlow]
      by_cases samePeer : flow.peerId = peerId
      · have kept : [flow].filter (fun flow => flow.peerId = peerId) = [flow] :=
          List.filter_cons_of_pos (decide_eq_true samePeer)
        rw [kept, afterFlows_concat, lookup_recordFlow, inductionHypothesis]
      · have dropped : [flow].filter (fun flow => flow.peerId = peerId) = [] :=
          List.filter_cons_of_neg (by rwa [decide_eq_true_iff])
        have other : (peerId, tier) ≠ (flow.peerId, flow.tier) :=
          fun same => samePeer (congrArg Prod.fst same).symm
        rw [dropped, List.append_nil, if_neg other, inductionHypothesis]

theorem conductivity_afterFlows_filter (flows : List RecordedFlow) :
    (afterFlows estimate flows).conductivity peerId tier =
      (afterFlows estimate (flows.filter fun flow => flow.peerId = peerId)).conductivity
        peerId tier := by
  rw [conductivity, conductivity, lookup_afterFlows_filter]

/-!
## The probabilities
-/

/-- The weight of a tier: the square of its conductivity. -/
def weight (mux : AdaptiveMux) (peerId : Bytes32) (tier : TransportTier) : Nat :=
  (mux.conductivity peerId tier).toNat ^ 2

/-- The weights of all tiers together. -/
def totalWeight (mux : AdaptiveMux) (peerId : Bytes32) : Nat :=
  (TransportTier.all.map (mux.weight peerId)).sum

theorem toNat_squared
    {conductivityFp : UInt64}
    (conducts : Conducts conductivityFp) :
    (squared conductivityFp).toNat = conductivityFp.toNat ^ 2 := by
  have bounded : conductivityFp.toNat * conductivityFp.toNat ≤ 10000000 * 10000000 :=
    Nat.mul_le_mul conducts.2 conducts.2
  have fits128 : conductivityFp.toNat * conductivityFp.toNat ≤ maxU128 :=
    bounded.trans (by decide)
  have fits : conductivityFp.toNat * conductivityFp.toNat ≤ maxU64 :=
    bounded.trans (by decide)
  rw [squared, saturatingMul128_eq fits128, min_eq_left fits, toNat_ofNat_of_le fits, sq]

/-- What the probabilities of a peer are. -/
structure Weighs
    (mux : AdaptiveMux)
    (peerId : Bytes32)
    (probs : List (TransportTier × UInt64))
    (best : TransportTier) : Prop where
  tiers : (probs.map Prod.fst).Perm TransportTier.all
  descending : probs.Pairwise fun left right => right.2.toNat ≤ left.2.toNat
  share :
    ∀ item ∈ probs,
      item.2.toNat = mux.weight peerId item.1 * 1000000 / mux.totalWeight peerId
  whole :
    (probs.map fun item => item.2.toNat).sum ≤ 1000000 ∧
      1000000 < (probs.map fun item => item.2.toNat).sum + 5
  isFirst : probs.head?.map Prod.fst = some best
  isBest :
    ∀ tier,
      mux.weight peerId tier * 1000000 <
        mux.weight peerId best * 1000000 + mux.totalWeight peerId

/-- The share of a tier, before the sort. -/
def prob (mux : AdaptiveMux) (peerId : Bytes32) (tier : TransportTier) : UInt64 :=
  UInt64.ofNat (mux.weight peerId tier * 1000000 / mux.totalWeight peerId)

theorem weight_bounds
    (conducts : ∀ tier, Conducts (mux.conductivity peerId tier))
    (tier : TransportTier) :
    1000000 ≤ mux.weight peerId tier ∧ mux.weight peerId tier ≤ 100000000000000 := by
  obtain ⟨least, greatest⟩ := conducts tier
  exact ⟨Nat.pow_le_pow_left least 2, Nat.pow_le_pow_left greatest 2⟩

theorem totalWeight_bounds (conducts : ∀ tier, Conducts (mux.conductivity peerId tier)) :
    5000000 ≤ mux.totalWeight peerId ∧ mux.totalWeight peerId ≤ 500000000000000 := by
  have bounds := weight_bounds conducts
  have internet := bounds .internet
  have loRa := bounds .loRa
  have hfRadio := bounds .hfRadio
  have localMesh := bounds .localMesh
  have visualQr := bounds .visualQr
  simp only [totalWeight, TransportTier.all, List.map_cons, List.map_nil, List.sum_cons,
    List.sum_nil]
  omega

/-- A weight is part of the total. -/
theorem weight_le_totalWeight (mux : AdaptiveMux) (peerId : Bytes32) (tier : TransportTier) :
    mux.weight peerId tier ≤ mux.totalWeight peerId := by
  simp only [totalWeight, TransportTier.all, List.map_cons, List.map_nil, List.sum_cons,
    List.sum_nil]
  cases tier <;> omega

theorem toNat_prob :
    (mux.prob peerId tier).toNat =
      mux.weight peerId tier * 1000000 / mux.totalWeight peerId := by
  have part :
      mux.weight peerId tier * 1000000 / mux.totalWeight peerId ≤ 1000000 :=
    Nat.div_le_of_le_mul (Nat.mul_le_mul_right _ (weight_le_totalWeight mux peerId tier))
  exact toNat_ofNat_of_le (part.trans (by decide))

/-- The probabilities, computed without overflow. -/
theorem tierProbabilities_eq
    (conducts : ∀ tier, Conducts (mux.conductivity peerId tier))
    (unstable : UnstableSort (TransportTier × UInt64) Natᵒᵈ) :
    mux.tierProbabilities unstable peerId =
      some
        (unstable.sort (fun item => OrderDual.toDual item.2.toNat)
          (TransportTier.all.map fun tier => (tier, mux.prob peerId tier))) := by
  obtain ⟨least, greatest⟩ := totalWeight_bounds conducts
  have squares (tier : TransportTier) :
      (squared (mux.conductivity peerId tier)).toNat = mux.weight peerId tier :=
    toNat_squared (conducts tier)
  have total : (UInt64.ofNat (mux.totalWeight peerId)).toNat = mux.totalWeight peerId :=
    toNat_ofNat_of_le (by change _ ≤ 2 ^ 64 - 1; omega)
  have summed :
      ((TransportTier.all.map fun tier =>
            (tier, squared (mux.conductivity peerId tier))).map Prod.snd).foldlM
          checkedAdd 0 =
        some (UInt64.ofNat (mux.totalWeight peerId)) := by
    rw [foldlM_checkedAdd_eq_some_iff, total, totalWeight, List.map_map, List.map_map]
    change _ = 0 + _
    rw [Nat.zero_add]
    congr 1
    exact List.map_congr_left fun tier _ => (squares tier).symm
  have positive : UInt64.ofNat (mux.totalWeight peerId) ≠ 0 := by
    intro isZero
    rw [isZero] at total
    change 0 = _ at total
    omega
  rw [tierProbabilities]
  dsimp only
  rw [summed, Option.bind_eq_bind, Option.bind_some, if_neg positive, List.map_map, total]
  congr 2
  apply List.map_congr_left
  intro tier _
  have bounds := weight_bounds conducts tier
  have basis : conductivityBasis.toNat = 1000000 := rfl
  have fits : mux.weight peerId tier * 1000000 ≤ maxU128 :=
    (Nat.mul_le_mul_right 1000000 bounds.2).trans (by decide)
  rw [Function.comp_apply, squares, basis, saturatingMul128_eq fits]
  rfl

/-- Any sort of the shares is what the probabilities are. -/
theorem weighs_sort
    (conducts : ∀ tier, Conducts (mux.conductivity peerId tier))
    (unstable : UnstableSort (TransportTier × UInt64) Natᵒᵈ) :
    ∃ probs best,
      mux.tierProbabilities unstable peerId = some probs ∧
        mux.bestTier unstable peerId = some best ∧
        Weighs mux peerId probs best := by
  have computed := tierProbabilities_eq conducts unstable
  have perm :=
    unstable.perm (fun item => OrderDual.toDual item.2.toNat)
      (TransportTier.all.map fun tier => (tier, mux.prob peerId tier))
  have descending :=
    unstable.ascending (fun item => OrderDual.toDual item.2.toNat)
      (TransportTier.all.map fun tier => (tier, mux.prob peerId tier))
  generalize unstable.sort (fun item => OrderDual.toDual item.2.toNat)
    (TransportTier.all.map fun tier => (tier, mux.prob peerId tier)) = probs
    at computed perm descending
  obtain ⟨least, greatest⟩ := totalWeight_bounds conducts
  have positive : 0 < mux.totalWeight peerId := by omega
  have share :
      ∀ item ∈ probs,
        item.2.toNat = mux.weight peerId item.1 * 1000000 / mux.totalWeight peerId := by
    intro item isItem
    obtain ⟨tier, _, same⟩ := List.mem_map.mp (perm.mem_iff.mp isItem)
    have itsTier : tier = item.1 := congrArg Prod.fst same
    have itsProb : mux.prob peerId tier = item.2 := congrArg Prod.snd same
    rw [← itsProb, ← itsTier, toNat_prob]
  have sum :
      (probs.map fun item => item.2.toNat).sum =
        ((TransportTier.all.map (mux.weight peerId)).map fun weight =>
          weight * 1000000 / mux.totalWeight peerId).sum := by
    rw [(perm.map _).sum_eq]
    simp only [List.map_map, Function.comp_def, toNat_prob]
  cases probs with
  | nil =>
      exact absurd perm.length_eq (by simp [TransportTier.all])
  | cons best rest =>
      refine ⟨_, best.1, computed, by rw [bestTier, computed]; rfl, ?_⟩
      refine ⟨?_, descending, share, ?_, rfl, ?_⟩
      · have tiers := perm.map Prod.fst
        rwa [List.map_map, show Prod.fst ∘ (fun tier => (tier, mux.prob peerId tier)) = id from rfl,
          List.map_id] at tiers
      · rw [sum]
        have atMost :=
          sum_roundedShares_le (TransportTier.all.map (mux.weight peerId)) 1000000
            (mux.totalWeight peerId)
        have atLeast :=
          sum_roundedShares_lt (TransportTier.all.map (mux.weight peerId))
            (by simp [TransportTier.all]) 1000000 positive
        rw [← totalWeight, Nat.mul_comm (mux.totalWeight peerId)] at atMost atLeast
        rw [List.length_map, show TransportTier.all.length = 5 from rfl] at atLeast
        exact
          ⟨Nat.le_of_mul_le_mul_right atMost positive,
            Nat.lt_of_mul_lt_mul_right atLeast⟩
      · intro tier
        obtain ⟨item, isItem, itsTier⟩ : ∃ item ∈ best :: rest, item.1 = tier :=
          ⟨_, perm.mem_iff.mpr
            (List.mem_map.mpr ⟨tier, by cases tier <;> simp [TransportTier.all], rfl⟩), rfl⟩
        have notMore : item.2.toNat ≤ best.2.toNat := by
          rcases List.mem_cons.mp isItem with same | isLater
          · rw [same]
          · exact (List.pairwise_cons.mp descending).1 item isLater
        rw [share item isItem, share best List.mem_cons_self, itsTier] at notMore
        have own := Nat.lt_mul_of_div_lt (Nat.lt_succ_of_le notMore) positive
        have bestShare :=
          Nat.div_mul_le_self (mux.weight peerId best.1 * 1000000) (mux.totalWeight peerId)
        rw [Nat.succ_mul] at own
        omega

/--
After any flows every channel conducts between the bounds, whatever the root estimates
are, and what a peer's tiers are weighed with depends on the flows to that peer only.
The probabilities are those of all tiers, sorted; they are the shares of the squares
rounded down, and the best tier is one of the greatest share.
-/
theorem mux_weighs
    (estimate : Nat → Nat)
    (flows : List RecordedFlow)
    (unstable : UnstableSort (TransportTier × UInt64) Natᵒᵈ)
    (peerId : Bytes32) :
    (∀ tier, Conducts ((afterFlows estimate flows).conductivity peerId tier)) ∧
      (∀ tier,
        (afterFlows estimate flows).conductivity peerId tier =
          (afterFlows estimate
              (flows.filter fun flow => flow.peerId = peerId)).conductivity peerId tier) ∧
      ∃ probs best,
        (afterFlows estimate flows).tierProbabilities unstable peerId = some probs ∧
          (afterFlows estimate flows).bestTier unstable peerId = some best ∧
          Weighs (afterFlows estimate flows) peerId probs best :=
  ⟨fun _ => conducts_conductivity flows, fun _ => conductivity_afterFlows_filter flows,
    weighs_sort (fun _ => conducts_conductivity flows) unstable⟩

end AdaptiveMux

/-!
## An idle channel
-/

/-- A function that does not exceed its argument reaches a fixed point soon. -/
theorem exists_iterate_fixed
    {step : Nat → Nat}
    {least : Nat}
    (falls : ∀ value, least ≤ value → least ≤ step value ∧ step value ≤ value)
    {value : Nat}
    (above : least ≤ value) :
    ∃ count ≤ value - least, step (step^[count] value) = step^[count] value := by
  induction value using Nat.strong_induction_on with
  | h value inductionHypothesis =>
      obtain ⟨above', notAbove⟩ := falls value above
      rcases Nat.eq_or_lt_of_le notAbove with fixed | lower
      · exact ⟨0, Nat.zero_le _, fixed⟩
      · obtain ⟨count, soon, fixed⟩ := inductionHypothesis (step value) lower above'
        exact ⟨count + 1, by omega, fixed⟩

namespace ChannelConductivity

open AdaptiveMux

variable {estimate : Nat → Nat}

/-- A channel after updates with flows and times. -/
def afterUpdates
    (estimate : Nat → Nat)
    (updates : List (UInt64 × UInt64)) : ChannelConductivity :=
  updates.foldl (fun channel item => channel.update estimate item.1 item.2) new

theorem conducts_new : Conducts new.conductivityFp :=
  ⟨by decide, by decide⟩

theorem conducts_afterUpdates (updates : List (UInt64 × UInt64)) :
    Conducts (afterUpdates estimate updates).conductivityFp := by
  cases updates using List.reverseRecOn with
  | nil =>
      exact conducts_new
  | append_singleton earlier item =>
      rw [afterUpdates, List.foldl_append]
      exact conducts_clamp _

/-- An update without flow, in numbers. -/
def idleStep (elapsed conductivity : Nat) : Nat :=
  max 1000 (conductivity - conductivity / 100 * elapsed / 1000000)

/-- A hundredth of a conductivity decays in a second. -/
theorem toNat_decayTerm
    {conductivityFp : UInt64}
    (conducts : Conducts conductivityFp) :
    (saturatingMul conductivityFp decayRateFp / conductivityBasis).toNat =
      conductivityFp.toNat / 100 := by
  obtain ⟨_, greatest⟩ := conducts
  have rate : decayRateFp.toNat = 10000 := rfl
  have basis : conductivityBasis.toNat = 1000000 := rfl
  have words : maxU64 = 18446744073709551615 := rfl
  rw [UInt64.toNat_div, toNat_saturatingMul, rate, basis, words]
  omega

/-- No clamp but the least conductivity matters for what is lost. -/
theorem idleStep_clamped
    {conductivity : Nat}
    (least : 1000 ≤ conductivity)
    (greatest : conductivity ≤ 10000000)
    (lost : Nat) :
    min
        (max (min conductivity 18446744073709551615 -
          min lost 18446744073709551615 / 1000000) 1000)
        10000000 =
      max 1000 (conductivity - lost / 1000000) := by
  omega

theorem toNat_update_zero
    {channel : ChannelConductivity}
    (conducts : Conducts channel.conductivityFp)
    (elapsedSecsFp : UInt64) :
    (channel.update estimate 0 elapsedSecsFp).conductivityFp.toNat =
      idleStep elapsedSecsFp.toNat channel.conductivityFp.toNat := by
  have decayTerm := toNat_decayTerm conducts
  obtain ⟨least, greatest⟩ := conducts
  have basis : conductivityBasis.toNat = 1000000 := rfl
  have noFlow : powGammaFp estimate 0 = 0 := if_pos rfl
  rw [update]
  dsimp only
  generalize saturatingMul channel.conductivityFp decayRateFp / conductivityBasis = term
    at decayTerm
  have decays : (0 : UInt64).toNat < term.toNat := by
    rw [decayTerm]
    change 0 < _
    omega
  have notGrows : ¬(0 : UInt64) ≥ term := by
    rw [ge_iff_le, UInt64.le_iff_toNat_le]
    exact Nat.not_le_of_lt decays
  have falls : term > 0 := UInt64.lt_iff_toNat_lt.mpr decays
  have minimum : conductivityMin.toNat = 1000 := rfl
  have maximum : conductivityMax.toNat = 10000000 := rfl
  have zero : (0 : UInt64).toNat = 0 := rfl
  rw [noFlow, if_neg notGrows, if_pos falls, toNat_min, toNat_max, toNat_saturatingSub,
    toNat_saturatingAdd, UInt64.toNat_div, toNat_saturatingMul, toNat_saturatingSub,
    decayTerm, basis, minimum, maximum, zero, Nat.sub_zero, Nat.add_zero, idleStep]
  exact idleStep_clamped least greatest _

/-- A channel after updates without flow, each for the same time. -/
def idleFor
    (estimate : Nat → Nat)
    (elapsedSecsFp : UInt64)
    (channel : ChannelConductivity)
    (count : Nat) : ChannelConductivity :=
  (fun channel => channel.update estimate 0 elapsedSecsFp)^[count] channel

theorem toNat_idleFor
    (estimate : Nat → Nat)
    {channel : ChannelConductivity}
    (conducts : Conducts channel.conductivityFp)
    (elapsedSecsFp : UInt64)
    (count : Nat) :
    Conducts (idleFor estimate elapsedSecsFp channel count).conductivityFp ∧
      (idleFor estimate elapsedSecsFp channel count).conductivityFp.toNat =
        (idleStep elapsedSecsFp.toNat)^[count] channel.conductivityFp.toNat := by
  induction count with
  | zero =>
      exact ⟨conducts, rfl⟩
  | succ count inductionHypothesis =>
      obtain ⟨conducts', same⟩ := inductionHypothesis
      rw [idleFor, Function.iterate_succ_apply', Function.iterate_succ_apply', ← same]
      exact ⟨conducts_clamp _, toNat_update_zero conducts' elapsedSecsFp⟩

/-- Without flow a conductivity does not grow, and stays above the least one. -/
theorem idleStep_falls
    {conductivity : Nat}
    (above : 1000 ≤ conductivity)
    (elapsed : Nat) :
    1000 ≤ idleStep elapsed conductivity ∧ idleStep elapsed conductivity ≤ conductivity := by
  rw [idleStep]
  omega

/-- A conductivity stays at the least one, and where it decays by less than one. -/
theorem idleStep_eq_self_iff
    {conductivity : Nat}
    (above : 1000 ≤ conductivity)
    (elapsed : Nat) :
    idleStep elapsed conductivity = conductivity ↔
      conductivity = 1000 ∨ conductivity / 100 * elapsed < 1000000 := by
  rw [idleStep]
  generalize conductivity / 100 * elapsed = lost
  omega

/-- What becomes of a channel that is idle for one time after another. -/
structure Settles
    (estimate : Nat → Nat)
    (elapsedSecsFp : UInt64)
    (channel : ChannelConductivity)
    (count : Nat) : Prop where
  soon : count ≤ channel.conductivityFp.toNat - 1000
  falls :
    ∀ earlier,
      (idleFor estimate elapsedSecsFp channel (earlier + 1)).conductivityFp.toNat ≤
        (idleFor estimate elapsedSecsFp channel earlier).conductivityFp.toNat
  stays :
    ∀ later,
      idleFor estimate elapsedSecsFp channel (count + later) =
        idleFor estimate elapsedSecsFp channel count
  settled :
    (idleFor estimate elapsedSecsFp channel count).conductivityFp = conductivityMin ∨
      (idleFor estimate elapsedSecsFp channel count).conductivityFp.toNat / 100 *
          elapsedSecsFp.toNat < 1000000
  reaches :
    100000 ≤ elapsedSecsFp.toNat →
    (idleFor estimate elapsedSecsFp channel count).conductivityFp = conductivityMin

/--
A channel that is idle from some point on settles: its conductivity falls until it is
the least one or until an idle update takes less than one from it, which happens only
when the updates come faster than ten a second.
-/
theorem idle_settles
    (estimate : Nat → Nat)
    (updates : List (UInt64 × UInt64))
    (elapsedSecsFp : UInt64) :
    ∃ count, Settles estimate elapsedSecsFp (afterUpdates estimate updates) count := by
  have conducts : Conducts (afterUpdates estimate updates).conductivityFp :=
    conducts_afterUpdates updates
  generalize afterUpdates estimate updates = channel at conducts
  have idle := toNat_idleFor estimate conducts elapsedSecsFp
  obtain ⟨count, soon, fixed⟩ :=
    exists_iterate_fixed
      (fun conductivity above => idleStep_falls above elapsedSecsFp.toNat) conducts.1
  have isLeast (later : UInt64) (same : later.toNat = 1000) : later = conductivityMin :=
    UInt64.toNat_inj.mp same
  have settled :
      (idleFor estimate elapsedSecsFp channel count).conductivityFp.toNat = 1000 ∨
        (idleFor estimate elapsedSecsFp channel count).conductivityFp.toNat / 100 *
            elapsedSecsFp.toNat < 1000000 := by
    rw [← (idle count).2] at fixed
    exact (idleStep_eq_self_iff (idle count).1.1 _).mp fixed
  refine ⟨count, soon, ?_, ?_, settled.imp_left (isLeast _), ?_⟩
  · intro earlier
    rw [(idle (earlier + 1)).2, Function.iterate_succ_apply', ← (idle earlier).2]
    exact (idleStep_falls (idle earlier).1.1 _).2
  · intro later
    have same :
        (idleFor estimate elapsedSecsFp channel (count + later)).conductivityFp.toNat =
          (idleFor estimate elapsedSecsFp channel count).conductivityFp.toNat := by
      rw [(idle _).2, (idle _).2, Nat.add_comm, Function.iterate_add_apply]
      exact Function.iterate_fixed fixed later
    exact congrArg mk (UInt64.toNat_inj.mp same)
  · intro slow
    apply isLeast
    refine settled.resolve_right (Nat.not_lt_of_le ?_)
    have decays :
        10 ≤ (idleFor estimate elapsedSecsFp channel count).conductivityFp.toNat / 100 := by
      have above := (idle count).1.1
      omega
    exact Nat.mul_le_mul decays slow

end ChannelConductivity

end ScalarCore
