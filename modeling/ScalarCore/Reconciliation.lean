import ScalarCore.BestScan
import ScalarCore.Bytes
import ScalarCore.KeyedWrites
import ScalarCore.MachineInt
import ScalarCore.Smt

namespace ScalarCore

/-!
# Pheromone reconciliation

A node keeps a pheromone level for each candidate root.  A vote lets all levels
evaporate by the time since the last one and adds a deposit to the level of its
root.  A root is accepted when it holds at least 67 percent of all pheromone.

The levels are words in fixed point.  The source multiplies and adds them
unchecked; here an operation that overflows has no result, so that a run with
a result is one in which nothing overflows.
-/

open BestScan KeyedWrites MachineInt

/-- `FIXED_POINT_BASIS` of the levels. -/
def pheromoneBasis : UInt64 :=
  1000000

/-- `TAU_MIN`. -/
def tauMin : UInt64 :=
  1000

/-- `TAU_MAX`. -/
def tauMax : UInt64 :=
  10000000

/-- `MAX_ROOT_CANDIDATES`. -/
def maxRootCandidates : Nat :=
  100

/-- `RHO`. -/
def rho : UInt64 :=
  3000

/-- The pheromone level of each candidate root. -/
structure PheromoneState where
  pheromones : Finmap fun _ : Bytes32 => UInt64

/-- The arguments of an update, with the time and the order that it meets. -/
structure PheromoneUpdate where
  receivedRoot : Bytes32
  wSender : UInt64
  depositQ : UInt64
  elapsedSecs : UInt64
  order : IterationOrder

/-- The weight and the deposit of an update are in their ranges. -/
structure PheromoneUpdate.InRange (call : PheromoneUpdate) : Prop where
  wSender : call.wSender ≤ pheromoneBasis
  depositQ : call.depositQ ≤ tauMax

/-- The decision of a node. -/
inductive ReconciliationDecision where
  | commit (root : Bytes32)
  | noConsensus
  deriving DecidableEq

/-- One level after evaporation, not below `TAU_MIN`. -/
def evaporateTau (multiplier tau : UInt64) : Option UInt64 := do
  let product ← checkedMul tau multiplier
  let newTau := product / pheromoneBasis
  if newTau < tauMin then
    some tauMin
  else
    some newTau

/-- One level after a deposit, not above `TAU_MAX`. -/
def depositTau (tau deposit : UInt64) : Option UInt64 := do
  let total ← checkedAdd tau deposit
  some (min total tauMax)

/-- A level between `TAU_MIN` and `TAU_MAX`. -/
def InBounds (tau : UInt64) : Prop :=
  tauMin ≤ tau ∧ tau ≤ tauMax

/-- Evaporation does not overflow and keeps a level in bounds. -/
theorem evaporateTau_spec
    {multiplier tau : UInt64}
    (decays : multiplier ≤ pheromoneBasis)
    (below : tau ≤ tauMax) :
    ∃ newTau, evaporateTau multiplier tau = some newTau ∧ InBounds newTau := by
  have productBound : tau.toNat * multiplier.toNat ≤ 10000000 * 1000000 :=
    Nat.mul_le_mul (UInt64.le_iff_toNat_le.mp below)
      (UInt64.le_iff_toNat_le.mp decays)
  rcases exists_checkedMul (productBound.trans (by decide)) with
    ⟨product, isProduct, value⟩
  have quotientBound : product / pheromoneBasis ≤ tauMax := by
    rw [UInt64.le_iff_toNat_le, UInt64.toNat_div, value]
    exact Nat.div_le_of_le_mul (productBound.trans (by decide))
  rw [evaporateTau, isProduct, Option.bind_eq_bind, Option.bind_some]
  dsimp only
  split
  · exact ⟨tauMin, rfl, UInt64.le_refl tauMin, by decide⟩
  · rename_i notBelow
    exact ⟨_, rfl, UInt64.not_lt.mp notBelow, quotientBound⟩

/-- A deposit does not overflow and keeps a level in bounds. -/
theorem depositTau_spec
    {tau deposit : UInt64}
    (inBounds : InBounds tau)
    (deposited : deposit ≤ tauMax) :
    ∃ newTau, depositTau tau deposit = some newTau ∧ InBounds newTau := by
  have tauBound := UInt64.le_iff_toNat_le.mp inBounds.2
  have depositBound := UInt64.le_iff_toNat_le.mp deposited
  have atLeast := UInt64.le_iff_toNat_le.mp inBounds.1
  have fits : tau.toNat + deposit.toNat ≤ 10000000 + 10000000 :=
    Nat.add_le_add tauBound depositBound
  have isTotal :
      checkedAdd tau deposit =
        some (UInt64.ofNat (tau.toNat + deposit.toNat)) :=
    checkedAdd_eq_some_iff.mpr
      (toNat_ofNat_of_le (fits.trans (by decide)))
  refine ⟨_, by rw [depositTau, isTotal]; rfl, ?_, ?_⟩
  · rw [UInt64.le_iff_toNat_le, toNat_min,
      toNat_ofNat_of_le (fits.trans (by decide))]
    exact le_min (atLeast.trans (Nat.le_add_right _ _)) (by decide)
  · rw [UInt64.le_iff_toNat_le, toNat_min]
    exact min_le_right _ _

namespace PheromoneState

/-- `new`. -/
def new : PheromoneState where
  pheromones := ∅

/-- The roots with their levels, in the order of the map. -/
def items
    (order : IterationOrder)
    (state : PheromoneState) : List (Bytes32 × UInt64) :=
  itemsAt state.pheromones (order.list state.pheromones.keys)

/-- The root with the lowest level, the first one in the order of the map. -/
def minRoot (order : IterationOrder) (state : PheromoneState) : Bytes32 :=
  (bestOf (fun item best => decide (item.2 < best.2))
    (Bytes32.zero, UInt64.ofNat maxU64) (state.items order)).1

/-- Above the limit of candidates the lowest one is dropped. -/
def prune (order : IterationOrder) (state : PheromoneState) : PheromoneState :=
  if maxRootCandidates < state.pheromones.keys.card then
    { pheromones := state.pheromones.erase (state.minRoot order) }
  else
    state

/-- `update`. -/
def update
    (state : PheromoneState)
    (call : PheromoneUpdate) : Option PheromoneState := do
  let decay := saturatingMul rho call.elapsedSecs
  let multiplier := saturatingSub pheromoneBasis decay
  let evaporated ←
    tryUpdateValues (evaporateTau multiplier) state.pheromones
  let product ← checkedMul call.depositQ call.wSender
  let deposit := product / pheromoneBasis
  let tau := (evaporated.lookup call.receivedRoot).getD tauMin
  let newTau ← depositTau tau deposit
  some
    (prune call.order
      { pheromones := evaporated.insert call.receivedRoot newTau })

/-- The root with the highest level, the first one in the order of the map. -/
def best (order : IterationOrder) (state : PheromoneState) : Bytes32 × UInt64 :=
  bestOf (fun item best => Decidable.decide (best.2 < item.2))
    (Bytes32.zero, 0) (state.items order)

/-- `decide`: the levels are added in the order of the map. -/
def decide
    (order : IterationOrder)
    (state : PheromoneState) : Option ReconciliationDecision :=
  if (state.items order).isEmpty then
    some .noConsensus
  else do
    let totalTau ← ((state.items order).map Prod.snd).foldlM checkedAdd 0
    if totalTau = 0 then
      some .noConsensus
    else
      let scaled ← checkedMul (state.best order).2 100
      if 67 ≤ scaled / totalTau then
        some (.commit (state.best order).1)
      else
        some .noConsensus

/-- Updates one after another. -/
def updateAll (calls : List PheromoneUpdate) : Option PheromoneState :=
  calls.foldlM update new

/-- The sum of all levels. -/
def total (state : PheromoneState) : Nat :=
  KeyedWrites.total UInt64.toNat state.pheromones

/-- The root is stored and holds at least 67 percent of all pheromone. -/
def Dominant (state : PheromoneState) (root : Bytes32) : Prop :=
  ∃ tau,
    state.pheromones.lookup root = some tau ∧
      67 * state.total ≤ 100 * tau.toNat

/-- Levels in bounds, and not too many of them. -/
structure WellFormed (state : PheromoneState) : Prop where
  inBounds :
    ∀ root tau,
      state.pheromones.lookup root = some tau →
      InBounds tau
  candidates : state.pheromones.keys.card ≤ maxRootCandidates

variable {state : PheromoneState} {order : IterationOrder}

@[simp] theorem mem_items
    {root : Bytes32}
    {tau : UInt64} :
    (root, tau) ∈ state.items order ↔
      state.pheromones.lookup root = some tau := by
  rw [items, mem_itemsAt, order.mem_list, Finmap.mem_keys]
  exact and_iff_right_of_imp Finmap.mem_of_lookup_eq_some

/-- The listed levels sum up to the same total in every order. -/
theorem sum_items (order : IterationOrder) :
    (((state.items order).map Prod.snd).map UInt64.toNat).sum =
      state.total := by
  rw [List.map_map]
  exact
    sum_itemsAt_eq_total (order.nodup state.pheromones.keys)
      (order.mem_list state.pheromones.keys)

/-- A level is part of the total. -/
theorem le_total
    {root : Bytes32}
    {tau : UInt64}
    (found : state.pheromones.lookup root = some tau) :
    tau.toNat ≤ state.total := by
  rw [← sum_items .ascending]
  exact
    List.le_sum_of_mem
      (List.mem_map_of_mem (List.mem_map_of_mem (mem_items.mpr found)))

namespace WellFormed

/-- Evaporation succeeds on every level and changes no root. -/
theorem evaporate
    (wellFormed : WellFormed state)
    {multiplier : UInt64}
    (decays : multiplier ≤ pheromoneBasis) :
    ∃ evaporated : PheromoneState,
      tryUpdateValues (evaporateTau multiplier) state.pheromones =
          some evaporated.pheromones ∧
        WellFormed evaporated := by
  have updates
      (root : Bytes32)
      (tau : UInt64)
      (found : state.pheromones.lookup root = some tau) :
      (evaporateTau multiplier tau).isSome = true := by
    rcases evaporateTau_spec decays (wellFormed.inBounds root tau found).2 with
      ⟨newTau, isNew, _⟩
    rw [isNew, Option.isSome_some]
  refine
    ⟨⟨updateValues (evaporateTau multiplier) state.pheromones⟩,
      tryUpdateValues_eq_some updates, ?_, ?_⟩
  · intro root newTau found
    rw [lookup_updateValues, Option.bind_eq_some_iff] at found
    rcases found with ⟨tau, wasFound, isNew⟩
    rcases evaporateTau_spec decays
        (wellFormed.inBounds root tau wasFound).2 with
      ⟨newTau', isNew', inBounds⟩
    rw [isNew, Option.some_inj] at isNew'
    rwa [isNew']
  · change (updateValues _ _).keys.card ≤ _
    rw [keys_updateValues updates]
    exact wellFormed.candidates

/-- The root that is pruned is one of those with a level. -/
theorem minRoot_mem
    (inBounds :
      ∀ root tau,
        state.pheromones.lookup root = some tau → InBounds tau)
    {root : Bytes32}
    {tau : UInt64}
    (found : state.pheromones.lookup root = some tau) :
    state.minRoot order ∈ state.pheromones.keys := by
  have isBetter
      (item best : Bytes32 × UInt64) :
      Decidable.decide (item.2 < best.2) = true ↔
        item.2.toNat < best.2.toNat := by
    rw [decide_eq_true_iff, UInt64.lt_iff_toNat_lt]
  have below :=
    (rank_bestOf_le isBetter (Bytes32.zero, UInt64.ofNat maxU64)
      (state.items order)).2 (root, tau) (mem_items.mpr found)
  rcases bestOf_mem
      (fun item best : Bytes32 × UInt64 =>
        Decidable.decide (item.2 < best.2))
      (Bytes32.zero, UInt64.ofNat maxU64) (state.items order) with
    isStart | listed
  · rw [isStart] at below
    have tauBound := UInt64.le_iff_toNat_le.mp (inBounds root tau found).2
    exact absurd (below.trans tauBound) (by decide)
  · rw [Finmap.mem_keys]
    exact Finmap.mem_of_lookup_eq_some (mem_items.mp listed)

/-- After a deposit at most one root has to go. -/
theorem prune
    (wellFormed : WellFormed state)
    (order : IterationOrder)
    (root : Bytes32)
    {tau : UInt64}
    (isInBounds : InBounds tau) :
    WellFormed
      (PheromoneState.prune order
        { pheromones := state.pheromones.insert root tau }) := by
  have inserted
      (other : Bytes32)
      (found : UInt64)
      (isFound :
        (state.pheromones.insert root tau).lookup other = some found) :
      InBounds found := by
    rcases of_lookup_insert isFound with ⟨_, rfl⟩ | ⟨_, wasFound⟩
    · exact isInBounds
    · exact wellFormed.inBounds other found wasFound
  rw [PheromoneState.prune]
  split
  · rename_i tooMany
    have atMostOneMore :
        (state.pheromones.insert root tau).keys.card ≤
          maxRootCandidates + 1 := by
      rw [keys_insert]
      exact
        (Finset.card_insert_le _ _).trans
          (Nat.add_le_add_right wellFormed.candidates 1)
    refine ⟨fun other found isFound => ?_, ?_⟩
    · exact inserted other found (lookup_of_lookup_erase isFound)
    · change (Finmap.erase _ _).keys.card ≤ _
      rw [Finmap.keys_erase, Finset.card_erase_of_mem]
      · exact Nat.sub_le_of_le_add atMostOneMore
      · exact minRoot_mem inserted (Finmap.lookup_insert _)
  · rename_i fits
    exact ⟨inserted, not_lt.mp fits⟩

end WellFormed

/-- An update in range does not overflow and keeps the state well formed. -/
theorem update_spec
    (wellFormed : WellFormed state)
    {call : PheromoneUpdate}
    (inRange : call.InRange) :
    ∃ after, state.update call = some after ∧ WellFormed after := by
  have decays :
      saturatingSub pheromoneBasis (saturatingMul rho call.elapsedSecs) ≤
        pheromoneBasis := by
    rw [UInt64.le_iff_toNat_le, toNat_saturatingSub]
    exact Nat.sub_le _ _
  have productBound :
      call.depositQ.toNat * call.wSender.toNat ≤ 10000000 * 1000000 :=
    Nat.mul_le_mul (UInt64.le_iff_toNat_le.mp inRange.depositQ)
      (UInt64.le_iff_toNat_le.mp inRange.wSender)
  rcases exists_checkedMul (productBound.trans (by decide)) with
    ⟨product, isProduct, value⟩
  have deposited : product / pheromoneBasis ≤ tauMax := by
    rw [UInt64.le_iff_toNat_le, UInt64.toNat_div, value]
    exact Nat.div_le_of_le_mul (productBound.trans (by decide))
  rcases wellFormed.evaporate decays with
    ⟨evaporated, isEvaporated, evaporatedWellFormed⟩
  have inBounds :
      InBounds
        ((evaporated.pheromones.lookup call.receivedRoot).getD tauMin) := by
    cases found : evaporated.pheromones.lookup call.receivedRoot with
    | none =>
        exact ⟨UInt64.le_refl tauMin, by decide⟩
    | some tau =>
        exact evaporatedWellFormed.inBounds call.receivedRoot tau found
  rcases depositTau_spec inBounds deposited with ⟨newTau, isNew, isInBounds⟩
  refine
    ⟨_, ?_,
      evaporatedWellFormed.prune call.order call.receivedRoot isInBounds⟩
  rw [update, isEvaporated]
  dsimp only [Option.bind_eq_bind, Option.bind_some]
  rw [isProduct]
  dsimp only [Option.bind_eq_bind, Option.bind_some]
  rw [isNew]
  rfl

/-- Where a root is stored there is some pheromone. -/
theorem WellFormed.total_pos
    (wellFormed : WellFormed state)
    {root : Bytes32}
    {tau : UInt64}
    (found : state.pheromones.lookup root = some tau) :
    0 < state.total := by
  have atLeast :=
    UInt64.le_iff_toNat_le.mp (wellFormed.inBounds root tau found).1
  exact
    (Nat.lt_of_lt_of_le (by decide : 0 < tauMin.toNat) atLeast).trans_le
      (le_total found)

/-- All levels together fit a word many times. -/
theorem WellFormed.total_le (wellFormed : WellFormed state) :
    state.total ≤ 100 * 10000000 := by
  have each :
      ∀ root ∈ state.pheromones.keys,
        measureAt UInt64.toNat state.pheromones root ≤ 10000000 := by
    intro root isRoot
    rcases Finmap.mem_iff.mp (Finmap.mem_keys.mp isRoot) with ⟨tau, found⟩
    rw [measureAt, found]
    exact UInt64.le_iff_toNat_le.mp (wellFormed.inBounds root tau found).2
  calc
    state.total ≤ state.pheromones.keys.card • 10000000 :=
      Finset.sum_le_card_nsmul _ _ _ each
    _ ≤ 100 * 10000000 :=
      Nat.mul_le_mul_right 10000000 wellFormed.candidates

/-- Two different roots do not both hold 67 percent. -/
theorem WellFormed.dominant_unique
    (wellFormed : WellFormed state)
    {root root' : Bytes32}
    (dominant : state.Dominant root)
    (dominant' : state.Dominant root') :
    root = root' := by
  rcases dominant with ⟨tau, found, share⟩
  rcases dominant' with ⟨tau', found', share'⟩
  by_contra different
  have positive := wellFormed.total_pos found
  have together : tau.toNat + tau'.toNat ≤ state.total := by
    have both :
        measureAt UInt64.toNat state.pheromones root +
            measureAt UInt64.toNat state.pheromones root' ≤
          state.total :=
      measureAt_add_le_total different
    rwa [measureAt, measureAt, found, found'] at both
  omega

/-- The best root is stored, and no level is above its level. -/
theorem WellFormed.best_spec
    (wellFormed : WellFormed state)
    (order : IterationOrder)
    {root : Bytes32}
    {tau : UInt64}
    (found : state.pheromones.lookup root = some tau) :
    state.pheromones.lookup (state.best order).1 =
        some (state.best order).2 ∧
      tau.toNat ≤ (state.best order).2.toNat := by
  have isBetter
      (item best : Bytes32 × UInt64) :
      Decidable.decide (best.2 < item.2) = true ↔
        OrderDual.toDual item.2.toNat < OrderDual.toDual best.2.toNat := by
    rw [decide_eq_true_iff, UInt64.lt_iff_toNat_lt, OrderDual.toDual_lt_toDual]
  have above : tau.toNat ≤ (state.best order).2.toNat :=
    OrderDual.toDual_le_toDual.mp
      ((rank_bestOf_le isBetter (Bytes32.zero, 0) (state.items order)).2
        (root, tau) (mem_items.mpr found))
  refine ⟨?_, above⟩
  rcases bestOf_mem
      (fun item best : Bytes32 × UInt64 =>
        Decidable.decide (best.2 < item.2))
      (Bytes32.zero, 0) (state.items order) with
    isStart | listed
  · rw [best, isStart] at above
    have atLeast :=
      UInt64.le_iff_toNat_le.mp (wellFormed.inBounds root tau found).1
    exact absurd (atLeast.trans above) (by decide)
  · exact mem_items.mp listed

/-- A dominant root is the best one in every order. -/
theorem WellFormed.dominant_iff_best
    (wellFormed : WellFormed state)
    (order : IterationOrder)
    {root : Bytes32}
    {tau : UInt64}
    (found : state.pheromones.lookup root = some tau)
    (other : Bytes32) :
    state.Dominant other ↔
      (state.best order).1 = other ∧
        67 * state.total ≤ 100 * (state.best order).2.toNat := by
  have bestDominant
      (share : 67 * state.total ≤ 100 * (state.best order).2.toNat) :
      state.Dominant (state.best order).1 :=
    ⟨_, (wellFormed.best_spec order found).1, share⟩
  constructor
  · intro dominant
    rcases dominant with ⟨tau', found', share⟩
    have above := (wellFormed.best_spec order found').2
    have bestShare : 67 * state.total ≤ 100 * (state.best order).2.toNat :=
      share.trans (Nat.mul_le_mul_left 100 above)
    exact
      ⟨wellFormed.dominant_unique (bestDominant bestShare)
        ⟨tau', found', share⟩, bestShare⟩
  · rintro ⟨rfl, share⟩
    exact bestDominant share

/-- The total fits a word. -/
theorem WellFormed.toNat_total (wellFormed : WellFormed state) :
    (UInt64.ofNat state.total).toNat = state.total :=
  toNat_ofNat_of_le (wellFormed.total_le.trans (by decide))

/-- Adding the levels does not overflow, in any order. -/
theorem WellFormed.foldlM_items
    (wellFormed : WellFormed state)
    (order : IterationOrder) :
    ((state.items order).map Prod.snd).foldlM checkedAdd 0 =
      some (UInt64.ofNat state.total) := by
  rw [foldlM_checkedAdd_eq_some_iff, sum_items, wellFormed.toNat_total]
  exact (zero_add _).symm

/-- Scaling the best level does not overflow; the quotient tells the share. -/
theorem WellFormed.scaled_spec
    (wellFormed : WellFormed state)
    (order : IterationOrder)
    {root : Bytes32}
    {tau : UInt64}
    (found : state.pheromones.lookup root = some tau) :
    ∃ scaled,
      checkedMul (state.best order).2 100 = some scaled ∧
        (67 ≤ scaled / UInt64.ofNat state.total ↔
          67 * state.total ≤ 100 * (state.best order).2.toNat) := by
  rcases wellFormed.best_spec order found with ⟨bestFound, _⟩
  have bestBound :
      (state.best order).2.toNat * 100 ≤ 10000000 * 100 :=
    Nat.mul_le_mul_right 100
      (UInt64.le_iff_toNat_le.mp (wellFormed.inBounds _ _ bestFound).2)
  have scaledFits :
      (state.best order).2.toNat * (100 : UInt64).toNat ≤ maxU64 :=
    bestBound.trans (by decide)
  rcases exists_checkedMul scaledFits with ⟨scaled, isScaled, scaledValue⟩
  refine ⟨scaled, isScaled, ?_⟩
  rw [UInt64.le_iff_toNat_le, UInt64.toNat_div, wellFormed.toNat_total,
    scaledValue, Nat.mul_comm 100]
  exact Nat.le_div_iff_mul_le (wellFormed.total_pos found)

/-- `decide` does not overflow and commits to the dominant root. -/
theorem WellFormed.decide_spec
    (wellFormed : WellFormed state)
    (order : IterationOrder) :
    ∃ decision,
      state.decide order = some decision ∧
        ∀ root, decision = .commit root ↔ state.Dominant root := by
  rw [PheromoneState.decide]
  cases listed : state.items order with
  | nil =>
      refine ⟨.noConsensus, rfl, fun root => ⟨nofun, ?_⟩⟩
      rintro ⟨tau, found, _⟩
      have isItem : (root, tau) ∈ state.items order := mem_items.mpr found
      rw [listed] at isItem
      cases isItem
  | cons item rest =>
      have found : state.pheromones.lookup item.1 = some item.2 := by
        rw [← mem_items, listed]
        exact List.mem_cons_self
      have notZero : UInt64.ofNat state.total ≠ 0 := by
        rw [Ne, ← UInt64.toNat_inj, wellFormed.toNat_total]
        exact (wellFormed.total_pos found).ne'
      rcases wellFormed.scaled_spec order found with
        ⟨scaled, isScaled, share_iff⟩
      rw [← listed, wellFormed.foldlM_items order, listed]
      dsimp only [List.isEmpty_cons, Option.bind_eq_bind, Option.bind_some]
      rw [if_neg Bool.false_ne_true, if_neg notZero, isScaled]
      dsimp only [Option.bind_some]
      split
      · rename_i share
        refine ⟨_, rfl, fun root => ?_⟩
        rw [wellFormed.dominant_iff_best order found,
          ReconciliationDecision.commit.injEq]
        exact (and_iff_left (share_iff.mp share)).symm
      · rename_i noShare
        refine ⟨_, rfl, fun root => ⟨nofun, fun dominant => ?_⟩⟩
        rw [wellFormed.dominant_iff_best order found] at dominant
        exact absurd (share_iff.mpr dominant.2) noShare

/-- The decision does not depend on the order of the map. -/
theorem WellFormed.decide_eq_decide
    (wellFormed : WellFormed state)
    (order order' : IterationOrder) :
    state.decide order = state.decide order' := by
  rcases wellFormed.decide_spec order with ⟨decision, isDecision, commits⟩
  rcases wellFormed.decide_spec order' with ⟨decision', isDecision', commits'⟩
  rw [isDecision, isDecision', Option.some_inj]
  cases decision with
  | commit root =>
      exact ((commits' root).mpr ((commits root).mp rfl)).symm
  | noConsensus =>
      cases decision' with
      | commit root' =>
          exact (commits root').mpr ((commits' root').mp rfl)
      | noConsensus =>
          rfl

/-- What holds of a state after updates in range. -/
structure Reconciles (state : PheromoneState) : Prop where
  /-- Levels are in bounds, and there are not too many. -/
  wellFormed : WellFormed state
  /-- In any order a root is accepted exactly when it is dominant. -/
  decides :
    ∀ order, ∃ decision,
      state.decide order = some decision ∧
        ∀ root, decision = .commit root ↔ state.Dominant root
  /-- There is at most one dominant root. -/
  unique :
    ∀ root root', state.Dominant root → state.Dominant root' → root = root'
  /-- The decision is the same in any order. -/
  sameDecision :
    ∀ order order', state.decide order = state.decide order'

/-- Updates in range have a result, and it is well formed. -/
theorem WellFormed.foldlM_update
    (wellFormed : WellFormed state)
    {calls : List PheromoneUpdate}
    (inRange : ∀ call ∈ calls, call.InRange) :
    ∃ after, calls.foldlM update state = some after ∧ WellFormed after := by
  induction calls generalizing state with
  | nil =>
      exact ⟨state, rfl, wellFormed⟩
  | cons call rest inductionHypothesis =>
      rcases update_spec wellFormed (inRange call List.mem_cons_self) with
        ⟨next, isNext, nextWellFormed⟩
      rw [List.foldlM_cons, isNext, Option.bind_eq_bind, Option.bind_some]
      exact
        inductionHypothesis nextWellFormed fun later listed =>
          inRange later (List.mem_cons_of_mem call listed)

/-- The empty state is well formed. -/
theorem wellFormed_new : WellFormed new where
  inBounds root _ found :=
    absurd ((Finmap.lookup_empty root).symm.trans found)
      (Option.some_ne_none _).symm
  candidates := Nat.zero_le _

/-- Nothing overflows in a run in range, and the dominant root is accepted. -/
theorem updateAll_reconciles
    {calls : List PheromoneUpdate}
    (inRange : ∀ call ∈ calls, call.InRange) :
    ∃ state, updateAll calls = some state ∧ Reconciles state := by
  rcases wellFormed_new.foldlM_update inRange with
    ⟨state, isState, wellFormed⟩
  exact
    ⟨state, isState,
      { wellFormed
        decides := wellFormed.decide_spec
        unique := fun _ _ => wellFormed.dominant_unique
        sameDecision := wellFormed.decide_eq_decide }⟩

/-- Two votes of full weight, the second after a pause. -/
theorem updateAll_reconciles_sample :
    ∃ state,
      updateAll [
          { receivedRoot := Bytes32.endingIn 1
            wSender := 1000000
            depositQ := 10000000
            elapsedSecs := 0
            order := .ascending },
          { receivedRoot := Bytes32.endingIn 2
            wSender := 1000000
            depositQ := 1000000
            elapsedSecs := 400
            order := .descending }] =
          some state ∧
        Reconciles state := by
  apply updateAll_reconciles
  intro call listed
  simp only [List.mem_cons, List.not_mem_nil, or_false] at listed
  rcases listed with rfl | rfl
  · exact ⟨by decide, by decide⟩
  · exact ⟨by decide, by decide⟩

end PheromoneState

end ScalarCore
