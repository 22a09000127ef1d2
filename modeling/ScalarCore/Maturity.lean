import Mathlib.Algebra.Order.BigOperators.Group.Finset
import Mathlib.Order.Interval.Finset.Nat
import ScalarCore.Bytes
import ScalarCore.KeyedWrites
import ScalarCore.MachineInt
import ScalarCore.StateMachine

namespace ScalarCore.Liveness

/-!
# Maturity and governance weight

A node's uptime weight is recorded once an epoch.  Its maturity is the sum of
the weights of a window of epochs, and its governance weight is the maturity in
proportion to a full one.  Summaries older than the window are pruned.

A pruned store answers as the full one does for every epoch from the pruning on.
A full maturity is counted in heartbeats although the weights are not, so a node
that is always up stays far below the full governance weight.
-/

open Finset MachineInt

/-- Days until a node is mature. -/
def wMatureDays : UInt64 :=
  180

/-- Seconds of a sub-epoch. -/
def subepochProvingDurationS : UInt64 :=
  1900

/-- Sub-epochs of an epoch. -/
def subepochCount : UInt64 :=
  24

/-- Heartbeats of an epoch. -/
def expectedHeartbeatsPerEpoch : UInt32 :=
  4320

/-- The basis of the weights. -/
def fixedPointBasis : UInt64 :=
  1000000

/-- Seconds of an epoch. -/
def epochDurationS : UInt64 :=
  subepochProvingDurationS * subepochCount

/-- Epochs until a node is mature. -/
def wMatureEpochs : UInt64 :=
  divCeil (wMatureDays * 86400) epochDurationS

/-- `w_mature`, the denominator of the governance weight. -/
def wMature : UInt64 :=
  wMatureEpochs * expectedHeartbeatsPerEpoch.toUInt64 * fixedPointBasis

/-- The uptime weight of a node in an epoch. -/
structure EpochWeightSummary where
  nodeId : Bytes32
  epochId : UInt64
  uptimeWeight : UInt64

/-- The recorded weights, by node and epoch. -/
structure MaturityStore where
  summaries : Finmap fun _ : Bytes32 × UInt64 => UInt64

/-- The epochs `start..=last`. -/
def epochsThrough (start last : UInt64) : List UInt64 :=
  (List.range' start.toNat (last.toNat + 1 - start.toNat)).map UInt64.ofNat

namespace MaturityStore

/-- The store without summaries. -/
def new : MaturityStore where
  summaries := ∅

/-- `record`. -/
def record (store : MaturityStore) (summary : EpochWeightSummary) :
    MaturityStore where
  summaries :=
    store.summaries.insert (summary.nodeId, summary.epochId)
      summary.uptimeWeight

/-- The weight of a node in an epoch, zero where none is recorded. -/
def weightOf (store : MaturityStore) (nodeId : Bytes32) (epoch : UInt64) :
    UInt64 :=
  (store.summaries.lookup (nodeId, epoch)).getD 0

/-- `maturity`. -/
def maturity
    (store : MaturityStore)
    (nodeId : Bytes32)
    (currentEpoch : UInt64) : UInt64 :=
  let start := saturatingSub currentEpoch wMatureEpochs
  (epochsThrough start currentEpoch).foldl
    (fun total epoch => saturatingAdd total (store.weightOf nodeId epoch)) 0

/-- `gov_weight`. -/
def govWeight
    (store : MaturityStore)
    (nodeId : Bytes32)
    (currentEpoch : UInt64) : UInt64 :=
  let m := store.maturity nodeId currentEpoch
  let scaled := saturatingMul128 m.toNat fixedPointBasis.toNat / wMature.toNat
  min (UInt64.ofNat scaled) fixedPointBasis

/-- `prune`. -/
def prune (store : MaturityStore) (currentEpoch : UInt64) : MaturityStore :=
  let cutoff := saturatingSub currentEpoch (wMatureEpochs + 2)
  { summaries :=
      KeyedWrites.retain (fun key _ => decide (key.2 ≥ cutoff))
        store.summaries }

/-- Record summaries one after another. -/
def recordAll (store : MaturityStore) (summaries : List EpochWeightSummary) :
    MaturityStore :=
  summaries.foldl record store

end MaturityStore

/-!
## Totals over a window
-/

section Window

variable {series series' : Nat → Nat} {width position : Nat}

/-- The total of a series over a position and the `width` positions before it. -/
def windowTotal (series : Nat → Nat) (width position : Nat) : Nat :=
  ∑ index ∈ Icc (position - width) position, series index

/-- Only the window is read. -/
theorem windowTotal_congr
    (same :
      ∀ index, position - width ≤ index → index ≤ position →
        series index = series' index) :
    windowTotal series width position = windowTotal series' width position :=
  sum_congr rfl fun index inWindow =>
    same index (mem_Icc.mp inWindow).1 (mem_Icc.mp inWindow).2

/-- A larger series has a larger total. -/
theorem windowTotal_mono
    (below : ∀ index, series index ≤ series' index) :
    windowTotal series width position ≤ windowTotal series' width position :=
  sum_le_sum fun index _ => below index

/-- The total of a window that is constant. -/
theorem windowTotal_const
    {value : Nat}
    (inside : width ≤ position)
    (constant :
      ∀ index, position - width ≤ index → index ≤ position →
        series index = value) :
    windowTotal series width position = (width + 1) * value := by
  have sameTerms :
      ∀ index ∈ Icc (position - width) position, series index = value :=
    fun index inWindow =>
      constant index (mem_Icc.mp inWindow).1 (mem_Icc.mp inWindow).2
  have size : position + 1 - (position - width) = width + 1 := by omega
  rw [windowTotal, sum_congr rfl sameTerms, sum_const, Nat.card_Icc, size,
    nsmul_eq_mul, Nat.cast_id]

end Window

/-!
## What the weights are
-/

namespace MaturityStore

variable {store store' : MaturityStore} {nodeId : Bytes32} {epoch : UInt64}

/-- The parameters, evaluated. -/
@[simp] theorem toNat_wMatureEpochs : wMatureEpochs.toNat = 342 := by
  decide

@[simp] theorem toNat_wMature : wMature.toNat = 1477440000000 := by
  decide

@[simp] theorem toNat_fixedPointBasis : fixedPointBasis.toNat = 1000000 :=
  rfl

/-- A number that is at most a word is a word. -/
theorem toNat_ofNat_of_le_toNat
    {number : Nat}
    {word : UInt64}
    (below : number ≤ word.toNat) :
    (UInt64.ofNat number).toNat = number := by
  apply toNat_ofNat_of_le
  have bound := word.toNat_lt
  unfold maxU64
  omega

/-- The weights of a node as a series over the epochs. -/
def series (store : MaturityStore) (nodeId : Bytes32) (index : Nat) : Nat :=
  (store.weightOf nodeId (UInt64.ofNat index)).toNat

/-- The maturity is the total over the window, clamped. -/
theorem toNat_maturity :
    (store.maturity nodeId epoch).toNat =
      min (windowTotal (store.series nodeId) wMatureEpochs.toNat epoch.toNat)
        maxU64 := by
  have total :
      ((epochsThrough (saturatingSub epoch wMatureEpochs) epoch).map
          fun epoch => (store.weightOf nodeId epoch).toNat).sum =
        windowTotal (store.series nodeId) wMatureEpochs.toNat epoch.toNat := by
    rw [epochsThrough, List.map_map, toNat_saturatingSub]
    rfl
  rw [maturity, toNat_foldl_saturatingAdd, total, UInt64.toNat_zero, zero_add]

/-- The governance weight is the share of a full maturity, at most the basis. -/
theorem toNat_govWeight :
    (store.govWeight nodeId epoch).toNat =
      min ((store.maturity nodeId epoch).toNat * 1000000 / 1477440000000)
        1000000 := by
  have bound := (store.maturity nodeId epoch).toNat_lt
  have exactProduct :
      (store.maturity nodeId epoch).toNat * 1000000 ≤ maxU128 := by
    unfold maxU128
    omega
  have fits :
      (store.maturity nodeId epoch).toNat * 1000000 / 1477440000000 ≤
        maxU64 := by
    unfold maxU64
    omega
  rw [govWeight, toNat_min, toNat_fixedPointBasis, toNat_wMature,
    saturatingMul128_eq exactProduct, toNat_ofNat_of_le fits]

/-!
## Pruning
-/

/-- Two stores hold the same weights from an epoch on. -/
def AgreeFrom (bound : Nat) (store store' : MaturityStore) : Prop :=
  ∀ nodeId epoch,
    bound ≤ epoch.toNat →
      store.weightOf nodeId epoch = store'.weightOf nodeId epoch

/-- What a record changes. -/
theorem weightOf_record (summary : EpochWeightSummary) :
    (store.record summary).weightOf nodeId epoch =
      if (nodeId, epoch) = (summary.nodeId, summary.epochId) then
        summary.uptimeWeight
      else
        store.weightOf nodeId epoch :=
  KeyedWrites.getD_lookup_insert store.summaries _ _ _ _

/-- Pruning keeps the epochs from the cutoff on. -/
theorem agreeFrom_prune (pruned : UInt64) :
    AgreeFrom (pruned.toNat - 344) (store.prune pruned) store := by
  intro nodeId epoch notBefore
  have margin : (wMatureEpochs + 2).toNat = 344 := by
    decide
  have kept : epoch ≥ saturatingSub pruned (wMatureEpochs + 2) := by
    rw [ge_iff_le, UInt64.le_iff_toNat_le, toNat_saturatingSub, margin]
    exact notBefore
  rw [weightOf, weightOf, prune, KeyedWrites.lookup_retain]
  cases store.summaries.lookup (nodeId, epoch) with
  | none =>
      rfl
  | some weight =>
      have isKept : decide (epoch ≥ saturatingSub pruned (wMatureEpochs + 2)) :=
        decide_eq_true kept
      simp only [Option.filter_some, isKept, if_true]

/-- A record is the same in both stores. -/
theorem AgreeFrom.record
    {bound : Nat}
    (agree : AgreeFrom bound store store')
    (summary : EpochWeightSummary) :
    AgreeFrom bound (store.record summary) (store'.record summary) := by
  intro nodeId epoch notBefore
  rw [weightOf_record, weightOf_record, agree nodeId epoch notBefore]

/-- Pruning one of the stores before the bound leaves them in agreement. -/
theorem AgreeFrom.prune
    {bound : Nat}
    {pruned : UInt64}
    (agree : AgreeFrom bound store store')
    (before : pruned.toNat - 344 ≤ bound) :
    AgreeFrom bound (store.prune pruned) store' := by
  intro nodeId epoch notBefore
  rw [agreeFrom_prune pruned nodeId epoch (before.trans notBefore),
    agree nodeId epoch notBefore]

/-- Stores that agree on the window give one maturity and one weight. -/
theorem AgreeFrom.weights
    (agree : AgreeFrom (epoch.toNat - 342) store store')
    (nodeId : Bytes32) :
    store.maturity nodeId epoch = store'.maturity nodeId epoch ∧
      store.govWeight nodeId epoch = store'.govWeight nodeId epoch := by
  have sameTotal :
      windowTotal (store.series nodeId) wMatureEpochs.toNat epoch.toNat =
        windowTotal (store'.series nodeId) wMatureEpochs.toNat epoch.toNat := by
    apply windowTotal_congr
    intro index notBefore notAfter
    have isEpoch := toNat_ofNat_of_le_toNat notAfter
    rw [toNat_wMatureEpochs, ← isEpoch] at notBefore
    exact congrArg UInt64.toNat (agree nodeId _ notBefore)
  have sameMaturity :
      store.maturity nodeId epoch = store'.maturity nodeId epoch := by
    rw [← UInt64.toNat_inj, toNat_maturity, toNat_maturity, sameTotal]
  exact ⟨sameMaturity, by simp only [govWeight, sameMaturity]⟩

/-- The calls that change a store. -/
inductive MaturityCall where
  | record (summary : EpochWeightSummary)
  | prune (currentEpoch : UInt64)

/-- What a call records. -/
def MaturityCall.summary? : MaturityCall → Option EpochWeightSummary
  | .record summary => some summary
  | .prune _ => none

/-- Perform a call. -/
def perform (store : MaturityStore) : MaturityCall → MaturityStore
  | .record summary => store.record summary
  | .prune currentEpoch => store.prune currentEpoch

/-- Perform calls one after another. -/
def performAll (store : MaturityStore) (calls : List MaturityCall) :
    MaturityStore :=
  calls.foldl perform store

/-- From the last cutoff on, a run agrees with its records alone. -/
theorem AgreeFrom.performAll
    {bound : Nat}
    {calls : List MaturityCall}
    (agree : AgreeFrom bound store store')
    (early : ∀ pruned, .prune pruned ∈ calls → pruned.toNat - 344 ≤ bound) :
    AgreeFrom bound (store.performAll calls)
      (store'.recordAll (calls.filterMap MaturityCall.summary?)) := by
  induction calls generalizing store store' with
  | nil =>
      exact agree
  | cons call rest inductionHypothesis =>
      have restEarly :
          ∀ pruned, .prune pruned ∈ rest → pruned.toNat - 344 ≤ bound :=
        fun pruned listed => early pruned (List.mem_cons_of_mem call listed)
      cases call with
      | record summary =>
          exact inductionHypothesis (agree.record summary) restEarly
      | prune pruned =>
          have before := early pruned List.mem_cons_self
          exact inductionHypothesis (agree.prune before) restEarly

/--
In a run of records and prunings, an epoch that no pruning is past has the
weights that the records alone give it.
-/
theorem weights_performAll
    (store : MaturityStore)
    {calls : List MaturityCall}
    (notPast : ∀ pruned, .prune pruned ∈ calls → pruned ≤ epoch)
    (nodeId : Bytes32) :
    (store.performAll calls).maturity nodeId epoch =
        (store.recordAll
          (calls.filterMap MaturityCall.summary?)).maturity nodeId epoch ∧
      (store.performAll calls).govWeight nodeId epoch =
        (store.recordAll
          (calls.filterMap MaturityCall.summary?)).govWeight nodeId epoch := by
  have selfAgree : AgreeFrom (epoch.toNat - 342) store store :=
    fun _ _ _ => rfl
  have early :
      ∀ pruned, .prune pruned ∈ calls →
        pruned.toNat - 344 ≤ epoch.toNat - 342 := by
    intro pruned listed
    have order := UInt64.le_iff_toNat_le.mp (notPast pruned listed)
    omega
  exact (selfAgree.performAll early).weights nodeId

/--
Pruning at an epoch changes no maturity and no governance weight of that epoch
or a later one, whatever is recorded afterwards.
-/
theorem weights_prune
    (store : MaturityStore)
    {pruned epoch : UInt64}
    (later : pruned ≤ epoch)
    (nodeId : Bytes32)
    (summaries : List EpochWeightSummary) :
    ((store.prune pruned).recordAll summaries).maturity nodeId epoch =
        (store.recordAll summaries).maturity nodeId epoch ∧
      ((store.prune pruned).recordAll summaries).govWeight nodeId epoch =
        (store.recordAll summaries).govWeight nodeId epoch := by
  have notPast :
      ∀ pruned',
        MaturityCall.prune pruned' ∈
            MaturityCall.prune pruned :: summaries.map MaturityCall.record →
          pruned' ≤ epoch := by
    intro pruned' listed
    simp only [List.mem_cons, MaturityCall.prune.injEq, List.mem_map,
      reduceCtorEq, and_false, exists_false, or_false] at listed
    rwa [listed]
  have recorded :
      (summaries.map MaturityCall.record).foldl perform (store.prune pruned) =
        (store.prune pruned).recordAll summaries := by
    rw [List.foldl_map]
    rfl
  have kept :
      (summaries.map MaturityCall.record).filterMap MaturityCall.summary? =
        summaries := by
    rw [List.filterMap_map]
    exact List.filterMap_some
  have run := weights_performAll store notPast nodeId
  rw [performAll, List.foldl_cons, perform, recorded, List.filterMap_cons,
    MaturityCall.summary?, kept] at run
  exact run

/-- A node that was fully up in the epochs 0 to 342. -/
def alwaysUp : MaturityStore :=
  new.recordAll
    ((epochsThrough 0 342).map fun epoch =>
      { nodeId := Bytes32.zero
        epochId := epoch
        uptimeWeight := fixedPointBasis })

/-- Pruned at epoch 400, the store forgets 56 epochs that no window reads. -/
theorem weights_prune_alwaysUp :
    (400 : UInt64) ≤ 401 ∧
      ((alwaysUp.prune 400).recordAll [⟨Bytes32.zero, 401, 7⟩]).maturity
          Bytes32.zero 401 =
        (alwaysUp.recordAll [⟨Bytes32.zero, 401, 7⟩]).maturity
          Bytes32.zero 401 ∧
      ((alwaysUp.prune 400).recordAll [⟨Bytes32.zero, 401, 7⟩]).govWeight
          Bytes32.zero 401 =
        (alwaysUp.recordAll [⟨Bytes32.zero, 401, 7⟩]).govWeight
          Bytes32.zero 401 := by
  have later : (400 : UInt64) ≤ 401 := by
    decide
  exact ⟨later, weights_prune alwaysUp later Bytes32.zero _⟩

/-!
## Full uptime
-/

/-- A node was fully up in every epoch of the window. -/
def FullUptime
    (store : MaturityStore)
    (nodeId : Bytes32)
    (currentEpoch : UInt64) : Prop :=
  ∀ epoch ∈ epochsThrough (saturatingSub currentEpoch wMatureEpochs) currentEpoch,
    store.summaries.lookup (nodeId, epoch) = some fixedPointBasis

/-- The epochs of a range are the ones between its ends. -/
theorem mem_epochsThrough
    {start last epoch : UInt64} :
    epoch ∈ epochsThrough start last ↔ start ≤ epoch ∧ epoch ≤ last := by
  simp only [epochsThrough, List.mem_map, List.mem_range', one_mul,
    UInt64.le_iff_toNat_le]
  constructor
  · rintro ⟨index, ⟨offset, inRange, rfl⟩, rfl⟩
    have notAfter : start.toNat + offset ≤ last.toNat := by omega
    rw [toNat_ofNat_of_le_toNat notAfter]
    omega
  · rintro ⟨notBefore, notAfter⟩
    exact
      ⟨epoch.toNat, ⟨epoch.toNat - start.toNat, by omega, by omega⟩,
        UInt64.ofNat_toNat⟩

/-- A full window has the maturity of 343 epochs at the basis. -/
theorem maturity_of_fullUptime
    (mature : wMatureEpochs ≤ epoch)
    (full : FullUptime store nodeId epoch) :
    (store.maturity nodeId epoch).toNat = 343000000 := by
  have inside : 342 ≤ epoch.toNat := by
    simpa using UInt64.le_iff_toNat_le.mp mature
  have constant :
      ∀ index, epoch.toNat - 342 ≤ index → index ≤ epoch.toNat →
        store.series nodeId index = 1000000 := by
    intro index notBefore notAfter
    have isEpoch := toNat_ofNat_of_le_toNat notAfter
    have inWindow :
        UInt64.ofNat index ∈
          epochsThrough (saturatingSub epoch wMatureEpochs) epoch := by
      rw [mem_epochsThrough, UInt64.le_iff_toNat_le, UInt64.le_iff_toNat_le,
        toNat_saturatingSub, toNat_wMatureEpochs, isEpoch]
      exact ⟨notBefore, notAfter⟩
    rw [series, weightOf, full _ inWindow]
    rfl
  rw [toNat_maturity, toNat_wMatureEpochs,
    windowTotal_const inside constant]
  decide

/-- A full window has a governance weight of 232 millionths. -/
theorem govWeight_of_fullUptime
    (mature : wMatureEpochs ≤ epoch)
    (full : FullUptime store nodeId epoch) :
    store.govWeight nodeId epoch = 232 := by
  rw [← UInt64.toNat_inj, toNat_govWeight,
    maturity_of_fullUptime mature full]
  decide

/-- Larger weights give a larger maturity. -/
theorem maturity_mono
    (below :
      ∀ epoch, store.weightOf nodeId epoch ≤ store'.weightOf nodeId epoch)
    (epoch : UInt64) :
    (store.maturity nodeId epoch).toNat ≤
      (store'.maturity nodeId epoch).toNat := by
  have total :
      windowTotal (store.series nodeId) wMatureEpochs.toNat epoch.toNat ≤
        windowTotal (store'.series nodeId) wMatureEpochs.toNat epoch.toNat :=
    windowTotal_mono fun index => UInt64.le_iff_toNat_le.mp (below _)
  rw [toNat_maturity, toNat_maturity]
  exact min_le_min_right maxU64 total

/-- The weight is the basis exactly for the maturity that counts as full. -/
theorem govWeight_eq_basis_iff :
    store.govWeight nodeId epoch = fixedPointBasis ↔
      wMature ≤ store.maturity nodeId epoch := by
  rw [← UInt64.toNat_inj, toNat_govWeight, UInt64.le_iff_toNat_le,
    toNat_fixedPointBasis, toNat_wMature]
  omega

/--
A node with full uptime in a whole window never has the full governance weight:
its weight is 232, since a maturity counts as full from the weights of 4320 full
heartbeats an epoch on.  The governance weight grows with the recorded weights
and is at most the basis.
-/
theorem fullUptime_not_fullWeight
    (store : MaturityStore)
    (nodeId : Bytes32)
    (epoch : UInt64) :
    (wMatureEpochs ≤ epoch →
        FullUptime store nodeId epoch →
        store.govWeight nodeId epoch ≠ fixedPointBasis ∧
          store.govWeight nodeId epoch = 232) ∧
      (store.govWeight nodeId epoch = fixedPointBasis ↔
        wMature ≤ store.maturity nodeId epoch) ∧
      (∀ store' : MaturityStore,
        (∀ epoch, store.weightOf nodeId epoch ≤ store'.weightOf nodeId epoch) →
        store.govWeight nodeId epoch ≤ store'.govWeight nodeId epoch) ∧
      store.govWeight nodeId epoch ≤ fixedPointBasis := by
  refine ⟨?_, govWeight_eq_basis_iff, ?_, ?_⟩
  · intro mature full
    have weight := govWeight_of_fullUptime mature full
    exact ⟨by rw [weight]; decide, weight⟩
  · intro store' below
    have maturity := maturity_mono below epoch
    rw [UInt64.le_iff_toNat_le, toNat_govWeight, toNat_govWeight]
    omega
  · rw [UInt64.le_iff_toNat_le, toNat_govWeight]
    exact min_le_right _ _

/-- Summaries of one weight record that weight. -/
theorem lookup_recordAll
    {summaries : List EpochWeightSummary}
    {weight : UInt64}
    (sameWeight : ∀ summary ∈ summaries, summary.uptimeWeight = weight)
    {summary : EpochWeightSummary}
    (listed : summary ∈ summaries) :
    (store.recordAll summaries).summaries.lookup
        (summary.nodeId, summary.epochId) =
      some weight := by
  let keyOf (summary : EpochWeightSummary) := (summary.nodeId, summary.epochId)
  have written :
      (store.recordAll summaries).summaries =
        KeyedWrites.writeAll keyOf EpochWeightSummary.uptimeWeight
          store.summaries summaries := by
    clear sameWeight listed
    induction summaries generalizing store with
    | nil =>
        rfl
    | cons first rest inductionHypothesis =>
        exact @inductionHypothesis (store.record first)
  obtain ⟨last, isLast⟩ :
      ∃ last, KeyedWrites.lastFor keyOf (keyOf summary) summaries = some last :=
    KeyedWrites.exists_lastFor listed
  have lastListed := (KeyedWrites.mem_of_lastFor isLast).1
  change (store.recordAll summaries).summaries.lookup (keyOf summary) = _
  rw [written, KeyedWrites.lookup_writeAll, isLast, Option.map_some,
    Option.some_or, sameWeight last lastListed]

/-- The node is fully up over its whole window. -/
theorem fullUptime_alwaysUp :
    FullUptime alwaysUp Bytes32.zero 342 := by
  intro epoch inWindow
  have isStart : saturatingSub 342 wMatureEpochs = 0 := by
    decide
  rw [isStart] at inWindow
  refine
    @lookup_recordAll _ _ _ ?_ ⟨Bytes32.zero, epoch, fixedPointBasis⟩
      (List.mem_map_of_mem inWindow)
  intro summary listed
  obtain ⟨_, _, rfl⟩ := List.mem_map.mp listed
  rfl

/-- It is mature, fully up and has 232 millionths of the weight. -/
theorem govWeight_alwaysUp :
    wMatureEpochs ≤ 342 ∧
      FullUptime alwaysUp Bytes32.zero 342 ∧
        alwaysUp.govWeight Bytes32.zero 342 ≠ fixedPointBasis := by
  have mature : wMatureEpochs ≤ 342 := by
    decide
  refine ⟨mature, fullUptime_alwaysUp, ?_⟩
  rw [govWeight_of_fullUptime mature fullUptime_alwaysUp]
  decide

end MaturityStore

end ScalarCore.Liveness
