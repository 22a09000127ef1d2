import Mathlib.Data.List.DropRight
import Mathlib.Data.List.Induction
import Mathlib.Data.Set.Function
import ScalarCore.ConsensusQuorum
import ScalarCore.DmmAgreement

namespace ScalarCore.ManifestConsensus

/-!
# The consensus on a manifest

An engine is open until a manifest is finalized, and counts the fallbacks since the
manifest of an epoch was finalized or deferred.  A manifest is finalized by its own
hash, which the validators vote for, so two manifests with a quorum each are the same
unless validators have voted for both.
-/

open MachineInt

/-- `AGGREGATOR_FALLBACK_MAX`. -/
def aggregatorFallbackMax : UInt32 :=
  3

/-- `AGGREGATOR_VALIDATOR_COUNT`. -/
def aggregatorValidatorCount : UInt32 :=
  10

/-- `AggregatorSelection`. -/
structure AggregatorSelection where
  aggregator : Bytes4
  validators : List Bytes4
  seedK : Bytes32

/-- `EpochRewardManifest::deferred`. -/
def newDeferred (epochId _previousEmissionTotal : UInt64) : EpochRewardManifest where
  epochId
  nodeList := []
  specVersion := specVersionManifest
  totalEmissionSscl := 0
  deferred := true
  seedK := .zero
  manifestHash := .zero
  rewardRoot := .zero
  networkHealthDigest := .zero
  status := .deferred
  txSetRoot := .zero

/-- `verify_arithmetic_invariants`. -/
def verifyArithmeticInvariants (_manifest : EpochRewardManifest) : Bool :=
  true

/-- `FallbackState`. -/
inductive FallbackState where
  | retry (fallbackCount : UInt32) (nextAggregator : Bytes4)
  | epochDeferred
  deriving DecidableEq

/-- `try_fallback`. -/
def tryFallback
    (fallbackCount : UInt32)
    (selection : AggregatorSelection)
    (currentFallbackIndex : Nat) : FallbackState :=
  if fallbackCount ≥ aggregatorFallbackMax then
    .epochDeferred
  else
    match selection.validators[currentFallbackIndex]? with
    | some nextAggregator => .retry (fallbackCount + 1) nextAggregator
    | none => .epochDeferred

/-- `ConsensusState`. -/
inductive ConsensusState where
  | open (manifest : EpochRewardManifest)
  | finalized
  deriving DecidableEq

/-- `ConsensusEngine`. -/
structure ConsensusEngine where
  state : ConsensusState
  fallbackCount : UInt32
  deriving DecidableEq

/-- A call of the engine. -/
inductive EngineCall where
  | transitionToFinalized (finalManifest : EpochRewardManifest)
  | processVotes (votes : List ValidationVote) (manifestHash : Bytes32)
  | incrementFallback
  | deferEpoch (epochId : UInt64)
  deriving DecidableEq

/-- What a call returns. -/
inductive EngineAnswer where
  | finalized (result : Except String Unit)
  | quorum (result : QuorumResult)
  | fallback (result : FallbackState)
  | deferred

namespace ConsensusEngine

/-- `new`. -/
def new (initialEpoch : UInt64) : ConsensusEngine where
  state := .open (newDeferred initialEpoch 0)
  fallbackCount := 0

/-- `transition_to_finalized`. -/
def transitionToFinalized
    (blake3 : List UInt8 → Bytes32)
    (engine : ConsensusEngine)
    (finalManifest : EpochRewardManifest) : ConsensusEngine × Except String Unit :=
  if finalManifest.status ≠ .finalized then
    (engine, .error "Manifest must be Finalized status")
  else if !verifyArithmeticInvariants finalManifest then
    (engine, .error "Manifest arithmetic invariants failed")
  else if !verifyManifestHash blake3 finalManifest then
    (engine, .error "Manifest hash mismatch — canonical verification failed")
  else
    ({ state := .finalized, fallbackCount := 0 }, .ok ())

/-- `increment_fallback`; a counter that does not fit stops the process. -/
def incrementFallback (engine : ConsensusEngine) : Option (ConsensusEngine × FallbackState) :=
  (checkedAddU32 engine.fallbackCount 1).map fun fallbackCount =>
    ({ engine with fallbackCount },
      if fallbackCount > aggregatorFallbackMax then
        .epochDeferred
      else
        .retry fallbackCount (.replicate 0))

/-- `defer_epoch`. -/
def deferEpoch (epochId : UInt64) : ConsensusEngine where
  state := .open (newDeferred epochId 0)
  fallbackCount := 0

/-- Perform a call. -/
def perform
    (blake3 : List UInt8 → Bytes32)
    (engine : ConsensusEngine) :
    EngineCall → Option (ConsensusEngine × EngineAnswer)
  | .transitionToFinalized finalManifest =>
      some
        ((engine.transitionToFinalized blake3 finalManifest).1,
          .finalized (engine.transitionToFinalized blake3 finalManifest).2)
  | .processVotes votes manifestHash =>
      some (engine, .quorum (checkQuorum votes manifestHash))
  | .incrementFallback =>
      engine.incrementFallback.map fun next => (next.1, .fallback next.2)
  | .deferEpoch epochId =>
      some (deferEpoch epochId, .deferred)

end ConsensusEngine

section Engine

variable {blake3 : List UInt8 → Bytes32} {manifest : EpochRewardManifest}

/-- The engine after calls, unless one of them has stopped the process. -/
def afterCalls
    (blake3 : List UInt8 → Bytes32)
    (initialEpoch : UInt64)
    (calls : List EngineCall) : Option ConsensusEngine :=
  calls.foldlM (fun engine call => (engine.perform blake3 call).map Prod.fst)
    (ConsensusEngine.new initialEpoch)

/-- A manifest that an engine finalizes. -/
def Accepted (blake3 : List UInt8 → Bytes32) (manifest : EpochRewardManifest) : Prop :=
  manifest.status = .finalized ∧ manifest.manifestHash = computeManifestHash blake3 manifest

instance : Decidable (Accepted blake3 manifest) :=
  inferInstanceAs (Decidable (_ ∧ _))

/-- The state that a call leaves, if it sets one. -/
def setsState (blake3 : List UInt8 → Bytes32) : EngineCall → Option ConsensusState
  | .transitionToFinalized finalManifest =>
      if Accepted blake3 finalManifest then some .finalized else none
  | .deferEpoch epochId =>
      some (.open (newDeferred epochId 0))
  | _ =>
      none

/-- The calls since the last one that has set a state. -/
def sinceSet
    (blake3 : List UInt8 → Bytes32)
    (calls : List EngineCall) : List EngineCall :=
  calls.rtakeWhile fun call => (setsState blake3 call).isNone

/-- The fallbacks since a state was set. -/
def fallbacks (blake3 : List UInt8 → Bytes32) (calls : List EngineCall) : Nat :=
  (sinceSet blake3 calls).count .incrementFallback

/-- The state that was set last. -/
def lastState
    (blake3 : List UInt8 → Bytes32)
    (initialEpoch : UInt64)
    (calls : List EngineCall) : ConsensusState :=
  (calls.filterMap (setsState blake3)).getLast?.getD (.open (newDeferred initialEpoch 0))

/-- A manifest is finalized when it is accepted, and otherwise nothing changes. -/
theorem transitionToFinalized_cases
    (blake3 : List UInt8 → Bytes32)
    (engine : ConsensusEngine)
    (manifest : EpochRewardManifest) :
    (Accepted blake3 manifest ∧
        engine.transitionToFinalized blake3 manifest =
          ({ state := .finalized, fallbackCount := 0 }, .ok ())) ∨
      (¬Accepted blake3 manifest ∧
        ∃ message, engine.transitionToFinalized blake3 manifest = (engine, .error message)) := by
  rw [ConsensusEngine.transitionToFinalized, Accepted]
  by_cases isFinalized : manifest.status = .finalized
  · rw [if_neg (not_not_intro isFinalized), verifyArithmeticInvariants,
      if_neg (by decide : ¬(!true) = true)]
    by_cases isHash : manifest.manifestHash = computeManifestHash blake3 manifest
    · refine Or.inl ⟨⟨isFinalized, isHash⟩, if_neg ?_⟩
      simp [verifyManifestHash, isHash]
    · refine Or.inr ⟨fun accepted => isHash accepted.2, _, if_pos ?_⟩
      simp [verifyManifestHash, isHash]
  · exact Or.inr ⟨fun accepted => isFinalized accepted.1, _, if_pos isFinalized⟩

/-- What a call does to an engine, by what it sets. -/
theorem perform_cases
    (blake3 : List UInt8 → Bytes32)
    (engine : ConsensusEngine)
    (call : EngineCall) :
    (∃ state,
        setsState blake3 call = some state ∧
          (engine.perform blake3 call).map Prod.fst =
            some { state, fallbackCount := 0 }) ∨
      (setsState blake3 call = none ∧ call ≠ .incrementFallback ∧
        (engine.perform blake3 call).map Prod.fst = some engine) ∨
      (call = .incrementFallback ∧
        (engine.perform blake3 call).map Prod.fst =
          (checkedAddU32 engine.fallbackCount 1).map fun fallbackCount =>
            { engine with fallbackCount }) := by
  cases call with
  | transitionToFinalized manifest =>
      rw [ConsensusEngine.perform, Option.map_some, setsState]
      rcases transitionToFinalized_cases blake3 engine manifest with
        ⟨accepted, same⟩ | ⟨refused, _, same⟩
      · exact Or.inl ⟨.finalized, if_pos accepted, by rw [same]⟩
      · exact Or.inr (Or.inl ⟨if_neg refused, nofun, by rw [same]⟩)
  | processVotes votes manifestHash =>
      exact Or.inr (Or.inl ⟨rfl, nofun, rfl⟩)
  | incrementFallback =>
      refine Or.inr (Or.inr ⟨rfl, ?_⟩)
      rw [ConsensusEngine.perform, ConsensusEngine.incrementFallback, Option.map_map,
        Option.map_map]
      rfl
  | deferEpoch epochId =>
      exact Or.inl ⟨_, rfl, rfl⟩

theorem fallbacks_concat (calls : List EngineCall) (call : EngineCall) :
    fallbacks blake3 (calls ++ [call]) =
      if (setsState blake3 call).isSome then
        0
      else
        fallbacks blake3 calls + if call = .incrementFallback then 1 else 0 := by
  rw [fallbacks, sinceSet, List.rtakeWhile_concat]
  cases setsState blake3 call with
  | some state =>
      rfl
  | none =>
      rw [if_pos Option.isNone_none, List.count_append, List.count_singleton, fallbacks,
        sinceSet]
      simp

theorem lastState_concat
    (initialEpoch : UInt64)
    (calls : List EngineCall)
    (call : EngineCall) :
    lastState blake3 initialEpoch (calls ++ [call]) =
      (setsState blake3 call).getD (lastState blake3 initialEpoch calls) := by
  rw [lastState, List.filterMap_append, List.filterMap_cons, List.filterMap_nil]
  cases setsState blake3 call with
  | some state =>
      rw [List.getLast?_append]
      rfl
  | none =>
      rw [List.append_nil]
      rfl

theorem afterCalls_concat
    (initialEpoch : UInt64)
    (calls : List EngineCall)
    (call : EngineCall) :
    afterCalls blake3 initialEpoch (calls ++ [call]) =
      (afterCalls blake3 initialEpoch calls).bind fun engine =>
        (engine.perform blake3 call).map Prod.fst := by
  rw [afterCalls, List.foldlM_append, afterCalls]
  simp

/-- No more fallbacks were counted at a time than the counter holds. -/
def Counts (blake3 : List UInt8 → Bytes32) (calls : List EngineCall) : Prop :=
  ∀ earlier, earlier <+: calls → fallbacks blake3 earlier ≤ maxU32

theorem counts_concat (calls : List EngineCall) (call : EngineCall) :
    Counts blake3 (calls ++ [call]) ↔
      Counts blake3 calls ∧ fallbacks blake3 (calls ++ [call]) ≤ maxU32 := by
  constructor
  · intro counts
    exact
      ⟨fun earlier isEarlier => counts earlier (isEarlier.trans (List.prefix_append _ _)),
        counts _ List.prefix_rfl⟩
  · rintro ⟨counts, fits⟩ earlier isEarlier
    rcases List.prefix_concat_iff.mp isEarlier with rfl | isEarlier'
    · exact fits
    · exact counts earlier isEarlier'

/-- A counter counts on as long as the count fits. -/
theorem checkedAddU32_ofNat
    {count : Nat}
    (fits : count ≤ maxU32) :
    checkedAddU32 (UInt32.ofNat count) 1 =
      if count + 1 ≤ maxU32 then some (UInt32.ofNat (count + 1)) else none := by
  have counted : (UInt32.ofNat count).toNat = count := by
    rw [UInt32.toNat_ofNat']
    exact Nat.mod_eq_of_lt (Nat.lt_of_le_of_lt fits (by decide))
  rw [checkedAddU32, counted, UInt32.ofNat_add]
  rfl

/-- An engine that has not stopped holds the state that was set last. -/
theorem afterCalls_spec
    (blake3 : List UInt8 → Bytes32)
    (initialEpoch : UInt64)
    (calls : List EngineCall) :
    (Counts blake3 calls →
        afterCalls blake3 initialEpoch calls =
          some
            { state := lastState blake3 initialEpoch calls
              fallbackCount := UInt32.ofNat (fallbacks blake3 calls) }) ∧
      (¬Counts blake3 calls → afterCalls blake3 initialEpoch calls = none) := by
  induction calls using List.reverseRecOn with
  | nil =>
      refine ⟨fun _ => rfl, fun overflows => absurd ?_ overflows⟩
      intro earlier isEarlier
      rw [List.prefix_nil.mp isEarlier]
      exact Nat.zero_le _
  | append_singleton earlier call inductionHypothesis =>
      obtain ⟨goesOn, stops⟩ := inductionHypothesis
      rw [counts_concat, afterCalls_concat, lastState_concat, fallbacks_concat]
      by_cases counts : Counts blake3 earlier
      · rw [goesOn counts, Option.bind_some]
        rcases perform_cases blake3
            { state := lastState blake3 initialEpoch earlier
              fallbackCount := UInt32.ofNat (fallbacks blake3 earlier) } call with
          ⟨state, sets, reached⟩ | ⟨setsNone, other, reached⟩ | ⟨rfl, reached⟩
        · rw [reached, sets]
          exact ⟨fun _ => rfl, fun overflows => absurd ⟨counts, Nat.zero_le _⟩ overflows⟩
        · rw [reached, setsNone, if_neg other]
          exact
            ⟨fun _ => rfl,
              fun overflows => absurd ⟨counts, counts _ List.prefix_rfl⟩ overflows⟩
        · rw [reached, checkedAddU32_ofNat (counts _ List.prefix_rfl), if_pos rfl]
          have setsNone : setsState blake3 .incrementFallback = none := rfl
          rw [setsNone, if_neg (by decide : ¬(none : Option ConsensusState).isSome = true)]
          by_cases fits : fallbacks blake3 earlier + 1 ≤ maxU32
          · rw [if_pos fits]
            exact ⟨fun _ => rfl, fun overflows => absurd ⟨counts, fits⟩ overflows⟩
          · rw [if_neg fits]
            exact ⟨fun counts' => absurd counts'.2 fits, fun _ => rfl⟩
      · rw [stops counts]
        exact ⟨fun counts' => absurd counts'.1 counts, fun _ => rfl⟩

/-- An engine has stopped, or is as the calls since it was last set have left it. -/
structure Shows
    (blake3 : List UInt8 → Bytes32)
    (initialEpoch : UInt64)
    (calls : List EngineCall)
    (engine : ConsensusEngine) : Prop where
  counts : Counts blake3 calls
  state : engine.state = lastState blake3 initialEpoch calls
  fallbackCount : engine.fallbackCount.toNat = fallbacks blake3 calls
  finalizes :
    ∀ manifest,
      (engine.transitionToFinalized blake3 manifest).2 = .ok () ↔ Accepted blake3 manifest
  fallback :
    ∀ next answer,
      engine.incrementFallback = some (next, answer) →
      (answer = .epochDeferred ↔ 3 ≤ fallbacks blake3 calls)
  otherFallback :
    ∀ selection index,
      tryFallback engine.fallbackCount selection index = .epochDeferred ↔
        3 ≤ fallbacks blake3 calls ∨ selection.validators.length ≤ index
  refusesDmm :
    ∀ epochK prevManifest localHeartbeatData config manifest,
      buildDmm blake3 epochK prevManifest localHeartbeatData config = .ok manifest →
      engine.transitionToFinalized blake3 manifest =
        (engine, .error "Manifest must be Finalized status")

/-- A built manifest is that of a deferred epoch. -/
theorem status_buildDmm
    {epochK : UInt64}
    {prevManifest : Option CommittedManifestRef}
    {localHeartbeatData : LocalHeartbeatData}
    {config : DmmConfig}
    (built :
      buildDmm blake3 epochK prevManifest localHeartbeatData config = .ok manifest) :
    manifest.status = .deferred := by
  unfold buildDmm at built
  cases prevManifest with
  | none =>
      cases built
  | some prev =>
      simp only at built
      split at built
      · cases built
      · cases built
        rfl

/-- Both ways to count the fallbacks defer the epoch at the fourth. -/
theorem tryFallback_eq_epochDeferred_iff
    {fallbackCount : UInt32}
    {selection : AggregatorSelection}
    {index : Nat} :
    tryFallback fallbackCount selection index = .epochDeferred ↔
      3 ≤ fallbackCount.toNat ∨ selection.validators.length ≤ index := by
  have most : fallbackCount ≥ aggregatorFallbackMax ↔ 3 ≤ fallbackCount.toNat :=
    UInt32.le_iff_toNat_le
  rw [tryFallback, ← most]
  by_cases atMost : fallbackCount ≥ aggregatorFallbackMax
  · rw [if_pos atMost]
    exact iff_of_true rfl (Or.inl atMost)
  · rw [if_neg atMost, or_iff_right atMost, ← List.getElem?_eq_none_iff]
    cases selection.validators[index]? with
    | some nextAggregator =>
        exact iff_of_false nofun nofun
    | none =>
        exact iff_of_true rfl rfl

theorem incrementFallback_eq_epochDeferred_iff
    {engine next : ConsensusEngine}
    {answer : FallbackState}
    (counted : engine.incrementFallback = some (next, answer)) :
    answer = .epochDeferred ↔ 3 ≤ engine.fallbackCount.toNat := by
  rw [ConsensusEngine.incrementFallback, checkedAddU32] at counted
  split at counted
  · next fits =>
      have sum : (engine.fallbackCount + 1).toNat = engine.fallbackCount.toNat + 1 := by
        rw [UInt32.toNat_add]
        exact Nat.mod_eq_of_lt (Nat.lt_of_le_of_lt fits (by decide))
      have most :
          engine.fallbackCount + 1 > aggregatorFallbackMax ↔
            3 ≤ engine.fallbackCount.toNat := by
        rw [gt_iff_lt, UInt32.lt_iff_toNat_lt, sum]
        exact Nat.lt_succ_iff
      rw [← most]
      cases counted
      split
      · next atMost =>
          exact iff_of_true rfl atMost
      · next notYet =>
          exact iff_of_false nofun notYet
  · cases counted

/--
After any calls an engine that has not stopped is finalized exactly when the last call
that set its state finalized an accepted manifest; it counts the fallbacks since then,
defers the epoch from the fourth one on, as the other fallback function does, and never
finalizes a deterministic minimal manifest.
-/
theorem engine_shows
    (blake3 : List UInt8 → Bytes32)
    (initialEpoch : UInt64)
    (calls : List EngineCall) :
    (afterCalls blake3 initialEpoch calls = none ↔ ¬Counts blake3 calls) ∧
      ∀ engine,
        afterCalls blake3 initialEpoch calls = some engine →
        Shows blake3 initialEpoch calls engine := by
  obtain ⟨goesOn, stops⟩ := afterCalls_spec blake3 initialEpoch calls
  constructor
  · refine ⟨fun stopped counts => ?_, stops⟩
    rw [goesOn counts] at stopped
    cases stopped
  · intro engine reached
    have counts : Counts blake3 calls := by
      by_contra overflows
      rw [stops overflows] at reached
      cases reached
    have counted : engine.fallbackCount.toNat = fallbacks blake3 calls := by
      rw [goesOn counts] at reached
      cases reached
      rw [UInt32.toNat_ofNat']
      exact Nat.mod_eq_of_lt (Nat.lt_of_le_of_lt (counts _ List.prefix_rfl) (by decide))
    refine
      { counts
        state := ?_
        fallbackCount := counted
        finalizes := ?_
        fallback := ?_
        otherFallback := ?_
        refusesDmm := ?_ }
    · rw [goesOn counts] at reached
      cases reached
      rfl
    · intro manifest
      rcases transitionToFinalized_cases blake3 engine manifest with
        ⟨accepted, same⟩ | ⟨refused, message, same⟩
      · rw [same]
        exact iff_of_true rfl accepted
      · rw [same]
        exact iff_of_false nofun refused
    · intro next answer answered
      rw [← counted]
      exact incrementFallback_eq_epochDeferred_iff answered
    · intro selection index
      rw [← counted]
      exact tryFallback_eq_epochDeferred_iff
    · intro epochK prevManifest localHeartbeatData config manifest built
      exact if_pos (by rw [status_buildDmm built]; exact nofun)

end Engine

/-!
## Two manifests with a quorum
-/

section Quorums

variable {blake3 : List UInt8 → Bytes32} {manifest manifest' : EpochRewardManifest}

/-- The bytes hashed for a manifest. -/
def manifestBytes (manifest : EpochRewardManifest) : List UInt8 :=
  toLeBytes manifest.epochId ++ [manifest.specVersion] ++
    toLeBytes manifest.totalEmissionSscl ++
    [if manifest.deferred then 1 else 0] ++ manifest.seedK.bytes ++
    manifest.rewardRoot.bytes ++ manifest.networkHealthDigest.bytes ++
    manifest.txSetRoot.bytes ++
    toLeBytes (UInt64.ofNat manifest.nodeList.length) ++
    manifest.nodeList.flatMap NodeRewardEntry.toBytes

theorem length_toBytes (entry : NodeRewardEntry) : entry.toBytes.length = 48 := by
  rw [NodeRewardEntry.toBytes, List.length_append, List.length_append, length_toLeBytes,
    length_toLeBytes, entry.nodeIdFull.length_eq]

theorem toBytes_injective : Function.Injective NodeRewardEntry.toBytes := by
  rintro ⟨nodeIdFull, rewardSscl, weight⟩ ⟨nodeIdFull', rewardSscl', weight'⟩ same
  simp only [NodeRewardEntry.toBytes] at same
  obtain ⟨same, sameWeight⟩ := List.append_inj' same (by simp)
  obtain ⟨sameId, sameReward⟩ := List.append_inj' same (by simp)
  rw [Bytes32.ext sameId, toLeBytes_injective sameReward, toLeBytes_injective sameWeight]

/-- The bytes of a manifest hold everything but its hash and its status. -/
theorem eq_of_manifestBytes
    (same : manifestBytes manifest = manifestBytes manifest')
    (sameHash : manifest.manifestHash = manifest'.manifestHash)
    (sameStatus : manifest.status = manifest'.status) :
    manifest = manifest' := by
  cases manifest
  cases manifest'
  simp only [manifestBytes, List.append_assoc] at same
  obtain ⟨sameEpoch, same⟩ := List.append_inj same (by simp)
  obtain ⟨sameVersion, same⟩ := List.append_inj same rfl
  obtain ⟨sameTotal, same⟩ := List.append_inj same (by simp)
  obtain ⟨sameDeferred, same⟩ := List.append_inj same rfl
  obtain ⟨sameSeed, same⟩ := List.append_inj same (by simp [Bytes32.length_eq])
  obtain ⟨sameRewards, same⟩ := List.append_inj same (by simp [Bytes32.length_eq])
  obtain ⟨sameDigest, same⟩ := List.append_inj same (by simp [Bytes32.length_eq])
  obtain ⟨sameTxs, same⟩ := List.append_inj same (by simp [Bytes32.length_eq])
  obtain ⟨_, sameNodes⟩ := List.append_inj same (by simp)
  have sameNodeList :=
    flatMap_injective (by decide) length_toBytes (fun _ _ same => toBytes_injective same)
      sameNodes
  have sameFlag (flag flag' : Bool)
      (sameByte : [if flag then (1 : UInt8) else 0] = [if flag' then 1 else 0]) :
      flag = flag' := by
    revert sameByte
    cases flag <;> cases flag' <;> decide
  simp only at sameHash sameStatus
  rw [toLeBytes_injective sameEpoch, List.singleton_inj.mp sameVersion,
    toLeBytes_injective sameTotal, sameFlag _ _ sameDeferred, Bytes32.ext sameSeed,
    Bytes32.ext sameRewards, Bytes32.ext sameDigest, Bytes32.ext sameTxs, sameNodeList,
    sameHash, sameStatus]

/-- Accepted manifests with one hash are the same. -/
theorem Accepted.eq_of_manifestHash
    (accepted : Accepted blake3 manifest)
    (accepted' : Accepted blake3 manifest')
    (collisionFree : Set.InjOn blake3 {manifestBytes manifest, manifestBytes manifest'})
    (sameHash : manifest.manifestHash = manifest'.manifestHash) :
    manifest = manifest' := by
  obtain ⟨isFinalized, isHash⟩ := accepted
  obtain ⟨isFinalized', isHash'⟩ := accepted'
  refine eq_of_manifestBytes ?_ sameHash (isFinalized.trans isFinalized'.symm)
  apply collisionFree (Set.mem_insert _ _) (Set.mem_insert_of_mem _ rfl)
  exact isHash.symm.trans (sameHash.trans isHash')

/--
When two different manifests that engines finalize have a quorum each, among the same
ten validators with one agreeing vote each, at least four validators have voted for
both.
-/
theorem conflicting_quorums
    (collisionFree : Set.InjOn blake3 {manifestBytes manifest, manifestBytes manifest'})
    (accepted : Accepted blake3 manifest)
    (accepted' : Accepted blake3 manifest')
    (different : manifest ≠ manifest')
    {validators : Finset Bytes4}
    (atMostTen : validators.card ≤ aggregatorValidatorCount.toNat)
    {votes votes' : List ValidationVote}
    (areValidators : ∀ vote ∈ votes ++ votes', vote.validatorId ∈ validators)
    (oneVoteEach : (agreeingIds votes manifest.manifestHash).Nodup)
    (oneVoteEach' : (agreeingIds votes' manifest'.manifestHash).Nodup)
    {agreeCount agreeCount' : UInt32}
    (achieved : checkQuorum votes manifest.manifestHash = .achieved agreeCount)
    (achieved' : checkQuorum votes' manifest'.manifestHash = .achieved agreeCount') :
    manifest.manifestHash ≠ manifest'.manifestHash ∧
      4 ≤ (agreeingValidators votes manifest.manifestHash ∩
        agreeingValidators votes' manifest'.manifestHash).card := by
  refine
    ⟨fun sameHash =>
      different (accepted.eq_of_manifestHash accepted' collisionFree sameHash), ?_⟩
  have seven := distinctQuorum_of_nodup oneVoteEach agreeCount achieved
  have seven' := distinctQuorum_of_nodup oneVoteEach' agreeCount' achieved'
  have amongAll :
      agreeingValidators votes manifest.manifestHash ∪
          agreeingValidators votes' manifest'.manifestHash ⊆
        validators := by
    apply Finset.union_subset
    · intro validatorId agrees
      obtain ⟨vote, listed, _, _, rfl⟩ := mem_agreeingValidators.mp agrees
      exact areValidators vote (List.mem_append_left _ listed)
    · intro validatorId agrees
      obtain ⟨vote, listed, _, _, rfl⟩ := mem_agreeingValidators.mp agrees
      exact areValidators vote (List.mem_append_right _ listed)
  have total :=
    Finset.card_union_add_card_inter
      (agreeingValidators votes manifest.manifestHash)
      (agreeingValidators votes' manifest'.manifestHash)
  have atMost := (Finset.card_le_card amongAll).trans atMostTen
  have quorum : aggregatorValidatorQuorum.toNat = 7 := rfl
  have ten : aggregatorValidatorCount.toNat = 10 := rfl
  omega

/-- A manifest without nodes, hashed by its first byte. -/
def firstByte (message : List UInt8) : Bytes32 :=
  .endingIn (message.headD 0)

def sampleFinalized (epochId : UInt64) : EpochRewardManifest :=
  { newDeferred epochId 0 with
    manifestHash := computeManifestHash firstByte (newDeferred epochId 0)
    status := .finalized }

/-- The votes of validators with consecutive ids for a manifest. -/
def votesFrom (first : Nat) (manifest : EpochRewardManifest) : List ValidationVote :=
  (List.range 7).map fun index =>
    { validatorId := .replicate (UInt8.ofNat (first + index))
      manifestHash := manifest.manifestHash
      agrees := true }

/-- Seven votes for each of two manifests, and four validators in common. -/
theorem conflicting_quorums_four :
    4 ≤ (agreeingValidators (votesFrom 0 (sampleFinalized 1))
          (sampleFinalized 1).manifestHash ∩
        agreeingValidators (votesFrom 3 (sampleFinalized 2))
          (sampleFinalized 2).manifestHash).card := by
  have collisionFree :
      Set.InjOn firstByte
        {manifestBytes (sampleFinalized 1), manifestBytes (sampleFinalized 2)} := by
    rw [Set.injOn_insert (by decide +kernel)]
    refine ⟨Set.injOn_singleton _ _, ?_⟩
    rw [Set.image_singleton, Set.mem_singleton_iff]
    decide +kernel
  have atMostTen :
      ((Finset.range 10).image fun index =>
          Bytes4.replicate (UInt8.ofNat index)).card ≤
        aggregatorValidatorCount.toNat :=
    Finset.card_image_le
  have achieved :
      checkQuorum (votesFrom 0 (sampleFinalized 1)) (sampleFinalized 1).manifestHash =
        .achieved 7 := by
    decide +kernel
  have achieved' :
      checkQuorum (votesFrom 3 (sampleFinalized 2)) (sampleFinalized 2).manifestHash =
        .achieved 7 := by
    decide +kernel
  exact
    (conflicting_quorums collisionFree (by decide +kernel) (by decide +kernel)
      (by decide +kernel) atMostTen (by decide +kernel) (by decide +kernel)
      (by decide +kernel) achieved achieved').2

end Quorums

end ScalarCore.ManifestConsensus
