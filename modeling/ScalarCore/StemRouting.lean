import ScalarCore.Bytes
import ScalarCore.MachineInt
import Mathlib.Data.Int.CardIntervalMod
import Mathlib.Data.Nat.Count

namespace ScalarCore

/-!
# Routing of the stem

A message is forwarded to one peer at a time before it is broadcast to all.  The choice is
made by a hash of the transaction and the hop, which loses nothing: for every hop it only
rearranges the words.  So exactly so many transactions are broadcast at a hop as there are
words with a small remainder, and each peer is chosen for as many as any other, up to one.
-/

open MachineInt

/-- `STEM_TO_FLUFF_PROB_PERCENT`. -/
def stemToFluffProbPercent : UInt64 :=
  10

/-- `MAX_STEM_HOPS`. -/
def maxStemHops : UInt64 :=
  10

/-- `DANDELION_REDUCED_STEM_PROB_FP`. -/
def dandelionReducedStemProbFp : UInt64 :=
  700000

/-- `DANDELION_FP_BASIS`. -/
def dandelionFpBasis : UInt64 :=
  1000000

/-- The domain of the choice of a peer. -/
def domainStemSel : List UInt8 :=
  asciiBytes "scalar_stem_sel"

/-- `DandelionPhase`. -/
inductive DandelionPhase where
  | stem (hopsRemaining : UInt64)
  | fluff
  deriving DecidableEq

/-- `DandelionPhase::new_stem`. -/
def DandelionPhase.newStem : DandelionPhase :=
  .stem maxStemHops

/-- `RoutingDecision`; `usize` has 64 bits. -/
inductive RoutingDecision where
  | forwardStem (nextPeerIdx : Nat)
  | broadcast
  deriving DecidableEq

/-- `simple_hash`. -/
def simpleHash (a b : UInt64) : UInt64 :=
  let h := (14695981039346656037 ^^^ a) * 1099511628211
  (h ^^^ b) * 1099511628211

/-- `decide_stem_routing`; none where it overflows. -/
def decideStemRouting
    (phase : DandelionPhase)
    (txId hopCount : UInt64)
    (numPeers : Nat) : Option RoutingDecision :=
  match phase with
  | .fluff =>
      some .broadcast
  | .stem hopsRemaining =>
      if hopsRemaining = 0 ∨ numPeers = 0 then
        some .broadcast
      else
        let pseudoRand := simpleHash txId hopCount % 100
        if pseudoRand < stemToFluffProbPercent then
          some .broadcast
        else do
          let nextHop ← checkedAdd hopCount 1
          let peerIdx := (simpleHash txId nextHop).toNat % numPeers
          some (.forwardStem peerIdx)

/-- `advance_stem_phase`. -/
def advanceStemPhase : DandelionPhase → DandelionPhase
  | .stem hopsRemaining =>
      if hopsRemaining = 0 then
        .fluff
      else
        .stem (hopsRemaining - 1)
  | .fluff =>
      .fluff

/-- What the choice of a peer hashes. -/
def stemHash (blake3 : List UInt8 → Bytes32) (txId seed : UInt64) : Bytes32 :=
  blake3 (domainStemSel ++ toLeBytes txId ++ toLeBytes seed)

/-- `select_stem_peer_blake3`. -/
def selectStemPeerBlake3
    (blake3 : List UInt8 → Bytes32)
    (txId epochSeed : UInt64)
    (numPeers : Nat) : Nat :=
  if numPeers = 0 then
    0
  else
    (fromLeBytes ((stemHash blake3 txId epochSeed).bytes.take 8)).toNat % numPeers

/-- `decide_reduced_routing`. -/
def decideReducedRouting
    (blake3 : List UInt8 → Bytes32)
    (txId nonce : UInt64)
    (numPeers : Nat) : RoutingDecision :=
  if numPeers = 0 then
    .broadcast
  else
    let randFp :=
      fromLeBytes (((stemHash blake3 txId nonce).bytes.drop 8).take 8) % dandelionFpBasis
    if randFp < dandelionReducedStemProbFp then
      .forwardStem (selectStemPeerBlake3 blake3 txId nonce numPeers)
    else
      .broadcast

section Hash

/-- Undoes the hash. -/
def simpleUnhash (hashed b : UInt64) : UInt64 :=
  (hashed * 14886173955864302971 ^^^ b) * 14886173955864302971 ^^^ 14695981039346656037

/-- Each round of the hash is undone. -/
theorem simpleUnhash_simpleHash (a b : UInt64) : simpleUnhash (simpleHash a b) b = a := by
  have inverse : (1099511628211 : UInt64) * 14886173955864302971 = 1 := by decide
  rw [simpleUnhash, simpleHash, UInt64.mul_assoc _ 1099511628211, inverse, UInt64.mul_one,
    UInt64.xor_assoc _ b, UInt64.xor_self, UInt64.xor_zero, UInt64.mul_assoc, inverse,
    UInt64.mul_one, UInt64.xor_comm 14695981039346656037, UInt64.xor_assoc, UInt64.xor_self,
    UInt64.xor_zero]

/-- Each word is the hash of one. -/
theorem simpleHash_simpleUnhash (hashed b : UInt64) :
    simpleHash (simpleUnhash hashed b) b = hashed := by
  have inverse : (14886173955864302971 : UInt64) * 1099511628211 = 1 := by decide
  rw [simpleHash, simpleUnhash, UInt64.xor_comm _ 14695981039346656037, ← UInt64.xor_assoc,
    UInt64.xor_self, UInt64.zero_xor, UInt64.mul_assoc _ 14886173955864302971, inverse,
    UInt64.mul_one, UInt64.xor_assoc _ b, UInt64.xor_self, UInt64.xor_zero, UInt64.mul_assoc,
    inverse, UInt64.mul_one]

/-- As many words have a hash with a property as there are words with it. -/
theorem card_filter_simpleHash
    (holds : Nat → Prop)
    [DecidablePred holds]
    (b : UInt64) :
    ((Finset.range UInt64.size).filter fun txId =>
        holds (simpleHash (UInt64.ofNat txId) b).toNat).card =
      Nat.count holds UInt64.size := by
  have word (value : Nat) (inRange : value < UInt64.size) : (UInt64.ofNat value).toNat = value :=
    UInt64.toNat_ofNat_of_lt' inRange
  rw [Nat.count_eq_card_filter_range]
  refine Finset.card_nbij' (fun txId => (simpleHash (UInt64.ofNat txId) b).toNat)
    (fun hashed => (simpleUnhash (UInt64.ofNat hashed) b).toNat) ?_ ?_ ?_ ?_
  · intro txId listed
    rw [Finset.mem_coe, Finset.mem_filter] at listed ⊢
    exact ⟨Finset.mem_range.mpr (UInt64.toNat_lt_size _), listed.2⟩
  · intro hashed listed
    rw [Finset.mem_coe, Finset.mem_filter, Finset.mem_range] at listed ⊢
    refine ⟨UInt64.toNat_lt_size _, ?_⟩
    rw [UInt64.ofNat_toNat, simpleHash_simpleUnhash, word hashed listed.1]
    exact listed.2
  · intro txId listed
    rw [Finset.mem_coe, Finset.mem_filter, Finset.mem_range] at listed
    dsimp only
    rw [UInt64.ofNat_toNat, simpleUnhash_simpleHash, word txId listed.1]
  · intro hashed listed
    rw [Finset.mem_coe, Finset.mem_filter, Finset.mem_range] at listed
    dsimp only
    rw [UInt64.ofNat_toNat, simpleHash_simpleUnhash, word hashed listed.1]

/-- A property of remainders is counted period by period. -/
theorem count_periods
    {holds : Nat → Prop}
    [DecidablePred holds]
    {period : Nat}
    (periodic : ∀ value, holds (period + value) ↔ holds value)
    (periods rest : Nat) :
    Nat.count holds (period * periods + rest) =
      periods * Nat.count holds period + Nat.count holds rest := by
  induction periods with
  | zero =>
      rw [Nat.mul_zero, Nat.zero_add, Nat.zero_mul, Nat.zero_add]
  | succ periods inductionHypothesis =>
      have first :
          period * (periods + 1) + rest = period + (period * periods + rest) := by
        rw [Nat.mul_succ]
        omega
      rw [first, Nat.count_add]
      simp only [periodic]
      rw [inductionHypothesis, Nat.succ_mul]
      omega

/-- Ten in a hundred words have a small remainder, and those of the last hundred. -/
theorem count_small_remainder :
    Nat.count (fun value => value % 100 < 10) UInt64.size = 1844674407370955170 := by
  have split : UInt64.size = 100 * 184467440737095516 + 16 := by decide
  rw [split, count_periods fun value => by rw [Nat.add_mod_left]]
  have full : Nat.count (fun value => value % 100 < 10) 100 = 10 := by decide
  have last : Nat.count (fun value => value % 100 < 10) 16 = 10 := by decide
  rw [full, last]

/-- A remainder is that of as many words as any other, up to one. -/
theorem count_remainder
    {numPeers peer : Nat}
    (isPeer : peer < numPeers) :
    UInt64.size / numPeers ≤ Nat.count (fun value => value % numPeers = peer) UInt64.size ∧
      Nat.count (fun value => value % numPeers = peer) UInt64.size ≤
        UInt64.size / numPeers + 1 := by
  have positive : 0 < numPeers := Nat.zero_lt_of_lt isPeer
  have counted := Nat.count_modEq_card UInt64.size positive peer
  have same :
      (fun value => value % numPeers = peer) = fun value => value ≡ peer [MOD numPeers] := by
    funext value
    rw [Nat.ModEq, Nat.mod_eq_of_lt isPeer]
  simp only [same]
  rw [counted]
  split <;> omega

end Hash

section Phases

variable {hops hopCount txId : UInt64} {numPeers : Nat} {phase : DandelionPhase}

/-- The phase after some hops. -/
theorem iterate_advanceStemPhase (forwards : Nat) (hops : UInt64) :
    advanceStemPhase^[forwards] (.stem hops) =
      if forwards ≤ hops.toNat then
        .stem (UInt64.ofNat (hops.toNat - forwards))
      else
        .fluff := by
  induction forwards generalizing hops with
  | zero =>
      rw [if_pos (Nat.zero_le _), Nat.sub_zero, UInt64.ofNat_toNat]
      rfl
  | succ forwards inductionHypothesis =>
      rw [Function.iterate_succ_apply, advanceStemPhase]
      by_cases isLast : hops = 0
      · rw [if_pos isLast, isLast, UInt64.toNat_zero, if_neg (Nat.not_succ_le_zero _)]
        exact Function.iterate_fixed rfl forwards
      · have positive : 1 ≤ hops.toNat := Nat.pos_of_ne_zero fun isZero =>
          isLast (UInt64.toNat_inj.mp isZero)
        have fewer : (hops - 1).toNat = hops.toNat - 1 :=
          UInt64.toNat_sub_of_le _ _ (UInt64.le_iff_toNat_le.mpr positive)
        rw [if_neg isLast, inductionHypothesis, fewer, Nat.sub_sub, Nat.add_comm 1]
        exact if_congr (Nat.le_sub_iff_add_le positive) rfl rfl

example : advanceStemPhase^[10] .newStem = .stem 0 := by
  decide

/-- A message is broadcast when its hops are used up. -/
theorem decideStemRouting_of_le
    {forwards : Nat}
    (usedUp : hops.toNat ≤ forwards) :
    decideStemRouting (advanceStemPhase^[forwards] (.stem hops)) txId hopCount numPeers =
      some .broadcast := by
  rw [iterate_advanceStemPhase]
  split
  · rename_i within
    rw [Nat.sub_eq_zero_of_le usedUp]
    rfl
  · rfl

/-- While hops are left and there are peers, a message is broadcast by its hash. -/
theorem decideStemRouting_eq_broadcast_iff
    {forwards : Nat}
    (left : forwards < hops.toNat)
    (somePeers : 0 < numPeers) :
    decideStemRouting (advanceStemPhase^[forwards] (.stem hops)) txId hopCount numPeers =
        some .broadcast ↔
      (simpleHash txId hopCount).toNat % 100 < 10 := by
  have remaining : UInt64.ofNat (hops.toNat - forwards) ≠ 0 := by
    have exact : (UInt64.ofNat (hops.toNat - forwards)).toNat = hops.toNat - forwards :=
      toNat_ofNat_of_le ((Nat.sub_le _ _).trans (toNat_le_maxU64 hops))
    intro isZero
    rw [isZero, UInt64.toNat_zero] at exact
    omega
  have small :
      simpleHash txId hopCount % 100 < stemToFluffProbPercent ↔
        (simpleHash txId hopCount).toNat % 100 < 10 := by
    rw [UInt64.lt_iff_toNat_lt, UInt64.toNat_mod]
    rfl
  rw [iterate_advanceStemPhase, if_pos left.le, decideStemRouting,
    if_neg (not_or.mpr ⟨remaining, somePeers.ne'⟩), ← small]
  dsimp only
  split
  · rename_i isSmall
    exact iff_of_true rfl isSmall
  · rename_i isLarge
    refine iff_of_false (fun broadcast => ?_) isLarge
    obtain ⟨_, _, forwarded⟩ := Option.bind_eq_some_iff.mp broadcast
    cases forwarded

/-- A message is forwarded to one of the peers, while hops are left. -/
theorem forwardStem_cases
    {peer : Nat}
    (forwarded : decideStemRouting phase txId hopCount numPeers = some (.forwardStem peer)) :
    (∃ hops, phase = .stem hops ∧ hops ≠ 0) ∧
      ∃ nextHop,
        checkedAdd hopCount 1 = some nextHop ∧ 0 < numPeers ∧
          peer = (simpleHash txId nextHop).toNat % numPeers := by
  cases phase with
  | fluff =>
      cases forwarded
  | stem hops =>
      rw [decideStemRouting] at forwarded
      split at forwarded
      · cases forwarded
      · rename_i hopsAndPeers
        obtain ⟨someHops, somePeers⟩ := not_or.mp hopsAndPeers
        dsimp only at forwarded
        split at forwarded
        · cases forwarded
        · obtain ⟨nextHop, isNext, chosen⟩ := Option.bind_eq_some_iff.mp forwarded
          cases chosen
          exact ⟨⟨hops, rfl, someHops⟩, nextHop, isNext, Nat.pos_of_ne_zero somePeers, rfl⟩

/-- Only the last hop count has no next. -/
theorem decideStemRouting_eq_none
    (unanswered : decideStemRouting phase txId hopCount numPeers = none) :
    hopCount.toNat = maxU64 := by
  cases phase with
  | fluff =>
      cases unanswered
  | stem hops =>
      rw [decideStemRouting] at unanswered
      split at unanswered
      · cases unanswered
      · dsimp only at unanswered
        split at unanswered
        · cases unanswered
        · cases isNext : checkedAdd hopCount 1 with
          | none =>
              have overflows := checkedAdd_eq_none_iff.mp isNext
              have inRange := toNat_le_maxU64 hopCount
              rw [UInt64.toNat_one] at overflows
              omega
          | some nextHop =>
              rw [isNext] at unanswered
              cases unanswered

end Phases

/-- How messages are routed at a hop, among some peers. -/
structure RoutesStem (hopCount : UInt64) (numPeers : Nat) : Prop where
  ends :
    ∀ hops forwards txId,
      hops.toNat ≤ forwards →
      decideStemRouting (advanceStemPhase^[forwards] (.stem hops)) txId hopCount numPeers =
        some .broadcast
  tenth :
    0 < numPeers →
    ∀ hops forwards,
      forwards < hops.toNat →
      ((Finset.range UInt64.size).filter fun txId =>
          decideStemRouting (advanceStemPhase^[forwards] (.stem hops)) (UInt64.ofNat txId)
            hopCount numPeers = some .broadcast).card =
        1844674407370955170
  chooses :
    ∀ phase txId peer,
      decideStemRouting phase txId hopCount numPeers = some (.forwardStem peer) →
      peer < numPeers ∧
        ∃ nextHop,
          checkedAdd hopCount 1 = some nextHop ∧
            peer = (simpleHash txId nextHop).toNat % numPeers
  evenly :
    ∀ nextHop,
      ∀ peer < numPeers,
        UInt64.size / numPeers ≤
            ((Finset.range UInt64.size).filter fun txId =>
              (simpleHash (UInt64.ofNat txId) nextHop).toNat % numPeers = peer).card ∧
          ((Finset.range UInt64.size).filter fun txId =>
              (simpleHash (UInt64.ofNat txId) nextHop).toNat % numPeers = peer).card ≤
            UInt64.size / numPeers + 1
  answers :
    ∀ phase txId,
      decideStemRouting phase txId hopCount numPeers = none → hopCount.toNat = maxU64
  reduced :
    ∀ blake3 txId nonce peer,
      decideReducedRouting blake3 txId nonce numPeers = .forwardStem peer → peer < numPeers

/--
A message is broadcast when its hops are used up.  Before that, at each hop with peers,
1844674407370955170 of all transactions are broadcast, a tenth as near as can be; the
others go to one of the peers, each of which is chosen for as many transactions as any
other, up to one.  Only a hop count that cannot grow has no answer.
-/
theorem stem_routes (hopCount : UInt64) (numPeers : Nat) : RoutesStem hopCount numPeers := by
  refine
    { ends := fun hops forwards txId usedUp => decideStemRouting_of_le usedUp
      tenth := fun somePeers hops forwards left => ?_
      chooses := fun phase txId peer forwarded => ?_
      evenly := fun nextHop peer isPeer => ?_
      answers := fun phase txId => decideStemRouting_eq_none
      reduced := fun blake3 txId nonce peer forwarded => ?_ }
  · simp only [decideStemRouting_eq_broadcast_iff left somePeers]
    rw [card_filter_simpleHash fun value => value % 100 < 10]
    exact count_small_remainder
  · obtain ⟨-, nextHop, isNext, somePeers, chosen⟩ := forwardStem_cases forwarded
    exact ⟨chosen ▸ Nat.mod_lt _ somePeers, nextHop, isNext, chosen⟩
  · rw [card_filter_simpleHash fun value => value % numPeers = peer]
    exact count_remainder isPeer
  · rw [decideReducedRouting] at forwarded
    split at forwarded
    · cases forwarded
    · rename_i somePeers
      dsimp only at forwarded
      split at forwarded
      · cases forwarded
        rw [selectStemPeerBlake3, if_neg somePeers]
        exact Nat.mod_lt _ (Nat.pos_of_ne_zero somePeers)
      · cases forwarded

end ScalarCore
