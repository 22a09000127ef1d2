import ScalarCore.Bytes
import ScalarCore.MachineInt
import ScalarCore.ScoreAverage

namespace ScalarCore

/-!
# The gossip synchronization score

A node scores how well its peers agree with it: a peer counts when it has the same root,
and the less the later and the older its heartbeat is.  The score is the average over the
peers, whatever their order.  A node whose last three scores are low may be eclipsed, and
it gossips to more peers.
-/

open MachineInt ScoreAverage

/-- `FIXED_POINT_BASIS`. -/
def gssFixedPointBasis : UInt64 :=
  1000000

/-- `MAX_LATENCY_MS`. -/
def maxLatencyMs : UInt64 :=
  300000

/-- `HEARTBEAT_STALENESS_S`. -/
def heartbeatStalenessS : UInt64 :=
  900

/-- `GSS_ECLIPSE_THRESHOLD`. -/
def gssEclipseThreshold : UInt64 :=
  400000

/-- `MAX_FANOUT`. -/
def maxFanout : Nat :=
  15

/-- `PeerSyncData`. -/
structure PeerSyncData where
  smtRoot : Bytes32
  latencyMs : UInt64
  ageSeconds : UInt64
  deriving DecidableEq

/-- The score of one peer, mapped over by `compute_gss_fp`. -/
def peerGss (myRoot : Bytes32) (peer : PeerSyncData) : UInt64 :=
  let rootMatch : UInt64 := if peer.smtRoot = myRoot then gssFixedPointBasis else 0
  let latencyScore :=
    saturatingSub gssFixedPointBasis
      (saturatingMul peer.latencyMs gssFixedPointBasis / maxLatencyMs)
  let recencyScore :=
    saturatingSub gssFixedPointBasis
      (saturatingMul peer.ageSeconds gssFixedPointBasis / heartbeatStalenessS)
  let score :=
    saturatingMul128 (saturatingMul128 rootMatch.toNat latencyScore.toNat) recencyScore.toNat
  UInt64.ofNat (score / (gssFixedPointBasis.toNat * gssFixedPointBasis.toNat))

/-- `compute_gss_fp`: the length of a slice fits the word. -/
def computeGssFp (myRoot : Bytes32) (peers : List PeerSyncData) : UInt64 :=
  if peers = [] then
    0
  else
    let sum := peers.foldl (fun acc peer => saturatingAdd acc (peerGss myRoot peer)) 0
    UInt64.ofNat (sum.toNat / peers.length)

/-- `is_eclipse_candidate_via_gss`. -/
def isEclipseCandidateViaGss (gssHistory : List UInt64) : Bool :=
  if gssHistory.length < 3 then
    false
  else
    (gssHistory.reverse.take 3).all fun gss => gss < gssEclipseThreshold

/-- `compute_adaptive_fanout`. -/
def computeAdaptiveFanout (gssFp : UInt64) : Nat :=
  if gssFp > 900000 then
    3
  else if gssFp > 750000 then
    5
  else if gssFp > 600000 then
    7
  else if gssFp > 400000 then
    10
  else
    maxFanout

/-- The part of a component that is left, of a million. -/
def componentLeft (measured limit : UInt64) : Nat :=
  1000000 - min (measured.toNat * 1000000) maxU64 / limit.toNat

/-- The peer has the root of the node, and is neither too late nor too old. -/
def agrees (myRoot : Bytes32) (peer : PeerSyncData) : Bool :=
  peer.smtRoot = myRoot ∧ peer.latencyMs.toNat < 300000 ∧ peer.ageSeconds.toNat < 900

/-- The peer has the root of the node, within a tenth of the latency and of the age. -/
def agreesWell (myRoot : Bytes32) (peer : PeerSyncData) : Bool :=
  peer.smtRoot = myRoot ∧ peer.latencyMs.toNat ≤ 30000 ∧ peer.ageSeconds.toNat ≤ 90

/-- The score of a peer, as a number. -/
theorem toNat_peerGss (myRoot : Bytes32) (peer : PeerSyncData) :
    (peerGss myRoot peer).toNat =
      if peer.smtRoot = myRoot then
        componentLeft peer.latencyMs maxLatencyMs *
          componentLeft peer.ageSeconds heartbeatStalenessS / 1000000
      else
        0 := by
  have left (measured limit : UInt64) :
      (saturatingSub gssFixedPointBasis
          (saturatingMul measured gssFixedPointBasis / limit)).toNat =
        componentLeft measured limit := by
    rw [toNat_saturatingSub, UInt64.toNat_div, toNat_saturatingMul]
    rfl
  have latencyBound : componentLeft peer.latencyMs maxLatencyMs ≤ 1000000 := Nat.sub_le _ _
  have ageBound : componentLeft peer.ageSeconds heartbeatStalenessS ≤ 1000000 := Nat.sub_le _ _
  have product := Nat.mul_le_mul latencyBound ageBound
  simp only [peerGss, left, saturatingMul128]
  split
  · have inner :
        min (1000000 * componentLeft peer.latencyMs maxLatencyMs) maxU128 =
          1000000 * componentLeft peer.latencyMs maxLatencyMs :=
      Nat.min_eq_left (by unfold maxU128; omega)
    rw [show gssFixedPointBasis.toNat = 1000000 from rfl, inner, Nat.mul_assoc,
      Nat.min_eq_left (by unfold maxU128; omega), Nat.mul_div_mul_left _ _ (by decide),
      toNat_ofNat_of_le (by unfold maxU64; omega)]
  · rw [UInt64.toNat_zero, Nat.zero_mul, Nat.zero_min, Nat.zero_mul, Nat.zero_min,
      Nat.zero_div]
    rfl

/-- A peer that agrees scores at most a million. -/
theorem peerGss_le (myRoot : Bytes32) (peer : PeerSyncData) :
    (peerGss myRoot peer).toNat ≤ 1000000 := by
  rw [toNat_peerGss]
  split
  · refine Nat.div_le_of_le_mul ?_
    exact Nat.mul_le_mul (Nat.sub_le _ _) (Nat.sub_le _ _)
  · exact Nat.zero_le _

/-- A peer that does not agree scores nothing. -/
theorem peerGss_eq_zero
    {myRoot : Bytes32}
    {peer : PeerSyncData}
    (disagrees : agrees myRoot peer = false) :
    (peerGss myRoot peer).toNat = 0 := by
  have nothingLeft (measured limit : UInt64)
      (positive : 0 < limit.toNat)
      (small : limit.toNat ≤ 300000)
      (reached : limit.toNat ≤ measured.toNat) :
      componentLeft measured limit = 0 := by
    refine Nat.sub_eq_zero_of_le ((Nat.le_div_iff_mul_le positive).mpr ?_)
    rw [Nat.mul_comm]
    refine le_min (Nat.mul_le_mul_right _ reached) ?_
    unfold maxU64
    omega
  rw [toNat_peerGss]
  split
  · rename_i sameRoot
    rw [agrees, decide_eq_false_iff_not, not_and_or, not_and_or, Nat.not_lt, Nat.not_lt]
      at disagrees
    rcases disagrees with otherRoot | late | old
    · exact absurd sameRoot otherRoot
    · rw [nothingLeft peer.latencyMs maxLatencyMs (by decide) (by decide) late, Nat.zero_mul,
        Nat.zero_div]
    · rw [nothingLeft peer.ageSeconds heartbeatStalenessS (by decide) (by decide) old,
        Nat.mul_zero, Nat.zero_div]
  · rfl

/-- A peer that agrees well scores at least 81 in 100. -/
theorem le_peerGss
    {myRoot : Bytes32}
    {peer : PeerSyncData}
    (well : agreesWell myRoot peer = true) :
    810000 ≤ (peerGss myRoot peer).toNat := by
  obtain ⟨sameRoot, latency, age⟩ := of_decide_eq_true well
  have mostLeft {measured limit : UInt64}
      (positive : 0 < limit.toNat)
      (within : 10 * measured.toNat ≤ limit.toNat) :
      900000 ≤ componentLeft measured limit := by
    have spent : min (measured.toNat * 1000000) maxU64 / limit.toNat ≤ 100000 :=
      Nat.div_le_of_le_mul ((Nat.min_le_left _ _).trans (by omega))
    unfold componentLeft
    omega
  have latencyLeft : 900000 ≤ componentLeft peer.latencyMs maxLatencyMs :=
    mostLeft (by decide) (show 10 * _ ≤ 300000 by omega)
  have ageLeft : 900000 ≤ componentLeft peer.ageSeconds heartbeatStalenessS :=
    mostLeft (by decide) (show 10 * _ ≤ 900 by omega)
  have product := Nat.mul_le_mul latencyLeft ageLeft
  rw [toNat_peerGss, if_pos sameRoot]
  exact (Nat.le_div_iff_mul_le (by decide)).mpr (by omega)

/-- The scores of peers add up to at most a million for each peer that agrees. -/
theorem sum_peerGss_le (myRoot : Bytes32) (peers : List PeerSyncData) :
    (peers.map fun peer => (peerGss myRoot peer).toNat).sum ≤
      1000000 * peers.countP (agrees myRoot) :=
  sum_le_mul_countP (fun peer _ => peerGss_le myRoot peer) (fun _ => peerGss_eq_zero) peers

/-- The score of a node with peers is the average of the scores, the total clamped. -/
theorem toNat_computeGssFp
    {peers : List PeerSyncData}
    (nonempty : peers ≠ [])
    (myRoot : Bytes32) :
    (computeGssFp myRoot peers).toNat =
      min (peers.map fun peer => (peerGss myRoot peer).toNat).sum maxU64 / peers.length := by
  rw [computeGssFp, if_neg nonempty, toNat_ofNat_of_le, toNat_foldl_saturatingAdd,
    UInt64.toNat_zero, Nat.zero_add]
  exact (Nat.div_le_self _ _).trans (toNat_le_maxU64 _)

/-- The order of the peers does not matter. -/
theorem computeGssFp_perm
    {peers others : List PeerSyncData}
    (perm : peers.Perm others)
    (myRoot : Bytes32) :
    computeGssFp myRoot peers = computeGssFp myRoot others := by
  by_cases isEmpty : peers = []
  · subst isEmpty
    rw [List.nil_perm.mp perm]
  · have otherNonempty : others ≠ [] := by
      rintro rfl
      exact isEmpty (List.perm_nil.mp perm)
    rw [← UInt64.toNat_inj, toNat_computeGssFp isEmpty, toNat_computeGssFp otherNonempty,
      (perm.map _).sum_eq, perm.length_eq]

/-- A node of which fewer than two in five peers agree has a low score. -/
theorem computeGssFp_lt
    {myRoot : Bytes32}
    {peers : List PeerSyncData}
    (few : peers ≠ [] → 5 * peers.countP (agrees myRoot) < 2 * peers.length) :
    computeGssFp myRoot peers < gssEclipseThreshold := by
  by_cases isEmpty : peers = []
  · rw [computeGssFp, if_pos isEmpty]
    decide
  · have share := few isEmpty
    rw [UInt64.lt_iff_toNat_lt, toNat_computeGssFp isEmpty]
    exact average_lt ((Nat.min_le_left _ _).trans (sum_peerGss_le myRoot peers))
      (show _ < 400000 * peers.length by omega)

/-- A node of which at least half the peers agree well has no low score. -/
theorem le_computeGssFp
    {myRoot : Bytes32}
    {peers : List PeerSyncData}
    (nonempty : peers ≠ [])
    (fits : 1000000 * peers.length ≤ maxU64)
    (half : peers.length ≤ 2 * peers.countP (agreesWell myRoot)) :
    gssEclipseThreshold ≤ computeGssFp myRoot peers := by
  rw [UInt64.le_iff_toNat_le, toNat_computeGssFp nonempty]
  have total :
      810000 * peers.countP (agreesWell myRoot) ≤
        (peers.map fun peer => (peerGss myRoot peer).toNat).sum :=
    mul_countP_le_sum (fun _ => le_peerGss) peers
  have atMost : (peers.map fun peer => (peerGss myRoot peer).toNat).sum ≤ maxU64 := by
    refine le_trans ?_ fits
    exact (sum_peerGss_le myRoot peers).trans (Nat.mul_le_mul_left _ List.countP_le_length)
  rw [Nat.min_eq_left atMost]
  exact le_average (List.length_pos_iff.mpr nonempty) total
    (show 400000 * peers.length ≤ _ by omega)

/-- The last three scores decide. -/
theorem isEclipseCandidateViaGss_append (past : List UInt64) (first second third : UInt64) :
    isEclipseCandidateViaGss (past ++ [first, second, third]) =
      (decide (third < gssEclipseThreshold) && (decide (second < gssEclipseThreshold) &&
        decide (first < gssEclipseThreshold))) := by
  rw [isEclipseCandidateViaGss, if_neg (by simp), List.reverse_append]
  simp

/-- A low score has the greatest fanout. -/
theorem computeAdaptiveFanout_of_lt
    {gssFp : UInt64}
    (low : gssFp < gssEclipseThreshold) :
    computeAdaptiveFanout gssFp = maxFanout := by
  have below : gssFp.toNat < 400000 := UInt64.lt_iff_toNat_lt.mp low
  have notAbove {bound : UInt64} (isLarge : 400000 ≤ bound.toNat) : ¬gssFp > bound := by
    intro above
    have := UInt64.lt_iff_toNat_lt.mp above
    omega
  rw [computeAdaptiveFanout, if_neg (notAbove (by decide)), if_neg (notAbove (by decide)),
    if_neg (notAbove (by decide)), if_neg (notAbove (by decide))]

/-- A heartbeat of the node: its root, and what it knows of its peers. -/
structure SyncObservation where
  myRoot : Bytes32
  peers : List PeerSyncData
  deriving DecidableEq

namespace SyncObservation

/-- The score of a heartbeat. -/
def gss (observed : SyncObservation) : UInt64 :=
  computeGssFp observed.myRoot observed.peers

/-- Fewer than two in five peers agree. -/
def Isolated (observed : SyncObservation) : Prop :=
  observed.peers ≠ [] →
    5 * observed.peers.countP (agrees observed.myRoot) < 2 * observed.peers.length

/-- At least half of the peers agree well. -/
def Supported (observed : SyncObservation) : Prop :=
  observed.peers ≠ [] ∧ 1000000 * observed.peers.length ≤ maxU64 ∧
    observed.peers.length ≤ 2 * observed.peers.countP (agreesWell observed.myRoot)

/-- The heartbeats are the same up to the order of the peers. -/
def Reordered (observed other : SyncObservation) : Prop :=
  observed.myRoot = other.myRoot ∧ observed.peers.Perm other.peers

/-- What the scores of a run of heartbeats tell. -/
structure DetectsIsolation (heartbeats : List SyncObservation) : Prop where
  bounded : ∀ observed ∈ heartbeats, observed.gss.toNat ≤ 1000000
  reordered :
    ∀ others,
      heartbeats.Forall₂ Reordered others →
      isEclipseCandidateViaGss (others.map gss) =
        isEclipseCandidateViaGss (heartbeats.map gss)
  candidate :
    ∀ past first second third,
      heartbeats = past ++ [first, second, third] →
      first.Isolated →
      second.Isolated →
      third.Isolated →
      isEclipseCandidateViaGss (heartbeats.map gss) = true
  cleared :
    ∀ past first second third,
      heartbeats = past ++ [first, second, third] →
      first.Supported ∨ second.Supported ∨ third.Supported →
      isEclipseCandidateViaGss (heartbeats.map gss) = false
  fansOut :
    isEclipseCandidateViaGss (heartbeats.map gss) = true →
    ∃ past first second third,
      heartbeats = past ++ [first, second, third] ∧
        ∀ observed ∈ [first, second, third], computeAdaptiveFanout observed.gss = maxFanout

/-- A candidate has three heartbeats, the last three with low scores. -/
theorem exists_low_of_candidate
    {heartbeats : List SyncObservation}
    (candidate : isEclipseCandidateViaGss (heartbeats.map gss) = true) :
    ∃ past first second third,
      heartbeats = past ++ [first, second, third] ∧
        ∀ observed ∈ [first, second, third], observed.gss < gssEclipseThreshold := by
  have enough : 3 ≤ heartbeats.length := by
    by_contra fewer
    rw [isEclipseCandidateViaGss, if_pos (by rw [List.length_map]; omega)] at candidate
    cases candidate
  have lastThree : (heartbeats.drop (heartbeats.length - 3)).length = 3 := by
    rw [List.length_drop]
    omega
  obtain ⟨first, second, third, isLast⟩ := List.length_eq_three.mp lastThree
  have split : heartbeats = heartbeats.take (heartbeats.length - 3) ++ [first, second, third] := by
    rw [← isLast, List.take_append_drop]
  refine ⟨_, first, second, third, split, ?_⟩
  rw [split, List.map_append, List.map_cons, List.map_cons, List.map_cons, List.map_nil,
    isEclipseCandidateViaGss_append, Bool.and_eq_true, Bool.and_eq_true] at candidate
  obtain ⟨thirdLow, secondLow, firstLow⟩ := candidate
  rintro observed (_ | ⟨_, _ | ⟨_, _ | ⟨_, listed⟩⟩⟩)
  · exact of_decide_eq_true firstLow
  · exact of_decide_eq_true secondLow
  · exact of_decide_eq_true thirdLow
  · cases listed

/--
Three heartbeats in a row with which fewer than two in five peers agree make a node an
eclipse candidate, whatever the latencies and ages are; one of the last three with which
half of the peers agree well clears it.  The order of the peers does not matter.  A
candidate gossiped to as many peers as it may at each of the three.
-/
theorem gss_detects_isolation (heartbeats : List SyncObservation) :
    DetectsIsolation heartbeats := by
  refine
    { bounded := fun observed _ => ?_
      reordered := fun others sameUpToOrder => ?_
      candidate := ?_
      cleared := ?_
      fansOut := fun candidate => ?_ }
  · by_cases isEmpty : observed.peers = []
    · rw [gss, computeGssFp, if_pos isEmpty]
      decide
    · rw [gss, toNat_computeGssFp isEmpty]
      have total := sum_peerGss_le observed.myRoot observed.peers
      refine Nat.div_le_of_le_mul ((Nat.min_le_left _ _).trans (total.trans ?_))
      rw [Nat.mul_comm]
      exact Nat.mul_le_mul_right _ List.countP_le_length
  · have sameScores : others.map gss = heartbeats.map gss := by
      induction sameUpToOrder with
      | nil =>
          rfl
      | cons same _ inductionHypothesis =>
          rw [List.map_cons, List.map_cons, inductionHypothesis, gss, gss, same.1,
            computeGssFp_perm same.2]
    rw [sameScores]
  · rintro past first second third rfl firstIsolated secondIsolated thirdIsolated
    rw [List.map_append]
    refine (isEclipseCandidateViaGss_append _ _ _ _).trans ?_
    rw [Bool.and_eq_true, Bool.and_eq_true]
    exact ⟨decide_eq_true (computeGssFp_lt thirdIsolated),
      decide_eq_true (computeGssFp_lt secondIsolated),
      decide_eq_true (computeGssFp_lt firstIsolated)⟩
  · rintro past first second third rfl supported
    rw [← Bool.not_eq_true]
    intro candidate
    rw [List.map_append, List.map_cons, List.map_cons, List.map_cons, List.map_nil,
      isEclipseCandidateViaGss_append, Bool.and_eq_true, Bool.and_eq_true] at candidate
    obtain ⟨thirdLow, secondLow, firstLow⟩ := candidate
    have notLow {observed : SyncObservation} (isSupported : observed.Supported) :
        ¬observed.gss < gssEclipseThreshold :=
      UInt64.not_lt.mpr (le_computeGssFp isSupported.1 isSupported.2.1 isSupported.2.2)
    rcases supported with isFirst | isSecond | isThird
    · exact notLow isFirst (of_decide_eq_true firstLow)
    · exact notLow isSecond (of_decide_eq_true secondLow)
    · exact notLow isThird (of_decide_eq_true thirdLow)
  · obtain ⟨past, first, second, third, split, low⟩ := exists_low_of_candidate candidate
    exact ⟨past, first, second, third, split, fun observed listed =>
      computeAdaptiveFanout_of_lt (low observed listed)⟩

end SyncObservation

end ScalarCore
