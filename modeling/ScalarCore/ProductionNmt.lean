import ScalarCore.BestScan
import ScalarCore.Bytes
import ScalarCore.KeyedWrites
import ScalarCore.OrderStatistic

namespace ScalarCore

/-!
# The network time of a node

A node keeps the last timestamp of up to 24 peers in a hash map and takes the
median of the first eight that the map yields as the network time.  The order
of the map differs between nodes and between runs, so the network time is a
function of the stored timestamps only where all eight-element samples of them
have one median.
-/

open BestScan KeyedSort KeyedWrites OrderStatistic

/-- `NMT_PEER_COUNT`. -/
def nmtPeerCount : Nat :=
  8

/-- `T_NMT_MAX_DRIFT_S`. -/
def tNmtMaxDriftS : UInt32 :=
  600

/-- `NMT_MIN_PEERS_FOR_RELIABLE`. -/
def nmtMinPeersForReliable : Nat :=
  9

/-- `NMT_PEER_COUNT_V12`. -/
def nmtPeerCountV12 : Nat :=
  24

/-- `NMT_MAX_STORED_TIMESTAMPS`. -/
def nmtMaxStoredTimestamps : Nat :=
  nmtPeerCountV12

/-- The lower median of the first eight timestamps. -/
def computeNmt (peerTimestamps : List UInt32) : Option UInt32 :=
  if peerTimestamps.length < nmtPeerCount then
    none
  else
    let sample :=
      sortByKey UInt32.toNat (peerTimestamps.take nmtPeerCount)
    sample[nmtPeerCount / 2 - 1]?

/-- Network time against the clock of the node. -/
inductive NmtStatus where
  | valid (nmt driftS : UInt32)
  | eclipseAlert (nmt localWallClock driftS : UInt32)
  | insufficientPeers (count required : Nat)
  deriving Repr, DecidableEq

/-- `abs_diff`. -/
def absDiff (left right : UInt32) : UInt32 :=
  if left < right then right - left else left - right

/-- `compute_nmt_with_eclipse_check`. -/
def computeNmtWithEclipseCheck
    (peerTimestamps : List UInt32)
    (localWallClock : UInt32) : NmtStatus :=
  match computeNmt peerTimestamps with
  | none => .insufficientPeers peerTimestamps.length nmtPeerCount
  | some nmt =>
      let driftS := absDiff nmt localWallClock
      if driftS > tNmtMaxDriftS then
        .eclipseAlert nmt localWallClock driftS
      else
        .valid nmt driftS

/-- The last timestamp of each peer. -/
structure PeerTimestampStore where
  timestamps : Finmap fun _ : Bytes4 => UInt32

/-- Where a node takes its time from. -/
inductive ProductionNmtResult where
  | fromPeers (nmt : UInt32) (peerCount : Nat)
  | fallbackWallClock (nmt : UInt32) (peerCount : Nat)
  | eclipseAlert (nmt driftS : UInt32)
  deriving Repr, DecidableEq

/-- `nmt_value`. -/
def ProductionNmtResult.nmtValue : ProductionNmtResult → UInt32
  | .fromPeers nmt _ => nmt
  | .fallbackWallClock nmt _ => nmt
  | .eclipseAlert nmt _ => nmt

namespace PeerTimestampStore

/-- `new`. -/
def new : PeerTimestampStore where
  timestamps := ∅

/-- The order in which the map lists its peers; nothing else is known of it. -/
def Lists (store : PeerTimestampStore) (order : List Bytes4) : Prop :=
  (order : Multiset Bytes4) = store.timestamps.keys.val

/-- `peer_count`. -/
def peerCount (store : PeerTimestampStore) : Nat :=
  store.timestamps.keys.card

/-- All timestamps, in the order of the map. -/
def allTimestamps
    (store : PeerTimestampStore)
    (order : List Bytes4) : List UInt32 :=
  (itemsAt store.timestamps order).map Prod.snd

/-- The write of an update. -/
def insert
    (store : PeerTimestampStore)
    (nodeIdShort : Bytes4)
    (timestamp : UInt32) : PeerTimestampStore where
  timestamps := store.timestamps.insert nodeIdShort timestamp

/-- Above the limit the first peer of least timestamp is dropped. -/
def dropOldest
    (store : PeerTimestampStore)
    (order : List Bytes4) : PeerTimestampStore :=
  if store.peerCount > nmtMaxStoredTimestamps then
    match minByKey (fun item => item.2.toNat)
        (itemsAt store.timestamps order) with
    | some oldest => { timestamps := store.timestamps.erase oldest.1 }
    | none => store
  else
    store

/-- `update`, where `order` is the order of the map after the write. -/
def update
    (store : PeerTimestampStore)
    (order : List Bytes4)
    (nodeIdShort : Bytes4)
    (timestamp : UInt32) : PeerTimestampStore :=
  (store.insert nodeIdShort timestamp).dropOldest order

/-- `remove_peer`. -/
def removePeer
    (store : PeerTimestampStore)
    (nodeIdShort : Bytes4) : PeerTimestampStore where
  timestamps := store.timestamps.erase nodeIdShort

/-- The stores that updates and removals lead to. -/
inductive Reachable : PeerTimestampStore → Prop where
  | new : Reachable new
  | update
      {store : PeerTimestampStore}
      {order : List Bytes4}
      {nodeIdShort : Bytes4}
      {timestamp : UInt32}
      (reachable : Reachable store)
      (lists : (store.insert nodeIdShort timestamp).Lists order) :
      Reachable (store.update order nodeIdShort timestamp)
  | removePeer
      {store : PeerTimestampStore}
      {nodeIdShort : Bytes4}
      (reachable : Reachable store) :
      Reachable (store.removePeer nodeIdShort)

end PeerTimestampStore

/-- `compute_production_nmt` of a store whose map lists its peers in an order. -/
def computeProductionNmt
    (peerStore : PeerTimestampStore)
    (order : List Bytes4)
    (localWallClock : UInt32) : ProductionNmtResult :=
  let timestamps := peerStore.allTimestamps order
  let peerCount := timestamps.length
  if peerCount < nmtMinPeersForReliable then
    .fallbackWallClock localWallClock peerCount
  else
    match computeNmtWithEclipseCheck timestamps localWallClock with
    | .valid nmt _ => .fromPeers nmt peerCount
    | .eclipseAlert nmt _ driftS => .eclipseAlert nmt driftS
    | .insufficientPeers count _ => .fallbackWallClock localWallClock count

/-- With eight timestamps there is a median, at rank three of the first eight. -/
theorem computeNmt_spec
    {peerTimestamps : List UInt32}
    (enough : nmtPeerCount ≤ peerTimestamps.length) :
    ∃ nmt,
      computeNmt peerTimestamps = some nmt ∧
        keyOfRank UInt32.toNat (peerTimestamps.take nmtPeerCount) 3 =
          some nmt.toNat := by
  have inSample :
      3 < (sortByKey UInt32.toNat (peerTimestamps.take nmtPeerCount)).length := by
    rw [(sortByKey_perm _ _).length_eq, List.length_take,
      Nat.min_eq_left enough]
    decide
  obtain ⟨nmt, isThird⟩ :
      ∃ nmt,
        (sortByKey UInt32.toNat (peerTimestamps.take nmtPeerCount))[3]? =
          some nmt :=
    ⟨_, List.getElem?_eq_getElem inSample⟩
  refine ⟨nmt, ?_, ?_⟩
  · rw [computeNmt, if_neg (Nat.not_lt.mpr enough)]
    exact isThird
  · rw [keyOfRank, List.getElem?_map, isThird, Option.map_some]

/-- The network time set against the clock, with enough peers. -/
def nmtVerdict (nmt localWallClock : UInt32) (peerCount : Nat) :
    ProductionNmtResult :=
  if absDiff nmt localWallClock > tNmtMaxDriftS then
    .eclipseAlert nmt (absDiff nmt localWallClock)
  else
    .fromPeers nmt peerCount

theorem nmtValue_nmtVerdict (nmt localWallClock : UInt32) (peerCount : Nat) :
    (nmtVerdict nmt localWallClock peerCount).nmtValue = nmt := by
  rw [nmtVerdict]
  split <;> rfl

namespace PeerTimestampStore

variable {store : PeerTimestampStore} {order order' : List Bytes4}

/-- A listed peer is a stored one. -/
theorem Lists.mem_iff
    (lists : store.Lists order)
    {nodeIdShort : Bytes4} :
    nodeIdShort ∈ order ↔ nodeIdShort ∈ store.timestamps := by
  rw [← Multiset.mem_coe, lists, Finset.mem_val, Finmap.mem_keys]

/-- Two orders of one map are permutations of each other. -/
theorem Lists.perm
    (lists : store.Lists order)
    (lists' : store.Lists order') :
    order'.Perm order :=
  Multiset.coe_eq_coe.mp (lists'.trans lists.symm)

/-- A permutation of an order is an order. -/
theorem Lists.of_perm
    (lists : store.Lists order)
    (reordered : order'.Perm order) :
    store.Lists order' :=
  (Multiset.coe_eq_coe.mpr reordered).trans lists

/-- Every map has some order. -/
theorem exists_lists (store : PeerTimestampStore) :
    ∃ order, store.Lists order :=
  ⟨store.timestamps.keys.toList, store.timestamps.keys.coe_toList⟩

/-- The timestamp of a stored peer. -/
def timestampAt (store : PeerTimestampStore) (nodeIdShort : Bytes4) : UInt32 :=
  (store.timestamps.lookup nodeIdShort).getD 0

/-- Each listed peer contributes its timestamp. -/
theorem allTimestamps_eq (lists : store.Lists order) :
    store.allTimestamps order = order.map store.timestampAt := by
  have stored : ∀ peer ∈ order, peer ∈ store.timestamps :=
    fun _ listed => lists.mem_iff.mp listed
  clear lists
  induction order with
  | nil =>
      rfl
  | cons peer rest inductionHypothesis =>
      obtain ⟨timestamp, found⟩ :=
        Finmap.mem_iff.mp (stored peer List.mem_cons_self)
      have restStored :=
        inductionHypothesis fun other listed =>
          stored other (List.mem_cons_of_mem peer listed)
      rw [allTimestamps, itemsAt] at restStored ⊢
      rw [List.filterMap_cons, found, Option.map_some, List.map_cons,
        restStored, List.map_cons, timestampAt, found, Option.getD_some]

/-- As many timestamps are listed as peers are stored. -/
theorem length_order (lists : store.Lists order) :
    order.length = store.peerCount := by
  rw [← Multiset.coe_card, lists, peerCount, Finset.card_def]

theorem length_allTimestamps (lists : store.Lists order) :
    (store.allTimestamps order).length = store.peerCount := by
  rw [allTimestamps_eq lists, List.length_map, length_order lists]

/-- The stored timestamps in ascending order. -/
def sortedTimestamps (store : PeerTimestampStore) : List Nat :=
  (store.timestamps.keys.val.map fun peer =>
    (store.timestampAt peer).toNat).sort (· ≤ ·)

/-- The ranks of the stored timestamps, seen from any order. -/
theorem keyOfRank_eq
    (lists : store.Lists order)
    (rank : Nat) :
    keyOfRank (fun peer => (store.timestampAt peer).toNat) order rank =
      store.sortedTimestamps[rank]? := by
  rw [keyOfRank_eq_sort, sortedTimestamps, ← lists, Multiset.map_coe]

/-- Below nine peers the clock of the node is the time. -/
theorem computeProductionNmt_of_few
    (lists : store.Lists order)
    (few : store.peerCount < nmtMinPeersForReliable)
    (localWallClock : UInt32) :
    computeProductionNmt store order localWallClock =
      .fallbackWallClock localWallClock store.peerCount := by
  simp only [computeProductionNmt, length_allTimestamps lists, if_pos few]

/-- From nine peers on the time is at rank three of the first eight peers. -/
theorem computeProductionNmt_of_enough
    (lists : store.Lists order)
    (enough : nmtMinPeersForReliable ≤ store.peerCount) :
    ∃ nmt : UInt32,
      keyOfRank (fun peer => (store.timestampAt peer).toNat)
          (order.take nmtPeerCount) 3 = some nmt.toNat ∧
        ∀ localWallClock,
          computeProductionNmt store order localWallClock =
            nmtVerdict nmt localWallClock store.peerCount := by
  have count := length_allTimestamps lists
  have sampled : nmtPeerCount ≤ (store.allTimestamps order).length := by
    rw [count]
    exact Nat.le_of_succ_le enough
  obtain ⟨nmt, computed, atRank⟩ := computeNmt_spec sampled
  refine ⟨nmt, ?_, fun localWallClock => ?_⟩
  · rw [allTimestamps_eq lists, ← List.map_take, keyOfRank_map] at atRank
    exact atRank
  · simp only [computeProductionNmt, count, if_neg (Nat.not_lt.mpr enough),
      computeNmtWithEclipseCheck, computed, nmtVerdict]
    by_cases drifted : absDiff nmt localWallClock > tNmtMaxDriftS
    · rw [if_pos drifted, if_pos drifted]
    · rw [if_neg drifted, if_neg drifted]

/-- The time of the node does not depend on the order of its map. -/
def DependsOnStoreOnly (store : PeerTimestampStore) : Prop :=
  ∀ order order',
    store.Lists order →
    store.Lists order' →
    ∀ localWallClock,
      computeProductionNmt store order localWallClock =
        computeProductionNmt store order' localWallClock

/-- From nine peers on the time is the lower median of all timestamps. -/
def ReportsLowerMedian (store : PeerTimestampStore) : Prop :=
  nmtMinPeersForReliable ≤ store.peerCount →
  ∀ order,
    store.Lists order →
    ∀ localWallClock,
      store.sortedTimestamps[(store.peerCount - 1) / 2]? =
        some (computeProductionNmt store order localWallClock).nmtValue.toNat

/-- The fourth smallest and the fifth largest timestamp coincide. -/
def MiddleCoincides (store : PeerTimestampStore) : Prop :=
  store.sortedTimestamps[3]? = store.sortedTimestamps[store.peerCount - 5]?

/-- All orders agree on rank three of a sample when the middle coincides. -/
theorem samples_agree_iff
    (lists : store.Lists order)
    (enough : nmtMinPeersForReliable ≤ store.peerCount) :
    (∀ order₁ order₂ : List Bytes4,
        order₁.Perm order →
        order₂.Perm order →
        keyOfRank (fun peer => (store.timestampAt peer).toNat)
            (order₁.take nmtPeerCount) 3 =
          keyOfRank (fun peer => (store.timestampAt peer).toNat)
            (order₂.take nmtPeerCount) 3) ↔
      store.MiddleCoincides := by
  have inItems : nmtPeerCount ≤ order.length := by
    rw [length_order lists]
    exact Nat.le_of_succ_le enough
  have fromEnd : order.length - nmtPeerCount + 3 = store.peerCount - 5 := by
    rw [length_order lists]
    unfold nmtMinPeersForReliable at enough
    unfold nmtPeerCount
    omega
  rw [keyOfRank_take_perm_iff (by decide) inItems, keyOfRank_eq lists,
    keyOfRank_eq lists, fromEnd, MiddleCoincides]

/-- From nine peers on the order is of no effect when the middle coincides. -/
theorem dependsOnStoreOnly_iff
    (enough : nmtMinPeersForReliable ≤ store.peerCount) :
    store.DependsOnStoreOnly ↔ store.MiddleCoincides := by
  obtain ⟨order, lists⟩ := store.exists_lists
  rw [← samples_agree_iff lists enough]
  constructor
  · intro always order₁ order₂ reordered₁ reordered₂
    have lists₁ := lists.of_perm reordered₁
    have lists₂ := lists.of_perm reordered₂
    obtain ⟨nmt₁, atRank₁, computed₁⟩ :=
      computeProductionNmt_of_enough lists₁ enough
    obtain ⟨nmt₂, atRank₂, computed₂⟩ :=
      computeProductionNmt_of_enough lists₂ enough
    have sameResult := always order₁ order₂ lists₁ lists₂ 0
    rw [computed₁, computed₂] at sameResult
    have sameTime := congrArg ProductionNmtResult.nmtValue sameResult
    rw [nmtValue_nmtVerdict, nmtValue_nmtVerdict] at sameTime
    rw [atRank₁, atRank₂, sameTime]
  · intro agree order₁ order₂ lists₁ lists₂ localWallClock
    obtain ⟨nmt₁, atRank₁, computed₁⟩ :=
      computeProductionNmt_of_enough lists₁ enough
    obtain ⟨nmt₂, atRank₂, computed₂⟩ :=
      computeProductionNmt_of_enough lists₂ enough
    have sameRank :=
      agree order₁ order₂ (lists.perm lists₁) (lists.perm lists₂)
    rw [atRank₁, atRank₂, Option.some_inj, UInt32.toNat_inj] at sameRank
    rw [computed₁, computed₂, sameRank]

/-- Where the middle coincides, it is the lower median and the time of the node. -/
theorem reportsLowerMedian_of_middleCoincides
    (coincides : store.MiddleCoincides) :
    store.ReportsLowerMedian := by
  intro enough order lists localWallClock
  obtain ⟨nmt, atRank, computed⟩ :=
    computeProductionNmt_of_enough lists enough
  rw [computed, nmtValue_nmtVerdict]
  have inItems : nmtPeerCount ≤ order.length := by
    rw [length_order lists]
    exact Nat.le_of_succ_le enough
  have asInOrder :=
    (samples_agree_iff lists enough).mpr coincides order
      (sortByKey (fun peer => (store.timestampAt peer).toNat) order)
      (List.Perm.refl order) (sortByKey_perm _ order)
  rw [atRank, keyOfRank_take_sorted (by decide)] at asInOrder
  have atThree := asInOrder.symm
  have atFifthLast := atThree
  rw [keyOfRank_eq lists, coincides, ← keyOfRank_eq lists] at atFifthLast
  have inRange : (store.peerCount - 1) / 2 < order.length := by
    rw [length_order lists]
    unfold nmtMinPeersForReliable at enough
    omega
  obtain ⟨median, atMedian⟩ :=
    exists_keyOfRank (fun peer => (store.timestampAt peer).toNat) inRange
  unfold nmtMinPeersForReliable at enough
  have above := keyOfRank_mono (by omega) atThree atMedian
  have below := keyOfRank_mono (by omega) atMedian atFifthLast
  rw [← keyOfRank_eq lists, atMedian, le_antisymm below above]

/-- What is dropped is the timestamp of a stored peer, and none is older. -/
theorem dropOldest_spec
    (lists : store.Lists order)
    (full : nmtMaxStoredTimestamps < store.peerCount) :
    ∃ oldest timestamp,
      store.timestamps.lookup oldest = some timestamp ∧
        (∀ other timestamp',
          store.timestamps.lookup other = some timestamp' →
          timestamp.toNat ≤ timestamp'.toNat) ∧
        store.dropOldest order =
          { timestamps := store.timestamps.erase oldest } := by
  cases found :
      minByKey (fun item => item.2.toNat)
        (itemsAt store.timestamps order) with
  | none =>
      have noTimestamps : store.allTimestamps order = [] := by
        rw [allTimestamps, minByKey_eq_none_iff.mp found, List.map_nil]
      have noPeers := congrArg List.length noTimestamps
      rw [length_allTimestamps lists, List.length_nil] at noPeers
      exact absurd full (noPeers ▸ Nat.not_lt_zero _)
  | some item =>
      obtain ⟨oldest, timestamp⟩ := item
      rcases minByKey_spec found with ⟨isItem, least⟩
      rw [mem_itemsAt] at isItem
      refine ⟨oldest, timestamp, isItem.2, fun other timestamp' isFound => ?_, ?_⟩
      · apply least (other, timestamp')
        rw [mem_itemsAt, lists.mem_iff]
        exact ⟨Finmap.mem_of_lookup_eq_some isFound, isFound⟩
      · rw [dropOldest, if_pos full, found]

/-- An update keeps the store within its limit. -/
theorem peerCount_update_le
    {nodeIdShort : Bytes4}
    {timestamp : UInt32}
    (within : store.peerCount ≤ nmtMaxStoredTimestamps)
    (lists : (store.insert nodeIdShort timestamp).Lists order) :
    (store.update order nodeIdShort timestamp).peerCount ≤
      nmtMaxStoredTimestamps := by
  have oneMore :
      (store.insert nodeIdShort timestamp).peerCount ≤ store.peerCount + 1 := by
    rw [peerCount, insert, keys_insert]
    exact Finset.card_insert_le _ _
  by_cases full :
      nmtMaxStoredTimestamps < (store.insert nodeIdShort timestamp).peerCount
  · obtain ⟨oldest, _, isFound, _, dropped⟩ := dropOldest_spec lists full
    have stored := Finmap.mem_keys.mpr (Finmap.mem_of_lookup_eq_some isFound)
    have oneLess := Finset.card_erase_add_one stored
    rw [update, dropped, peerCount, Finmap.keys_erase]
    rw [peerCount] at oneMore
    omega
  · rw [update, dropOldest, if_neg full]
    exact Nat.le_of_not_lt full

/-- No run stores more peers than the limit. -/
theorem Reachable.peerCount_le (reachable : Reachable store) :
    store.peerCount ≤ nmtMaxStoredTimestamps := by
  induction reachable with
  | new =>
      exact Nat.zero_le _
  | update _ lists inductionHypothesis =>
      exact peerCount_update_le inductionHypothesis lists
  | removePeer _ inductionHypothesis =>
      rw [peerCount, PeerTimestampStore.removePeer, Finmap.keys_erase]
      exact Finset.card_erase_le.trans inductionHypothesis

/-- Updates within the limit only write. -/
theorem reachable_insert
    {nodeIdShort : Bytes4}
    {timestamp : UInt32}
    (reachable : Reachable store)
    (within :
      (store.insert nodeIdShort timestamp).peerCount ≤
        nmtMaxStoredTimestamps) :
    Reachable (store.insert nodeIdShort timestamp) := by
  obtain ⟨order, lists⟩ := exists_lists (store.insert nodeIdShort timestamp)
  have updated := reachable.update lists
  rwa [update, dropOldest, if_neg (Nat.not_lt.mpr within)] at updated

/-- The store that updates with a list of timestamps lead to. -/
def ofEntries (entries : List (Bytes4 × UInt32)) : PeerTimestampStore :=
  entries.foldl (fun store entry => store.insert entry.1 entry.2) new

/-- Up to the limit, any timestamps can be stored. -/
theorem reachable_ofEntries
    {entries : List (Bytes4 × UInt32)}
    (within : entries.length ≤ nmtMaxStoredTimestamps) :
    Reachable (ofEntries entries) ∧
      (ofEntries entries).peerCount ≤ entries.length := by
  induction entries using List.reverseRecOn with
  | nil =>
      exact ⟨.new, Nat.le_refl 0⟩
  | append_singleton entries entry inductionHypothesis =>
      rw [List.length_append, List.length_singleton] at within ⊢
      rcases inductionHypothesis (Nat.le_of_succ_le within) with
        ⟨reachable, fewer⟩
      have stored :
          ofEntries (entries ++ [entry]) =
            (ofEntries entries).insert entry.1 entry.2 := by
        rw [ofEntries, List.foldl_append]
        rfl
      have oneMore :
          ((ofEntries entries).insert entry.1 entry.2).peerCount ≤
            entries.length + 1 := by
        rw [peerCount, insert, keys_insert]
        exact (Finset.card_insert_le _ _).trans (Nat.succ_le_succ fewer)
      rw [stored]
      exact ⟨reachable_insert reachable (oneMore.trans within), oneMore⟩

/-- Equal timestamps have one middle. -/
theorem middleCoincides_of_constant
    {timestamp : UInt32}
    (constant :
      ∀ peer ∈ store.timestamps, store.timestampAt peer = timestamp)
    (enough : nmtMinPeersForReliable ≤ store.peerCount) :
    store.MiddleCoincides := by
  have isReplicate :
      store.sortedTimestamps =
        List.replicate store.peerCount timestamp.toNat := by
    rw [List.eq_replicate_iff, sortedTimestamps, Multiset.length_sort,
      Multiset.card_map]
    refine ⟨rfl, fun value listed => ?_⟩
    rw [Multiset.mem_sort, Multiset.mem_map] at listed
    rcases listed with ⟨peer, isKey, rfl⟩
    rw [constant peer (Finmap.mem_keys.mp isKey)]
  unfold nmtMinPeersForReliable at enough
  rw [MiddleCoincides, isReplicate, List.getElem?_replicate_of_lt (by omega),
    List.getElem?_replicate_of_lt (by omega)]

/--
In every store that a run leads to, the network time is a function of the
stored timestamps, and their lower median, exactly when fewer than nine peers
are stored or the middle of the timestamps coincides.
-/
theorem productionNmt_iff (reachable : Reachable store) :
    store.peerCount ≤ nmtMaxStoredTimestamps ∧
      (store.DependsOnStoreOnly ∧ store.ReportsLowerMedian ↔
        store.peerCount < nmtMinPeersForReliable ∨ store.MiddleCoincides) := by
  refine ⟨reachable.peerCount_le, ?_⟩
  by_cases few : store.peerCount < nmtMinPeersForReliable
  · refine iff_of_true ⟨?_, fun enough => ?_⟩ (.inl few)
    · intro order order' lists lists' localWallClock
      rw [computeProductionNmt_of_few lists few,
        computeProductionNmt_of_few lists' few]
    · exact absurd few (Nat.not_lt.mpr enough)
  · rw [dependsOnStoreOnly_iff (Nat.le_of_not_lt few), or_iff_right few]
    exact and_iff_left_of_imp reportsLowerMedian_of_middleCoincides

/-- Nine peers, the timestamp of each a function of its number. -/
def ninePeers (timestampOf : Nat → UInt32) : PeerTimestampStore :=
  ofEntries ((List.range 9).map fun peer =>
    (Bytes4.replicate (UInt8.ofNat peer), timestampOf peer))

/-- Nine peers of one timestamp leave the order no effect. -/
theorem productionNmt_equalTimestamps :
    (ninePeers fun _ => 1000000).DependsOnStoreOnly ∧
      (ninePeers fun _ => 1000000).ReportsLowerMedian := by
  have stored : ∀ peer ∈ (ninePeers fun _ => 1000000).timestamps.keys,
      (ninePeers fun _ => 1000000).timestampAt peer = 1000000 := by
    decide
  exact
    (productionNmt_iff (reachable_ofEntries (by decide)).1).2.mpr
      (.inr
        (middleCoincides_of_constant
          (fun peer isStored => stored peer (Finmap.mem_keys.mpr isStored))
          (by decide)))

/-- Nine peers one second apart. -/
def secondsApart : PeerTimestampStore :=
  ninePeers fun peer => 1000000 + UInt32.ofNat peer

/-- Their fourth smallest and their fifth largest timestamp differ. -/
theorem not_middleCoincides_secondsApart : ¬secondsApart.MiddleCoincides := by
  have lists :
      secondsApart.Lists
        ((List.range 9).map fun peer => Bytes4.replicate (UInt8.ofNat peer)) := by
    unfold Lists
    decide
  have ascending :
      ((List.range 9).map fun peer =>
          Bytes4.replicate (UInt8.ofNat peer)).Pairwise
        fun left right =>
          (secondsApart.timestampAt left).toNat ≤
            (secondsApart.timestampAt right).toNat := by
    decide
  rw [MiddleCoincides, ← keyOfRank_eq lists, ← keyOfRank_eq lists, keyOfRank,
    keyOfRank, sortByKey_of_pairwise ascending]
  decide

/-- Two nodes that store the same nine timestamps can take different times from them. -/
theorem productionNmt_depends_on_order :
    ¬∀ store : PeerTimestampStore,
      Reachable store →
        store.DependsOnStoreOnly ∧ store.ReportsLowerMedian := by
  intro always
  have reachable : Reachable secondsApart :=
    (reachable_ofEntries (by decide)).1
  exact
    not_middleCoincides_secondsApart
      ((dependsOnStoreOnly_iff (by decide)).mp (always _ reachable).1)

end PeerTimestampStore

end ScalarCore
