import ScalarCore.RecencyList
import ScalarCore.RoutingTable
import ScalarCore.StateMachine

namespace ScalarCore

/-!
# The order of the peers of a bucket

A bucket is meant to list its peers by when they were seen last.  The insertion
of a known id replaces its record but leaves it where it stands, so the order is
kept along a run exactly when no peer other than the first is inserted again.
-/

open RecencyList StateMachine

/-- A call on a bucket. -/
inductive KBucketCall where
  | insert (node : NodeInfo)
  | remove (id : NodeId)

namespace KBucketCall

/-- What a call means for the ids of a least recently seen list. -/
def use : KBucketCall → Use NodeId
  | .insert node => .touch node.id
  | .remove id => .drop id

end KBucketCall

namespace KBucket

/-- A call; only `insert` answers. -/
def step (bucket : KBucket) : KBucketCall → KBucket × Option Bool
  | .insert node => ((bucket.insert node).1, some (bucket.insert node).2)
  | .remove id => (bucket.remove id, none)

/-- The bucket after a sequence of calls. -/
def afterCalls (calls : List KBucketCall) : KBucket :=
  run step new calls

/-- The ids of the peers, position by position. -/
def ids (bucket : KBucket) : List NodeId :=
  peerIds bucket.peers

@[simp] theorem length_ids (bucket : KBucket) : bucket.ids.length = bucket.peers.length :=
  List.length_map _

@[simp] theorem afterCalls_concat
    (calls : List KBucketCall)
    (call : KBucketCall) :
    afterCalls (calls ++ [call]) = ((afterCalls calls).step call).1 := by
  rw [afterCalls, run_append]
  rfl

/-- The ids after the insertion of a new peer. -/
theorem ids_insert_of_not_mem
    {bucket : KBucket}
    {node : NodeInfo}
    (isNew : node.id ∉ bucket.ids) :
    (bucket.insert node).1.ids = touch skademliaK node.id bucket.ids := by
  have notFound : bucket.peers.findIdx? (fun peer => peer.id = node.id) = none := by
    rw [List.findIdx?_eq_none_iff]
    intro peer listed
    exact decide_eq_false fun same => isNew (mem_peerIds.mpr ⟨peer, listed, same⟩)
  have bounded := bucket.bounded
  change peerIds (insertPeer bucket.peers node) = _
  rw [insertPeer, notFound, touch, List.erase_of_not_mem isNew]
  change node.id :: peerIds _ = List.take (19 + 1) _
  rw [List.take_succ_cons]
  congr 1
  unfold skademliaK at bounded ⊢
  split
  · rw [ids, peerIds, peerIds, ← List.map_take, List.dropLast_eq_take]
    congr 2
    omega
  · refine (List.take_of_length_le ?_).symm
    change bucket.ids.length ≤ 19
    rw [length_ids]
    omega

/-- The ids after the insertion of a known peer. -/
theorem ids_insert_of_mem
    {bucket : KBucket}
    {node : NodeInfo}
    (known : node.id ∈ bucket.ids) :
    (bucket.insert node).1.ids = bucket.ids := by
  have kind := insert_cases bucket.bounded node
  change peerIds (insertPeer bucket.peers node) = _
  generalize insertPeer bucket.peers node = after at kind ⊢
  cases kind with
  | replaced sameIds =>
      exact sameIds
  | pushed isNew =>
      exact absurd known isNew

/-- The ids after a removal. -/
theorem ids_remove (bucket : KBucket) (id : NodeId) :
    (bucket.remove id).ids = bucket.ids.erase id := by
  change _ = (peerIds bucket.peers).erase id
  rw [bucket.distinct.erase_eq_filter]
  refine Eq.trans ?_ List.filter_map.symm
  change (List.filter _ bucket.peers).map NodeInfo.id = _
  congr 2
  funext peer
  exact decide_not

/-- Touching the first id of a bucket changes nothing. -/
theorem touch_head
    {bucket : KBucket}
    {id : NodeId}
    (isFirst : bucket.ids.head? = some id) :
    touch skademliaK id bucket.ids = bucket.ids := by
  obtain ⟨rest, shape⟩ := List.head?_eq_some_iff.mp isFirst
  rw [touch, shape, List.erase_cons_head, ← shape]
  refine List.take_of_length_le ?_
  rw [length_ids]
  exact bucket.bounded

end KBucket

open KBucket

/--
Along a run the bucket lists the ids as a least recently seen list does: those
inserted last, most recent first, and a full bucket evicts the id whose last
insertion is oldest.
-/
structure LeastRecentlySeen (calls : List KBucketCall) : Prop where
  refines :
    ∀ past, past <+: calls →
      (afterCalls past).ids = recentKeys skademliaK (past.map KBucketCall.use)
  isRecent :
    ∀ past, past <+: calls →
      IsRecent skademliaK (past.map KBucketCall.use) (afterCalls past).ids
  evictsOldest :
    ∀ past node, past ++ [.insert node] <+: calls →
      (afterCalls past).ids.length = skademliaK →
      node.id ∉ (afterCalls past).ids →
      ∃ oldest ∈ (afterCalls past).ids,
        (∀ other ∈ (afterCalls past).ids, other ≠ oldest →
          lastTouch oldest (past.map KBucketCall.use) <
            lastTouch other (past.map KBucketCall.use)) ∧
        (afterCalls (past ++ [.insert node])).ids =
          node.id :: (afterCalls past).ids.erase oldest

/-- A known id is inserted again only while it is the first of the bucket. -/
def OnlyFirstUpdated (calls : List KBucketCall) : Prop :=
  ∀ past node, past ++ [.insert node] <+: calls →
    node.id ∈ (afterCalls past).ids → (afterCalls past).ids.head? = some node.id

/-- A call that updates no peer but the first is one of a least recently seen list. -/
theorem ids_step
    {past : List KBucketCall}
    {call : KBucketCall}
    (onlyFirst :
      ∀ node, call = .insert node →
        node.id ∈ (afterCalls past).ids → (afterCalls past).ids.head? = some node.id) :
    (afterCalls (past ++ [call])).ids =
      afterUse skademliaK (afterCalls past).ids call.use := by
  rw [afterCalls_concat]
  cases call with
  | remove id =>
      exact ids_remove _ id
  | insert node =>
      by_cases known : node.id ∈ (afterCalls past).ids
      · exact (ids_insert_of_mem known).trans (touch_head (onlyFirst node rfl known)).symm
      · exact ids_insert_of_not_mem known

/-- The bucket refines the least recently seen list while only the first is updated. -/
theorem ids_afterCalls
    {calls : List KBucketCall}
    (onlyFirst : OnlyFirstUpdated calls)
    (past : List KBucketCall)
    (happened : past <+: calls) :
    (afterCalls past).ids = recentKeys skademliaK (past.map KBucketCall.use) := by
  induction past using List.reverseRecOn with
  | nil =>
      rfl
  | append_singleton past call inductionHypothesis =>
      have earlier := inductionHypothesis ((List.prefix_append past [call]).trans happened)
      rw [List.map_append, List.map_singleton, recentKeys_concat, ← earlier]
      refine ids_step ?_
      rintro node rfl
      exact onlyFirst past node happened

/-- What has just been inserted is the first of a list of the ids inserted last. -/
theorem head?_of_isRecent
    {past : List KBucketCall}
    {node : NodeInfo}
    {ids : List NodeId}
    (recent :
      IsRecent skademliaK ((past ++ [KBucketCall.insert node]).map KBucketCall.use) ids)
    (listed : node.id ∈ ids) :
    ids.head? = some node.id := by
  rw [List.map_append, List.map_singleton] at recent
  cases ids with
  | nil =>
      exact absurd listed List.not_mem_nil
  | cons first rest =>
      rw [List.head?_cons, Option.some_inj]
      by_contra differ
      have latest := recent.lastTouch_le_head listed
      have isLatest : lastTouch node.id (past.map KBucketCall.use ++ [.touch node.id]) =
          (past.map KBucketCall.use).length + 1 :=
        lastTouch_touch _ _
      have earlier : lastTouch first (past.map KBucketCall.use) ≤
          (past.map KBucketCall.use).length :=
        lastAt_le_length _ _
      rw [KBucketCall.use, isLatest, lastTouch_touch_of_ne differ] at latest
      omega

/--
A run of insertions and removals keeps the bucket a least recently seen list
exactly when no peer other than the first is inserted again.
-/
theorem leastRecentlySeen_iff (calls : List KBucketCall) :
    LeastRecentlySeen calls ↔ OnlyFirstUpdated calls := by
  constructor
  · intro seen past node happened known
    have recent := seen.isRecent _ happened
    have unchanged : (afterCalls (past ++ [.insert node])).ids = (afterCalls past).ids := by
      rw [afterCalls_concat]
      exact ids_insert_of_mem known
    rw [unchanged] at recent
    exact head?_of_isRecent recent known
  · intro onlyFirst
    have refines := ids_afterCalls onlyFirst
    have isRecent : ∀ past, past <+: calls →
        IsRecent skademliaK (past.map KBucketCall.use) (afterCalls past).ids := by
      intro past happened
      rw [refines past happened]
      exact isRecent_recentKeys _ _
    refine ⟨refines, isRecent, ?_⟩
    intro past node happened full isNew
    have earlier : past <+: calls := (List.prefix_append past [.insert node]).trans happened
    have inserted : (afterCalls (past ++ [.insert node])).ids =
        touch skademliaK node.id (afterCalls past).ids := by
      rw [afterCalls_concat]
      exact ids_insert_of_not_mem isNew
    rw [inserted]
    exact (isRecent past earlier).exists_evicted (by decide) full isNew

/-- A peer that was seen at a time. -/
def peerSeen (byte : UInt8) (lastSeen : UInt64) : NodeInfo where
  id := ⟨Bytes32.replicate byte⟩
  pubkey := []
  addr := ""
  lastSeen

/-- Two peers, the first of which is seen again. -/
def seenAgain : List KBucketCall :=
  [.insert (peerSeen 1 10), .insert (peerSeen 2 20), .insert (peerSeen 1 30)]

/-- The peer seen last stays behind the other one. -/
theorem seenAgain_not_leastRecentlySeen : ¬LeastRecentlySeen seenAgain := by
  intro seen
  exact absurd (seen.refines seenAgain (List.prefix_refl _)) (by decide)

end ScalarCore
