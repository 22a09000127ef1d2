import ScalarCore.Bytes
import ScalarCore.KeyedSort
import Mathlib.Data.Fintype.Fin
import Mathlib.Data.List.FinRange
import Mathlib.Data.Nat.Log

namespace ScalarCore

/-!
# The routing table of S/Kademlia

A peer is kept in the bucket that its distance from the local node selects.  A
bucket holds at most `SKADEMLIA_K` peers, each id once, and the index of a
bucket is a function of the id, so the whole table holds each id once.
-/

open KeyedSort

/-- `SKADEMLIA_D`: the lookup paths. -/
def skademliaD : Nat :=
  3

/-- `SKADEMLIA_K`: the size of a bucket. -/
def skademliaK : Nat :=
  20

/-- `KEY_BITS`. -/
def keyBits : Nat :=
  256

/-- `ALPHA`: the queries a path makes at a time. -/
def lookupAlpha : Nat :=
  3

/-- A 256-bit node identifier. -/
structure NodeId where
  key : Bytes32
  deriving DecidableEq

namespace NodeId

theorem key_injective : Function.Injective key := by
  rintro ⟨key⟩ ⟨key'⟩ same
  exact congrArg NodeId.mk same

/-- Ids are compared as their arrays. -/
instance : LinearOrder NodeId :=
  LinearOrder.lift' key key_injective

/-- `distance`: the XOR metric. -/
def distance (id other : NodeId) : NodeId where
  key := {
    bytes := List.zipWith (· ^^^ ·) id.key.bytes other.key.bytes
    length_eq := by
      rw [List.length_zipWith, id.key.length_eq, other.key.length_eq,
        min_self] }

/-- `u8::leading_zeros`. -/
def leadingZerosByte (byte : UInt8) : Nat :=
  if byte = 0 then
    8
  else
    7 - byte.toNat.log2

/-- `leading_zeros`. -/
def leadingZeros (id : NodeId) : Nat :=
  match id.key.bytes.findIdx? fun byte => byte != 0 with
  | some index => index * 8 + leadingZerosByte (id.key.byteAt index)
  | none => keyBits

/-- `bucket_index`: always the index of a bucket. -/
def bucketIndex (id other : NodeId) : Fin keyBits :=
  let lz := (id.distance other).leadingZeros
  if keyBits ≤ lz then
    ⟨0, by decide⟩
  else
    ⟨keyBits - 1 - lz, by unfold keyBits; omega⟩

end NodeId

/-- A peer record. -/
structure NodeInfo where
  id : NodeId
  pubkey : List UInt8
  addr : String
  lastSeen : UInt64
  deriving DecidableEq

/-- The ids of a list of peers, position by position. -/
def peerIds (peers : List NodeInfo) : List NodeId :=
  peers.map NodeInfo.id

@[simp] theorem mem_peerIds
    {peers : List NodeInfo}
    {id : NodeId} :
    id ∈ peerIds peers ↔ ∃ peer ∈ peers, peer.id = id :=
  List.mem_map

/-- `KBucket::insert` on the list of peers: a known id keeps its position. -/
def insertPeer (peers : List NodeInfo) (node : NodeInfo) : List NodeInfo :=
  match peers.findIdx? fun peer => peer.id = node.id with
  | some pos => peers.set pos node
  | none =>
      node ::
        if skademliaK ≤ peers.length then
          peers.dropLast
        else
          peers

/-- What an insertion does to the list of peers. -/
inductive InsertCases (peers : List NodeInfo) (node : NodeInfo) :
    List NodeInfo → Prop where
  /-- The id is known; its record is replaced where it stands. -/
  | replaced
      {pos : Nat}
      (sameIds : peerIds (peers.set pos node) = peerIds peers) :
      InsertCases peers node (peers.set pos node)
  /-- The id is new; a full bucket loses its last peer. -/
  | pushed
      {kept : List NodeInfo}
      (isNew : node.id ∉ peerIds peers)
      (sublist : kept.Sublist peers)
      (room : kept.length < skademliaK) :
      InsertCases peers node (node :: kept)

/-- Every insertion is of one of these kinds. -/
theorem insert_cases
    {peers : List NodeInfo}
    (bounded : peers.length ≤ skademliaK)
    (node : NodeInfo) :
    InsertCases peers node (insertPeer peers node) := by
  rw [insertPeer]
  cases position : peers.findIdx? fun peer => peer.id = node.id with
  | some pos =>
      rcases List.findIdx?_eq_some_iff_getElem.mp position with
        ⟨inRange, isSame, _⟩
      refine .replaced ?_
      have inIds : pos < (peerIds peers).length := by
        rwa [peerIds, List.length_map]
      have sameId : node.id = (peerIds peers)[pos] := by
        simpa [peerIds] using (of_decide_eq_true isSame).symm
      rw [peerIds, List.map_set, sameId]
      exact List.set_getElem_self _
  | none =>
      have isNew : node.id ∉ peerIds peers := by
        rw [mem_peerIds]
        rintro ⟨peer, listed, same⟩
        have notSame := List.findIdx?_eq_none_iff.mp position peer listed
        exact of_decide_eq_false notSame same
      refine .pushed isNew ?_ ?_
      · split
        · exact List.dropLast_sublist peers
        · exact List.Sublist.refl peers
      · unfold skademliaK at bounded ⊢
        split
        · rw [List.length_dropLast]
          omega
        · omega

/-- An insertion adds the node at most. -/
theorem mem_of_mem_insertPeer
    {peers : List NodeInfo}
    {node peer : NodeInfo}
    (listed : peer ∈ insertPeer peers node) :
    peer = node ∨ peer ∈ peers := by
  rw [insertPeer] at listed
  split at listed
  · rcases List.mem_or_eq_of_mem_set listed with known | isNode
    · exact .inr known
    · exact .inl isNode
  · rcases List.mem_cons.mp listed with isNode | known
    · exact .inl isNode
    · split at known
      · exact .inr (List.mem_of_mem_dropLast known)
      · exact .inr known

/-- An insertion keeps the ids different. -/
theorem nodup_insertPeer
    {peers : List NodeInfo}
    (bounded : peers.length ≤ skademliaK)
    (distinct : (peerIds peers).Nodup)
    (node : NodeInfo) :
    (peerIds (insertPeer peers node)).Nodup := by
  have kind : InsertCases peers node _ := insert_cases bounded node
  generalize insertPeer peers node = after at kind ⊢
  cases kind with
  | replaced sameIds =>
      rwa [sameIds]
  | pushed isNew sublist room =>
      have idSublist := sublist.map NodeInfo.id
      exact
        List.nodup_cons.mpr
          ⟨fun listed => isNew (idSublist.subset listed),
            distinct.sublist idSublist⟩

/-- An insertion keeps the size of the bucket. -/
theorem length_insertPeer_le
    {peers : List NodeInfo}
    (bounded : peers.length ≤ skademliaK)
    (node : NodeInfo) :
    (insertPeer peers node).length ≤ skademliaK := by
  have kind : InsertCases peers node _ := insert_cases bounded node
  generalize insertPeer peers node = after at kind ⊢
  cases kind with
  | replaced sameIds =>
      rwa [List.length_set]
  | pushed isNew sublist room =>
      exact room

/-- `KBucket`: at most `SKADEMLIA_K` peers, each id once. -/
structure KBucket where
  peers : List NodeInfo
  distinct : (peerIds peers).Nodup
  bounded : peers.length ≤ skademliaK

namespace KBucket

/-- `new`. -/
def new : KBucket where
  peers := []
  distinct := List.nodup_nil
  bounded := Nat.zero_le _

/-- `insert`: the answer is always `true`. -/
def insert (bucket : KBucket) (node : NodeInfo) : KBucket × Bool :=
  ({ peers := insertPeer bucket.peers node
     distinct := nodup_insertPeer bucket.bounded bucket.distinct node
     bounded := length_insertPeer_le bucket.bounded node },
    true)

/-- `remove`. -/
def remove (bucket : KBucket) (id : NodeId) : KBucket where
  peers := bucket.peers.filter fun peer => peer.id ≠ id
  distinct := bucket.distinct.sublist (List.filter_sublist.map _)
  bounded := (List.length_filter_le _ _).trans bucket.bounded

end KBucket

/-- The peers that the local node knows, each in the bucket of its id. -/
structure RoutingTable where
  localId : NodeId
  buckets : Fin keyBits → KBucket
  placed :
    ∀ index, ∀ peer ∈ (buckets index).peers,
      peer.id ≠ localId ∧ localId.bucketIndex peer.id = index

namespace RoutingTable

/-- `new`. -/
def new (localId : NodeId) : RoutingTable where
  localId
  buckets _ := .new
  placed _ _ listed := absurd listed List.not_mem_nil

/-- Another bucket at an index, with peers that belong there. -/
def setBucket
    (table : RoutingTable)
    (index : Fin keyBits)
    (bucket : KBucket)
    (placed :
      ∀ peer ∈ bucket.peers,
        peer.id ≠ table.localId ∧
          table.localId.bucketIndex peer.id = index) :
    RoutingTable where
  localId := table.localId
  buckets := Function.update table.buckets index bucket
  placed := by
    intro index' peer listed
    by_cases same : index' = index
    · subst same
      rw [Function.update_self] at listed
      exact placed peer listed
    · rw [Function.update_of_ne same] at listed
      exact table.placed index' peer listed

/-- `insert`: the local node is not added. -/
def insert (table : RoutingTable) (node : NodeInfo) : RoutingTable × Bool :=
  if isLocal : node.id = table.localId then
    (table, false)
  else
    let bucketIdx := table.localId.bucketIndex node.id
    let bucket := table.buckets bucketIdx
    (table.setBucket bucketIdx (bucket.insert node).1 (by
        intro peer listed
        rcases mem_of_mem_insertPeer listed with rfl | known
        · exact ⟨isLocal, rfl⟩
        · exact table.placed bucketIdx peer known),
      (bucket.insert node).2)

/-- `remove`. -/
def remove (table : RoutingTable) (id : NodeId) : RoutingTable :=
  if id = table.localId then
    table
  else
    let bucketIdx := table.localId.bucketIndex id
    table.setBucket bucketIdx ((table.buckets bucketIdx).remove id)
      fun peer listed =>
        table.placed bucketIdx peer (List.mem_of_mem_filter listed)

/-- `all_peers`: bucket by bucket. -/
def allPeers (table : RoutingTable) : List NodeInfo :=
  (List.finRange keyBits).flatMap fun index => (table.buckets index).peers

/-- `closest_peers`: at most `count` peers, the closest to the target first. -/
def closestPeers
    (table : RoutingTable)
    (target : NodeId)
    (count : Nat) : List NodeInfo :=
  (sortByKey (fun peer => peer.id.distance target) table.allPeers).take count

/-- The table holds each id once. -/
theorem nodup_allPeers (table : RoutingTable) :
    (peerIds table.allPeers).Nodup := by
  rw [peerIds, allPeers, List.map_flatMap, List.nodup_flatMap]
  refine ⟨fun index _ => (table.buckets index).distinct, ?_⟩
  refine (List.nodup_finRange keyBits).imp ?_
  intro index index' different
  rw [Function.onFun, List.disjoint_left]
  intro id inBucket inBucket'
  rcases mem_peerIds.mp inBucket with ⟨peer, listed, rfl⟩
  rcases mem_peerIds.mp inBucket' with ⟨peer', listed', same⟩
  have placed := (table.placed index peer listed).2
  have placed' := (table.placed index' peer' listed').2
  rw [same] at placed'
  exact different (placed.symm.trans placed')

/-- The closest peers are different ones. -/
theorem nodup_closestPeers
    (table : RoutingTable)
    (target : NodeId)
    (count : Nat) :
    (peerIds (table.closestPeers target count)).Nodup := by
  have sorted :
      (peerIds
        (sortByKey (fun peer => peer.id.distance target)
          table.allPeers)).Nodup :=
    ((sortByKey_perm _ _).map _).nodup_iff.mpr table.nodup_allPeers
  exact sorted.sublist ((List.take_sublist _ _).map _)

end RoutingTable

end ScalarCore
