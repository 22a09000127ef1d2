import ScalarCore.KeyedWrites
import ScalarCore.Smt
import ScalarCore.StateMachine

namespace ScalarCore

/-!
# Peers of four tiers

A peer is trusted as far as its tier, which a manifest raises or lowers.  The tier of a
node follows from the calls that name the node and from the manifests, whatever the other
peers are and in whatever order the hash maps are gone through.  Between two manifests a
node outside the last one is trusted for consensus only when it is stored or promoted so.
-/

open KeyedWrites StateMachine

/-- `PeerTier`. -/
inductive PeerTier where
  | manifest
  | nmt
  | bootstrap
  | kademlia
  deriving DecidableEq

namespace PeerTier

/-- `is_consensus_eligible`. -/
def isConsensusEligible (tier : PeerTier) : Bool :=
  tier = .manifest

/-- `is_nmt_eligible`. -/
def isNmtEligible (tier : PeerTier) : Bool :=
  tier = .manifest ∨ tier = .nmt

/-- `is_sync_eligible`. -/
def isSyncEligible (tier : PeerTier) : Bool :=
  tier = .manifest ∨ tier = .nmt ∨ tier = .bootstrap

end PeerTier

/-- `PeerRecord`. -/
structure PeerRecord where
  nodeId : Bytes32
  tier : PeerTier
  addr : String
  pubkey : List UInt8
  lastSeen : UInt64
  nodeScore : UInt64
  deriving DecidableEq

/-- `HybridPeerStore`. -/
structure HybridPeerStore where
  peers : Finmap fun _ : Bytes32 => PeerRecord

/-- A call that changes the store. -/
inductive PeerCall where
  | upsert (record : PeerRecord)
  | remove (nodeId : Bytes32)
  | promoteToManifest (nodeId : Bytes32)
  | syncWithManifest (manifestNodeIds : Finset Bytes32)

namespace HybridPeerStore

/-- `new`. -/
def new : HybridPeerStore where
  peers := ∅

/-- `upsert`. -/
def upsert (store : HybridPeerStore) (record : PeerRecord) : HybridPeerStore where
  peers := store.peers.insert record.nodeId record

/-- `remove`. -/
def remove (store : HybridPeerStore) (nodeId : Bytes32) : HybridPeerStore where
  peers := store.peers.erase nodeId

/-- `promote_to_manifest`. -/
def promoteToManifest
    (store : HybridPeerStore)
    (nodeId : Bytes32) : HybridPeerStore × Bool :=
  match store.peers.lookup nodeId with
  | some peer =>
      ({ peers := store.peers.insert nodeId { peer with tier := .manifest } }, true)
  | none =>
      (store, false)

/-- One round of the first loop of `sync_with_manifest`. -/
def demoted (manifestNodeIds : Finset Bytes32) (peer : PeerRecord) : PeerRecord :=
  if peer.tier = .manifest ∧ peer.nodeId ∉ manifestNodeIds then
    { peer with tier := .bootstrap }
  else
    peer

/-- `sync_with_manifest`. -/
def syncWithManifest
    (order : IterationOrder)
    (store : HybridPeerStore)
    (manifestNodeIds : Finset Bytes32) : HybridPeerStore :=
  let store : HybridPeerStore :=
    { peers := updateValues (fun peer => some (demoted manifestNodeIds peer)) store.peers }
  (order.list manifestNodeIds).foldl (fun store nodeId => (store.promoteToManifest nodeId).1)
    store

/-- Perform a call; only a promotion answers. -/
def perform
    (order : IterationOrder)
    (store : HybridPeerStore) : PeerCall → HybridPeerStore × Option Bool
  | .upsert record => (store.upsert record, none)
  | .remove nodeId => (store.remove nodeId, none)
  | .promoteToManifest nodeId =>
      ((store.promoteToManifest nodeId).1, some (store.promoteToManifest nodeId).2)
  | .syncWithManifest manifestNodeIds => (store.syncWithManifest order manifestNodeIds, none)

/-- The peers whose tier passes, in the order of the map. -/
def peersWhere
    (order : IterationOrder)
    (store : HybridPeerStore)
    (eligible : PeerTier → Bool) : List PeerRecord :=
  ((itemsAt store.peers (order.list store.peers.keys)).map Prod.snd).filter fun peer =>
    eligible peer.tier

/-- `consensus_peers`. -/
def consensusPeers (order : IterationOrder) (store : HybridPeerStore) : List PeerRecord :=
  store.peersWhere order PeerTier.isConsensusEligible

/-- `nmt_peers`. -/
def nmtPeers (order : IterationOrder) (store : HybridPeerStore) : List PeerRecord :=
  store.peersWhere order PeerTier.isNmtEligible

/-- `sync_peers`. -/
def syncPeers (order : IterationOrder) (store : HybridPeerStore) : List PeerRecord :=
  store.peersWhere order PeerTier.isSyncEligible

end HybridPeerStore

/-!
## What is stored of one node
-/

/-- What a call makes of the record of a node. -/
def PeerCall.follow
    (nodeId : Bytes32)
    (record : Option PeerRecord) : PeerCall → Option PeerRecord
  | .upsert upserted => if upserted.nodeId = nodeId then some upserted else record
  | .remove removed => if removed = nodeId then none else record
  | .promoteToManifest promoted =>
      if promoted = nodeId then
        record.map fun peer => { peer with tier := .manifest }
      else
        record
  | .syncWithManifest manifestNodeIds =>
      record.map fun peer =>
        if nodeId ∈ manifestNodeIds then
          { peer with tier := .manifest }
        else if peer.tier = .manifest then
          { peer with tier := .bootstrap }
        else
          peer

/-- The record of a node after calls. -/
def recordAfter (nodeId : Bytes32) (calls : List PeerCall) : Option PeerRecord :=
  calls.foldl (PeerCall.follow nodeId) none

/-- A call makes a node a peer of consensus by itself. -/
def PeerCall.Grants (nodeId : Bytes32) : PeerCall → Prop
  | .upsert record => record.nodeId = nodeId ∧ record.tier = .manifest
  | .promoteToManifest promoted => promoted = nodeId
  | _ => False

/-- A call is not that of a new manifest. -/
def PeerCall.KeepsManifest : PeerCall → Prop
  | .syncWithManifest _ => False
  | _ => True

/-- What the store shows after calls. -/
structure Trusts (calls : List PeerCall) (store : HybridPeerStore) : Prop where
  follows : ∀ nodeId, store.peers.lookup nodeId = recordAfter nodeId calls
  consensus :
    ∀ order record,
      record ∈ store.consensusPeers order ↔
        recordAfter record.nodeId calls = some record ∧ record.tier = .manifest
  within :
    ∀ order record,
      (record ∈ store.consensusPeers order → record ∈ store.nmtPeers order) ∧
        (record ∈ store.nmtPeers order → record ∈ store.syncPeers order)
  granted :
    ∀ order before manifestNodeIds after,
      calls = before ++ .syncWithManifest manifestNodeIds :: after →
      (∀ call ∈ after, call.KeepsManifest) →
      ∀ record ∈ store.consensusPeers order,
        record.nodeId ∈ manifestNodeIds ∨ ∃ call ∈ after, call.Grants record.nodeId

/-- What is stored under a node id is a record of that node. -/
theorem nodeId_of_recordAfter
    {nodeId : Bytes32}
    {calls : List PeerCall}
    {record : PeerRecord}
    (stored : recordAfter nodeId calls = some record) :
    record.nodeId = nodeId := by
  induction calls using List.reverseRecOn generalizing record with
  | nil =>
      cases stored
  | append_singleton calls call inductionHypothesis =>
      rw [recordAfter, List.foldl_concat, ← recordAfter] at stored
      cases call with
      | upsert upserted =>
          rw [PeerCall.follow] at stored
          split at stored
          · next same =>
              cases stored
              exact same
          · exact inductionHypothesis stored
      | remove removed =>
          rw [PeerCall.follow] at stored
          split at stored
          · cases stored
          · exact inductionHypothesis stored
      | promoteToManifest promoted =>
          rw [PeerCall.follow] at stored
          split at stored
          · obtain ⟨peer, found, rfl⟩ := Option.map_eq_some_iff.mp stored
            exact @inductionHypothesis peer found
          · exact inductionHypothesis stored
      | syncWithManifest manifestNodeIds =>
          rw [PeerCall.follow] at stored
          obtain ⟨peer, found, same⟩ := Option.map_eq_some_iff.mp stored
          have isNode := @inductionHypothesis peer found
          split at same
          · rw [← same]
            exact isNode
          · split at same
            · rw [← same]
              exact isNode
            · rw [← same]
              exact isNode

/-- Without a grant a node outside the last manifest is no peer of consensus. -/
theorem granted_of_recordAfter
    {nodeId : Bytes32}
    {before after : List PeerCall}
    {manifestNodeIds : Finset Bytes32}
    (keepsManifest : ∀ call ∈ after, call.KeepsManifest)
    {record : PeerRecord}
    (stored :
      recordAfter nodeId (before ++ .syncWithManifest manifestNodeIds :: after) =
        some record)
    (isManifest : record.tier = .manifest) :
    nodeId ∈ manifestNodeIds ∨ ∃ call ∈ after, call.Grants nodeId := by
  induction after using List.reverseRecOn generalizing record with
  | nil =>
      rw [recordAfter, List.foldl_append, List.foldl_cons, List.foldl_nil,
        PeerCall.follow] at stored
      obtain ⟨peer, _, same⟩ := Option.map_eq_some_iff.mp stored
      by_cases listed : nodeId ∈ manifestNodeIds
      · exact Or.inl listed
      · rw [if_neg listed] at same
        split at same
        · cases same
          cases isManifest
        · next other =>
            cases same
            exact absurd isManifest other
  | append_singleton after call inductionHypothesis =>
      have keepsEarlier : ∀ call ∈ after, call.KeepsManifest :=
        fun earlier listed => keepsManifest earlier (List.mem_append_left _ listed)
      have keeps : call.KeepsManifest :=
        keepsManifest call (List.mem_append_right _ List.mem_cons_self)
      have earlier
          (last : PeerCall)
          {record : PeerRecord}
          (stored :
            recordAfter nodeId (before ++ .syncWithManifest manifestNodeIds :: after) =
              some record)
          (isManifest : record.tier = .manifest) :
          nodeId ∈ manifestNodeIds ∨ ∃ call ∈ after ++ [last], call.Grants nodeId :=
        (inductionHypothesis keepsEarlier stored isManifest).imp_right
          fun ⟨grant, listed, grants⟩ => ⟨grant, List.mem_append_left _ listed, grants⟩
      have isLast : call ∈ after ++ [call] :=
        List.mem_append_right _ List.mem_cons_self
      rw [recordAfter, ← List.cons_append, ← List.append_assoc, List.foldl_concat,
        ← recordAfter] at stored
      cases call with
      | upsert upserted =>
          rw [PeerCall.follow] at stored
          split at stored
          · next same =>
              cases stored
              exact Or.inr ⟨_, isLast, same, isManifest⟩
          · exact earlier _ stored isManifest
      | remove removed =>
          rw [PeerCall.follow] at stored
          split at stored
          · cases stored
          · exact earlier _ stored isManifest
      | promoteToManifest promoted =>
          rw [PeerCall.follow] at stored
          split at stored
          · next same =>
              exact Or.inr ⟨_, isLast, same⟩
          · exact earlier _ stored isManifest
      | syncWithManifest manifestNodeIds' =>
          exact keeps.elim

namespace HybridPeerStore

variable {store : HybridPeerStore} {order : IterationOrder}

/-- Every record is stored under the node that it is of. -/
def Keyed (store : HybridPeerStore) : Prop :=
  ∀ nodeId record, store.peers.lookup nodeId = some record → record.nodeId = nodeId

theorem lookup_promoteToManifest (promoted nodeId : Bytes32) :
    (store.promoteToManifest promoted).1.peers.lookup nodeId =
      if promoted = nodeId then
        (store.peers.lookup nodeId).map fun peer => { peer with tier := .manifest }
      else
        store.peers.lookup nodeId := by
  rw [promoteToManifest]
  by_cases same : promoted = nodeId
  · subst same
    cases found : store.peers.lookup promoted with
    | none =>
        rw [if_pos rfl, Option.map_none, found]
    | some peer =>
        rw [if_pos rfl, Option.map_some, Finmap.lookup_insert]
  · cases store.peers.lookup promoted with
    | none =>
        rw [if_neg same]
    | some peer =>
        rw [if_neg same, Finmap.lookup_insert_of_ne _ (Ne.symm same)]

/-- Promoting one after the other promotes each listed node. -/
theorem lookup_foldl_promote (nodeIds : List Bytes32) (nodeId : Bytes32) :
    (nodeIds.foldl (fun store nodeId => (store.promoteToManifest nodeId).1)
        store).peers.lookup nodeId =
      if nodeId ∈ nodeIds then
        (store.peers.lookup nodeId).map fun peer => { peer with tier := .manifest }
      else
        store.peers.lookup nodeId := by
  induction nodeIds generalizing store with
  | nil =>
      rfl
  | cons first rest inductionHypothesis =>
      rw [List.foldl_cons, inductionHypothesis, lookup_promoteToManifest]
      by_cases isFirst : first = nodeId
      · subst isFirst
        rw [if_pos rfl, if_pos List.mem_cons_self, Option.map_map]
        split <;> rfl
      · rw [if_neg isFirst]
        simp only [List.mem_cons, Ne.symm isFirst, false_or]

/-- A call changes the record of each node as it does for that node alone. -/
theorem lookup_perform
    (keyed : store.Keyed)
    (call : PeerCall)
    (nodeId : Bytes32) :
    (store.perform order call).1.peers.lookup nodeId =
      call.follow nodeId (store.peers.lookup nodeId) := by
  cases call with
  | upsert record =>
      rw [perform, upsert, PeerCall.follow]
      by_cases same : record.nodeId = nodeId
      · rw [if_pos same, same, Finmap.lookup_insert]
      · rw [if_neg same, Finmap.lookup_insert_of_ne _ (Ne.symm same)]
  | remove removed =>
      rw [perform, remove, PeerCall.follow]
      by_cases same : removed = nodeId
      · rw [if_pos same, same, Finmap.lookup_erase]
      · rw [if_neg same, Finmap.lookup_erase_ne (Ne.symm same)]
  | promoteToManifest promoted =>
      rw [perform, lookup_promoteToManifest, PeerCall.follow]
  | syncWithManifest manifestNodeIds =>
      rw [perform, syncWithManifest, lookup_foldl_promote, lookup_updateValues,
        PeerCall.follow]
      simp only [order.mem_list]
      cases found : store.peers.lookup nodeId with
      | none =>
          split <;> rfl
      | some peer =>
          have isNode := keyed nodeId peer found
          rw [Option.bind_some, Option.map_some, Option.map_some]
          by_cases listed : nodeId ∈ manifestNodeIds
          · have same : demoted manifestNodeIds peer = peer :=
              if_neg fun both => both.2 (isNode.symm ▸ listed)
            rw [if_pos listed, if_pos listed, same]
          · rw [if_neg listed, if_neg listed, demoted, isNode]
            by_cases isManifest : peer.tier = .manifest
            · rw [if_pos ⟨isManifest, listed⟩, if_pos isManifest]
            · rw [if_neg fun both => isManifest both.1, if_neg isManifest]

/-- After calls the store holds of each node what the calls make of it. -/
theorem lookup_run (calls : List PeerCall) (nodeId : Bytes32) :
    (run (perform order) new calls).peers.lookup nodeId = recordAfter nodeId calls := by
  induction calls using List.reverseRecOn generalizing nodeId with
  | nil =>
      exact Finmap.lookup_empty nodeId
  | append_singleton calls call inductionHypothesis =>
      have keyed : (run (perform order) new calls).Keyed := by
        intro nodeId record stored
        rw [inductionHypothesis] at stored
        exact nodeId_of_recordAfter stored
      rw [run_append, run_cons, run_nil, lookup_perform keyed, inductionHypothesis,
        recordAfter, recordAfter, List.foldl_concat]

/-- A listed peer is one that is stored and passes. -/
theorem mem_peersWhere
    (keyed : store.Keyed)
    {eligible : PeerTier → Bool}
    {record : PeerRecord} :
    record ∈ store.peersWhere order eligible ↔
      store.peers.lookup record.nodeId = some record ∧ eligible record.tier = true := by
  rw [peersWhere, List.mem_filter]
  refine and_congr_left fun _ => ?_
  rw [List.mem_map]
  constructor
  · rintro ⟨⟨nodeId, _⟩, isItem, rfl⟩
    obtain ⟨_, found⟩ := mem_itemsAt.mp isItem
    rw [keyed nodeId _ found]
    exact found
  · intro found
    refine ⟨(record.nodeId, record), mem_itemsAt.mpr ⟨?_, found⟩, rfl⟩
    rw [order.mem_list, Finmap.mem_keys, ← Finmap.lookup_isSome, found]
    rfl

/--
After any calls the store holds of each node what the calls naming it and the manifests
make of it, in whatever order the maps are gone through.  Its peers of consensus are
those stored in the manifest tier, among those for the network time, among those for
synchronization; one that is not in the last manifest was granted that tier since.
-/
theorem store_trusts (order : IterationOrder) (calls : List PeerCall) :
    Trusts calls (run (perform order) new calls) := by
  have keyed : (run (perform order) new calls).Keyed := by
    intro nodeId record stored
    rw [lookup_run] at stored
    exact nodeId_of_recordAfter stored
  have consensus (order' : IterationOrder) (record : PeerRecord) :
      record ∈ (run (perform order) new calls).consensusPeers order' ↔
        recordAfter record.nodeId calls = some record ∧ record.tier = .manifest := by
    rw [consensusPeers, mem_peersWhere keyed, lookup_run, PeerTier.isConsensusEligible,
      decide_eq_true_iff]
  refine
    { follows := lookup_run calls
      consensus
      within := ?_
      granted := ?_ }
  · intro order' record
    rw [consensusPeers, nmtPeers, syncPeers, mem_peersWhere keyed, mem_peersWhere keyed,
      mem_peersWhere keyed]
    refine ⟨And.imp_right fun passes => ?_, And.imp_right fun passes => ?_⟩
    · exact decide_eq_true (Or.inl (of_decide_eq_true passes))
    · rcases of_decide_eq_true passes with isManifest | isNmt
      · exact decide_eq_true (Or.inl isManifest)
      · exact decide_eq_true (Or.inr (Or.inl isNmt))
  · rintro order' before manifestNodeIds after rfl keepsManifest record listed
    obtain ⟨stored, isManifest⟩ := (consensus order' record).mp listed
    exact granted_of_recordAfter keepsManifest stored isManifest

end HybridPeerStore

end ScalarCore
