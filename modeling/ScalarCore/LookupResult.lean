import ScalarCore.DisjointLookup
import ScalarCore.NearestCover
import ScalarCore.RestartLog

namespace ScalarCore

/-!
# The result of a lookup

Each path keeps the closest of its own candidates only, and the result is taken
from what the paths have kept.  No closest peer is lost in this way.  A path
does not take a peer that it has already queried, so a peer that was queried
before anyone named it may be missing.
-/

open KeyedSort NearestCover

/-- `all.retain(|p| seen.insert(p.id))`: the first peer of each id. -/
def retainUnseen (seen : Finset NodeId) : List NodeInfo → List NodeInfo
  | [] => []
  | peer :: rest =>
      if peer.id ∈ seen then
        retainUnseen seen rest
      else
        peer :: retainUnseen (insert peer.id seen) rest

/-- A call of `update_path`. -/
structure PathUpdate where
  pathId : Nat
  queried : NodeId
  responses : List NodeInfo

namespace DisjointLookup

/-- `finalize`. -/
def finalize (lookup : DisjointLookup) : DisjointLookup × List NodeInfo :=
  let all := retainUnseen ∅ (lookup.paths.flatMap LookupPath.candidates)
  let closest :=
    (sortByKey (fun peer => peer.id.distance lookup.target) all).take skademliaK
  ({ lookup with found := closest }, closest)

/-- The lookup after a sequence of updates. -/
def afterUpdates
    (lookup : DisjointLookup)
    (updates : List PathUpdate) : DisjointLookup :=
  updates.foldl
    (fun lookup update =>
      lookup.updatePath update.pathId update.queried update.responses)
    lookup

end DisjointLookup

/--
An id occurred in a response to a path that had not marked it as queried, by the
update itself included.
-/
def AnsweredTo (updates : List PathUpdate) (pathId : Nat) (id : NodeId) : Prop :=
  ∃ past update future,
    updates = past ++ update :: future ∧
      update.pathId = pathId ∧ id ∈ peerIds update.responses ∧
        ∀ marked ∈ past ++ [update], marked.pathId = pathId → marked.queried ≠ id

/-- The ids that were seeds or were answered to one of the paths. -/
def KnownIds (seeds : List NodeInfo) (updates : List PathUpdate) : Set NodeId :=
  {id | id ∈ peerIds seeds ∨ ∃ pathId < skademliaD, AnsweredTo updates pathId id}

/-- The ids that were seeds or occurred in any response to one of the paths. -/
def OccurredIds (seeds : List NodeInfo) (updates : List PathUpdate) : Set NodeId :=
  {id | id ∈ peerIds seeds ∨
    ∃ update ∈ updates, update.pathId < skademliaD ∧ id ∈ peerIds update.responses}

/-- Whoever is queried was a seed or had occurred in a response. -/
def QueriesOccurred (seeds : List NodeInfo) (updates : List PathUpdate) : Prop :=
  ∀ past update future,
    updates = past ++ update :: future → update.pathId < skademliaD →
      update.queried ∈ OccurredIds seeds past

/-- The peers of which the paths start. -/
def lookupSeeds (target : NodeId) (routingTable : RoutingTable) : List NodeInfo :=
  routingTable.closestPeers target (skademliaK * skademliaD)

/-- XOR distances from one target differ. -/
theorem distance_injective (target : NodeId) :
    Function.Injective fun id : NodeId => id.distance target := by
  intro id other same
  have bytesSame := congrArg (fun id : NodeId => id.key.bytes) same
  simp only [NodeId.distance] at bytesSame
  apply NodeId.key_injective
  apply Bytes32.ext
  have lengths := id.key.length_eq.trans other.key.length_eq.symm
  refine List.ext_getElem lengths fun index inRange inRange' => ?_
  have inTarget : index < target.key.bytes.length := by
    rw [target.key.length_eq, ← id.key.length_eq]
    exact inRange
  have xorSame : id.key.bytes[index] ^^^ target.key.bytes[index] =
      other.key.bytes[index] ^^^ target.key.bytes[index] := by
    have atIndex := congrArg (fun bytes : List UInt8 => bytes[index]?) bytesSame
    simpa [List.getElem?_zipWith, inRange, inRange', inTarget] using atIndex
  have again := congrArg (· ^^^ target.key.bytes[index]) xorSame
  simpa only [UInt8.xor_assoc, UInt8.xor_self, UInt8.xor_zero] using again

/-- The ids of a list with a peer in front. -/
theorem mem_peerIds_cons
    {peer : NodeInfo}
    {rest : List NodeInfo}
    {id : NodeId} :
    id ∈ peerIds (peer :: rest) ↔ id = peer.id ∨ id ∈ peerIds rest :=
  List.mem_cons

/-- The retained peers have the ids of the list that were not seen. -/
theorem mem_peerIds_retainUnseen
    {seen : Finset NodeId}
    {peers : List NodeInfo}
    {id : NodeId} :
    id ∈ peerIds (retainUnseen seen peers) ↔ id ∈ peerIds peers ∧ id ∉ seen := by
  induction peers generalizing seen with
  | nil =>
      exact ⟨fun listed => absurd listed List.not_mem_nil, fun both => both.1⟩
  | cons peer rest inductionHypothesis =>
      rw [retainUnseen]
      split
      · rename_i isSeen
        rw [inductionHypothesis, mem_peerIds_cons]
        refine ⟨fun both => ⟨Or.inr both.1, both.2⟩, ?_⟩
        rintro ⟨rfl | later, notSeen⟩
        · exact absurd isSeen notSeen
        · exact ⟨later, notSeen⟩
      · rename_i notSeen
        rw [mem_peerIds_cons, inductionHypothesis, Finset.mem_insert, not_or,
          mem_peerIds_cons]
        by_cases same : id = peer.id
        · subst same
          simp only [true_or, notSeen, not_false_eq_true, and_self]
        · simp only [same, false_or, not_false_eq_true, true_and]

/-- No id is retained twice. -/
theorem nodup_retainUnseen
    (seen : Finset NodeId)
    (peers : List NodeInfo) :
    (peerIds (retainUnseen seen peers)).Nodup := by
  induction peers generalizing seen with
  | nil =>
      exact List.nodup_nil
  | cons peer rest inductionHypothesis =>
      rw [retainUnseen]
      split
      · exact inductionHypothesis seen
      · refine List.nodup_cons.mpr ⟨fun again => ?_, inductionHypothesis _⟩
        exact (mem_peerIds_retainUnseen.mp again).2 (Finset.mem_insert_self _ _)

/-- The ids of the closest peers of a list are the closest ids. -/
theorem peerIds_take_sortByKey
    (target : NodeId)
    (peers : List NodeInfo) :
    peerIds
        ((sortByKey (fun peer => peer.id.distance target) peers).take skademliaK) =
      (sortByKey (fun id => id.distance target) (peerIds peers)).take skademliaK := by
  rw [peerIds, List.map_take]
  exact congrArg (List.take skademliaK)
    (map_sortByKey (fun id : NodeId => id.distance target) NodeInfo.id peers)

namespace LookupPath

/-- The ids of the candidates after new peers have been pushed. -/
theorem mem_peerIds_foldl_pushCandidate
    {queried : Finset NodeId}
    {newPeers candidates : List NodeInfo}
    {id : NodeId} :
    id ∈ peerIds (newPeers.foldl (pushCandidate queried) candidates) ↔
      id ∈ peerIds candidates ∨ id ∈ peerIds newPeers ∧ id ∉ queried := by
  induction newPeers generalizing candidates with
  | nil =>
      exact ⟨Or.inl, fun either => either.resolve_right fun both =>
        List.not_mem_nil both.1⟩
  | cons peer rest inductionHypothesis =>
      have pushed : id ∈ peerIds (pushCandidate queried candidates peer) ↔
          id ∈ peerIds candidates ∨ id = peer.id ∧ id ∉ queried := by
        rw [pushCandidate]
        split
        · rename_i isNew
          rw [peerIds, List.map_append, List.mem_append, List.map_singleton,
            List.mem_singleton, ← peerIds]
          refine or_congr_right ⟨fun same => ⟨same, ?_⟩, And.left⟩
          rw [same]
          exact isNew.1
        · rename_i isOld
          refine ⟨Or.inl, ?_⟩
          rintro (known | ⟨rfl, notQueried⟩)
          · exact known
          · exact not_not.mp fun unknown => isOld ⟨notQueried, unknown⟩
      rw [List.foldl_cons, inductionHypothesis, pushed, mem_peerIds_cons, or_and_right,
        or_assoc]

/-- Pushing keeps the ids of the candidates different. -/
theorem nodup_foldl_pushCandidate
    {queried : Finset NodeId}
    {candidates : List NodeInfo}
    (nodup : (peerIds candidates).Nodup)
    (newPeers : List NodeInfo) :
    (peerIds (newPeers.foldl (pushCandidate queried) candidates)).Nodup := by
  induction newPeers generalizing candidates with
  | nil =>
      exact nodup
  | cons peer rest inductionHypothesis =>
      refine inductionHypothesis ?_
      rw [pushCandidate]
      split
      · rename_i isNew
        rw [peerIds, List.map_append, List.map_singleton, ← peerIds, ← List.concat_eq_append]
        exact nodup.concat isNew.2
      · exact nodup

end LookupPath

/-- The id was answered to the path by the last update, or before it. -/
theorem answeredTo_concat_iff
    {updates : List PathUpdate}
    {update : PathUpdate}
    {pathId : Nat}
    {id : NodeId} :
    AnsweredTo (updates ++ [update]) pathId id ↔
      AnsweredTo updates pathId id ∨
        update.pathId = pathId ∧ id ∈ peerIds update.responses ∧
          ∀ marked ∈ updates ++ [update], marked.pathId = pathId → marked.queried ≠ id := by
  constructor
  · rintro ⟨past, answer, future, split, isPath, answered, unmarked⟩
    rcases RestartLog.of_concat_eq split with ⟨rfl, rfl, rfl⟩ | ⟨rest, rfl, rfl⟩
    · exact Or.inr ⟨isPath, answered, unmarked⟩
    · exact Or.inl ⟨past, answer, rest, rfl, isPath, answered, unmarked⟩
  · rintro (⟨past, answer, future, rfl, isPath, answered, unmarked⟩ |
      ⟨isPath, answered, unmarked⟩)
    · exact ⟨past, answer, future ++ [update], List.append_assoc _ _ _, isPath, answered,
        unmarked⟩
    · exact ⟨updates, update, [], rfl, isPath, answered, unmarked⟩

/-- What a path has queried and kept after a sequence of updates. -/
structure PathCovers
    (target : NodeId)
    (seeds : List NodeInfo)
    (updates : List PathUpdate)
    (pathId : Nat)
    (path : LookupPath) : Prop where
  queried :
    ∀ id, id ∈ path.queried ↔
      ∃ update ∈ updates, update.pathId = pathId ∧ update.queried = id
  nodup : (peerIds path.candidates).Nodup
  covers :
    Covers (fun id : NodeId => id.distance target) skademliaK
      (peerIds path.candidates).toFinset
      {id | id ∈ peerIds (DisjointLookup.seedsOf seeds pathId) ∨
        AnsweredTo updates pathId id}

namespace PathCovers

variable
  {target : NodeId} {seeds : List NodeInfo} {updates : List PathUpdate}
  {pathId : Nat} {path : LookupPath}

/-- A new path has its seeds. -/
theorem start
    (distinct : (peerIds (DisjointLookup.seedsOf seeds pathId)).Nodup) :
    PathCovers target seeds [] pathId
      (LookupPath.new pathId (DisjointLookup.seedsOf seeds pathId)) where
  queried id := by
    refine iff_of_false (Finset.notMem_empty id) ?_
    rintro ⟨update, listed, -⟩
    exact absurd listed List.not_mem_nil
  nodup := distinct
  covers := by
    have noAnswer : ∀ id, ¬AnsweredTo [] pathId id := by
      rintro id ⟨past, update, future, split, -⟩
      exact absurd split.symm (by simp)
    have known : {id | id ∈ peerIds (DisjointLookup.seedsOf seeds pathId) ∨
          AnsweredTo [] pathId id} =
        ((peerIds (DisjointLookup.seedsOf seeds pathId)).toFinset : Set NodeId) := by
      ext id
      rw [Set.mem_ofPred_eq, or_iff_left (noAnswer id), List.coe_toFinset, Set.mem_ofPred_eq]
    rw [known]
    exact Covers.refl _ _ _

/-- A path that is not updated keeps what it has. -/
theorem other
    (covers : PathCovers target seeds updates pathId path)
    {update : PathUpdate}
    (isOther : update.pathId ≠ pathId) :
    PathCovers target seeds (updates ++ [update]) pathId path where
  queried id := by
    rw [covers.queried]
    simp only [List.mem_append, List.mem_singleton, or_and_right, exists_or, exists_eq_left,
      isOther, false_and, or_false]
  nodup := covers.nodup
  covers := by
    simp only [answeredTo_concat_iff, isOther, false_and, or_false]
    exact covers.covers

/-- A path that is updated covers the new answers as well. -/
theorem update
    (covers : PathCovers target seeds updates pathId path)
    {update : PathUpdate}
    (isPath : update.pathId = pathId) :
    PathCovers target seeds (updates ++ [update]) pathId
      ((path.markQueried update.queried).addCandidates update.responses target) := by
  have marked : ∀ id, id ∈ insert update.queried path.queried ↔
      ∃ marked ∈ updates ++ [update], marked.pathId = pathId ∧ marked.queried = id := by
    intro id
    rw [Finset.mem_insert, covers.queried]
    simp only [List.mem_append, List.mem_singleton, or_and_right, exists_or, exists_eq_left,
      isPath, true_and]
    rw [or_comm, eq_comm]
  generalize pool : peerIds (update.responses.foldl
    (LookupPath.pushCandidate (insert update.queried path.queried)) path.candidates) = ids
  have idsNodup : ids.Nodup := by
    rw [← pool]
    exact LookupPath.nodup_foldl_pushCandidate covers.nodup _
  have kept : peerIds
      ((path.markQueried update.queried).addCandidates update.responses target).candidates =
        (sortByKey (fun id => id.distance target) ids).take skademliaK := by
    rw [← pool]
    exact peerIds_take_sortByKey target _
  refine ⟨marked, ?_, ?_⟩
  · rw [kept]
    exact ((sortByKey_perm _ _).nodup_iff.mpr idsNodup).sublist (List.take_sublist _ _)
  · rw [kept]
    refine (covers_take_sortByKey (distance_injective target) idsNodup skademliaK).trans ?_
    -- the new answers are those that the path has not queried, this query included
    let added := (peerIds update.responses).toFinset.filter
      fun id => id ∉ insert update.queried path.queried
    have isPool : ids.toFinset = (peerIds path.candidates).toFinset ∪ added := by
      ext id
      rw [List.mem_toFinset, ← pool, LookupPath.mem_peerIds_foldl_pushCandidate,
        Finset.mem_union, List.mem_toFinset, Finset.mem_filter, List.mem_toFinset]
    have isKnown : {id | id ∈ peerIds (DisjointLookup.seedsOf seeds pathId) ∨
          AnsweredTo (updates ++ [update]) pathId id} =
        {id | id ∈ peerIds (DisjointLookup.seedsOf seeds pathId) ∨
          AnsweredTo updates pathId id} ∪ (added : Set NodeId) := by
      ext id
      have isAdded : id ∈ added ↔ id ∈ peerIds update.responses ∧
          ∀ marked ∈ updates ++ [update], marked.pathId = pathId → marked.queried ≠ id := by
        rw [Finset.mem_filter, List.mem_toFinset, marked]
        simp only [not_exists, not_and]
      rw [Set.mem_ofPred_eq, Set.mem_union, Set.mem_ofPred_eq, Finset.mem_coe, isAdded,
        answeredTo_concat_iff, and_iff_right isPath, or_assoc]
    rw [isPool, isKnown]
    exact covers.covers.union_right added

end PathCovers

namespace DisjointLookup

/-- The updated path is the one that the update names. -/
theorem afterUpdates_concat
    (lookup : DisjointLookup)
    (updates : List PathUpdate)
    (update : PathUpdate) :
    lookup.afterUpdates (updates ++ [update]) =
      (lookup.afterUpdates updates).updatePath update.pathId update.queried
        update.responses := by
  rw [afterUpdates, List.foldl_append]
  rfl

/-- An update keeps the target. -/
@[simp] theorem target_updatePath
    (lookup : DisjointLookup)
    (pathId : Nat)
    (queried : NodeId)
    (responses : List NodeInfo) :
    (lookup.updatePath pathId queried responses).target = lookup.target := by
  rw [updatePath]
  split <;> rfl

/-- An update keeps the number of the paths. -/
@[simp] theorem length_paths_updatePath
    (lookup : DisjointLookup)
    (pathId : Nat)
    (queried : NodeId)
    (responses : List NodeInfo) :
    (lookup.updatePath pathId queried responses).paths.length = lookup.paths.length := by
  rw [updatePath]
  split
  · exact List.length_set
  · rfl

/-- Every path covers what it was given, after any sequence of updates. -/
structure PathsCover
    (target : NodeId)
    (seeds : List NodeInfo)
    (updates : List PathUpdate)
    (lookup : DisjointLookup) : Prop where
  target_eq : lookup.target = target
  length_eq : lookup.paths.length = skademliaD
  each :
    ∀ pathId path, lookup.paths[pathId]? = some path →
      PathCovers target seeds updates pathId path

/-- The seeds of a path are different peers. -/
theorem nodup_seedsOf
    {seeds : List NodeInfo}
    (distinct : (peerIds seeds).Nodup)
    (pathId : Nat) :
    (peerIds (seedsOf seeds pathId)).Nodup := by
  have sublist : (seedsOf seeds pathId).Sublist seeds := by
    have kept := (List.filter_sublist (p := fun peer : NodeInfo × Nat =>
      peer.2 % skademliaD = pathId) (l := seeds.zipIdx)).map Prod.fst
    rwa [List.zipIdx_map_fst] at kept
  exact distinct.sublist (sublist.map NodeInfo.id)

/-- The paths of a lookup cover what they were given. -/
theorem pathsCover_afterUpdates
    (target : NodeId)
    (routingTable : RoutingTable)
    (updates : List PathUpdate) :
    PathsCover target (lookupSeeds target routingTable) updates
      ((new target routingTable).afterUpdates updates) := by
  induction updates using List.reverseRecOn with
  | nil =>
      refine ⟨rfl, ?_, ?_⟩
      · change ((List.range skademliaD).map _).length = skademliaD
        rw [List.length_map, List.length_range]
      · intro pathId path isPath
        rw [eq_of_getElem?_new isPath]
        exact PathCovers.start (nodup_seedsOf (routingTable.nodup_closestPeers _ _) pathId)
  | append_singleton updates update inductionHypothesis =>
      rw [afterUpdates_concat]
      refine ⟨?_, ?_, ?_⟩
      · rw [target_updatePath]
        exact inductionHypothesis.target_eq
      · rw [length_paths_updatePath]
        exact inductionHypothesis.length_eq
      · intro pathId path isPath
        by_cases same : update.pathId = pathId
        · subst same
          cases found :
              ((new target routingTable).afterUpdates updates).paths[update.pathId]? with
          | none =>
              rw [updatePath, found] at isPath
              exact absurd (found.symm.trans isPath) (Option.some_ne_none path).symm
          | some earlier =>
              rw [getElem?_updatePath_self found, Option.some_inj,
                inductionHypothesis.target_eq] at isPath
              rw [← isPath]
              exact (inductionHypothesis.each _ _ found).update rfl
        · rw [getElem?_updatePath_of_ne (Ne.symm same)] at isPath
          exact (inductionHypothesis.each pathId path isPath).other same

/-- Every seed goes to one of the paths. -/
theorem mem_seeds_iff
    {seeds : List NodeInfo}
    {id : NodeId} :
    id ∈ peerIds seeds ↔ ∃ pathId : Fin skademliaD, id ∈ peerIds (seedsOf seeds pathId) := by
  constructor
  · intro isSeed
    obtain ⟨peer, listed, rfl⟩ := mem_peerIds.mp isSeed
    obtain ⟨index, atIndex⟩ := List.mem_iff_getElem?.mp listed
    refine ⟨⟨index % skademliaD, Nat.mod_lt _ (by decide)⟩, mem_peerIds.mpr ⟨peer, ?_, rfl⟩⟩
    refine List.mem_map.mpr ⟨(peer, index), List.mem_filter.mpr ⟨?_, ?_⟩, rfl⟩
    · exact List.mem_zipIdx_iff_getElem?.mpr atIndex
    · exact decide_eq_true rfl
  · rintro ⟨pathId, isSeed⟩
    obtain ⟨peer, listed, rfl⟩ := mem_peerIds.mp isSeed
    obtain ⟨⟨peer', index⟩, kept, rfl⟩ := List.mem_map.mp listed
    have atIndex := List.mem_zipIdx_iff_getElem?.mp (List.mem_filter.mp kept).1
    exact mem_peerIds.mpr ⟨peer', List.mem_of_getElem? atIndex, rfl⟩

/-- The known ids are those of the paths together. -/
theorem knownIds_eq (seeds : List NodeInfo) (updates : List PathUpdate) :
    KnownIds seeds updates =
      {id | ∃ pathId : Fin skademliaD,
        id ∈ {id | id ∈ peerIds (seedsOf seeds pathId) ∨ AnsweredTo updates pathId id}} := by
  ext id
  rw [KnownIds, Set.mem_ofPred_eq, Set.mem_ofPred_eq, mem_seeds_iff]
  simp only [Set.mem_ofPred_eq, exists_or]
  exact or_congr_right
    ⟨fun ⟨pathId, inRange, answered⟩ => ⟨⟨pathId, inRange⟩, answered⟩,
      fun ⟨pathId, answered⟩ => ⟨pathId, pathId.isLt, answered⟩⟩

/-- The result of a lookup lists the closest of the known ids. -/
theorem isNearest_finalize
    (target : NodeId)
    (routingTable : RoutingTable)
    (updates : List PathUpdate) :
    IsNearest (fun id : NodeId => id.distance target) skademliaK
      (KnownIds (lookupSeeds target routingTable) updates)
      (peerIds ((new target routingTable).afterUpdates updates).finalize.2) := by
  have covers := pathsCover_afterUpdates target routingTable updates
  generalize (new target routingTable).afterUpdates updates = lookup at covers ⊢
  have exists_path : ∀ pathId : Fin skademliaD,
      ∃ path, lookup.paths[pathId.val]? = some path := fun pathId =>
    ⟨_, List.getElem?_eq_getElem (by rw [covers.length_eq]; exact pathId.isLt)⟩
  choose path isPath using exists_path
  let ids := peerIds (retainUnseen ∅ (lookup.paths.flatMap LookupPath.candidates))
  have idsNodup : ids.Nodup := nodup_retainUnseen _ _
  have whole : ∀ id, id ∈ ids.toFinset ↔
      ∃ pathId, id ∈ (peerIds (path pathId).candidates).toFinset := by
    intro id
    simp only [List.mem_toFinset]
    rw [mem_peerIds_retainUnseen, and_iff_left (Finset.notMem_empty id), mem_peerIds]
    constructor
    · rintro ⟨peer, listed, rfl⟩
      obtain ⟨path', isMember, isCandidate⟩ := List.mem_flatMap.mp listed
      obtain ⟨index, inRange, atIndex⟩ := List.mem_iff_getElem.mp isMember
      refine ⟨⟨index, covers.length_eq ▸ inRange⟩, mem_peerIds.mpr ⟨peer, ?_, rfl⟩⟩
      have same := isPath ⟨index, covers.length_eq ▸ inRange⟩
      rw [List.getElem?_eq_getElem inRange, atIndex, Option.some_inj] at same
      rwa [← same]
    · rintro ⟨pathId, isCandidate⟩
      obtain ⟨peer, listed, rfl⟩ := mem_peerIds.mp isCandidate
      exact ⟨peer, List.mem_flatMap.mpr
        ⟨path pathId, List.mem_of_getElem? (isPath pathId), listed⟩, rfl⟩
  have together := Covers.of_each
    (fun pathId => (covers.each _ _ (isPath pathId)).covers) whole
  have sorted := pairwise_lt_sortByKey (distance_injective target) idsNodup
  have result : peerIds lookup.finalize.2 =
      (sortByKey (fun id => id.distance target) ids).take skademliaK := by
    rw [← covers.target_eq]
    exact peerIds_take_sortByKey lookup.target _
  rw [knownIds_eq, result]
  refine isNearest_of_covers (sorted.sublist (List.take_sublist _ _))
    (List.length_take_le _ _) ?_
  exact (covers_take_sortByKey (distance_injective target) idsNodup skademliaK).trans together

end DisjointLookup

/-- What a path was answered occurred in a response. -/
theorem AnsweredTo.exists_update
    {updates : List PathUpdate}
    {pathId : Nat}
    {id : NodeId}
    (answered : AnsweredTo updates pathId id) :
    ∃ update ∈ updates, update.pathId = pathId ∧ id ∈ peerIds update.responses := by
  obtain ⟨past, update, future, rfl, isPath, listed, -⟩ := answered
  exact ⟨update, List.mem_append_right _ List.mem_cons_self, isPath, listed⟩

/-- Known ids have occurred. -/
theorem knownIds_subset (seeds : List NodeInfo) (updates : List PathUpdate) :
    KnownIds seeds updates ⊆ OccurredIds seeds updates := by
  rintro id (isSeed | ⟨pathId, inRange, answered⟩)
  · exact Or.inl isSeed
  · obtain ⟨update, listed, rfl, isResponse⟩ := answered.exists_update
    exact Or.inr ⟨update, listed, inRange, isResponse⟩

/-- More updates make more ids known. -/
theorem knownIds_subset_concat
    (seeds : List NodeInfo)
    (updates : List PathUpdate)
    (update : PathUpdate) :
    KnownIds seeds updates ⊆ KnownIds seeds (updates ++ [update]) := by
  rintro id (isSeed | ⟨pathId, inRange, answered⟩)
  · exact Or.inl isSeed
  · exact Or.inr ⟨pathId, inRange, answeredTo_concat_iff.mpr (Or.inl answered)⟩

/-- Every id that occurred is known when nobody is queried before it occurred. -/
theorem occurredIds_subset
    {seeds : List NodeInfo}
    {updates : List PathUpdate}
    (occurred : QueriesOccurred seeds updates) :
    OccurredIds seeds updates ⊆ KnownIds seeds updates := by
  induction updates using List.reverseRecOn with
  | nil =>
      rintro id (isSeed | ⟨update, listed, -⟩)
      · exact Or.inl isSeed
      · exact absurd listed List.not_mem_nil
  | append_singleton updates update inductionHypothesis =>
      have earlier : OccurredIds seeds updates ⊆ KnownIds seeds (updates ++ [update]) := by
        refine (inductionHypothesis ?_).trans (knownIds_subset_concat seeds updates update)
        intro past marked future split inRange
        refine occurred past marked (future ++ [update]) ?_ inRange
        rw [split, List.append_assoc, List.cons_append]
      rintro id (isSeed | ⟨answer, listed, inRange, isResponse⟩)
      · exact Or.inl isSeed
      · rcases List.mem_append.mp listed with wasListed | isLast
        · exact earlier (Or.inr ⟨answer, wasListed, inRange, isResponse⟩)
        · obtain rfl := List.mem_singleton.mp isLast
          by_cases isMarked : ∃ marked ∈ updates ++ [answer],
              marked.pathId = answer.pathId ∧ marked.queried = id
          · -- the id was queried before, so it had occurred before
            obtain ⟨marked, isMember, samePath, rfl⟩ := isMarked
            obtain ⟨past, future, split⟩ := List.append_of_mem isMember
            have hadOccurred := occurred past marked future split (samePath ▸ inRange)
            refine earlier ?_
            rcases hadOccurred with isSeed | ⟨before, wasBefore, beforeInRange, wasResponse⟩
            · exact Or.inl isSeed
            · refine Or.inr ⟨before, ?_, beforeInRange, wasResponse⟩
              rcases RestartLog.of_concat_eq split with ⟨rfl, -, -⟩ | ⟨rest, rfl, -⟩
              · exact wasBefore
              · exact List.mem_append_left _ wasBefore
          · refine Or.inr ⟨answer.pathId, inRange, answeredTo_concat_iff.mpr (Or.inr
              ⟨rfl, isResponse, fun marked isMember samePath same => ?_⟩)⟩
            exact isMarked ⟨marked, isMember, samePath, same⟩

/--
The result of a lookup lists the closest of the ids that were seeds or were
answered to a path that had not queried them.  Where nobody is queried before
being named, these are all ids that were seeds or occurred in a response.
-/
theorem finalize_lists_closest
    (target : NodeId)
    (routingTable : RoutingTable)
    (updates : List PathUpdate) :
    IsNearest (fun id : NodeId => id.distance target) skademliaK
        (KnownIds (lookupSeeds target routingTable) updates)
        (peerIds
          ((DisjointLookup.new target routingTable).afterUpdates updates).finalize.2) ∧
      (QueriesOccurred (lookupSeeds target routingTable) updates →
        IsNearest (fun id : NodeId => id.distance target) skademliaK
          (OccurredIds (lookupSeeds target routingTable) updates)
          (peerIds
            ((DisjointLookup.new target routingTable).afterUpdates updates).finalize.2)) := by
  have isNearest := DisjointLookup.isNearest_finalize target routingTable updates
  refine ⟨isNearest, fun occurred => ?_⟩
  rw [← (knownIds_subset _ updates).antisymm (occurredIds_subset occurred)]
  exact isNearest

/-- A peer that nobody had named is queried and answers with itself. -/
def namesItself : List PathUpdate :=
  [{ pathId := 0
     queried := ⟨Bytes32.replicate 1⟩
     responses := [⟨⟨Bytes32.replicate 1⟩, [], "", 0⟩] }]

/-- The only id that occurred is missing from the result. -/
theorem namesItself_missing :
    ¬IsNearest (fun id : NodeId => id.distance ⟨Bytes32.zero⟩) skademliaK
      (OccurredIds (lookupSeeds ⟨Bytes32.zero⟩ (.new ⟨Bytes32.zero⟩)) namesItself)
      (peerIds
        ((DisjointLookup.new ⟨Bytes32.zero⟩ (.new ⟨Bytes32.zero⟩)).afterUpdates
          namesItself).finalize.2) := by
  intro isNearest
  have noSeeds : lookupSeeds ⟨Bytes32.zero⟩ (.new ⟨Bytes32.zero⟩) = [] := by
    have noPeers : (RoutingTable.new ⟨Bytes32.zero⟩).allPeers = [] :=
      List.flatMap_eq_nil_iff.mpr fun _ _ => rfl
    rw [lookupSeeds, RoutingTable.closestPeers, noPeers, sortByKey_of_pairwise List.Pairwise.nil,
      List.take_nil]
  have listed := DisjointLookup.isNearest_finalize ⟨Bytes32.zero⟩ (.new ⟨Bytes32.zero⟩)
    namesItself
  rw [noSeeds] at listed isNearest
  have notKnown : ∀ id, id ∉ KnownIds [] namesItself := by
    rintro id (isSeed | ⟨pathId, -, past, update, future, split, isPath, answered, unmarked⟩)
    · exact absurd isSeed List.not_mem_nil
    · have isUpdate : update ∈ namesItself := by
        rw [split]
        exact List.mem_append_right _ List.mem_cons_self
      obtain rfl := List.mem_singleton.mp isUpdate
      obtain rfl := List.mem_singleton.mp answered
      exact unmarked _ (List.mem_append_right _ List.mem_cons_self) isPath rfl
  have occurred : (⟨Bytes32.replicate 1⟩ : NodeId) ∈ OccurredIds [] namesItself :=
    Or.inr ⟨_, List.mem_cons_self, by decide, List.mem_cons_self⟩
  generalize peerIds _ = ids at isNearest listed
  have none_listed : ids = [] :=
    List.eq_nil_iff_forall_not_mem.mpr fun id isListed => notKnown id (listed.subset id isListed)
  subst none_listed
  exact absurd (isNearest.nearest _ occurred List.not_mem_nil).1 (by decide)

end ScalarCore
