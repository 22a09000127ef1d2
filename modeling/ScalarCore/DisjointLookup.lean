import ScalarCore.RoutingTable
import ScalarCore.StateMachine
import Mathlib.Data.Finset.Insert

namespace ScalarCore

/-!
# The three paths of a lookup

A lookup starts three paths from different peers.  A path adds what its peers
answer to its candidates, after a look at its own peers only, and so an answer
can bring the peer of one path to another one.  The paths stay disjoint where
no answer names a peer that is known to another path.
-/

open KeyedSort StateMachine

/-- One path: the ids it queried, and the best peers it knows. -/
structure LookupPath where
  pathId : Nat
  queried : Finset NodeId
  candidates : List NodeInfo

namespace LookupPath

/-- `new`. -/
def new (pathId : Nat) (seeds : List NodeInfo) : LookupPath where
  pathId
  queried := ∅
  candidates := seeds

/-- `next_to_query`: the first candidates that were not queried. -/
def nextToQuery (path : LookupPath) (alpha : Nat) : List NodeInfo :=
  (path.candidates.filter fun peer => peer.id ∉ path.queried).take alpha

/-- `mark_queried`. -/
def markQueried (path : LookupPath) (id : NodeId) : LookupPath :=
  { path with queried := insert id path.queried }

/-- A peer joins the candidates of a path that does not know it. -/
def pushCandidate
    (queried : Finset NodeId)
    (candidates : List NodeInfo)
    (peer : NodeInfo) : List NodeInfo :=
  if peer.id ∉ queried ∧ peer.id ∉ peerIds candidates then
    candidates ++ [peer]
  else
    candidates

/-- `add_candidates`: the closest of the old and the new candidates. -/
def addCandidates
    (path : LookupPath)
    (newPeers : List NodeInfo)
    (target : NodeId) : LookupPath :=
  let candidates :=
    newPeers.foldl (pushCandidate path.queried) path.candidates
  { path with
    candidates :=
      (sortByKey (fun peer => peer.id.distance target) candidates).take
        skademliaK }

/-- The path has queried the peer or has it as a candidate. -/
def Has (path : LookupPath) (id : NodeId) : Prop :=
  id ∈ path.queried ∨ id ∈ peerIds path.candidates

/-- A new path has its seeds. -/
theorem has_new
    {pathId : Nat}
    {seeds : List NodeInfo}
    {id : NodeId} :
    (new pathId seeds).Has id ↔ id ∈ peerIds seeds :=
  or_iff_right (Finset.notMem_empty id)

/-- What is offered for a query is a candidate. -/
theorem has_of_mem_nextToQuery
    {path : LookupPath}
    {alpha : Nat}
    {peer : NodeInfo}
    (listed : peer ∈ path.nextToQuery alpha) :
    path.Has peer.id :=
  .inr
    (mem_peerIds.mpr
      ⟨peer, List.mem_of_mem_filter (List.mem_of_mem_take listed), rfl⟩)

/-- A candidate is an old one or a new peer. -/
theorem mem_foldl_pushCandidate
    {queried : Finset NodeId}
    {newPeers candidates : List NodeInfo}
    {peer : NodeInfo}
    (listed : peer ∈ newPeers.foldl (pushCandidate queried) candidates) :
    peer ∈ candidates ∨ peer ∈ newPeers := by
  induction newPeers generalizing candidates with
  | nil =>
      exact .inl listed
  | cons newPeer rest inductionHypothesis =>
      rcases inductionHypothesis listed with known | isNew
      · rw [pushCandidate] at known
        split at known
        · rcases List.mem_append.mp known with known | pushed
          · exact .inl known
          · exact .inr (List.mem_cons.mpr (.inl (List.mem_singleton.mp pushed)))
        · exact .inl known
      · exact .inr (List.mem_cons_of_mem newPeer isNew)

/-- Candidates that stand in order and fit are kept as they are. -/
theorem addCandidates_of_ascending
    {path : LookupPath}
    {newPeers candidates : List NodeInfo}
    {target : NodeId}
    (added :
      newPeers.foldl (pushCandidate path.queried) path.candidates =
        candidates)
    (ascending :
      candidates.Pairwise fun peer other =>
        peer.id.distance target ≤ other.id.distance target)
    (fits : candidates.length ≤ skademliaK) :
    path.addCandidates newPeers target = { path with candidates } := by
  rw [addCandidates, added, sortByKey_of_pairwise ascending,
    List.take_of_length_le fits]

/-- After an update a path has what it had, the queried peer and answers. -/
theorem has_of_has_update
    {path : LookupPath}
    {queried : NodeId}
    {responses : List NodeInfo}
    {target id : NodeId}
    (has :
      ((path.markQueried queried).addCandidates responses target).Has id) :
    path.Has id ∨ id = queried ∨ id ∈ peerIds responses := by
  rcases has with isQueried | isCandidate
  · rcases Finset.mem_insert.mp isQueried with isNew | wasQueried
    · exact .inr (.inl isNew)
    · exact .inl (.inl wasQueried)
  · rcases mem_peerIds.mp isCandidate with ⟨peer, listed, rfl⟩
    have inFold := mem_sortByKey.mp (List.mem_of_mem_take listed)
    rcases mem_foldl_pushCandidate inFold with known | answered
    · exact .inl (.inr (mem_peerIds.mpr ⟨peer, known, rfl⟩))
    · exact .inr (.inr (mem_peerIds.mpr ⟨peer, answered, rfl⟩))

end LookupPath

/-- A lookup, path by path. -/
structure DisjointLookup where
  target : NodeId
  paths : List LookupPath
  found : List NodeInfo

namespace DisjointLookup

/-- The peers of a list whose position belongs to a path. -/
def seedsOf (allClosest : List NodeInfo) (pathId : Nat) : List NodeInfo :=
  (allClosest.zipIdx.filter fun peer => peer.2 % skademliaD = pathId).map
    Prod.fst

/-- `new`: the closest peers go to the paths in turn. -/
def new (target : NodeId) (routingTable : RoutingTable) : DisjointLookup :=
  let allClosest :=
    routingTable.closestPeers target (skademliaK * skademliaD)
  { target
    paths :=
      (List.range skademliaD).map fun pathId =>
        LookupPath.new pathId (seedsOf allClosest pathId)
    found := [] }

/-- `next_queries`: the paths that have something to query. -/
def nextQueries (lookup : DisjointLookup) : List (Nat × List NodeInfo) :=
  (lookup.paths.map fun path =>
      (path.pathId, path.nextToQuery lookupAlpha)).filter
    fun query => !query.2.isEmpty

/-- `update_path`: nothing happens to a path that does not exist. -/
def updatePath
    (lookup : DisjointLookup)
    (pathId : Nat)
    (queried : NodeId)
    (responses : List NodeInfo) : DisjointLookup :=
  match lookup.paths[pathId]? with
  | some path =>
      { lookup with
        paths :=
          lookup.paths.set pathId
            ((path.markQueried queried).addCandidates responses
              lookup.target) }
  | none => lookup

/-- No peer was queried by two paths. -/
def QueriedDisjoint (lookup : DisjointLookup) : Prop :=
  lookup.paths.Pairwise fun path other => Disjoint path.queried other.queried

/-- The paths at two indices queried different peers. -/
theorem QueriedDisjoint.disjoint_of_ne
    {lookup : DisjointLookup}
    (disjoint : lookup.QueriedDisjoint)
    {index index' : Nat}
    (different : index ≠ index')
    {path path' : LookupPath}
    (isPath : lookup.paths[index]? = some path)
    (isPath' : lookup.paths[index']? = some path') :
    Disjoint path.queried path'.queried := by
  rw [QueriedDisjoint, List.pairwise_iff_getElem] at disjoint
  rcases List.getElem?_eq_some_iff.mp isPath with ⟨inRange, rfl⟩
  rcases List.getElem?_eq_some_iff.mp isPath' with ⟨inRange', rfl⟩
  rcases Nat.lt_or_gt_of_ne different with before | after
  · exact disjoint index index' inRange inRange' before
  · exact (disjoint index' index inRange' inRange after).symm

/-- A new lookup has one path for each index, with its seeds. -/
theorem eq_of_getElem?_new
    {target : NodeId}
    {routingTable : RoutingTable}
    {index : Nat}
    {path : LookupPath}
    (isPath : (new target routingTable).paths[index]? = some path) :
    path =
      .new index
        (seedsOf
          (routingTable.closestPeers target (skademliaK * skademliaD))
          index) := by
  rw [new, List.getElem?_map, Option.map_eq_some_iff] at isPath
  rcases isPath with ⟨pathId, inRange, rfl⟩
  rcases List.getElem?_eq_some_iff.mp inRange with ⟨_, isIndex⟩
  rw [List.getElem_range] at isIndex
  rw [isIndex]

/-- An update changes its own path. -/
theorem getElem?_updatePath_self
    {lookup : DisjointLookup}
    {pathId : Nat}
    {path : LookupPath}
    (isPath : lookup.paths[pathId]? = some path)
    (queried : NodeId)
    (responses : List NodeInfo) :
    (lookup.updatePath pathId queried responses).paths[pathId]? =
      some
        ((path.markQueried queried).addCandidates responses
          lookup.target) := by
  rcases List.getElem?_eq_some_iff.mp isPath with ⟨inRange, _⟩
  rw [updatePath, isPath]
  exact List.getElem?_set_self inRange

/-- An update leaves the other paths alone. -/
theorem getElem?_updatePath_of_ne
    {lookup : DisjointLookup}
    {pathId index : Nat}
    (different : index ≠ pathId)
    (queried : NodeId)
    (responses : List NodeInfo) :
    (lookup.updatePath pathId queried responses).paths[index]? =
      lookup.paths[index]? := by
  rw [updatePath]
  split
  · exact List.getElem?_set_ne (Ne.symm different)
  · rfl

/-- Where a path comes from after an update. -/
theorem getElem?_updatePath
    {lookup : DisjointLookup}
    {pathId index : Nat}
    {queried : NodeId}
    {responses : List NodeInfo}
    {path : LookupPath}
    (isPath :
      (lookup.updatePath pathId queried responses).paths[index]? =
        some path) :
    lookup.paths[index]? = some path ∨
      pathId = index ∧
        ∃ path',
          lookup.paths[index]? = some path' ∧
            path =
              (path'.markQueried queried).addCandidates responses
                lookup.target := by
  by_cases same : pathId = index
  · subst same
    cases found : lookup.paths[pathId]? with
    | none =>
        rw [updatePath, found] at isPath
        exact absurd (found.symm.trans isPath) (Option.some_ne_none path).symm
    | some path' =>
        rw [getElem?_updatePath_self found, Option.some_inj] at isPath
        exact .inr ⟨rfl, path', rfl, isPath.symm⟩
  · rw [getElem?_updatePath_of_ne (Ne.symm same)] at isPath
    exact .inl isPath

/-- The seeds of two paths have no id in common. -/
theorem eq_of_mem_seedsOf
    {allClosest : List NodeInfo}
    (distinct : (peerIds allClosest).Nodup)
    {pathId pathId' : Nat}
    {id : NodeId}
    (isSeed : id ∈ peerIds (seedsOf allClosest pathId))
    (isSeed' : id ∈ peerIds (seedsOf allClosest pathId')) :
    pathId = pathId' := by
  have position
      {pathId : Nat}
      (isSeed : id ∈ peerIds (seedsOf allClosest pathId)) :
      ∃ index,
        (peerIds allClosest)[index]? = some id ∧
          index % skademliaD = pathId := by
    rcases mem_peerIds.mp isSeed with ⟨peer, listed, rfl⟩
    rcases List.mem_map.mp listed with ⟨⟨peer', index⟩, kept, rfl⟩
    rcases List.mem_filter.mp kept with ⟨atIndex, isPath⟩
    refine ⟨index, ?_, of_decide_eq_true isPath⟩
    rw [peerIds, List.getElem?_map,
      List.mem_zipIdx_iff_getElem?.mp atIndex, Option.map_some]
  rcases position isSeed with ⟨index, atIndex, rfl⟩
  rcases position isSeed' with ⟨index', atIndex', rfl⟩
  have sameIndex : index = index' := by
    rcases List.getElem?_eq_some_iff.mp atIndex with ⟨inRange, _⟩
    exact
      (List.getElem?_inj inRange distinct).mp (atIndex.trans atIndex'.symm)
  rw [sameIndex]

end DisjointLookup

/-- A call of the owner of a lookup. -/
inductive LookupCall where
  | nextQueries
  | updatePath
      (pathId : Nat)
      (queried : NodeId)
      (responses : List NodeInfo)

/-- A lookup with the peers offered so far, each with its path. -/
structure LookupRun where
  lookup : DisjointLookup
  offered : List (Nat × NodeId)

namespace LookupRun

/-- A new lookup, nothing offered. -/
def start (target : NodeId) (routingTable : RoutingTable) : LookupRun where
  lookup := .new target routingTable
  offered := []

/-- The offers of a list of queries. -/
def offersOf (queries : List (Nat × List NodeInfo)) : List (Nat × NodeId) :=
  queries.flatMap fun query => query.2.map fun peer => (query.1, peer.id)

/-- One call. -/
def step (lookupRun : LookupRun) :
    LookupCall → LookupRun × Option (List (Nat × List NodeInfo))
  | .nextQueries =>
      let queries := lookupRun.lookup.nextQueries
      ({ lookupRun with
          offered := lookupRun.offered ++ offersOf queries },
        some queries)
  | .updatePath pathId queried responses =>
      ({ lookupRun with
          lookup := lookupRun.lookup.updatePath pathId queried responses },
        none)

/-- A path queries what it was offered. -/
def QueriesOffered (lookupRun : LookupRun) : LookupCall → Prop
  | .nextQueries => True
  | .updatePath pathId queried _ => (pathId, queried) ∈ lookupRun.offered

instance (lookupRun : LookupRun) (call : LookupCall) :
    Decidable (lookupRun.QueriesOffered call) :=
  match call with
  | .nextQueries => inferInstanceAs (Decidable True)
  | .updatePath pathId queried _ =>
      inferInstanceAs (Decidable ((pathId, queried) ∈ lookupRun.offered))

/-- A path has the peer, or was offered it. -/
def KnownTo (lookupRun : LookupRun) (pathId : Nat) (id : NodeId) : Prop :=
  (pathId, id) ∈ lookupRun.offered ∨
    ∃ path, lookupRun.lookup.paths[pathId]? = some path ∧ path.Has id

/-- No answer names a peer that another path knows. -/
def AnswersApart (lookupRun : LookupRun) : LookupCall → Prop
  | .nextQueries => True
  | .updatePath pathId _ responses =>
      ∀ id ∈ peerIds responses,
        ∀ other, other ≠ pathId → ¬ lookupRun.KnownTo other id

/-- Each peer is known to one path. -/
structure Separate (lookupRun : LookupRun) : Prop where
  pathId_eq :
    ∀ index, ∀ path : LookupPath,
      lookupRun.lookup.paths[index]? = some path → path.pathId = index
  eq_of_knownTo :
    ∀ index index' id,
      lookupRun.KnownTo index id →
      lookupRun.KnownTo index' id →
      index = index'

/-- The paths start apart. -/
theorem separate_start (target : NodeId) (routingTable : RoutingTable) :
    Separate (start target routingTable) := by
  have seedOf
      {index : Nat}
      {id : NodeId}
      (known : (start target routingTable).KnownTo index id) :
      id ∈
        peerIds
          (DisjointLookup.seedsOf
            (routingTable.closestPeers target (skademliaK * skademliaD))
            index) := by
    rcases known with offered | ⟨path, isPath, has⟩
    · cases offered
    · rw [DisjointLookup.eq_of_getElem?_new isPath] at has
      exact LookupPath.has_new.mp has
  refine ⟨fun index path isPath => ?_, fun index index' id known known' => ?_⟩
  · rw [DisjointLookup.eq_of_getElem?_new isPath]
    rfl
  · exact
      DisjointLookup.eq_of_mem_seedsOf
        (routingTable.nodup_closestPeers target _)
        (seedOf known) (seedOf known')

/-- A path is offered peers that it has. -/
theorem Separate.knownTo_of_offer
    {lookupRun : LookupRun}
    (separate : Separate lookupRun)
    {pathId : Nat}
    {id : NodeId}
    (offer : (pathId, id) ∈ offersOf lookupRun.lookup.nextQueries) :
    lookupRun.KnownTo pathId id := by
  rcases List.mem_flatMap.mp offer with ⟨query, isQuery, isOffer⟩
  rcases List.mem_map.mp isOffer with ⟨peer, listed, same⟩
  cases same
  rcases List.mem_map.mp (List.mem_of_mem_filter isQuery) with
    ⟨path, isPath, rfl⟩
  rcases List.mem_iff_getElem?.mp isPath with ⟨index, atIndex⟩
  have isIndex : path.pathId = index := separate.pathId_eq index path atIndex
  refine .inr ⟨path, ?_, LookupPath.has_of_mem_nextToQuery listed⟩
  rw [isIndex, atIndex]

/-- A peer becomes known to a path by an answer to it. -/
theorem Separate.knownTo_before_step
    {lookupRun : LookupRun}
    (separate : Separate lookupRun)
    {call : LookupCall}
    (queriesOffered : lookupRun.QueriesOffered call)
    {index : Nat}
    {id : NodeId}
    (known : (lookupRun.step call).1.KnownTo index id) :
    lookupRun.KnownTo index id ∨
      ∃ queried responses,
        call = .updatePath index queried responses ∧
          id ∈ peerIds responses := by
  cases call with
  | nextQueries =>
      rcases known with offered | has
      · rcases List.mem_append.mp offered with before | now
        · exact .inl (.inl before)
        · exact .inl (separate.knownTo_of_offer now)
      · exact .inl (.inr has)
  | updatePath pathId queried responses =>
      rcases known with offered | ⟨path, isPath, has⟩
      · exact .inl (.inl offered)
      · change
          (lookupRun.lookup.updatePath pathId queried
              responses).paths[index]? = some path at isPath
        rcases DisjointLookup.getElem?_updatePath isPath with
          before | ⟨rfl, path', before, rfl⟩
        · exact .inl (.inr ⟨path, before, has⟩)
        · rcases LookupPath.has_of_has_update has with
            had | rfl | answered
          · exact .inl (.inr ⟨path', before, had⟩)
          · exact .inl (.inl queriesOffered)
          · exact .inr ⟨queried, responses, rfl, answered⟩

/-- Answers that stay apart keep the paths apart. -/
theorem Separate.step
    {lookupRun : LookupRun}
    (separate : Separate lookupRun)
    {call : LookupCall}
    (queriesOffered : lookupRun.QueriesOffered call)
    (answersApart : lookupRun.AnswersApart call) :
    Separate (lookupRun.step call).1 := by
  refine ⟨fun index path isPath => ?_, fun index index' id known known' => ?_⟩
  · cases call with
    | nextQueries =>
        exact separate.pathId_eq index path isPath
    | updatePath pathId queried responses =>
        rcases DisjointLookup.getElem?_updatePath isPath with
          before | ⟨_, path', before, rfl⟩
        · exact separate.pathId_eq index path before
        · exact separate.pathId_eq index path' before
  · rcases separate.knownTo_before_step queriesOffered known with
      before | ⟨queried, responses, isUpdate, answered⟩ <;>
      rcases separate.knownTo_before_step queriesOffered known' with
        before' | ⟨queried', responses', isUpdate', answered'⟩
    · exact separate.eq_of_knownTo index index' id before before'
    · subst isUpdate'
      by_contra different
      exact answersApart id answered' index different before
    · subst isUpdate
      by_contra different
      exact answersApart id answered index' (Ne.symm different) before'
    · rw [isUpdate] at isUpdate'
      cases isUpdate'
      rfl

/-- Where each peer is known to one path, no peer was queried by two. -/
theorem Separate.queriedDisjoint
    {lookupRun : LookupRun}
    (separate : Separate lookupRun) :
    lookupRun.lookup.QueriedDisjoint := by
  rw [DisjointLookup.QueriedDisjoint, List.pairwise_iff_getElem]
  intro index index' inRange inRange' before
  rw [Finset.disjoint_left]
  intro id isQueried isQueried'
  have same : index = index' :=
    separate.eq_of_knownTo index index' id
      (.inr ⟨_, List.getElem?_eq_getElem inRange, .inl isQueried⟩)
      (.inr ⟨_, List.getElem?_eq_getElem inRange', .inl isQueried'⟩)
  exact absurd same before.ne

/-- Where no answer names a peer of another path, the paths stay disjoint. -/
theorem queriedDisjoint_of_answersApart
    {target : NodeId}
    {routingTable : RoutingTable}
    {calls : List LookupCall}
    (queriesOffered :
      EveryStep step QueriesOffered (start target routingTable) calls)
    (answersApart :
      EveryStep step AnswersApart (start target routingTable) calls) :
    (run step (start target routingTable)
      calls).lookup.QueriedDisjoint := by
  have separate :
      Separate (run step (start target routingTable) calls) :=
    (queriesOffered.and answersApart).run_invariant
      (fun _ _ allowed separate => separate.step allowed.1 allowed.2)
      (separate_start target routingTable)
  exact separate.queriedDisjoint

/-- A peer that was offered to two paths can be queried by both. -/
theorem not_queriedDisjoint_of_offered
    {lookupRun : LookupRun}
    {index index' : Nat}
    (different : index ≠ index')
    {path path' : LookupPath}
    (isPath : lookupRun.lookup.paths[index]? = some path)
    (isPath' : lookupRun.lookup.paths[index']? = some path')
    {id : NodeId}
    (offered : (index, id) ∈ lookupRun.offered)
    (offered' : (index', id) ∈ lookupRun.offered) :
    ∃ calls,
      EveryStep step QueriesOffered lookupRun calls ∧
        ¬ (run step lookupRun calls).lookup.QueriedDisjoint := by
  refine
    ⟨[.updatePath index id [], .updatePath index' id []],
      ⟨offered, offered', trivial⟩, fun disjoint => ?_⟩
  have isQueried :=
    (DisjointLookup.getElem?_updatePath_of_ne different id []).trans
      (DisjointLookup.getElem?_updatePath_self isPath id [])
  have isQueried' :=
    DisjointLookup.getElem?_updatePath_self
      ((DisjointLookup.getElem?_updatePath_of_ne (Ne.symm different) id
          []).trans isPath') id []
  exact
    Finset.disjoint_left.mp
      (disjoint.disjoint_of_ne different isQueried isQueried')
      (Finset.mem_insert_self _ _) (Finset.mem_insert_self _ _)

/-- A peer whose id ends in a byte. -/
def samplePeer (byte : UInt8) : NodeInfo where
  id := ⟨Bytes32.endingIn byte⟩
  pubkey := []
  addr := ""
  lastSeen := 0

/-- The id of the local node and of the target. -/
def zeroId : NodeId where
  key := Bytes32.zero

/-- A table of two peers. -/
def sampleTable : RoutingTable :=
  (((RoutingTable.new zeroId).insert (samplePeer 1)).1.insert
    (samplePeer 2)).1

/-- Two paths start with one peer each, the third has none. -/
theorem start_sampleTable :
    start zeroId sampleTable =
      { lookup := {
          target := zeroId
          paths := [
            .new 0 [samplePeer 1],
            .new 1 [samplePeer 2],
            .new 2 []]
          found := [] }
        offered := [] } := by
  have listed :
      sampleTable.allPeers = [samplePeer 1, samplePeer 2] := by
    decide +kernel
  rw [start, DisjointLookup.new, RoutingTable.closestPeers, listed,
    sortByKey_of_pairwise (by decide)]
  rfl

/-- The first path learns a new peer, the second one nothing. -/
theorem queriedDisjoint_of_answersApart_sample :
    (run step (start zeroId sampleTable) [
        .nextQueries,
        .updatePath 0 (samplePeer 1).id [samplePeer 3],
        .updatePath 1 (samplePeer 2).id []]).lookup.QueriedDisjoint := by
  apply queriedDisjoint_of_answersApart
  · rw [start_sampleTable]
    exact ⟨trivial, by decide, by decide, trivial⟩
  · rw [start_sampleTable]
    refine ⟨trivial, ?answer, ?noAnswer, trivial⟩
    case answer =>
      intro id answered other _ known
      rcases mem_peerIds.mp answered with ⟨peer, listed, rfl⟩
      rcases List.mem_singleton.mp listed with rfl
      rcases known with offered | ⟨path, isPath, has⟩
      · change
          (other, (samplePeer 3).id) ∈
            [(0, (samplePeer 1).id), (1, (samplePeer 2).id)] at offered
        simp only [List.mem_cons, Prod.mk.injEq, List.not_mem_nil,
          or_false] at offered
        rcases offered with ⟨_, same⟩ | ⟨_, same⟩ <;>
          exact absurd same (by decide)
      · have isOne := List.mem_of_getElem? isPath
        change
          path ∈ [
            LookupPath.new 0 [samplePeer 1],
            LookupPath.new 1 [samplePeer 2],
            LookupPath.new 2 []] at isOne
        simp only [List.mem_cons, List.not_mem_nil, or_false] at isOne
        rcases isOne with rfl | rfl | rfl <;>
          exact absurd (LookupPath.has_new.mp has) (by decide)
    case noAnswer =>
      intro id answered
      cases answered

/-- The first path is told of the peer of the second, and queries it too. -/
def sharedAnswer : List LookupCall := [
  .nextQueries,
  .updatePath 0 (samplePeer 1).id [samplePeer 2],
  .nextQueries,
  .updatePath 0 (samplePeer 2).id [],
  .updatePath 1 (samplePeer 2).id []]

/-- Every query was offered, and two paths query one peer. -/
theorem sharedAnswer_not_disjoint :
    EveryStep step QueriesOffered (start zeroId sampleTable) sharedAnswer ∧
      ¬ (run step (start zeroId sampleTable)
          sharedAnswer).lookup.QueriedDisjoint := by
  have joined :
      ((LookupPath.new 0 [samplePeer 1]).markQueried
          (samplePeer 1).id).addCandidates [samplePeer 2] zeroId =
        { pathId := 0
          queried := {(samplePeer 1).id}
          candidates := [samplePeer 1, samplePeer 2] } :=
    LookupPath.addCandidates_of_ascending rfl (by decide) (by decide)
  rw [start_sampleTable]
  refine ⟨⟨trivial, by decide, trivial, ?_, ?_, trivial⟩, ?_⟩
  · refine List.mem_append_right _ ?_
    change
      (0, (samplePeer 2).id) ∈
        offersOf
          (DisjointLookup.nextQueries {
            target := zeroId
            paths := [
              ((LookupPath.new 0 [samplePeer 1]).markQueried
                (samplePeer 1).id).addCandidates [samplePeer 2] zeroId,
              .new 1 [samplePeer 2],
              .new 2 []]
            found := [] })
    rw [joined]
    decide
  · exact List.mem_append_left _ (by decide)
  · intro disjoint
    have apart := (List.pairwise_cons.mp disjoint).1 _ List.mem_cons_self
    exact
      Finset.disjoint_left.mp apart (Finset.mem_insert_self _ _)
        (Finset.mem_insert_self _ _)

end LookupRun

end ScalarCore
