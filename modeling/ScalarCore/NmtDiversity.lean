import ScalarCore.NmtHybrid
import ScalarCore.ProductionNmt

namespace ScalarCore

/-!
# Diversity of the network-time peers

The counters of the loop over the ranked nodes stand for the nodes picked so
far, and so the deterministic slots keep the limits per subnet, autonomous
system and region.  The random slot is drawn from all eligible nodes that are
left; it may take one more node of each.
-/

/-- `all_peers`. -/
def NmtSelectionResult.allPeers (result : NmtSelectionResult) : List Bytes32 :=
  result.deterministicSlots ++ result.randomSlot.toList

/-- The candidates among a list of ids that have a property. -/
def countAmong
    (candidates : List NmtNodeCandidate)
    (ids : List Bytes32)
    (shares : NmtNodeCandidate → Bool) : Nat :=
  candidates.countP fun candidate => ids.contains candidate.nodeIdFull && shares candidate

/-- The peers keep the diversity limits, or exceed each of them by the slack at most. -/
structure WithinLimits
    (candidates : List NmtNodeCandidate)
    (ids : List Bytes32)
    (slack : Nat) : Prop where
  subnet24 :
    ∀ subnet, countAmong candidates ids (fun candidate => candidate.subnet24 = subnet) ≤
      nmtMaxPerSubnet24 + slack
  asn :
    ∀ asn, countAmong candidates ids (fun candidate => candidate.asn = asn) ≤
      nmtMaxPerAsn + slack
  region :
    ∀ region, countAmong candidates ids (fun candidate => candidate.region = region) ≤
      nmtMaxPerRegion + slack

/-- One more node of the kind of a candidate keeps the limits. -/
structure HasRoom
    (candidates : List NmtNodeCandidate)
    (ids : List Bytes32)
    (candidate : NmtNodeCandidate) : Prop where
  subnet24 :
    countAmong candidates ids (fun other => other.subnet24 = candidate.subnet24) <
      nmtMaxPerSubnet24
  asn :
    countAmong candidates ids (fun other => other.asn = candidate.asn) < nmtMaxPerAsn
  region :
    countAmong candidates ids (fun other => other.region = candidate.region) <
      nmtMaxPerRegion

/-- The picked nodes reach one of the limits of a candidate. -/
def NoRoom (picked : List NmtNodeCandidate) (candidate : NmtNodeCandidate) : Prop :=
  nmtMaxPerSubnet24 ≤ (picked.countP fun other => other.subnet24 = candidate.subnet24) ∨
    nmtMaxPerAsn ≤ (picked.countP fun other => other.asn = candidate.asn) ∨
    nmtMaxPerRegion ≤ (picked.countP fun other => other.region = candidate.region)

/-- More nodes leave no more room. -/
theorem NoRoom.append
    {picked : List NmtNodeCandidate}
    {candidate : NmtNodeCandidate}
    (noRoom : NoRoom picked candidate)
    (more : List NmtNodeCandidate) :
    NoRoom (picked ++ more) candidate := by
  simp only [NoRoom, List.countP_append]
  rcases noRoom with subnet | asn | region
  · exact .inl (Nat.le_add_right_of_le subnet)
  · exact .inr (.inl (Nat.le_add_right_of_le asn))
  · exact .inr (.inr (Nat.le_add_right_of_le region))

/-- The filled slots and the counters stand for a list of picked nodes within the limits. -/
structure SlotState.Represents
    (state : SlotState)
    (picked : List NmtNodeCandidate) : Prop where
  slots : state.deterministicSlots = picked.map NmtNodeCandidate.nodeIdFull
  subnet24 :
    ∀ subnet, state.subnet24Counts subnet =
      picked.countP fun candidate => candidate.subnet24 = subnet
  asn : ∀ asn, state.asnCounts asn = picked.countP fun candidate => candidate.asn = asn
  region :
    ∀ region, state.regionCounts region =
      picked.countP fun candidate => candidate.region = region
  subnet24_le : ∀ subnet, state.subnet24Counts subnet ≤ nmtMaxPerSubnet24
  asn_le : ∀ asn, state.asnCounts asn ≤ nmtMaxPerAsn
  region_le : ∀ region, state.regionCounts region ≤ nmtMaxPerRegion

/-- Counting one more is counting the longer list. -/
theorem countOne_eq_countP
    {Key : Type}
    [DecidableEq Key]
    {keyOf : NmtNodeCandidate → Key}
    {counts : Key → Nat}
    {picked : List NmtNodeCandidate}
    (counted : ∀ key, counts key = picked.countP fun candidate => keyOf candidate = key)
    (candidate : NmtNodeCandidate)
    (key : Key) :
    countOne counts (keyOf candidate) key =
      (picked ++ [candidate]).countP fun candidate => keyOf candidate = key := by
  rw [List.countP_append, ← counted, List.countP_singleton, countOne]
  by_cases same : key = keyOf candidate
  · subst same
    rw [Function.update_self, if_pos (decide_eq_true rfl)]
  · rw [Function.update_of_ne same, if_neg (by simpa using Ne.symm same), Nat.add_zero]

/-- Counting one more keeps a limit that was not reached. -/
theorem countOne_le
    {Key : Type}
    [DecidableEq Key]
    {counts : Key → Nat}
    {limit : Nat}
    (bounded : ∀ key, counts key ≤ limit)
    {present : Key}
    (room : ¬limit ≤ counts present)
    (key : Key) :
    countOne counts present key ≤ limit := by
  rw [countOne]
  by_cases same : key = present
  · subst same
    rw [Function.update_self]
    omega
  · rw [Function.update_of_ne same]
    exact bounded key

namespace SlotState.Represents

variable {state : SlotState} {picked : List NmtNodeCandidate}

/-- The empty state stands for no node. -/
theorem empty : SlotState.empty.Represents [] where
  slots := rfl
  subnet24 _ := rfl
  asn _ := rfl
  region _ := rfl
  subnet24_le _ := Nat.zero_le _
  asn_le _ := Nat.zero_le _
  region_le _ := Nat.zero_le _

/-- A visit picks the node, or passes it over for want of room. -/
theorem visit
    (represents : state.Represents picked)
    (candidate : NmtNodeCandidate) :
    ∃ more, (more = [] ∧ NoRoom picked candidate ∨ more = [candidate]) ∧
      (state.visit candidate).Represents (picked ++ more) := by
  have unchanged : state.Represents (picked ++ []) := by
    rwa [List.append_nil]
  rw [SlotState.visit]
  split
  · rename_i subnetFull
    rw [represents.subnet24] at subnetFull
    exact ⟨[], .inl ⟨rfl, .inl subnetFull⟩, unchanged⟩
  · rename_i subnetRoom
    split
    · rename_i asnFull
      rw [represents.asn] at asnFull
      exact ⟨[], .inl ⟨rfl, .inr (.inl asnFull)⟩, unchanged⟩
    · rename_i asnRoom
      split
      · rename_i regionFull
        rw [represents.region] at regionFull
        exact ⟨[], .inl ⟨rfl, .inr (.inr regionFull)⟩, unchanged⟩
      · rename_i regionRoom
        refine ⟨[candidate], .inr rfl, ?_⟩
        exact
          { slots := by rw [represents.slots, List.map_append, List.map_singleton]
            subnet24 := countOne_eq_countP represents.subnet24 candidate
            asn := countOne_eq_countP represents.asn candidate
            region := countOne_eq_countP represents.region candidate
            subnet24_le := countOne_le represents.subnet24_le subnetRoom
            asn_le := countOne_le represents.asn_le asnRoom
            region_le := countOne_le represents.region_le regionRoom }

/--
The loop picks some of the ranked nodes, in their order.  While slots are free it passes
over none that has room.
-/
theorem exists_fillSlots
    (represents : state.Represents picked)
    (short : picked.length ≤ nmtDeterministicSlots)
    (ranked : List (NmtNodeCandidate × Bytes32)) :
    ∃ more, more.Sublist (ranked.map Prod.fst) ∧
      (picked ++ more).length ≤ nmtDeterministicSlots ∧
      ((picked ++ more).length < nmtDeterministicSlots →
        ∀ candidate ∈ ranked.map Prod.fst,
          candidate ∈ picked ++ more ∨ NoRoom (picked ++ more) candidate) ∧
      ∃ final : SlotState, final.Represents (picked ++ more) ∧
        fillSlots state ranked = final.deterministicSlots := by
  induction ranked generalizing state picked with
  | nil =>
      refine ⟨[], List.Sublist.refl _, ?_, nofun, state, ?_, rfl⟩
      · rwa [List.append_nil]
      · rwa [List.append_nil]
  | cons entry rest inductionHypothesis =>
      obtain ⟨candidate, rank⟩ := entry
      rw [fillSlots]
      split
      · rename_i filled
        rw [represents.slots, List.length_map] at filled
        refine ⟨[], List.nil_sublist _, ?_, fun free => ?_, state, ?_, rfl⟩
        · rwa [List.append_nil]
        · rw [List.append_nil] at free
          exact absurd free (not_lt.mpr filled)
        · rwa [List.append_nil]
      · rename_i room
        rw [represents.slots, List.length_map, not_le] at room
        obtain ⟨first, isFirst, visited⟩ := represents.visit candidate
        have firstShort : (picked ++ first).length ≤ nmtDeterministicSlots := by
          rcases isFirst with ⟨rfl, -⟩ | rfl
          · rwa [List.append_nil]
          · rw [List.length_append, List.length_singleton]
            omega
        obtain ⟨more, sublist, bounded, passedOver, final, finalRepresents, filled⟩ :=
          inductionHypothesis visited firstShort
        rw [List.append_assoc] at bounded passedOver finalRepresents
        refine ⟨first ++ more, ?_, bounded, fun free => ?_, final, finalRepresents, filled⟩
        · rw [List.map_cons]
          rcases isFirst with ⟨rfl, -⟩ | rfl
          · exact sublist.cons _
          · exact sublist.cons_cons _
        · rw [List.map_cons, List.forall_mem_cons]
          refine ⟨?_, passedOver free⟩
          rcases isFirst with ⟨-, noRoom⟩ | rfl
          · exact .inr (noRoom.append _)
          · exact .inl (List.mem_append_right _ List.mem_cons_self)

end SlotState.Represents

section Selected

variable
  {blake3 : List UInt8 → Bytes32}
  {chacha20 : Bytes32 → Nat → UInt64}
  {candidates picked extra : List NmtNodeCandidate}
  {seedK : Bytes32}

/-- Counting among the ids of different candidates is counting the candidates. -/
theorem countAmong_eq_countP
    (distinctIds : (candidates.map NmtNodeCandidate.nodeIdFull).Nodup)
    (listed : ∀ candidate ∈ picked, candidate ∈ candidates)
    (nodup : (picked.map NmtNodeCandidate.nodeIdFull).Nodup)
    (shares : NmtNodeCandidate → Bool) :
    countAmong candidates (picked.map NmtNodeCandidate.nodeIdFull) shares =
      picked.countP shares := by
  have chosen :
      (candidates.filter fun candidate =>
        (picked.map NmtNodeCandidate.nodeIdFull).contains candidate.nodeIdFull).Perm
          picked := by
    rw [List.perm_ext_iff_of_nodup (distinctIds.of_map _ |>.filter _) (nodup.of_map _)]
    intro candidate
    rw [List.mem_filter, List.contains_iff_mem, List.mem_map]
    constructor
    · rintro ⟨isCandidate, other, isPicked, sameId⟩
      have same := List.inj_on_of_nodup_map distinctIds (listed other isPicked) isCandidate
        sameId
      rwa [← same]
    · intro isPicked
      exact ⟨listed candidate isPicked, candidate, isPicked, rfl⟩
  rw [← chosen.countP_eq, List.countP_filter, countAmong]
  exact List.countP_congr fun candidate _ => by rw [Bool.and_comm]

/-- The nodes behind the result of a selection. -/
structure SelectedFrom
    (candidates : List NmtNodeCandidate)
    (result : NmtSelectionResult)
    (picked extra : List NmtNodeCandidate) : Prop where
  slots : result.deterministicSlots = picked.map NmtNodeCandidate.nodeIdFull
  random : result.randomSlot.toList = extra.map NmtNodeCandidate.nodeIdFull
  eligible : ∀ candidate ∈ picked ++ extra, candidate ∈ eligibleOf candidates
  nodup : ((picked ++ extra).map NmtNodeCandidate.nodeIdFull).Nodup
  short : picked.length ≤ nmtDeterministicSlots
  subnet24 :
    ∀ subnet, (picked.countP fun candidate => candidate.subnet24 = subnet) ≤
      nmtMaxPerSubnet24
  asn : ∀ asn, (picked.countP fun candidate => candidate.asn = asn) ≤ nmtMaxPerAsn
  region :
    ∀ region, (picked.countP fun candidate => candidate.region = region) ≤ nmtMaxPerRegion
  passedOver :
    picked.length < nmtDeterministicSlots →
    ∀ candidate ∈ eligibleOf candidates, candidate ∈ picked ∨ NoRoom picked candidate

/-- The deterministic slots are different eligible nodes within the limits. -/
theorem exists_picked
    (blake3 : List UInt8 → Bytes32)
    (seedK : Bytes32)
    (distinctIds : (candidates.map NmtNodeCandidate.nodeIdFull).Nodup) :
    ∃ picked,
      SelectedFrom candidates
        { deterministicSlots := deterministicSlotsOf blake3 candidates seedK
          randomSlot := none
          totalSelected := (deterministicSlotsOf blake3 candidates seedK).length }
        picked [] := by
  obtain ⟨picked, sublist, short, passedOver, final, represents, filled⟩ :=
    SlotState.Represents.empty.exists_fillSlots (Nat.zero_le _)
      (rankedOf blake3 (eligibleOf candidates) seedK)
  rw [List.nil_append] at short passedOver represents
  have ranked : ((rankedOf blake3 (eligibleOf candidates) seedK).map Prod.fst).Perm
      (eligibleOf candidates) := by
    have unsorted := (KeyedSort.sortByKey_perm Prod.snd
      ((eligibleOf candidates).map fun candidate =>
        (candidate, computeNmtRank blake3 candidate.nodeIdFull seedK))).map Prod.fst
    rwa [List.map_map, Function.comp_def, List.map_id'] at unsorted
  have eligibleIds : ((eligibleOf candidates).map NmtNodeCandidate.nodeIdFull).Nodup :=
    distinctIds.sublist (List.filter_sublist.map _)
  refine ⟨picked, ?_, rfl, ?_, ?_, short, ?_, ?_, ?_, fun free candidate isEligible =>
    passedOver free candidate (ranked.mem_iff.mpr isEligible)⟩
  · rw [← represents.slots, ← filled]
    rfl
  · rw [List.append_nil]
    exact fun candidate isPicked => ranked.mem_iff.mp (sublist.subset isPicked)
  · rw [List.append_nil]
    exact ((ranked.map _).nodup_iff.mpr eligibleIds).sublist (sublist.map _)
  · exact fun subnet => (represents.subnet24 subnet) ▸ represents.subnet24_le subnet
  · exact fun asn => (represents.asn asn) ▸ represents.asn_le asn
  · exact fun region => (represents.region region) ▸ represents.region_le region

/-- What a returned result holds: the slots, and the left-over node that was drawn. -/
theorem returned_cases
    {fuel : Nat}
    {result : NmtSelectionResult}
    (returned :
      selectNmtPeersHybrid blake3 chacha20 fuel candidates seedK = some result) :
    result.deterministicSlots = deterministicSlotsOf blake3 candidates seedK ∧
      (leftOver blake3 candidates seedK = [] ∧ result.randomSlot = none ∨
        ∃ index node,
          IsDrawn (chacha20 (computeNmtRandomSeed blake3 seedK))
              (leftOver blake3 candidates seedK).length index ∧
            (leftOver blake3 candidates seedK)[index]? = some node ∧
            result.randomSlot = some node.nodeIdFull) := by
  rw [selectNmtPeersHybrid_eq] at returned
  simp only at returned
  split at returned
  · rename_i noneLeft
    cases returned
    exact ⟨rfl, .inl ⟨List.isEmpty_iff.mp noneLeft, rfl⟩⟩
  · obtain ⟨index, drawn, rfl⟩ := Option.map_eq_some_iff.mp returned
    have isDrawn := drawIndex_iff.mp ⟨fuel, drawn⟩
    have found := List.getElem?_eq_getElem isDrawn.lt
    exact ⟨rfl, .inr ⟨index, _, isDrawn, found, by rw [found]; rfl⟩⟩

/-- Every result comes from picked nodes and at most one drawn node. -/
theorem exists_selectedFrom
    {fuel : Nat}
    {result : NmtSelectionResult}
    (distinctIds : (candidates.map NmtNodeCandidate.nodeIdFull).Nodup)
    (returned :
      selectNmtPeersHybrid blake3 chacha20 fuel candidates seedK = some result) :
    ∃ picked extra, extra.length ≤ 1 ∧ SelectedFrom candidates result picked extra := by
  obtain ⟨picked, selected⟩ := exists_picked blake3 seedK distinctIds
  have slots : deterministicSlotsOf blake3 candidates seedK =
      picked.map NmtNodeCandidate.nodeIdFull := selected.slots
  obtain ⟨sameSlots, ⟨-, random⟩ | ⟨index, node, isDrawn, found, random⟩⟩ :=
    returned_cases returned
  · exact ⟨picked, [], Nat.zero_le _,
      { selected with
        slots := sameSlots.trans slots
        random := by rw [random]; rfl }⟩
  · obtain ⟨isEligible, isLeft⟩ := List.mem_filter.mp (List.mem_of_getElem? found)
    refine ⟨picked, [node], le_rfl, sameSlots.trans slots, ?_, ?_, ?_, selected.short,
      selected.subnet24, selected.asn, selected.region, selected.passedOver⟩
    · rw [random]
      rfl
    · intro candidate listed
      rcases List.mem_append.mp listed with isPicked | isDrawn
      · exact selected.eligible candidate (List.mem_append_left _ isPicked)
      · rwa [List.mem_singleton.mp isDrawn]
    · have pickedNodup := selected.nodup
      rw [List.append_nil] at pickedNodup
      rw [slots, Bool.not_eq_true', ← Bool.not_eq_true, List.contains_iff_mem] at isLeft
      rw [List.map_append, List.map_singleton, ← List.concat_eq_append]
      exact pickedNodup.concat isLeft

/-- The different eligible peers, not too many, that keep the limits. -/
structure Respects
    (candidates : List NmtNodeCandidate)
    (peers : List Bytes32) : Prop where
  nodup : peers.Nodup
  eligible :
    ∀ peer ∈ peers, ∃ candidate ∈ candidates,
      candidate.nodeIdFull = peer ∧ nmtScoreThreshold < candidate.nodeScore
  atMost : peers.length ≤ nmtPeerCountV12
  within : WithinLimits candidates peers 0

/--
Nobody is left to draw, or all deterministic slots are filled and the drawn node has room
beside them.
-/
def DrawHasRoom
    (blake3 : List UInt8 → Bytes32)
    (chacha20 : Bytes32 → Nat → UInt64)
    (candidates : List NmtNodeCandidate)
    (seedK : Bytes32) : Prop :=
  leftOver blake3 candidates seedK = [] ∨
    (deterministicSlotsOf blake3 candidates seedK).length = nmtDeterministicSlots ∧
      ∀ index node,
        IsDrawn (chacha20 (computeNmtRandomSeed blake3 seedK))
          (leftOver blake3 candidates seedK).length index →
        (leftOver blake3 candidates seedK)[index]? = some node →
        HasRoom candidates (deterministicSlotsOf blake3 candidates seedK) node

/-- The different eligible peers of a selection, and how they keep the limits. -/
structure Diverse
    (candidates : List NmtNodeCandidate)
    (result : NmtSelectionResult) : Prop where
  nodup : result.allPeers.Nodup
  eligible :
    ∀ peer ∈ result.allPeers, ∃ candidate ∈ candidates,
      candidate.nodeIdFull = peer ∧ nmtScoreThreshold < candidate.nodeScore
  atMost : result.allPeers.length ≤ nmtPeerCountV12
  slotsWithin : WithinLimits candidates result.deterministicSlots 0
  peersWithin : WithinLimits candidates result.allPeers 1
  exceeds_iff :
    WithinLimits candidates result.allPeers 0 ↔
      ∀ candidate ∈ candidates, result.randomSlot = some candidate.nodeIdFull →
        HasRoom candidates result.deterministicSlots candidate

/-- A node more of some kind is within a limit where there is room for its kind. -/
theorem countP_concat_le_iff
    {Key : Type}
    [DecidableEq Key]
    {keyOf : NmtNodeCandidate → Key}
    {limit : Nat}
    (within : ∀ key, (picked.countP fun candidate => keyOf candidate = key) ≤ limit)
    (node : NmtNodeCandidate) :
    (∀ key, ((picked ++ [node]).countP fun candidate => keyOf candidate = key) ≤ limit) ↔
      (picked.countP fun candidate => keyOf candidate = keyOf node) < limit := by
  simp only [List.countP_append, List.countP_singleton, decide_eq_true_eq]
  constructor
  · intro all
    have atNode := all (keyOf node)
    rwa [if_pos rfl] at atNode
  · intro room key
    by_cases same : keyOf node = key
    · subst same
      rwa [if_pos rfl]
    · rw [if_neg same, Nat.add_zero]
      exact within key

/-- Some nodes more are within a limit with as much slack. -/
theorem countP_append_le
    {limit slack : Nat}
    {shares : NmtNodeCandidate → Bool}
    (within : picked.countP shares ≤ limit)
    (few : extra.length ≤ slack) :
    (picked ++ extra).countP shares ≤ limit + slack := by
  rw [List.countP_append]
  exact Nat.add_le_add within (List.countP_le_length.trans few)

namespace SelectedFrom

variable {result : NmtSelectionResult}

/-- The ids of the peers. -/
theorem allPeers_eq (selected : SelectedFrom candidates result picked extra) :
    result.allPeers = (picked ++ extra).map NmtNodeCandidate.nodeIdFull := by
  rw [NmtSelectionResult.allPeers, selected.slots, selected.random, List.map_append]

/-- The nodes behind a result are candidates. -/
theorem mem_candidates
    (selected : SelectedFrom candidates result picked extra)
    {candidate : NmtNodeCandidate}
    (listed : candidate ∈ picked ++ extra) :
    candidate ∈ candidates :=
  List.mem_of_mem_filter (selected.eligible candidate listed)

/-- Counting among the peers is counting the nodes behind them. -/
theorem countAmong_allPeers
    (selected : SelectedFrom candidates result picked extra)
    (distinctIds : (candidates.map NmtNodeCandidate.nodeIdFull).Nodup)
    (shares : NmtNodeCandidate → Bool) :
    countAmong candidates result.allPeers shares = (picked ++ extra).countP shares := by
  rw [selected.allPeers_eq]
  exact countAmong_eq_countP distinctIds (fun _ => selected.mem_candidates) selected.nodup
    shares

/-- Counting among the deterministic slots is counting the picked nodes. -/
theorem countAmong_slots
    (selected : SelectedFrom candidates result picked extra)
    (distinctIds : (candidates.map NmtNodeCandidate.nodeIdFull).Nodup)
    (shares : NmtNodeCandidate → Bool) :
    countAmong candidates result.deterministicSlots shares = picked.countP shares := by
  have nodup := selected.nodup
  rw [List.map_append, List.nodup_append] at nodup
  rw [selected.slots]
  exact countAmong_eq_countP distinctIds
    (fun _ isPicked => selected.mem_candidates (List.mem_append_left _ isPicked)) nodup.1
    shares

/-- The whole selection keeps the limits where the drawn node has room. -/
theorem withinLimits_iff
    (selected : SelectedFrom candidates result picked extra)
    (few : extra.length ≤ 1)
    (distinctIds : (candidates.map NmtNodeCandidate.nodeIdFull).Nodup) :
    WithinLimits candidates result.allPeers 0 ↔
      ∀ candidate ∈ candidates, result.randomSlot = some candidate.nodeIdFull →
        HasRoom candidates result.deterministicSlots candidate := by
  have counted := selected.countAmong_allPeers distinctIds
  have slots := selected.countAmong_slots distinctIds
  have random := selected.random
  match extra, few with
  | [], _ =>
      rw [List.map_nil, Option.toList_eq_nil_iff] at random
      refine iff_of_true ⟨?_, ?_, ?_⟩ fun candidate _ isDrawn => ?_
      · intro subnet
        rw [counted, List.append_nil]
        exact selected.subnet24 subnet
      · intro asn
        rw [counted, List.append_nil]
        exact selected.asn asn
      · intro region
        rw [counted, List.append_nil]
        exact selected.region region
      · rw [random] at isDrawn
        cases isDrawn
  | [node], _ =>
      rw [List.map_singleton, Option.toList_eq_singleton_iff] at random
      have isCandidate : node ∈ candidates :=
        selected.mem_candidates (List.mem_append_right _ (List.mem_singleton_self node))
      have room : HasRoom candidates result.deterministicSlots node ↔
          WithinLimits candidates result.allPeers 0 := by
        have subnet24 := countP_concat_le_iff selected.subnet24 node
        have asn := countP_concat_le_iff selected.asn node
        have region := countP_concat_le_iff selected.region node
        constructor
        · intro hasRoom
          refine ⟨?_, ?_, ?_⟩ <;> simp only [counted, Nat.add_zero]
          · exact subnet24.mpr (slots _ ▸ hasRoom.subnet24)
          · exact asn.mpr (slots _ ▸ hasRoom.asn)
          · exact region.mpr (slots _ ▸ hasRoom.region)
        · intro within
          refine ⟨?_, ?_, ?_⟩ <;> rw [slots]
          · exact subnet24.mp fun subnet => counted _ ▸ within.subnet24 subnet
          · exact asn.mp fun asn => counted _ ▸ within.asn asn
          · exact region.mp fun region => counted _ ▸ within.region region
      rw [← room]
      constructor
      · intro hasRoom candidate listed isDrawn
        rw [random, Option.some_inj] at isDrawn
        rwa [← List.inj_on_of_nodup_map distinctIds isCandidate listed isDrawn]
      · intro all
        exact all node isCandidate random

/-- What holds of the nodes behind a result holds of its peers. -/
theorem diverse
    (selected : SelectedFrom candidates result picked extra)
    (few : extra.length ≤ 1)
    (distinctIds : (candidates.map NmtNodeCandidate.nodeIdFull).Nodup) :
    Diverse candidates result := by
  have counted := selected.countAmong_allPeers distinctIds
  have slots := selected.countAmong_slots distinctIds
  refine ⟨?_, ?_, ?_, ⟨?_, ?_, ?_⟩, ⟨?_, ?_, ?_⟩,
    selected.withinLimits_iff few distinctIds⟩
  · rw [selected.allPeers_eq]
    exact selected.nodup
  · intro peer listed
    rw [selected.allPeers_eq] at listed
    obtain ⟨candidate, isSelected, rfl⟩ := List.mem_map.mp listed
    obtain ⟨isCandidate, isEligible⟩ := List.mem_filter.mp (selected.eligible _ isSelected)
    exact ⟨candidate, isCandidate, rfl, of_decide_eq_true isEligible⟩
  · rw [selected.allPeers_eq, List.length_map, List.length_append]
    exact Nat.add_le_add selected.short few
  · intro subnet
    rw [slots]
    exact selected.subnet24 subnet
  · intro asn
    rw [slots]
    exact selected.asn asn
  · intro region
    rw [slots]
    exact selected.region region
  · intro subnet
    rw [counted]
    exact countP_append_le (selected.subnet24 subnet) few
  · intro asn
    rw [counted]
    exact countP_append_le (selected.asn asn) few
  · intro region
    rw [counted]
    exact countP_append_le (selected.region region) few

end SelectedFrom

/-- Only where all deterministic slots are filled is a node with room left over. -/
theorem filled_of_hasRoom
    {node : NmtNodeCandidate}
    (distinctIds : (candidates.map NmtNodeCandidate.nodeIdFull).Nodup)
    (left : node ∈ leftOver blake3 candidates seedK)
    (hasRoom : HasRoom candidates (deterministicSlotsOf blake3 candidates seedK) node) :
    (deterministicSlotsOf blake3 candidates seedK).length = nmtDeterministicSlots := by
  obtain ⟨picked, selected⟩ := exists_picked blake3 seedK distinctIds
  have slots : deterministicSlotsOf blake3 candidates seedK =
      picked.map NmtNodeCandidate.nodeIdFull := selected.slots
  have counted := selected.countAmong_slots distinctIds
  obtain ⟨isEligible, isLeft⟩ := List.mem_filter.mp left
  rw [slots, Bool.not_eq_true', ← Bool.not_eq_true, List.contains_iff_mem] at isLeft
  rw [slots, List.length_map]
  by_contra notFilled
  have free : picked.length < nmtDeterministicSlots :=
    lt_of_le_of_ne selected.short notFilled
  rcases selected.passedOver free node isEligible with isPicked | subnet | asn | region
  · exact isLeft (List.mem_map_of_mem isPicked)
  · exact absurd hasRoom.subnet24 (not_lt.mpr (counted _ ▸ subnet))
  · exact absurd hasRoom.asn (not_lt.mpr (counted _ ▸ asn))
  · exact absurd hasRoom.region (not_lt.mpr (counted _ ▸ region))

/-- A selection keeps the limits exactly when what is drawn has room. -/
theorem withinLimits_iff_drawHasRoom
    {fuel : Nat}
    {result : NmtSelectionResult}
    (distinctIds : (candidates.map NmtNodeCandidate.nodeIdFull).Nodup)
    (returned :
      selectNmtPeersHybrid blake3 chacha20 fuel candidates seedK = some result) :
    WithinLimits candidates result.allPeers 0 ↔
      DrawHasRoom blake3 chacha20 candidates seedK := by
  obtain ⟨picked, extra, few, selected⟩ := exists_selectedFrom distinctIds returned
  rw [selected.withinLimits_iff few distinctIds]
  obtain ⟨sameSlots, ⟨noneLeft, random⟩ | ⟨index, node, isDrawn, found, random⟩⟩ :=
    returned_cases returned
  · refine iff_of_true (fun candidate _ isRandom => ?_) (.inl noneLeft)
    rw [random] at isRandom
    cases isRandom
  · have left : node ∈ leftOver blake3 candidates seedK := List.mem_of_getElem? found
    have isCandidate : node ∈ candidates :=
      List.mem_of_mem_filter (List.mem_of_mem_filter left)
    rw [sameSlots]
    constructor
    · intro all
      have hasRoom := all node isCandidate random
      refine .inr ⟨filled_of_hasRoom distinctIds left hasRoom, fun index' node' isDrawn' found' => ?_⟩
      rw [isDrawn'.unique isDrawn, found, Option.some_inj] at found'
      rwa [← found']
    · rintro (noneLeft | ⟨-, drawn⟩) candidate listed isRandom
      · rw [noneLeft] at left
        cases left
      · rw [random, Option.some_inj] at isRandom
        rw [← List.inj_on_of_nodup_map distinctIds isCandidate listed isRandom]
        exact drawn index node isDrawn found

/--
Every selection from candidates of different ids returns different eligible
peers, at most 24, of which the deterministic slots keep the limits; the random
slot may exceed each by one, which it does where the drawn node has no room.
The selection returns if nobody is left over or the stream has an acceptable word.
-/
theorem selectNmtPeersHybrid_diverse
    (distinctIds : (candidates.map NmtNodeCandidate.nodeIdFull).Nodup) :
    (∀ fuel result,
        selectNmtPeersHybrid blake3 chacha20 fuel candidates seedK = some result →
          Diverse candidates result) ∧
      ((leftOver blake3 candidates seedK = [] ∨ ∃ position,
          acceptsWord (leftOver blake3 candidates seedK).length
            (chacha20 (computeNmtRandomSeed blake3 seedK) position) = true) →
        ∃ fuel result,
          selectNmtPeersHybrid blake3 chacha20 fuel candidates seedK = some result) := by
  refine ⟨fun fuel result returned => ?_, fun available => ?_⟩
  · obtain ⟨picked, extra, few, selected⟩ := exists_selectedFrom distinctIds returned
    exact selected.diverse few distinctIds
  · rcases available with noneLeft | accepted
    · refine ⟨0, Option.isSome_iff_exists.mp ?_⟩
      rw [selectNmtPeersHybrid_eq, noneLeft]
      rfl
    · obtain ⟨index, isDrawn⟩ := exists_isDrawn accepted
      obtain ⟨fuel, drawn⟩ := drawIndex_iff.mpr isDrawn
      have someLeft : (leftOver blake3 candidates seedK).isEmpty = false :=
        List.isEmpty_eq_false_iff.mpr (List.ne_nil_of_length_pos
          (Nat.zero_lt_of_lt isDrawn.lt))
      refine ⟨fuel, Option.isSome_iff_exists.mp ?_⟩
      rw [selectNmtPeersHybrid_eq]
      simp only [drawn, Option.map_some, someLeft]
      rfl

/--
A selection from candidates of different ids consists of different eligible peers, at most
24, and it keeps the limits exactly when nobody is left to draw, or all 23 deterministic
slots are filled and fewer than the limits allow share the subnet, autonomous system and
region of the drawn node.
-/
theorem selectNmtPeersHybrid_respects_iff
    (distinctIds : (candidates.map NmtNodeCandidate.nodeIdFull).Nodup) :
    (∀ fuel result,
        selectNmtPeersHybrid blake3 chacha20 fuel candidates seedK = some result →
          (Respects candidates result.allPeers ↔
              DrawHasRoom blake3 chacha20 candidates seedK) ∧
            Diverse candidates result) ∧
      ((leftOver blake3 candidates seedK = [] ∨ ∃ position,
          acceptsWord (leftOver blake3 candidates seedK).length
            (chacha20 (computeNmtRandomSeed blake3 seedK) position) = true) →
        ∃ fuel result,
          selectNmtPeersHybrid blake3 chacha20 fuel candidates seedK = some result) := by
  refine ⟨fun fuel result returned => ?_, (selectNmtPeersHybrid_diverse distinctIds).2⟩
  have isDiverse := (selectNmtPeersHybrid_diverse distinctIds).1 fuel result returned
  refine ⟨?_, isDiverse⟩
  rw [← withinLimits_iff_drawHasRoom distinctIds returned]
  constructor
  · intro respects
    exact respects.within
  · intro within
    exact ⟨isDiverse.nodup, isDiverse.eligible, isDiverse.atMost, within⟩

end Selected

/-- What is selected from five nodes of one subnet. -/
def fiveNodesSelection : NmtSelectionResult where
  deterministicSlots := [1, 2, 3].map Bytes32.endingIn
  randomSlot := some (Bytes32.endingIn 4)
  totalSelected := 4

/-- The selection from the five nodes. -/
theorem selectNmtPeersHybrid_fiveNodes :
    selectNmtPeersHybrid bytesAfterDomain (fun _ _ => 0) 1 fiveNodes Bytes32.zero =
      some fiveNodesSelection := by
  rw [selectNmtPeersHybrid_eq, deterministicSlotsOf_fiveNodes, leftOver_fiveNodes]
  decide

/-- An eligible node that is alone in its subnet, autonomous system and region. -/
def loneNode (lastByte : UInt8) : NmtNodeCandidate where
  nodeIdFull := Bytes32.endingIn lastByte
  nodeScore := 900000
  subnet24 := Bytes4.replicate lastByte
  asn := Bytes4.replicate lastByte
  region := lastByte

/-- The bytes from 1 to 24. -/
def firstBytes : List UInt8 :=
  (List.range 24).map fun index => UInt8.ofNat (index + 1)

/-- Twenty-four such nodes, one more than there are deterministic slots. -/
def loneNodes : List NmtNodeCandidate :=
  firstBytes.map loneNode

/-- What is selected from them: all of them. -/
def loneNodesSelection : NmtSelectionResult where
  deterministicSlots := (firstBytes.take 23).map Bytes32.endingIn
  randomSlot := some (Bytes32.endingIn 24)
  totalSelected := 24

theorem nodup_loneNodes : (loneNodes.map NmtNodeCandidate.nodeIdFull).Nodup := by
  decide +kernel

theorem deterministicSlotsOf_loneNodes :
    deterministicSlotsOf bytesAfterDomain loneNodes Bytes32.zero =
      (firstBytes.take 23).map Bytes32.endingIn := by
  have ranked :
      rankedOf bytesAfterDomain (eligibleOf loneNodes) Bytes32.zero =
        loneNodes.map fun node => (node, node.nodeIdFull) := by
    have allEligible : eligibleOf loneNodes = loneNodes := by
      decide +kernel
    simp only [rankedOf, allEligible, computeNmtRank_bytesAfterDomain]
    exact KeyedSort.sortByKey_of_pairwise (by decide +kernel)
  rw [deterministicSlotsOf, ranked]
  decide +kernel

theorem leftOver_loneNodes :
    leftOver bytesAfterDomain loneNodes Bytes32.zero = [loneNode 24] := by
  rw [leftOver, deterministicSlotsOf_loneNodes]
  decide +kernel

theorem selectNmtPeersHybrid_loneNodes :
    selectNmtPeersHybrid bytesAfterDomain (fun _ _ => 0) 1 loneNodes Bytes32.zero =
      some loneNodesSelection := by
  rw [selectNmtPeersHybrid_eq, deterministicSlotsOf_loneNodes, leftOver_loneNodes]
  decide

/--
The selection from the lone nodes keeps the limits, the drawn node included; that from
the five nodes of one subnet does not.
-/
theorem selectNmtPeersHybrid_respects_iff_selections :
    Respects loneNodes loneNodesSelection.allPeers ∧
      ¬Respects fiveNodes fiveNodesSelection.allPeers := by
  have lone :=
    ((selectNmtPeersHybrid_respects_iff nodup_loneNodes).1 1 loneNodesSelection
      selectNmtPeersHybrid_loneNodes).1
  have five :=
    ((selectNmtPeersHybrid_respects_iff nodup_fiveNodes).1 1 fiveNodesSelection
      selectNmtPeersHybrid_fiveNodes).1
  constructor
  · refine lone.mpr (.inr ⟨?_, fun index node _ found => ?_⟩)
    · rw [deterministicSlotsOf_loneNodes]
      decide
    · rw [leftOver_loneNodes] at found
      rw [List.mem_singleton.mp (List.mem_of_getElem? found), deterministicSlotsOf_loneNodes]
      exact ⟨by decide, by decide, by decide⟩
  · refine five.not.mpr ?_
    rintro (noneLeft | ⟨filled, -⟩)
    · rw [leftOver_fiveNodes] at noneLeft
      cases noneLeft
    · rw [deterministicSlotsOf_fiveNodes] at filled
      exact absurd filled (by decide)

/-- The random slot takes a fourth node of the subnet. -/
theorem fiveNodesSelection_exceeds :
    selectNmtPeersHybrid bytesAfterDomain (fun _ _ => 0) 1 fiveNodes Bytes32.zero =
        some fiveNodesSelection ∧
      (fiveNodes.map NmtNodeCandidate.nodeIdFull).Nodup ∧
      ¬WithinLimits fiveNodes fiveNodesSelection.allPeers 0 := by
  refine ⟨selectNmtPeersHybrid_fiveNodes, nodup_fiveNodes, fun within => ?_⟩
  exact absurd (within.subnet24 (Bytes4.replicate 10)) (by decide)

end ScalarCore
