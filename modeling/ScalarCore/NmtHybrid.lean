import ScalarCore.Bytes
import ScalarCore.KeyedSort
import ScalarCore.MachineInt
import ScalarCore.RejectionSampling

namespace ScalarCore

/-!
# Selection of the network-time peers

Twenty-three peers are picked in the order of their ranks, subject to limits
per subnet, autonomous system and region, and one more is drawn at random from
the eligible nodes that were passed over.  The random words come from a stream
seeded by the epoch; any function of the seed is allowed here.

The picks do not depend on the order of the candidates.  The draw is an index
into the candidates in the order they were given in, so it does.
-/

open KeyedSort MachineInt RejectionSampling

/-- `NMT_SCORE_THRESHOLD`. -/
def nmtScoreThreshold : UInt64 :=
  800000

/-- `NMT_DETERMINISTIC_SLOTS`. -/
def nmtDeterministicSlots : Nat :=
  23

/-- `NMT_MAX_PER_SUBNET24`. -/
def nmtMaxPerSubnet24 : Nat :=
  3

/-- `NMT_MAX_PER_ASN`. -/
def nmtMaxPerAsn : Nat :=
  5

/-- `NMT_MAX_PER_REGION`. -/
def nmtMaxPerRegion : Nat :=
  4

/-- A node of the committed manifest. -/
structure NmtNodeCandidate where
  nodeIdFull : Bytes32
  nodeScore : UInt64
  subnet24 : Bytes4
  asn : Bytes4
  region : UInt8
  deriving DecidableEq

/-- The score is strictly above the threshold. -/
def NmtNodeCandidate.isEligible (candidate : NmtNodeCandidate) : Bool :=
  decide (nmtScoreThreshold < candidate.nodeScore)

/-- The rank of a node in an epoch. -/
def computeNmtRank
    (blake3 : List UInt8 → Bytes32)
    (nodeIdFull seedK : Bytes32) : Bytes32 :=
  blake3 (asciiBytes "scalar_nmt" ++ nodeIdFull.bytes ++ seedK.bytes)

/-- The seed of the random slot. -/
def computeNmtRandomSeed
    (blake3 : List UInt8 → Bytes32)
    (seedK : Bytes32) : Bytes32 :=
  blake3 (seedK.bytes ++ asciiBytes "nmt_random")

/-- The answer of a selection. -/
structure NmtSelectionResult where
  deterministicSlots : List Bytes32
  randomSlot : Option Bytes32
  totalSelected : Nat
  deriving DecidableEq

/-- The slots filled so far, with the counts of the diversity limits. -/
structure SlotState where
  deterministicSlots : List Bytes32
  subnet24Counts : Bytes4 → Nat
  asnCounts : Bytes4 → Nat
  regionCounts : UInt8 → Nat

/-- No slot filled. -/
def SlotState.empty : SlotState where
  deterministicSlots := []
  subnet24Counts _ := 0
  asnCounts _ := 0
  regionCounts _ := 0

/-- One more node under a key. -/
def countOne
    {Key : Type}
    [DecidableEq Key]
    (counts : Key → Nat)
    (key : Key) : Key → Nat :=
  Function.update counts key (counts key + 1)

/-- Give a slot to a node unless a diversity limit is reached. -/
def SlotState.visit
    (state : SlotState)
    (candidate : NmtNodeCandidate) : SlotState :=
  if nmtMaxPerSubnet24 ≤ state.subnet24Counts candidate.subnet24 then
    state
  else if nmtMaxPerAsn ≤ state.asnCounts candidate.asn then
    state
  else if nmtMaxPerRegion ≤ state.regionCounts candidate.region then
    state
  else
    { deterministicSlots := state.deterministicSlots ++ [candidate.nodeIdFull]
      subnet24Counts := countOne state.subnet24Counts candidate.subnet24
      asnCounts := countOne state.asnCounts candidate.asn
      regionCounts := countOne state.regionCounts candidate.region }

/-- The loop over the ranked nodes, left when all slots are filled. -/
def fillSlots : SlotState → List (NmtNodeCandidate × Bytes32) → List Bytes32
  | state, [] => state.deterministicSlots
  | state, (candidate, _) :: rest =>
      if nmtDeterministicSlots ≤ state.deterministicSlots.length then
        state.deterministicSlots
      else
        fillSlots (state.visit candidate) rest

/-- The eligible candidates, in the order given. -/
def eligibleOf (candidates : List NmtNodeCandidate) : List NmtNodeCandidate :=
  candidates.filter NmtNodeCandidate.isEligible

/-- The eligible candidates with their ranks, ascending by rank. -/
def rankedOf
    (blake3 : List UInt8 → Bytes32)
    (eligible : List NmtNodeCandidate)
    (seedK : Bytes32) : List (NmtNodeCandidate × Bytes32) :=
  sortByKey Prod.snd
    (eligible.map fun candidate =>
      (candidate, computeNmtRank blake3 candidate.nodeIdFull seedK))

/-- A word below the largest multiple of `n` has no modulo bias. -/
def acceptsWord (n : Nat) (word : UInt64) : Bool :=
  decide (word.toNat < maxU64 - maxU64 % n)

/-- The sampling loop, given up after `fuel` words. -/
def drawIndex (fuel : Nat) (words : Nat → UInt64) (n : Nat) : Option Nat :=
  (firstAccepted (acceptsWord n) words fuel 0).map fun word => word.toNat % n

/--
Draw one eligible node outside the deterministic slots.  `none` says that the
sampling loop has not returned yet.
-/
def selectRandomSlot
    (chacha20 : Bytes32 → Nat → UInt64)
    (fuel : Nat)
    (eligible : List NmtNodeCandidate)
    (randomSeed : Bytes32)
    (alreadySelected : List Bytes32) : Option (Option Bytes32) :=
  let remaining :=
    eligible.filter fun candidate =>
      !alreadySelected.contains candidate.nodeIdFull
  if remaining.isEmpty then
    some none
  else
    (drawIndex fuel (chacha20 randomSeed) remaining.length).map fun index =>
      remaining[index]?.map NmtNodeCandidate.nodeIdFull

/-- `select_nmt_peers_hybrid`. -/
def selectNmtPeersHybrid
    (blake3 : List UInt8 → Bytes32)
    (chacha20 : Bytes32 → Nat → UInt64)
    (fuel : Nat)
    (candidates : List NmtNodeCandidate)
    (seedK : Bytes32) : Option NmtSelectionResult :=
  let eligible := eligibleOf candidates
  if eligible.isEmpty then
    some { deterministicSlots := [], randomSlot := none, totalSelected := 0 }
  else
    let deterministicSlots :=
      fillSlots SlotState.empty (rankedOf blake3 eligible seedK)
    let randomSeed := computeNmtRandomSeed blake3 seedK
    (selectRandomSlot chacha20 fuel eligible randomSeed
        deterministicSlots).map fun randomSlot =>
      { deterministicSlots
        randomSlot
        totalSelected :=
          deterministicSlots.length + if randomSlot.isSome then 1 else 0 }

section Selection

variable
  {blake3 : List UInt8 → Bytes32}
  {chacha20 : Bytes32 → Nat → UInt64}
  {candidates candidates' : List NmtNodeCandidate}
  {seedK : Bytes32}

/-- The deterministic slots of a list of candidates. -/
def deterministicSlotsOf
    (blake3 : List UInt8 → Bytes32)
    (candidates : List NmtNodeCandidate)
    (seedK : Bytes32) : List Bytes32 :=
  fillSlots SlotState.empty (rankedOf blake3 (eligibleOf candidates) seedK)

/-- The eligible candidates that got no deterministic slot, in the order given. -/
def leftOver
    (blake3 : List UInt8 → Bytes32)
    (candidates : List NmtNodeCandidate)
    (seedK : Bytes32) : List NmtNodeCandidate :=
  (eligibleOf candidates).filter fun candidate =>
    !(deterministicSlotsOf blake3 candidates seedK).contains
      candidate.nodeIdFull

/-- The position that the stream of the epoch draws among `n` nodes. -/
def IsDrawn (words : Nat → UInt64) (n index : Nat) : Prop :=
  ∃ word,
    IsFirstAccepted (acceptsWord n) words 0 word ∧ index = word.toNat % n

/-- The sampling loop returns the drawn position, once it has enough words. -/
theorem drawIndex_iff
    {words : Nat → UInt64}
    {n index : Nat} :
    (∃ fuel, drawIndex fuel words n = some index) ↔ IsDrawn words n index := by
  constructor
  · rintro ⟨fuel, drawn⟩
    rcases Option.map_eq_some_iff.mp drawn with ⟨word, returned, rfl⟩
    exact ⟨word, isFirstAccepted_of_firstAccepted returned, rfl⟩
  · rintro ⟨word, isFirst, rfl⟩
    rcases firstAccepted_of_isFirstAccepted isFirst with ⟨fuel, returned⟩
    exact ⟨fuel, by rw [drawIndex, returned, Option.map_some]⟩

/-- The draw returns as soon as the stream has one acceptable word. -/
theorem exists_isDrawn
    {words : Nat → UInt64}
    {n : Nat}
    (available : ∃ position, acceptsWord n (words position) = true) :
    ∃ index, IsDrawn words n index := by
  rcases exists_isFirstAccepted available with ⟨word, isFirst⟩
  exact ⟨word.toNat % n, word, isFirst, rfl⟩

/-- The stream of one small word draws that position. -/
theorem isDrawn_ofNat
    {n index : Nat}
    (inRange : index < n)
    (fits : n ≤ maxU64) :
    IsDrawn (fun _ => UInt64.ofNat index) n index := by
  have isWord : (UInt64.ofNat index).toNat = index :=
    toNat_ofNat_of_le (inRange.le.trans fits)
  have accepted : acceptsWord n (UInt64.ofNat index) = true := by
    rw [acceptsWord, decide_eq_true_eq, isWord]
    have positive : 0 < n := Nat.zero_lt_of_lt inRange
    have atLeastOnce : n ≤ n * (maxU64 / n) :=
      Nat.le_mul_of_pos_right n (Nat.div_pos fits positive)
    exact
      inRange.trans_le
        (atLeastOnce.trans_eq
          (Nat.eq_sub_of_add_eq (Nat.div_add_mod maxU64 n)))
  refine ⟨_, ⟨0, rfl, accepted, nofun⟩, ?_⟩
  rw [isWord, Nat.mod_eq_of_lt inRange]

/-- A drawn position is one of the list. -/
theorem IsDrawn.lt
    {words : Nat → UInt64}
    {n index : Nat}
    (drawn : IsDrawn words n index) :
    index < n := by
  rcases drawn with ⟨word, ⟨_, _, accepted, _⟩, rfl⟩
  apply Nat.mod_lt
  rw [acceptsWord, decide_eq_true_eq] at accepted
  rcases Nat.eq_zero_or_pos n with rfl | positive
  · rw [Nat.mod_zero, Nat.sub_self] at accepted
    exact absurd accepted (Nat.not_lt_zero _)
  · exact positive

/-- The stream draws one position. -/
theorem IsDrawn.unique
    {words : Nat → UInt64}
    {n index index' : Nat}
    (drawn : IsDrawn words n index)
    (drawn' : IsDrawn words n index') :
    index = index' := by
  rcases drawn with ⟨word, isFirst, rfl⟩
  rcases drawn' with ⟨word', isFirst', rfl⟩
  rw [isFirst.unique isFirst']

/--
What a selection returns: the deterministic slots, and the left-over node at
the drawn position.
-/
theorem selectNmtPeersHybrid_eq (fuel : Nat) :
    selectNmtPeersHybrid blake3 chacha20 fuel candidates seedK =
      let slots := deterministicSlotsOf blake3 candidates seedK
      let rest := leftOver blake3 candidates seedK
      if rest.isEmpty then
        some
          { deterministicSlots := slots
            randomSlot := none
            totalSelected := slots.length }
      else
        (drawIndex fuel (chacha20 (computeNmtRandomSeed blake3 seedK))
            rest.length).map fun index =>
          { deterministicSlots := slots
            randomSlot := rest[index]?.map NmtNodeCandidate.nodeIdFull
            totalSelected :=
              slots.length + if rest[index]?.isSome then 1 else 0 } := by
  by_cases noneEligible : (eligibleOf candidates).isEmpty = true
  · have empty : eligibleOf candidates = [] := List.isEmpty_iff.mp noneEligible
    simp [selectNmtPeersHybrid, leftOver, deterministicSlotsOf, empty,
      rankedOf, sortByKey, fillSlots, SlotState.empty]
  · rw [selectNmtPeersHybrid, if_neg noneEligible]
    simp only [selectRandomSlot]
    change
      Option.map _
          (if (leftOver blake3 candidates seedK).isEmpty = true then _ else _) =
        _
    by_cases noneLeft : (leftOver blake3 candidates seedK).isEmpty = true
    · simp only [if_pos noneLeft]
      rfl
    · simp only [if_neg noneLeft, Option.map_map]
      congr 1
      funext index
      simp [deterministicSlotsOf, leftOver]

section Orderings

variable
  (same : candidates.Perm candidates')
  (distinctIds : (candidates.map NmtNodeCandidate.nodeIdFull).Nodup)
  (rankInjective :
    ∀ nodeId nodeId',
      computeNmtRank blake3 nodeId seedK = computeNmtRank blake3 nodeId' seedK →
      nodeId = nodeId')

include same

/-- The eligible candidates of two orderings are the same set. -/
theorem eligibleOf_perm :
    (eligibleOf candidates).Perm (eligibleOf candidates') :=
  same.filter _

include distinctIds rankInjective

/-- The deterministic slots do not depend on the order of the candidates. -/
theorem deterministicSlotsOf_perm :
    deterministicSlotsOf blake3 candidates seedK =
      deterministicSlotsOf blake3 candidates' seedK := by
  have ranked :
      rankedOf blake3 (eligibleOf candidates) seedK =
        rankedOf blake3 (eligibleOf candidates') seedK := by
    apply sortByKey_eq_of_perm _ ((eligibleOf_perm same).map _)
    intro left leftMember right rightMember sameRank
    rcases List.mem_map.mp leftMember with ⟨leftNode, leftEligible, rfl⟩
    rcases List.mem_map.mp rightMember with ⟨rightNode, rightEligible, rfl⟩
    have sameNode : leftNode = rightNode :=
      List.inj_on_of_nodup_map distinctIds
        (List.mem_of_mem_filter leftEligible)
        (List.mem_of_mem_filter rightEligible)
        (rankInjective _ _ sameRank)
    rw [sameNode]
  rw [deterministicSlotsOf, deterministicSlotsOf, ranked]

/-- Two orderings leave the same set of candidates over. -/
theorem leftOver_perm :
    (leftOver blake3 candidates seedK).Perm
      (leftOver blake3 candidates' seedK) := by
  rw [leftOver, leftOver,
    deterministicSlotsOf_perm same distinctIds rankInjective]
  exact (eligibleOf_perm same).filter _

/-- Candidates left over in the two orderings are told apart by their ids. -/
theorem leftOver_getElem?_eq_iff (index : Nat) :
    (leftOver blake3 candidates seedK)[index]?.map
          NmtNodeCandidate.nodeIdFull =
        (leftOver blake3 candidates' seedK)[index]?.map
          NmtNodeCandidate.nodeIdFull ↔
      (leftOver blake3 candidates seedK)[index]? =
        (leftOver blake3 candidates' seedK)[index]? := by
  have reordered := leftOver_perm same distinctIds rankInjective
  refine ⟨fun sameId => ?_, fun sameNode => by rw [sameNode]⟩
  have amongCandidates (node : NmtNodeCandidate) :
      node ∈ leftOver blake3 candidates seedK → node ∈ candidates :=
    fun member => List.mem_of_mem_filter (List.mem_of_mem_filter member)
  cases here : (leftOver blake3 candidates seedK)[index]? with
  | none =>
      rw [here] at sameId
      exact (Option.map_eq_none_iff.mp sameId.symm).symm
  | some node =>
      rw [here, Option.map_some, eq_comm, Option.map_eq_some_iff] at sameId
      rcases sameId with ⟨node', there, sameId⟩
      have nodeMember := List.mem_of_getElem? here
      have nodeMember' := reordered.mem_iff.mpr (List.mem_of_getElem? there)
      have sameNode : node' = node :=
        List.inj_on_of_nodup_map distinctIds (amongCandidates node' nodeMember')
          (amongCandidates node nodeMember) sameId
      rw [there, sameNode]

/-- For a given number of words, the orderings agree if what is drawn does. -/
theorem selectNmtPeersHybrid_eq_iff (fuel : Nat) :
    selectNmtPeersHybrid blake3 chacha20 fuel candidates seedK =
        selectNmtPeersHybrid blake3 chacha20 fuel candidates' seedK ↔
      ∀ index,
        drawIndex fuel (chacha20 (computeNmtRandomSeed blake3 seedK))
            (leftOver blake3 candidates seedK).length = some index →
        (leftOver blake3 candidates seedK)[index]? =
          (leftOver blake3 candidates' seedK)[index]? := by
  have reordered := leftOver_perm same distinctIds rankInjective
  have byId := leftOver_getElem?_eq_iff same distinctIds rankInjective
  rw [selectNmtPeersHybrid_eq, selectNmtPeersHybrid_eq,
    ← deterministicSlotsOf_perm same distinctIds rankInjective]
  by_cases noneLeft : leftOver blake3 candidates seedK = []
  · have noneLeft' : leftOver blake3 candidates' seedK = [] := by
      rw [noneLeft] at reordered
      exact reordered.nil_eq.symm
    simp [noneLeft, noneLeft']
  · have someLeft' : leftOver blake3 candidates' seedK ≠ [] := by
      intro empty
      rw [empty] at reordered
      exact noneLeft reordered.eq_nil
    simp only [List.isEmpty_iff, if_neg noneLeft, if_neg someLeft',
      ← reordered.length_eq]
    cases drawn :
      drawIndex fuel (chacha20 (computeNmtRandomSeed blake3 seedK))
        (leftOver blake3 candidates seedK).length with
    | none =>
        simp
    | some index =>
        simp only [Option.map_some, Option.some.injEq, forall_eq',
          NmtSelectionResult.mk.injEq, true_and, ← byId]
        refine ⟨fun both => both.1, fun sameId => ⟨sameId, ?_⟩⟩
        rw [(byId index).mp sameId]

/-- For a given stream the orderings agree if the drawn positions do. -/
theorem agree_iff_drawn (chacha20 : Bytes32 → Nat → UInt64) :
    (∀ fuel,
        selectNmtPeersHybrid blake3 chacha20 fuel candidates seedK =
          selectNmtPeersHybrid blake3 chacha20 fuel candidates' seedK) ↔
      ∀ index,
        IsDrawn (chacha20 (computeNmtRandomSeed blake3 seedK))
            (leftOver blake3 candidates seedK).length index →
        (leftOver blake3 candidates seedK)[index]? =
          (leftOver blake3 candidates' seedK)[index]? := by
  constructor
  · intro agree index drawn
    rcases drawIndex_iff.mpr drawn with ⟨fuel, returned⟩
    exact
      (selectNmtPeersHybrid_eq_iff same distinctIds rankInjective fuel).mp
        (agree fuel) index returned
  · intro samePosition fuel
    apply
      (selectNmtPeersHybrid_eq_iff same distinctIds rankInjective fuel).mpr
    intro index returned
    exact samePosition index (drawIndex_iff.mp ⟨fuel, returned⟩)

/-- For all streams the orderings agree if they leave over one list. -/
theorem agree_forall_iff (fits : candidates.length ≤ maxU64) :
    (∀ chacha20 fuel,
        selectNmtPeersHybrid blake3 chacha20 fuel candidates seedK =
          selectNmtPeersHybrid blake3 chacha20 fuel candidates' seedK) ↔
      leftOver blake3 candidates seedK =
        leftOver blake3 candidates' seedK := by
  have reordered := leftOver_perm same distinctIds rankInjective
  constructor
  · intro agree
    apply List.ext_getElem?
    intro index
    by_cases inRange : index < (leftOver blake3 candidates seedK).length
    · -- a stream that draws this position
      have leftOverFits :
          (leftOver blake3 candidates seedK).length ≤ maxU64 :=
        ((List.length_filter_le _ _).trans (List.length_filter_le _ _)).trans
          fits
      exact
        (agree_iff_drawn same distinctIds rankInjective
            fun _ _ => UInt64.ofNat index).mp
          (agree _) index (isDrawn_ofNat inRange leftOverFits)
    · rw [List.getElem?_eq_none (not_lt.mp inRange),
        List.getElem?_eq_none (reordered.length_eq ▸ not_lt.mp inRange)]
  · intro sameLeftOver chacha20
    apply (agree_iff_drawn same distinctIds rankInjective chacha20).mpr
    intro index _
    rw [sameLeftOver]

/--
Two orderings of the candidates select the same peers exactly when the position
drawn by the stream holds the same left-over candidate in both.  They do so for
every stream exactly when the left-over candidates come in the same order.
-/
theorem selectNmtPeersHybrid_perm_iff :
    ((∀ fuel,
          selectNmtPeersHybrid blake3 chacha20 fuel candidates seedK =
            selectNmtPeersHybrid blake3 chacha20 fuel candidates' seedK) ↔
        ∀ index,
          IsDrawn (chacha20 (computeNmtRandomSeed blake3 seedK))
              (leftOver blake3 candidates seedK).length index →
          (leftOver blake3 candidates seedK)[index]? =
            (leftOver blake3 candidates' seedK)[index]?) ∧
      (candidates.length ≤ maxU64 →
        ((∀ chacha20 fuel,
            selectNmtPeersHybrid blake3 chacha20 fuel candidates seedK =
              selectNmtPeersHybrid blake3 chacha20 fuel candidates' seedK) ↔
          leftOver blake3 candidates seedK =
            leftOver blake3 candidates' seedK)) :=
  ⟨agree_iff_drawn same distinctIds rankInjective chacha20,
    agree_forall_iff same distinctIds rankInjective⟩

end Orderings

end Selection

/-- A hash that returns the 32 bytes after the domain of a rank. -/
def bytesAfterDomain (message : List UInt8) : Bytes32 where
  bytes := ((message.drop 10) ++ List.replicate 32 0).take 32
  length_eq := by simp

/-- Under that hash the rank of a node is its id. -/
theorem computeNmtRank_bytesAfterDomain (nodeId seedK : Bytes32) :
    computeNmtRank bytesAfterDomain nodeId seedK = nodeId := by
  apply Bytes32.ext
  have domainLength : (asciiBytes "scalar_nmt").length = 10 := rfl
  simp [computeNmtRank, bytesAfterDomain, domainLength, nodeId.length_eq]

/-- An eligible node; all of them are in one subnet. -/
def subnetNode (lastByte : UInt8) : NmtNodeCandidate where
  nodeIdFull := Bytes32.endingIn lastByte
  nodeScore := 900000
  subnet24 := Bytes4.replicate 10
  asn := Bytes4.replicate 20
  region := 1

/-- Five nodes of one subnet, the last two of which get no deterministic slot. -/
def fiveNodes : List NmtNodeCandidate :=
  [1, 2, 3, 4, 5].map subnetNode

/-- The ids of the five nodes differ. -/
theorem nodup_fiveNodes :
    (fiveNodes.map NmtNodeCandidate.nodeIdFull).Nodup := by
  decide

/-- The five nodes come in the order of their ranks; the limit is three. -/
theorem deterministicSlotsOf_fiveNodes :
    deterministicSlotsOf bytesAfterDomain fiveNodes Bytes32.zero =
      [1, 2, 3].map Bytes32.endingIn := by
  have ranked :
      rankedOf bytesAfterDomain (eligibleOf fiveNodes) Bytes32.zero =
        fiveNodes.map fun node => (node, node.nodeIdFull) := by
    have allEligible : eligibleOf fiveNodes = fiveNodes := by
      decide
    simp only [rankedOf, allEligible, computeNmtRank_bytesAfterDomain]
    exact sortByKey_of_pairwise (by decide)
  rw [deterministicSlotsOf, ranked]
  decide

/-- The five nodes leave two over. -/
theorem leftOver_fiveNodes :
    leftOver bytesAfterDomain fiveNodes Bytes32.zero =
      [4, 5].map subnetNode := by
  rw [leftOver, deterministicSlotsOf_fiveNodes]
  decide

/-- Under the sample hash the ranks are injective. -/
theorem rankInjective_bytesAfterDomain (nodeId nodeId' : Bytes32)
    (sameRank :
      computeNmtRank bytesAfterDomain nodeId Bytes32.zero =
        computeNmtRank bytesAfterDomain nodeId' Bytes32.zero) :
    nodeId = nodeId' := by
  simpa only [computeNmtRank_bytesAfterDomain] using sameRank

/-- Another order of the five nodes leaves the last two over in its order. -/
theorem leftOver_reordered
    {nodes : List NmtNodeCandidate}
    (reordered : fiveNodes.Perm nodes) :
    leftOver bytesAfterDomain nodes Bytes32.zero =
      (eligibleOf nodes).filter fun node =>
        !([1, 2, 3].map Bytes32.endingIn).contains node.nodeIdFull := by
  rw [leftOver,
    ← deterministicSlotsOf_perm reordered nodup_fiveNodes
      rankInjective_bytesAfterDomain,
    deterministicSlotsOf_fiveNodes]

/-- Reordering the nodes that are picked leaves the selection as it is. -/
theorem selectNmtPeersHybrid_perm_iff_picked :
    selectNmtPeersHybrid bytesAfterDomain (fun _ _ => 0) 1 fiveNodes
        Bytes32.zero =
      selectNmtPeersHybrid bytesAfterDomain (fun _ _ => 0) 1
        ([3, 1, 2, 4, 5].map subnetNode) Bytes32.zero := by
  have reordered : fiveNodes.Perm ([3, 1, 2, 4, 5].map subnetNode) := by
    decide
  have sameLeftOver :
      leftOver bytesAfterDomain fiveNodes Bytes32.zero =
        leftOver bytesAfterDomain ([3, 1, 2, 4, 5].map subnetNode)
          Bytes32.zero := by
    rw [leftOver_fiveNodes, leftOver_reordered reordered]
    decide
  refine
    (selectNmtPeersHybrid_perm_iff reordered nodup_fiveNodes
      rankInjective_bytesAfterDomain).1.mpr ?_ 1
  intro index _
  rw [sameLeftOver]

/-- Exchanging the two nodes that are left over changes the random slot. -/
theorem selectNmtPeersHybrid_order_dependent :
    ∃ (blake3 : List UInt8 → Bytes32) (chacha20 : Bytes32 → Nat → UInt64)
      (candidates candidates' : List NmtNodeCandidate) (seedK : Bytes32),
      candidates.Perm candidates' ∧
        (candidates.map NmtNodeCandidate.nodeIdFull).Nodup ∧
        (∀ nodeId nodeId',
          computeNmtRank blake3 nodeId seedK =
              computeNmtRank blake3 nodeId' seedK →
            nodeId = nodeId') ∧
        (selectNmtPeersHybrid blake3 chacha20 1 candidates seedK).map
            NmtSelectionResult.randomSlot =
          some (some (Bytes32.endingIn 4)) ∧
        (selectNmtPeersHybrid blake3 chacha20 1 candidates' seedK).map
            NmtSelectionResult.randomSlot =
          some (some (Bytes32.endingIn 5)) := by
  have reordered : fiveNodes.Perm ([1, 2, 3, 5, 4].map subnetNode) := by
    decide
  refine
    ⟨bytesAfterDomain, fun _ _ => 0, fiveNodes,
      [1, 2, 3, 5, 4].map subnetNode, Bytes32.zero, reordered,
      nodup_fiveNodes, rankInjective_bytesAfterDomain, ?_, ?_⟩
  · rw [selectNmtPeersHybrid_eq, leftOver_fiveNodes]
    decide
  · rw [selectNmtPeersHybrid_eq, leftOver_reordered reordered]
    decide

end ScalarCore
