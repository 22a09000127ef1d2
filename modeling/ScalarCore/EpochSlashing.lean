import ScalarCore.KeyedWrites
import ScalarCore.Smt

namespace ScalarCore

/-!
# Slashing of equivocation

The claims of each node are collected over all announcements, and a node with
more than one claim is slashed.  The epoch of an announcement is not looked at,
so a node that claims differently in two epochs is slashed as well.

The claims are kept in a hash map, whose iteration order is a parameter.
-/

/-- An announcement of a node. -/
structure Announcement where
  nodeId : Bytes32
  epoch : UInt64
  claimHash : Bytes32
  deriving DecidableEq

/-- The different claims of each node, in the order of their first announcement. -/
abbrev NodeClaims :=
  Finmap fun _ : Bytes32 => List Bytes32

/-- The claims collected for a node. -/
def NodeClaims.claimsOf (nodeClaims : NodeClaims) (nodeId : Bytes32) : List Bytes32 :=
  (nodeClaims.lookup nodeId).getD []

/-- One round of the first loop. -/
def NodeClaims.record
    (nodeClaims : NodeClaims)
    (announcement : Announcement) : NodeClaims :=
  let claims := nodeClaims.claimsOf announcement.nodeId
  nodeClaims.insert announcement.nodeId
    (if announcement.claimHash ∈ claims then
      claims
    else
      claims ++ [announcement.claimHash])

/-- The claims after the first loop. -/
def nodeClaimsOf (announcements : List Announcement) : NodeClaims :=
  announcements.foldl NodeClaims.record ∅

/-- `verify_step_3_5_slashing`. -/
def verifyStep35Slashing
    (order : IterationOrder)
    (announcements : List Announcement) : List Bytes32 :=
  let nodeClaims := nodeClaimsOf announcements
  (order.list nodeClaims.keys).filter fun nodeId =>
    1 < (nodeClaims.claimsOf nodeId).length

/-- A node announced different claims. -/
def ClaimsDiffer (announcements : List Announcement) (nodeId : Bytes32) : Prop :=
  ∃ first ∈ announcements, ∃ second ∈ announcements,
    first.nodeId = nodeId ∧ second.nodeId = nodeId ∧
      first.claimHash ≠ second.claimHash

/-- A node announced different claims for one epoch. -/
def Equivocated (announcements : List Announcement) (nodeId : Bytes32) : Prop :=
  ∃ first ∈ announcements, ∃ second ∈ announcements,
    first.nodeId = nodeId ∧ second.nodeId = nodeId ∧
      first.epoch = second.epoch ∧ first.claimHash ≠ second.claimHash

/-- A list of nodes without repetition that holds the equivocators and no other. -/
def SlashesExactly
    (slashed : List Bytes32)
    (announcements : List Announcement) : Prop :=
  slashed.Nodup ∧
    ∀ nodeId, nodeId ∈ slashed ↔ Equivocated announcements nodeId

namespace NodeClaims

/-- The claims of a node after a round. -/
theorem claimsOf_record
    (nodeClaims : NodeClaims)
    (announcement : Announcement)
    (nodeId : Bytes32) :
    (nodeClaims.record announcement).claimsOf nodeId =
      if nodeId = announcement.nodeId ∧
          announcement.claimHash ∉ nodeClaims.claimsOf nodeId then
        nodeClaims.claimsOf nodeId ++ [announcement.claimHash]
      else
        nodeClaims.claimsOf nodeId := by
  unfold record
  rw [claimsOf, KeyedWrites.getD_lookup_insert]
  by_cases same : nodeId = announcement.nodeId
  · subst same
    rw [if_pos rfl]
    by_cases known : announcement.claimHash ∈ nodeClaims.claimsOf announcement.nodeId
    · rw [if_pos known, if_neg fun both => both.2 known]
    · rw [if_neg known, if_pos ⟨rfl, known⟩]
  · rw [if_neg same, if_neg fun both => same both.1]
    rfl

/-- No claim is collected twice. -/
def Distinct (nodeClaims : NodeClaims) : Prop :=
  ∀ nodeId, (nodeClaims.claimsOf nodeId).Nodup

/-- A round collects no claim twice. -/
theorem Distinct.record
    {nodeClaims : NodeClaims}
    (distinct : nodeClaims.Distinct)
    (announcement : Announcement) :
    (nodeClaims.record announcement).Distinct := by
  intro nodeId
  rw [claimsOf_record]
  split
  · rename_i isNew
    rw [← List.concat_eq_append]
    exact (distinct nodeId).concat isNew.2
  · exact distinct nodeId

/-- A round adds the claim of its announcement to those of its node. -/
theorem mem_claimsOf_record
    {nodeClaims : NodeClaims}
    {announcement : Announcement}
    {nodeId claim : Bytes32} :
    claim ∈ (nodeClaims.record announcement).claimsOf nodeId ↔
      claim ∈ nodeClaims.claimsOf nodeId ∨
        announcement.nodeId = nodeId ∧ announcement.claimHash = claim := by
  rw [claimsOf_record]
  by_cases same : nodeId = announcement.nodeId
  · subst same
    by_cases known : announcement.claimHash ∈ nodeClaims.claimsOf announcement.nodeId
    · rw [if_neg fun both => both.2 known]
      constructor
      · exact Or.inl
      · rintro (isKnown | ⟨-, rfl⟩)
        · exact isKnown
        · exact known
    · rw [if_pos ⟨rfl, known⟩, List.mem_append, List.mem_singleton]
      simp only [true_and, eq_comm]
  · rw [if_neg fun both => same both.1]
    simp only [Ne.symm same, false_and, or_false]

/-- The claims after the rounds of a list. -/
theorem mem_claimsOf_foldl
    (announcements : List Announcement)
    (nodeClaims : NodeClaims)
    {nodeId claim : Bytes32} :
    claim ∈ (announcements.foldl NodeClaims.record nodeClaims).claimsOf nodeId ↔
      claim ∈ nodeClaims.claimsOf nodeId ∨
        ∃ announcement ∈ announcements,
          announcement.nodeId = nodeId ∧ announcement.claimHash = claim := by
  induction announcements generalizing nodeClaims with
  | nil =>
      simp
  | cons announcement rest inductionHypothesis =>
      rw [List.foldl_cons, inductionHypothesis, mem_claimsOf_record]
      simp only [List.mem_cons, exists_eq_or_imp, or_assoc]

/-- The rounds of a list collect no claim twice. -/
theorem Distinct.foldl
    (announcements : List Announcement)
    {nodeClaims : NodeClaims}
    (distinct : nodeClaims.Distinct) :
    (announcements.foldl NodeClaims.record nodeClaims).Distinct := by
  induction announcements generalizing nodeClaims with
  | nil =>
      exact distinct
  | cons announcement rest inductionHypothesis =>
      exact inductionHypothesis (distinct.record announcement)

end NodeClaims

/-- A node has the claims that it announced, in whatever epoch. -/
theorem mem_claimsOf_nodeClaimsOf
    {announcements : List Announcement}
    {nodeId claim : Bytes32} :
    claim ∈ (nodeClaimsOf announcements).claimsOf nodeId ↔
      ∃ announcement ∈ announcements,
        announcement.nodeId = nodeId ∧ announcement.claimHash = claim := by
  unfold nodeClaimsOf
  rw [NodeClaims.mem_claimsOf_foldl]
  simp [NodeClaims.claimsOf]

/-- A list without repetition has two entries when two different values occur. -/
theorem one_lt_length_iff_of_nodup
    {values : List Bytes32}
    (nodup : values.Nodup) :
    1 < values.length ↔ ∃ first ∈ values, ∃ second ∈ values, first ≠ second := by
  rw [← List.toFinset_card_of_nodup nodup, Finset.one_lt_card]
  simp only [List.mem_toFinset]

/-- More than one claim is collected for the nodes whose claims differ. -/
theorem one_lt_length_claimsOf_iff
    {announcements : List Announcement}
    {nodeId : Bytes32} :
    1 < ((nodeClaimsOf announcements).claimsOf nodeId).length ↔
      ClaimsDiffer announcements nodeId := by
  have distinct : (nodeClaimsOf announcements).Distinct :=
    NodeClaims.Distinct.foldl announcements fun _ => List.nodup_nil
  rw [one_lt_length_iff_of_nodup (distinct nodeId)]
  simp only [mem_claimsOf_nodeClaimsOf]
  constructor
  · rintro ⟨_, ⟨first, firstMem, firstNode, rfl⟩, _, ⟨second, secondMem, secondNode, rfl⟩,
      differ⟩
    exact ⟨first, firstMem, second, secondMem, firstNode, secondNode, differ⟩
  · rintro ⟨first, firstMem, second, secondMem, firstNode, secondNode, differ⟩
    exact ⟨_, ⟨first, firstMem, firstNode, rfl⟩, _, ⟨second, secondMem, secondNode, rfl⟩,
      differ⟩

/-- The slashed nodes are those whose claims differ. -/
theorem mem_verifyStep35Slashing
    {order : IterationOrder}
    {announcements : List Announcement}
    {nodeId : Bytes32} :
    nodeId ∈ verifyStep35Slashing order announcements ↔
      ClaimsDiffer announcements nodeId := by
  unfold verifyStep35Slashing
  rw [List.mem_filter, order.mem_list, decide_eq_true_eq, one_lt_length_claimsOf_iff]
  refine ⟨And.right, fun differ => ⟨?_, differ⟩⟩
  have many := one_lt_length_claimsOf_iff.mpr differ
  rw [Finmap.mem_keys]
  by_contra absent
  rw [NodeClaims.claimsOf, Finmap.lookup_eq_none.mpr absent] at many
  exact absurd many (by decide)

/-- No node is slashed twice. -/
theorem nodup_verifyStep35Slashing
    (order : IterationOrder)
    (announcements : List Announcement) :
    (verifyStep35Slashing order announcements).Nodup :=
  (order.nodup _).filter _

/-- An equivocator announced different claims. -/
theorem Equivocated.claimsDiffer
    {announcements : List Announcement}
    {nodeId : Bytes32}
    (equivocated : Equivocated announcements nodeId) :
    ClaimsDiffer announcements nodeId := by
  obtain ⟨first, firstMem, second, secondMem, firstNode, secondNode, -, differ⟩ :=
    equivocated
  exact ⟨first, firstMem, second, secondMem, firstNode, secondNode, differ⟩

/-- Every equivocator is slashed. -/
theorem Equivocated.mem_verifyStep35Slashing
    {announcements : List Announcement}
    {nodeId : Bytes32}
    (equivocated : Equivocated announcements nodeId)
    (order : IterationOrder) :
    nodeId ∈ verifyStep35Slashing order announcements :=
  ScalarCore.mem_verifyStep35Slashing.mpr equivocated.claimsDiffer

/-- Neither the order of the announcements nor that of the map changes who is slashed. -/
theorem verifyStep35Slashing_perm
    {announcements others : List Announcement}
    (perm : announcements.Perm others)
    (order otherOrder : IterationOrder) :
    (verifyStep35Slashing order announcements).Perm
      (verifyStep35Slashing otherOrder others) := by
  rw [List.perm_ext_iff_of_nodup (nodup_verifyStep35Slashing _ _)
    (nodup_verifyStep35Slashing _ _)]
  intro nodeId
  rw [mem_verifyStep35Slashing, mem_verifyStep35Slashing]
  unfold ClaimsDiffer
  simp only [perm.mem_iff]

/--
The slashed nodes are the equivocators exactly when every node with different
claims has different claims for one epoch.
-/
theorem slashesExactly_iff
    (order : IterationOrder)
    (announcements : List Announcement) :
    SlashesExactly (verifyStep35Slashing order announcements) announcements ↔
      ∀ nodeId, ClaimsDiffer announcements nodeId →
        Equivocated announcements nodeId := by
  constructor
  · rintro ⟨-, slashedIff⟩ nodeId differ
    exact (slashedIff nodeId).mp (mem_verifyStep35Slashing.mpr differ)
  · intro sameEpoch
    refine ⟨nodup_verifyStep35Slashing order announcements, fun nodeId => ?_⟩
    rw [mem_verifyStep35Slashing]
    exact ⟨sameEpoch nodeId, Equivocated.claimsDiffer⟩

/-- A node that keeps to one claim in each of two epochs. -/
def claimPerEpoch : List Announcement :=
  [⟨Bytes32.zero, 1, Bytes32.zero⟩, ⟨Bytes32.zero, 2, Bytes32.endingIn 1⟩]

/-- The node is slashed for its second epoch, though it did not equivocate. -/
theorem claimPerEpoch_slashed :
    ¬SlashesExactly
      (verifyStep35Slashing IterationOrder.ascending claimPerEpoch) claimPerEpoch := by
  rintro ⟨-, slashedIff⟩
  have differ : ClaimsDiffer claimPerEpoch Bytes32.zero :=
    ⟨_, List.mem_cons_self, _, List.mem_cons_of_mem _ List.mem_cons_self,
      rfl, rfl, by decide⟩
  have equivocated : Equivocated claimPerEpoch Bytes32.zero :=
    (slashedIff _).mp (mem_verifyStep35Slashing.mpr differ)
  revert equivocated
  unfold Equivocated
  decide

end ScalarCore
