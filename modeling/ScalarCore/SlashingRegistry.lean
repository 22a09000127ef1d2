import ScalarCore.EpochSlashing
import ScalarCore.FallibleChecks
import ScalarCore.StateMachine

namespace ScalarCore

/-!
# The registry of equivocators

Equivocation is reported to the registry as a proof: two announcements of one node for one
epoch with different roots.  Such proofs blacklist the equivocators and no other nodes of
the announcements they are drawn from, also where the detection of the epoch boundary
slashes more.  Signatures are not looked at, so a proof can be made up for any node.
-/

open FallibleChecks KeyedWrites StateMachine

/-- `LivenessRootAnnouncement`. -/
structure LivenessRootAnnouncement where
  epochId : UInt64
  livenessRoot : Bytes32
  connectivitySummary : Bytes32
  nodeId : Bytes32
  timestamp : UInt64
  nodeSignature : List UInt8
  deriving DecidableEq

/-- `SlashingProof`. -/
structure SlashingProof where
  nodeId : Bytes32
  epochId : UInt64
  announcement1 : LivenessRootAnnouncement
  announcement2 : LivenessRootAnnouncement
  verifierNode : Bytes32
  deriving DecidableEq

/-- `SlashingError`. -/
inductive SlashingError where
  | nodeIdMismatch
  | epochIdMismatch
  | sameRoot
  | announcementNodeIdMismatch
  deriving DecidableEq

/-- `validate_slashing_proof`. -/
def validateSlashingProof (proof : SlashingProof) : Except SlashingError Unit :=
  if proof.announcement1.nodeId ≠ proof.nodeId then
    .error .announcementNodeIdMismatch
  else if proof.announcement2.nodeId ≠ proof.nodeId then
    .error .announcementNodeIdMismatch
  else if proof.announcement1.epochId ≠ proof.epochId then
    .error .epochIdMismatch
  else if proof.announcement2.epochId ≠ proof.epochId then
    .error .epochIdMismatch
  else if proof.announcement1.livenessRoot = proof.announcement2.livenessRoot then
    .error .sameRoot
  else
    .ok ()

/-- `SlashingRegistry`. -/
structure SlashingRegistry where
  blacklisted : Finset Bytes32

namespace SlashingRegistry

/-- `new`. -/
def new : SlashingRegistry where
  blacklisted := ∅

/-- `process_proof`. -/
def processProof
    (registry : SlashingRegistry)
    (proof : SlashingProof) : SlashingRegistry × Bool :=
  match validateSlashingProof proof with
  | .ok () =>
      ({ blacklisted := insert proof.nodeId registry.blacklisted }, true)
  | .error _ =>
      (registry, false)

/-- `is_blacklisted`. -/
def isBlacklisted (registry : SlashingRegistry) (nodeId : Bytes32) : Bool :=
  nodeId ∈ registry.blacklisted

/-- `apply_maturity_reset`. -/
def applyMaturityReset
    (order : IterationOrder)
    (registry : SlashingRegistry)
    (maturityWeights : Finmap fun _ : Bytes32 => UInt64) :
    Finmap fun _ : Bytes32 => UInt64 :=
  writeAll id (fun _ => 0) maturityWeights (order.list registry.blacklisted)

end SlashingRegistry

/-- The announcement as the epoch boundary compares it. -/
def LivenessRootAnnouncement.claimed
    (announcement : LivenessRootAnnouncement) : Announcement where
  nodeId := announcement.nodeId
  epoch := announcement.epochId
  claimHash := announcement.livenessRoot

/-- Two announcements of one node for one epoch with different roots. -/
def Conflict (first second : LivenessRootAnnouncement) : Prop :=
  first.nodeId = second.nodeId ∧ first.epochId = second.epochId ∧
    first.livenessRoot ≠ second.livenessRoot

/-- The proof names the node and the epoch of two announcements in conflict. -/
structure SlashingProof.Shows (proof : SlashingProof) (nodeId : Bytes32) : Prop where
  names : proof.nodeId = nodeId
  dates : proof.epochId = proof.announcement1.epochId
  announces : proof.announcement1.nodeId = nodeId
  conflict : Conflict proof.announcement1 proof.announcement2

/-- The announcements of the proof are among the announced. -/
def SlashingProof.DrawnFrom
    (proof : SlashingProof)
    (announced : List LivenessRootAnnouncement) : Prop :=
  proof.announcement1 ∈ announced ∧ proof.announcement2 ∈ announced

/-- Each conflict between announcements is reported. -/
def ReportsAll
    (proofs : List SlashingProof)
    (announced : List LivenessRootAnnouncement) : Prop :=
  ∀ first ∈ announced, ∀ second ∈ announced, Conflict first second →
    ∃ proof ∈ proofs, proof.Shows first.nodeId

/-- A proof passes exactly when it shows that its node equivocated. -/
theorem validateSlashingProof_eq_ok_iff {proof : SlashingProof} :
    validateSlashingProof proof = .ok () ↔ proof.Shows proof.nodeId := by
  rw [validateSlashingProof]
  simp only [ite_error_eq_ok_iff, and_true, not_not]
  constructor
  · rintro ⟨firstNode, secondNode, firstEpoch, secondEpoch, differ⟩
    exact ⟨rfl, firstEpoch.symm, firstNode,
      firstNode.trans secondNode.symm, firstEpoch.trans secondEpoch.symm, differ⟩
  · rintro ⟨-, dates, announces, sameNode, sameEpoch, differ⟩
    exact ⟨announces, sameNode.symm.trans announces, dates.symm,
      sameEpoch.symm.trans dates.symm, differ⟩

/-- What a proof drawn from announcements shows is an equivocation in them. -/
theorem SlashingProof.Shows.equivocated
    {proof : SlashingProof}
    {nodeId : Bytes32}
    {announced : List LivenessRootAnnouncement}
    (shows : proof.Shows nodeId)
    (drawn : proof.DrawnFrom announced) :
    Equivocated (announced.map LivenessRootAnnouncement.claimed) nodeId := by
  obtain ⟨sameNode, sameEpoch, differ⟩ := shows.conflict
  exact ⟨_, List.mem_map_of_mem drawn.1, _, List.mem_map_of_mem drawn.2,
    shows.announces, sameNode.symm.trans shows.announces, sameEpoch, differ⟩

/-- An equivocation is a conflict between two announcements of the node. -/
theorem Equivocated.exists_conflict
    {announced : List LivenessRootAnnouncement}
    {nodeId : Bytes32}
    (equivocated : Equivocated (announced.map LivenessRootAnnouncement.claimed) nodeId) :
    ∃ first ∈ announced, ∃ second ∈ announced,
      first.nodeId = nodeId ∧ Conflict first second := by
  obtain ⟨_, firstMem, _, secondMem, firstNode, secondNode, sameEpoch, differ⟩ :=
    equivocated
  obtain ⟨first, listed, rfl⟩ := List.mem_map.mp firstMem
  obtain ⟨second, alsoListed, rfl⟩ := List.mem_map.mp secondMem
  exact ⟨first, listed, second, alsoListed, firstNode,
    firstNode.trans secondNode.symm, sameEpoch, differ⟩

namespace SlashingRegistry

variable {registry : SlashingRegistry} {proof : SlashingProof} {nodeId : Bytes32}

/-- A proof blacklists the node that it shows to equivocate. -/
theorem mem_processProof :
    nodeId ∈ (registry.processProof proof).1.blacklisted ↔
      nodeId ∈ registry.blacklisted ∨ proof.Shows nodeId := by
  rw [processProof]
  split
  · rename_i passed
    have shows := validateSlashingProof_eq_ok_iff.mp passed
    rw [Finset.mem_insert, or_comm]
    refine or_congr_right ⟨?_, fun shown => shown.names.symm⟩
    rintro rfl
    exact shows
  · rename_i failed
    refine (or_iff_left fun shown => ?_).symm
    obtain rfl := shown.names
    rw [validateSlashingProof_eq_ok_iff.mpr shown] at failed
    cases failed

/-- The nodes blacklisted by a run of proofs are those that a proof shows to equivocate. -/
theorem mem_run (proofs : List SlashingProof) :
    nodeId ∈ (run processProof registry proofs).blacklisted ↔
      nodeId ∈ registry.blacklisted ∨ ∃ proof ∈ proofs, proof.Shows nodeId := by
  induction proofs generalizing registry with
  | nil =>
      simp
  | cons proof rest inductionHypothesis =>
      rw [run_cons, inductionHypothesis, mem_processProof, or_assoc, List.exists_mem_cons_iff]

/-- The reset writes zero for the blacklisted nodes and keeps the other weights. -/
theorem lookup_applyMaturityReset
    (order : IterationOrder)
    (maturityWeights : Finmap fun _ : Bytes32 => UInt64) :
    (registry.applyMaturityReset order maturityWeights).lookup nodeId =
      if nodeId ∈ registry.blacklisted then
        some 0
      else
        maturityWeights.lookup nodeId := by
  rw [applyMaturityReset, lookup_writeAll]
  split
  · rename_i listed
    obtain ⟨last, isLast⟩ :=
      @exists_lastFor Bytes32 Bytes32 _ id _ nodeId ((order.mem_list _ _).mpr listed)
    rw [show lastFor id nodeId _ = some last from isLast, Option.map_some, Option.some_or]
  · rename_i unlisted
    have unwritten :
        @lastFor Bytes32 Bytes32 _ id nodeId (order.list registry.blacklisted) = none := by
      rw [lastFor_eq_none_iff]
      rintro _ written rfl
      exact unlisted ((order.mem_list _ _).mp written)
    rw [unwritten, Option.map_none, Option.none_or]

/-- What the registry knows after a run of proofs. -/
structure SlashesReported (proofs : List SlashingProof) (registry : SlashingRegistry) :
    Prop where
  blacklists :
    ∀ nodeId,
      registry.isBlacklisted nodeId = true ↔ ∃ proof ∈ proofs, proof.Shows nodeId
  slashedAtBoundary :
    ∀ announced,
      (∀ proof ∈ proofs, proof.DrawnFrom announced) →
      ∀ order nodeId,
        registry.isBlacklisted nodeId = true →
        nodeId ∈
          verifyStep35Slashing order (announced.map LivenessRootAnnouncement.claimed)
  exact :
    ∀ announced,
      (∀ proof ∈ proofs, proof.DrawnFrom announced) →
      ReportsAll proofs announced →
      ∀ order : IterationOrder,
        SlashesExactly (order.list registry.blacklisted)
          (announced.map LivenessRootAnnouncement.claimed)
  resets :
    ∀ order maturityWeights nodeId,
      (registry.applyMaturityReset order maturityWeights).lookup nodeId =
        if registry.isBlacklisted nodeId = true then
          some 0
        else
          maturityWeights.lookup nodeId
  unsigned :
    ∀ nodeId epochId verifierNode, ∃ proof,
      proof.verifierNode = verifierNode ∧
        proof.announcement1.epochId = epochId ∧
        proof.announcement1.nodeSignature = [] ∧
        proof.announcement2.nodeSignature = [] ∧
        (registry.processProof proof).1.isBlacklisted nodeId = true

/--
After any run of proofs the blacklisted nodes are those that a proof shows to equivocate.
When the proofs are drawn from announcements, the epoch boundary slashes them too; when
they report all conflicts, they are exactly the equivocators, which the boundary alone
does not find.  A reset zeroes their weights in any order.  Unsigned announcements are
enough to blacklist any node.
-/
theorem registry_slashes (proofs : List SlashingProof) :
    SlashesReported proofs (run processProof new proofs) := by
  have blacklists (nodeId : Bytes32) :
      nodeId ∈ (run processProof new proofs).blacklisted ↔
        ∃ proof ∈ proofs, proof.Shows nodeId := by
    rw [mem_run]
    exact or_iff_right (Finset.notMem_empty nodeId)
  refine
    { blacklists := fun nodeId => ?_
      slashedAtBoundary := fun announced drawn order nodeId listed => ?_
      exact := fun announced drawn reported order => ⟨order.nodup _, fun nodeId => ?_⟩
      resets := fun order maturityWeights nodeId => ?_
      unsigned := fun nodeId epochId verifierNode => ?_ }
  · rw [isBlacklisted, decide_eq_true_iff, blacklists]
  · rw [isBlacklisted, decide_eq_true_iff, blacklists] at listed
    obtain ⟨proof, processed, shown⟩ := listed
    exact (shown.equivocated (drawn proof processed)).mem_verifyStep35Slashing order
  · rw [order.mem_list, blacklists]
    constructor
    · rintro ⟨proof, processed, shown⟩
      exact shown.equivocated (drawn proof processed)
    · intro equivocated
      obtain ⟨first, listed, second, alsoListed, rfl, conflict⟩ :=
        equivocated.exists_conflict
      exact reported first listed second alsoListed conflict
  · simp only [isBlacklisted, decide_eq_true_iff]
    exact lookup_applyMaturityReset order maturityWeights
  · let announcing (livenessRoot : Bytes32) : LivenessRootAnnouncement :=
      ⟨epochId, livenessRoot, Bytes32.zero, nodeId, 0, []⟩
    let forged : SlashingProof :=
      ⟨nodeId, epochId, announcing Bytes32.zero, announcing (Bytes32.endingIn 1), verifierNode⟩
    have shown : forged.Shows nodeId :=
      ⟨rfl, rfl, rfl, rfl, rfl, show Bytes32.zero ≠ Bytes32.endingIn 1 by decide⟩
    refine ⟨forged, rfl, rfl, rfl, rfl, ?_⟩
    rw [isBlacklisted, decide_eq_true_iff, mem_processProof]
    exact Or.inr shown

end SlashingRegistry

end ScalarCore
