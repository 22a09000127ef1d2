import ScalarCore.Poseidon2Pair
import ScalarCore.StateMachine
import Mathlib.Data.Finset.Insert

namespace ScalarCore

/-!
# Nullifiers of mint claims

A node claims the reward of an epoch once.  What is remembered of a claim is its
nullifier, the hash of the first eight bytes of the node id and of the epoch,
both taken into the field.  So the claims that exclude each other are those of
one node id up to its first eight bytes, and of one epoch, modulo the prime.
-/

open PairHash StateMachine

/-- `POU_MINT_DOMAIN`. -/
def pouMintDomain : UInt64 :=
  0x706f755f6d696e74

/-- The variant of `EmissionError` that a claim is refused with. -/
inductive MintClaimError where
  | alreadyClaimed (epochId : UInt64)
  deriving Repr, DecidableEq

/-- The arguments of a claim. -/
structure MintClaim where
  nodeId : Bytes32
  epochId : UInt64
  deriving DecidableEq

/-- The nullifiers of the recorded claims. -/
structure MintNullifierSet where
  spent : Finset UInt64
  deriving DecidableEq

namespace MintNullifierSet

/-- No claims. -/
def new : MintNullifierSet where
  spent := ∅

variable (hash : PairHash)

/-- The inner hash of `compute_nullifier`. -/
def computeIntermediate (nodeId : Bytes32) (epochId : UInt64) : UInt64 :=
  let nodeIdLo := nodeId.limb 0
  hash.hash2To1 nodeIdLo epochId

/-- `compute_nullifier`. -/
def computeNullifier (nodeId : Bytes32) (epochId : UInt64) : UInt64 :=
  hash.hash2To1 (computeIntermediate hash nodeId epochId) pouMintDomain

/-- `is_claimed`. -/
def isClaimed
    (set : MintNullifierSet)
    (nodeId : Bytes32)
    (epochId : UInt64) : Bool :=
  decide (computeNullifier hash nodeId epochId ∈ set.spent)

/-- `record_claim`. -/
def recordClaim
    (set : MintNullifierSet)
    (claim : MintClaim) :
    MintNullifierSet × Except MintClaimError UInt64 :=
  let nullifier := computeNullifier hash claim.nodeId claim.epochId
  if nullifier ∈ set.spent then
    (set, .error (.alreadyClaimed claim.epochId))
  else
    ({ spent := insert nullifier set.spent }, .ok nullifier)

/-- The nullifier of a claim. -/
def nullifierOf (claim : MintClaim) : UInt64 :=
  computeNullifier hash claim.nodeId claim.epochId

/-- The claims agree in what the nullifier is computed from. -/
def SameFieldWords (claim other : MintClaim) : Prop :=
  fieldReduce (claim.nodeId.limb 0) = fieldReduce (other.nodeId.limb 0) ∧
    fieldReduce claim.epochId = fieldReduce other.epochId

instance (claim other : MintClaim) : Decidable (SameFieldWords claim other) :=
  inferInstanceAs (Decidable (_ ∧ _))

/-- The pairs that are hashed for a list of claims. -/
def hashedPairs (claims : List MintClaim) : List (UInt64 × UInt64) :=
  claims.flatMap fun claim => [
    hashedPair (claim.nodeId.limb 0) claim.epochId,
    hashedPair (computeIntermediate hash claim.nodeId claim.epochId)
      pouMintDomain]

variable {hash} {past : List MintClaim} {claim other : MintClaim}

/-- A claim is recorded exactly when its nullifier is new. -/
theorem recordClaim_ok_iff_not_mem (set : MintNullifierSet) :
    (∃ nullifier, (set.recordClaim hash claim).2 = .ok nullifier) ↔
      nullifierOf hash claim ∉ set.spent := by
  rw [recordClaim]
  split
  · rename_i spent
    exact ⟨nofun, fun notSpent => absurd spent notSpent⟩
  · rename_i notSpent
    exact ⟨fun _ => notSpent, fun _ => ⟨_, rfl⟩⟩

/-- Recorded or refused, the nullifier of a claim is spent afterwards. -/
theorem spent_recordClaim (set : MintNullifierSet) :
    (set.recordClaim hash claim).1.spent =
      insert (nullifierOf hash claim) set.spent := by
  rw [recordClaim]
  split
  · rename_i spent
    exact (Finset.insert_eq_of_mem spent).symm
  · rfl

variable (hash) in
/-- The spent nullifiers are those of the claims made so far. -/
def Remembers (past : List MintClaim) (set : MintNullifierSet) : Prop :=
  ∀ nullifier,
    nullifier ∈ set.spent ↔
      ∃ earlier ∈ past, nullifierOf hash earlier = nullifier

/-- A claim is remembered with those before it. -/
theorem remembers_recordClaim
    (past : List MintClaim)
    (set : MintNullifierSet)
    (claim : MintClaim)
    (remembers : Remembers hash past set) :
    Remembers hash (past ++ [claim]) (set.recordClaim hash claim).1 := by
  intro nullifier
  rw [spent_recordClaim, Finset.mem_insert, remembers nullifier]
  simp only [List.mem_append, List.mem_singleton, or_and_right, exists_or,
    exists_eq_left]
  rw [or_comm, eq_comm]

/-- After a run all its claims are remembered. -/
theorem remembers_run (past : List MintClaim) :
    Remembers hash past (run (recordClaim hash) new past) := by
  have initially : Remembers hash [] new := by
    intro nullifier
    simp [new]
  exact run_history remembers_recordClaim initially past

variable (hash) in
/-- Both pairs of a listed claim are hashed. -/
theorem mem_hashedPairs
    {claims : List MintClaim}
    (listed : claim ∈ claims) :
    hashedPair (claim.nodeId.limb 0) claim.epochId ∈
        hashedPairs hash claims ∧
      hashedPair (computeIntermediate hash claim.nodeId claim.epochId)
          pouMintDomain ∈
        hashedPairs hash claims := by
  simp only [hashedPairs, List.mem_flatMap]
  exact ⟨⟨claim, listed, by simp⟩, ⟨claim, listed, by simp⟩⟩

/-- Claims that agree in the field have one nullifier. -/
theorem nullifierOf_congr
    (same : SameFieldWords claim other) :
    nullifierOf hash claim = nullifierOf hash other := by
  rw [nullifierOf, nullifierOf, computeNullifier, computeNullifier,
    computeIntermediate, computeIntermediate, hash2To1, hash2To1, hash2To1,
    same.1, same.2]
  rfl

/-- Where no two pairs collide, one nullifier stands for one pair of words. -/
theorem nullifierOf_eq_iff
    {claims : List MintClaim}
    (collisionFree : hash.InjectiveOn (hashedPairs hash claims))
    (listed : claim ∈ claims)
    (listed' : other ∈ claims) :
    nullifierOf hash claim = nullifierOf hash other ↔
      SameFieldWords claim other := by
  rcases mem_hashedPairs hash listed with ⟨inner, outer⟩
  rcases mem_hashedPairs hash listed' with ⟨inner', outer'⟩
  rw [nullifierOf, nullifierOf, computeNullifier, computeNullifier,
    collisionFree.hash2To1_eq_iff outer outer', computeIntermediate,
    computeIntermediate, fieldReduce_hash2To1, fieldReduce_hash2To1,
    collisionFree.hash2To1_eq_iff inner inner', SameFieldWords]
  exact and_iff_left rfl

/--
A claim is recorded exactly when no earlier one, recorded or not, agrees with it
in the first word of the node id and in the epoch, modulo the prime.
-/
theorem recordClaim_ok_iff
    (collisionFree :
      hash.InjectiveOn (hashedPairs hash (past ++ [claim]))) :
    (∃ nullifier,
        ((run (recordClaim hash) new past).recordClaim hash claim).2 =
          .ok nullifier) ↔
      ∀ earlier ∈ past, ¬ SameFieldWords earlier claim := by
  have isListed : claim ∈ past ++ [claim] :=
    List.mem_append_right _ (List.mem_singleton_self claim)
  rw [recordClaim_ok_iff_not_mem, remembers_run past]
  simp only [not_exists, not_and]
  apply forall₂_congr
  intro earlier listed
  exact
    not_congr
      (nullifierOf_eq_iff collisionFree (List.mem_append_left _ listed)
        isListed)

/-- A claim for epoch 5, with the first and the other words of the node id. -/
def sampleClaim (first others : UInt64) : MintClaim where
  nodeId := Bytes32.ofLimbs fun index => if index = 0 then first else others
  epochId := 5

/-- Two nodes claim the same epoch. -/
theorem recordClaim_ok_iff_sample :
    (∃ nullifier,
        ((run (recordClaim sampleHash) new [sampleClaim 1 0]).recordClaim
            sampleHash (sampleClaim 2 0)).2 =
          .ok nullifier) ↔
      ∀ earlier ∈ [sampleClaim 1 0],
        ¬ SameFieldWords earlier (sampleClaim 2 0) :=
  recordClaim_ok_iff (by decide)

/-- A claim is refused exactly after one for the same node and epoch. -/
def NoInterference
    (hash : PairHash)
    (past : List MintClaim)
    (claim : MintClaim) : Prop :=
  (∃ nullifier,
      ((run (recordClaim hash) new past).recordClaim hash claim).2 =
        .ok nullifier) ↔
    ∀ earlier ∈ past,
      ¬ (earlier.nodeId = claim.nodeId ∧ earlier.epochId = claim.epochId)

/-- A claim that agrees with an earlier one in the field is refused. -/
theorem not_noInterference
    (same : SameFieldWords other claim)
    (differ : ¬ (other.nodeId = claim.nodeId ∧ other.epochId = claim.epochId)) :
    ¬ NoInterference hash [other] claim := by
  intro apart
  have recorded :=
    apart.mpr fun earlier listed => by
      rwa [List.mem_singleton.mp listed]
  rw [recordClaim_ok_iff_not_mem, remembers_run] at recorded
  exact
    recorded ⟨other, List.mem_singleton_self other, nullifierOf_congr same⟩

/--
Whatever the hash, a node is locked out by one whose id begins with the same
eight bytes, and by its own claim of an epoch that is smaller by the prime.
-/
theorem claims_interfere :
    ¬ ∃ hash : PairHash,
      NoInterference hash [sampleClaim 7 0] (sampleClaim 7 1) ∨
        NoInterference hash [{ sampleClaim 7 0 with epochId := 0 }]
          { sampleClaim 7 0 with epochId := goldilocksPrime } := by
  rintro ⟨hash, sameWord | sameEpoch⟩
  · exact not_noInterference (by decide) (by decide) sameWord
  · exact not_noInterference (by decide) (by decide) sameEpoch

end MintNullifierSet

end ScalarCore
