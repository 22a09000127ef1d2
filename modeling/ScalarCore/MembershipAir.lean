import Mathlib.Data.Set.List
import ScalarCore.FallibleChecks
import ScalarCore.Imt
import ScalarCore.Poseidon2Air
import ScalarCore.Poseidon2Verifier

namespace ScalarCore.MembershipAir

/-!
# The membership circuit

Each input of a transfer has 33 rows: the hash of its leaf and one node hash for
each level of its path.  The public values are the root, the leaves and their
indices.

The constraints are those of the permutation, row by row.  They read no public
value and relate no row to another; the paths are checked by the prover before
it proves.
-/

open FallibleChecks Poseidon2Air

/-- `DOMAIN_IMT_LEAF_LO`. -/
def domainImtLeafLo : UInt64 :=
  fromLeBytes (asciiBytes "scalar_i")

/-- `DOMAIN_IMT_LEAF_HI`. -/
def domainImtLeafHi : UInt64 :=
  fromLeBytes (asciiBytes "mt_leaf" ++ [0])

/-- `DOMAIN_IMT_NODE_LO`. -/
def domainImtNodeLo : UInt64 :=
  fromLeBytes (asciiBytes "scalar_i")

/-- `DOMAIN_IMT_NODE_HI`. -/
def domainImtNodeHi : UInt64 :=
  fromLeBytes (asciiBytes "mt_node" ++ [0])

/-- The permutation input of a leaf. -/
def leafHashInput (commitment : Bytes32) (leafIndex : UInt64) : FieldState :=
  ![Goldilocks.new (fieldReduce domainImtLeafLo),
    Goldilocks.new (fieldReduce domainImtLeafHi),
    Goldilocks.new (fieldReduce (commitment.limb 0)),
    Goldilocks.new (fieldReduce (commitment.limb 1)),
    Goldilocks.new (fieldReduce (commitment.limb 2)),
    Goldilocks.new (fieldReduce (commitment.limb 3)),
    Goldilocks.new (fieldReduce leafIndex), Goldilocks.new 0]

/-- The permutation input of a node: half of the right child is dropped. -/
def nodeHashInput (left right : Digest4) : FieldState :=
  ![Goldilocks.new (fieldReduce domainImtNodeLo),
    Goldilocks.new (fieldReduce domainImtNodeHi),
    Goldilocks.new (fieldReduce (left 0)),
    Goldilocks.new (fieldReduce (left 1)),
    Goldilocks.new (fieldReduce (left 2)),
    Goldilocks.new (fieldReduce (left 3)),
    Goldilocks.new (fieldReduce (right 0)),
    Goldilocks.new (fieldReduce (right 1))]

/-- The path of one input. -/
structure MembershipWitness where
  commitment : Bytes32
  leafIndex : UInt64
  siblings : Fin imtDepth → Digest4

/-- The leaf a witness is for. -/
def MembershipWitness.leaf (witness : MembershipWitness) : Bytes32 × UInt64 :=
  (witness.commitment, witness.leafIndex)

/-- The claimed root and leaves. -/
structure MembershipPublicClaim where
  expectedRoot : Digest4
  leafCommitments : List Bytes32
  leafIndices : List UInt64

/-- Errors of the proof functions. -/
inductive MembershipP3Error where
  | verificationFailed
  | serializationFailed (text : String)
  | invalidWitness (text : String)
  | rootMismatch (expected got : Digest4)

/-- One level of the path: the inputs so far and the current digest. -/
def pathStep
    (perm : T8Permutation)
    (witness : MembershipWitness)
    (state : List FieldState × Digest4)
    (level : Fin imtDepth) :
    List FieldState × Digest4 :=
  let (inputs, current) := state
  let isRight := (witness.leafIndex >>> UInt64.ofNat level) &&& 1
  let sibling := witness.siblings level
  let nodeInput :=
    if isRight = 0 then
      nodeHashInput current sibling
    else
      nodeHashInput sibling current
  (inputs ++ [nodeInput], poseidon2Hash perm nodeInput)

/-- The permutation inputs of a path and the root it leads to. -/
def membershipTraceInputs
    (perm : T8Permutation)
    (witness : MembershipWitness) :
    List FieldState × Digest4 :=
  let leafInput := leafHashInput witness.commitment witness.leafIndex
  (List.finRange imtDepth).foldl (pathStep perm witness)
    ([leafInput], poseidon2Hash perm leafInput)

/-- The inputs and the roots of all paths. -/
def buildMembershipTrace
    (perm : T8Permutation)
    (witnesses : List MembershipWitness) :
    List FieldState × List Digest4 :=
  (witnesses.flatMap fun witness => (membershipTraceInputs perm witness).1,
    witnesses.map fun witness => (membershipTraceInputs perm witness).2)

/-- Every computed root is the expected one. -/
def validateMembershipRoots
    (computedRoots : List Digest4)
    (expectedRoot : Digest4) :
    Except MembershipP3Error Unit :=
  computedRoots.forM fun root =>
    if root ≠ expectedRoot then
      .error (.rootMismatch expectedRoot root)
    else
      .ok ()

/--
The check of `prove_membership_p3` before it proves: some witnesses for the
claimed leaves lead to the claimed root.
-/
def PassesPreflight
    (perm : T8Permutation)
    (claim : MembershipPublicClaim) : Prop :=
  ∃ witnesses : List MembershipWitness,
    witnesses.map MembershipWitness.leaf =
        claim.leafCommitments.zip claim.leafIndices ∧
      validateMembershipRoots (buildMembershipTrace perm witnesses).2
        claim.expectedRoot = .ok ()

/-- The root, then four words and the index of each leaf. -/
def buildMembershipPublicValues
    (claim : MembershipPublicClaim) :
    List Goldilocks :=
  (List.ofFn claim.expectedRoot).map Goldilocks.new ++
    (claim.leafCommitments.zip claim.leafIndices).flatMap fun leaf =>
      (List.ofFn leaf.1.limb).map (Goldilocks.new ∘ fieldReduce) ++
        [Goldilocks.new leaf.2]

/-- `eval`: the permutation on each row.  The public values are not read. -/
def constraints
    (perm : T8Permutation)
    (_publicValues : List Goldilocks) :
    CircuitTrace.RowConstraints Row where
  everyRow := PermutationRow perm
  firstRow _ := True
  lastRow _ := True

/-- A trace the circuit accepts for a claim. -/
def Satisfies
    (perm : T8Permutation)
    (claim : MembershipPublicClaim)
    (trace : List Row) : Prop :=
  CircuitTrace.Satisfies
    (constraints perm (buildMembershipPublicValues claim)) trace

/-- Some path leads from a leaf to the root. -/
def Reconstructs
    (perm : T8Permutation)
    (root : Digest4)
    (leaf : Bytes32 × UInt64) : Prop :=
  ∃ siblings : Fin imtDepth → Digest4,
    (membershipTraceInputs perm
      { commitment := leaf.1, leafIndex := leaf.2, siblings }).2 = root

/-- An accepted trace of a given height shows a path for each leaf. -/
def Sound
    (perm : T8Permutation)
    (claim : MembershipPublicClaim)
    (height : Nat) : Prop :=
  ∀ trace : List Row,
    trace.length = height →
      Satisfies perm claim trace →
        ∀ leaf ∈ claim.leafCommitments.zip claim.leafIndices,
          Reconstructs perm claim.expectedRoot leaf

/-- Which traces are accepted does not depend on the claim. -/
theorem satisfies_iff
    {perm : T8Permutation}
    {claim : MembershipPublicClaim}
    {trace : List Row} :
    Satisfies perm claim trace ↔ ∀ row ∈ trace, PermutationRow perm row := by
  constructor
  · intro satisfied
    exact satisfied.every
  · intro permuted
    exact ⟨permuted, fun _ _ => trivial, fun _ _ => trivial⟩

/-- Rows that hash the zero state are accepted. -/
theorem satisfies_zeroRows
    (perm : T8Permutation)
    (claim : MembershipPublicClaim)
    (height : Nat) :
    Satisfies perm claim (List.replicate height (generateRow perm 0)) := by
  rw [satisfies_iff]
  intro row listed
  rw [List.eq_of_mem_replicate listed]
  exact permutationRow_generateRow perm 0

theorem validateMembershipRoots_eq_ok_iff
    {computedRoots : List Digest4}
    {expectedRoot : Digest4} :
    validateMembershipRoots computedRoots expectedRoot = .ok () ↔
      ∀ root ∈ computedRoots, root = expectedRoot := by
  simp only [validateMembershipRoots, forM_eq_ok_iff, ite_error_eq_ok_iff,
    not_not, and_true]

/-- The prover can pass its check when every leaf has a path. -/
theorem passesPreflight_iff
    {perm : T8Permutation}
    {claim : MembershipPublicClaim} :
    PassesPreflight perm claim ↔
      ∀ leaf ∈ claim.leafCommitments.zip claim.leafIndices,
        Reconstructs perm claim.expectedRoot leaf := by
  constructor
  · rintro ⟨witnesses, forLeaves, passed⟩ leaf listed
    rw [← forLeaves] at listed
    obtain ⟨witness, member, rfl⟩ := List.mem_map.mp listed
    exact ⟨witness.siblings,
      validateMembershipRoots_eq_ok_iff.mp passed _
        (List.mem_map_of_mem member)⟩
  · intro reconstructs
    have opened :
        claim.leafCommitments.zip claim.leafIndices ∈
          Set.range
            (List.map fun witness :
                { witness : MembershipWitness //
                  (membershipTraceInputs perm witness).2 =
                    claim.expectedRoot } =>
              witness.val.leaf) := by
      rw [Set.range_list_map]
      intro leaf listed
      obtain ⟨siblings, reached⟩ := reconstructs leaf listed
      exact ⟨⟨⟨leaf.1, leaf.2, siblings⟩, reached⟩, rfl⟩
    obtain ⟨witnesses, forLeaves⟩ := opened
    refine ⟨witnesses.map Subtype.val, ?_, ?_⟩
    · rw [← forLeaves, List.map_map]
      rfl
    · apply validateMembershipRoots_eq_ok_iff.mpr
      intro root computed
      obtain ⟨_, member, rfl⟩ := List.mem_map.mp computed
      obtain ⟨witness, _, rfl⟩ := List.mem_map.mp member
      exact witness.property

/--
The only check of a path is the prover's own: accepted traces of any height show
paths exactly for the claims with which a prover passes its check, because the
circuit accepts a trace for every claim.
-/
theorem membership_sound_iff
    (perm : T8Permutation)
    (claim : MembershipPublicClaim)
    (height : Nat) :
    Sound perm claim height ↔ PassesPreflight perm claim := by
  rw [passesPreflight_iff]
  constructor
  · intro sound
    exact sound _ List.length_replicate (satisfies_zeroRows perm claim height)
  · intro reconstructs _ _ _
    exact reconstructs

/-- A path ends in a hash. -/
theorem exists_membershipRoot_input
    (perm : T8Permutation)
    (witness : MembershipWitness) :
    ∃ input : FieldState,
      (membershipTraceInputs perm witness).2 = poseidon2Hash perm input := by
  have hasLevels : List.finRange imtDepth ≠ [] := by
    simp [imtDepth]
  rw [membershipTraceInputs, ← List.dropLast_append_getLast hasLevels,
    List.foldl_append, List.foldl_cons, List.foldl_nil]
  exact ⟨_, rfl⟩

/-- One input, under a root that no path can end in. -/
def unreachableRoot : MembershipPublicClaim where
  expectedRoot := unreachedWords
  leafCommitments := [Bytes32.zero]
  leafIndices := [0]

/-- The circuit accepts a root that is not the root of any tree. -/
theorem not_sound_unreachableRoot :
    ¬Sound VerifierPy.t8Permutation unreachableRoot 64 := by
  intro sound
  obtain ⟨siblings, reached⟩ :=
    sound _ List.length_replicate (satisfies_zeroRows _ _ _)
      (Bytes32.zero, 0) List.mem_cons_self
  obtain ⟨input, hashed⟩ := exists_membershipRoot_input _ _
  exact poseidon2Hash_ne_unreachedWords _ _ (hashed.symm.trans reached)

end ScalarCore.MembershipAir
