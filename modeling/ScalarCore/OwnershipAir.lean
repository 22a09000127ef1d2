import ScalarCore.FieldConstraints
import ScalarCore.Poseidon2Air
import ScalarCore.Poseidon2Bijective

namespace ScalarCore.OwnershipAir

/-!
# The ownership circuit

Each input of a transfer has two rows, one that hashes its nullifier and one
that hashes its commitment.  All nullifier rows come first.  The public values
are the claimed hashes in the same order.

Only the first row and the last row of the trace are compared with public
values, and no row is compared with another.
-/

open FieldConstraints Poseidon2Air

/-- `DOMAIN_NULL_FE`. -/
def domainNullFe : UInt64 :=
  fromLeBytes (asciiBytes "scalar_n")

/-- `DOMAIN_COMMITMENT_FE`. -/
def domainCommitmentFe : UInt64 :=
  fromLeBytes (asciiBytes "scalar_c")

/-- What the owner of an input knows. -/
structure InputWitness where
  secret : UInt64
  value : UInt64
  ownerPubkeyLo : UInt64
  ownerPubkeyHi : UInt64
  salt : UInt64
  spendingKeyLo : UInt64
  spendingKeyHi : UInt64
  birthEpoch : UInt64
  deriving DecidableEq

/-- The claimed hashes of an input. -/
structure OwnershipPublicClaim where
  expectedNullifier : Digest4
  expectedCommitment : Digest4

/-- Errors of the proof functions. -/
inductive OwnershipP3Error where
  | verificationFailed
  | serializationFailed (text : String)
  | invalidWitness (text : String)

/-- The permutation input of a nullifier. -/
def nullifierInput (w : InputWitness) : FieldState :=
  ![Goldilocks.new domainNullFe, Goldilocks.new w.secret,
    Goldilocks.new w.spendingKeyLo, Goldilocks.new w.spendingKeyHi,
    Goldilocks.new w.birthEpoch, Goldilocks.new 0, Goldilocks.new 0,
    Goldilocks.new 0]

/-- The permutation input of a commitment. -/
def commitmentInput (w : InputWitness) : FieldState :=
  ![Goldilocks.new domainCommitmentFe, Goldilocks.new w.value,
    Goldilocks.new w.ownerPubkeyLo, Goldilocks.new w.ownerPubkeyHi,
    Goldilocks.new w.secret, Goldilocks.new w.salt,
    Goldilocks.new w.birthEpoch, Goldilocks.new 0]

/-- The inputs of all rows, padded to a power of two with zero states. -/
def ownershipInputs (witnesses : List InputWitness) : List FieldState :=
  let inputs := witnesses.map nullifierInput ++ witnesses.map commitmentInput
  inputs ++
    List.replicate (CircuitTrace.nextPowerOfTwo inputs.length - inputs.length) 0

/-- `build_ownership_trace`. -/
def buildOwnershipTrace
    (perm : T8Permutation)
    (witnesses : List InputWitness) :
    List Row :=
  (ownershipInputs witnesses).map (generateRow perm)

/-- `compute_expected_nullifier`. -/
def computeExpectedNullifier
    (perm : T8Permutation)
    (w : InputWitness) :
    Digest4 :=
  poseidon2Hash perm (nullifierInput w)

/-- `compute_expected_commitment`. -/
def computeExpectedCommitment
    (perm : T8Permutation)
    (w : InputWitness) :
    Digest4 :=
  poseidon2Hash perm (commitmentInput w)

/-- The elements of four words. -/
def digestElements (words : Digest4) : List Goldilocks :=
  (List.ofFn words).map Goldilocks.new

/-- All nullifiers, then all commitments. -/
def buildOwnershipPublicValues
    (claims : List OwnershipPublicClaim) :
    List Goldilocks :=
  claims.flatMap (fun claim => digestElements claim.expectedNullifier) ++
    claims.flatMap (fun claim => digestElements claim.expectedCommitment)

/--
The first outputs of a row against the public values from a position on.  A
position past the end is not compared.
-/
def boundary
    (row : Row)
    (publicValues : List Goldilocks)
    (start : Nat) :
    List Goldilocks :=
  (List.range p2OutputBound).filterMap fun index =>
    publicValues[start + index]?.map fun publicValue =>
      row (p2OutputColOffset + index) - publicValue

/-- `eval`: the permutation on each row, the boundary on the outer two. -/
def constraints
    (perm : T8Permutation)
    (claims : List OwnershipPublicClaim) :
    CircuitTrace.RowConstraints Row :=
  let publicValues := buildOwnershipPublicValues claims
  let lastStart := (2 * claims.length - 1) * p2OutputBound
  {
    everyRow := PermutationRow perm
    firstRow := fun row => Vanish (boundary row publicValues 0)
    lastRow := fun row => Vanish (boundary row publicValues lastStart)
  }

/-- A trace the circuit accepts for a list of claims. -/
def Satisfies
    (perm : T8Permutation)
    (claims : List OwnershipPublicClaim)
    (trace : List Row) : Prop :=
  CircuitTrace.Satisfies (constraints perm claims) trace

/-- The hashes of a claim are those of one witness. -/
def Opens
    (perm : T8Permutation)
    (w : InputWitness)
    (claim : OwnershipPublicClaim) : Prop :=
  computeExpectedNullifier perm w = claim.expectedNullifier ∧
    computeExpectedCommitment perm w = claim.expectedCommitment

/-- An accepted trace shows that every claim has a witness. -/
def Sound
    (perm : T8Permutation)
    (claims : List OwnershipPublicClaim) : Prop :=
  ∀ trace : List Row,
    trace.length = CircuitTrace.nextPowerOfTwo (2 * claims.length) →
      Satisfies perm claims trace →
        ∃ witnesses : List InputWitness,
          List.Forall₂ (Opens perm) witnesses claims

/-- The boundary compares the public values that are there. -/
theorem vanish_boundary_iff
    {row : Row}
    {publicValues : List Goldilocks}
    {start : Nat} :
    Vanish (boundary row publicValues start) ↔
      ∀ index : Fin 4, ∀ publicValue ∈ publicValues[start + index]?,
        row (p2OutputColOffset + index) = publicValue := by
  constructor
  · intro vanish index publicValue present
    apply sub_eq_zero.mp
    apply vanish
    refine List.mem_filterMap.mpr
      ⟨index, List.mem_range.mpr index.isLt, ?_⟩
    rw [Option.mem_def.mp present, Option.map_some]
  · intro agree difference member
    obtain ⟨index, listed, compared⟩ := List.mem_filterMap.mp member
    obtain ⟨publicValue, present, rfl⟩ := Option.map_eq_some_iff.mp compared
    exact sub_eq_zero.mpr
      (agree ⟨index, List.mem_range.mp listed⟩ publicValue present)

/-- When every state is reached, some row agrees with any public values. -/
theorem exists_boundary_row
    {perm : T8Permutation}
    (surjective : Function.Surjective (permute perm))
    (publicValues : List Goldilocks)
    (start : Nat) :
    ∃ row, PermutationRow perm row ∧
      Vanish (boundary row publicValues start) := by
  obtain ⟨row, permuted, outputs⟩ :=
    exists_row_outputs surjective fun index =>
      Goldilocks.asCanonicalU64 (publicValues.getD (start + index) 0)
  refine ⟨row, permuted, vanish_boundary_iff.mpr ?_⟩
  intro index publicValue present
  rw [outputs, Goldilocks.new_asCanonicalU64, List.getD_eq_getElem?_getD,
    Option.mem_def.mp present, Option.getD_some]

/-- Every list of claims has an accepted trace of the right height. -/
theorem exists_satisfies
    {perm : T8Permutation}
    (surjective : Function.Surjective (permute perm))
    {claims : List OwnershipPublicClaim}
    (nonempty : claims ≠ []) :
    ∃ trace : List Row,
      trace.length = CircuitTrace.nextPowerOfTwo (2 * claims.length) ∧
        Satisfies perm claims trace := by
  have oneClaim : 1 ≤ claims.length :=
    List.length_pos_iff.mpr nonempty
  have twoRows : 2 ≤ CircuitTrace.nextPowerOfTwo (2 * claims.length) :=
    le_trans (by omega) (CircuitTrace.le_nextPowerOfTwo _)
  exact (CircuitTrace.exists_satisfies_iff twoRows).mpr
    ⟨exists_boundary_row surjective _ _, exists_boundary_row surjective _ _⟩

/-- Witnesses for a list, one for each of its claims. -/
theorem exists_forall₂_iff
    {Claim Witness : Type}
    {opens : Witness → Claim → Prop}
    {claims : List Claim} :
    (∃ witnesses : List Witness, List.Forall₂ opens witnesses claims) ↔
      ∀ claim ∈ claims, ∃ w, opens w claim := by
  constructor
  · rintro ⟨witnesses, all⟩ claim listed
    induction all with
    | nil =>
        exact absurd listed List.not_mem_nil
    | cons opened _ inductionHypothesis =>
        rcases List.mem_cons.mp listed with rfl | later
        · exact ⟨_, opened⟩
        · exact inductionHypothesis later
  · intro each
    induction claims with
    | nil =>
        exact ⟨[], .nil⟩
    | cons claim rest inductionHypothesis =>
        obtain ⟨w, opened⟩ := each claim List.mem_cons_self
        obtain ⟨witnesses, all⟩ :=
          inductionHypothesis fun other listed =>
            each other (List.mem_cons_of_mem claim listed)
        exact ⟨w :: witnesses, .cons opened all⟩

/--
The circuit adds nothing to what is known of the claims: it accepts a trace for
every list of claims, and accepted traces show witnesses exactly for the lists
in which each claim has one anyway.
-/
theorem ownership_sound_iff
    (perm : T8Permutation)
    (surjective : Function.Surjective (permute perm))
    (claims : List OwnershipPublicClaim)
    (nonempty : claims ≠ []) :
    Sound perm claims ↔ ∀ claim ∈ claims, ∃ w, Opens perm w claim := by
  rw [← exists_forall₂_iff]
  constructor
  · intro sound
    obtain ⟨trace, hasHeight, satisfied⟩ := exists_satisfies surjective nonempty
    exact sound trace hasHeight satisfied
  · intro witnesses _ _ _
    exact witnesses

/-- A witness, and the claim its owner makes. -/
def sampleWitness : InputWitness where
  secret := 1
  value := 500000000
  ownerPubkeyLo := 2
  ownerPubkeyHi := 3
  salt := 4
  spendingKeyLo := 5
  spendingKeyHi := 6
  birthEpoch := 100

def sampleClaim : OwnershipPublicClaim where
  expectedNullifier :=
    computeExpectedNullifier VerifierPy.t8Permutation sampleWitness
  expectedCommitment :=
    computeExpectedCommitment VerifierPy.t8Permutation sampleWitness

/-- An honest claim is sound. -/
theorem sound_sampleClaim :
    Sound VerifierPy.t8Permutation [sampleClaim] := by
  have opened :
      ∀ claim ∈ [sampleClaim],
        ∃ w, Opens VerifierPy.t8Permutation w claim := by
    intro claim listed
    rw [List.mem_singleton.mp listed]
    exact ⟨sampleWitness, rfl, rfl⟩
  exact (ownership_sound_iff VerifierPy.t8Permutation VerifierPy.permute_surjective
    [sampleClaim] (List.cons_ne_nil _ _)).mpr opened

/-- The compared columns of a row are the hash of its input. -/
theorem generateRow_output
    {perm : T8Permutation}
    (input : FieldState)
    (index : Fin 4) :
    generateRow perm input (p2OutputColOffset + index) =
      Goldilocks.new (poseidon2Hash perm input index) := by
  rw [poseidon2Hash, digestWords, Goldilocks.new_asCanonicalU64,
    ← rowOutput_generateRow]
  rfl

/-- Where four canonical words stand, a row has to hash to them. -/
theorem vanish_boundary_digest_iff
    {perm : T8Permutation}
    {input : FieldState}
    {words : Digest4}
    {publicValues : List Goldilocks}
    {start : Nat}
    (standing : ∀ index : Fin 4,
      publicValues[start + index]? = some (Goldilocks.new (words index)))
    (canonical : ∀ index, words index < goldilocksPrime) :
    Vanish (boundary (generateRow perm input) publicValues start) ↔
      words = poseidon2Hash perm input := by
  rw [vanish_boundary_iff]
  constructor
  · intro agree
    funext index
    have same := agree index _ (standing index)
    rw [generateRow_output, Goldilocks.new_eq_iff,
      fieldReduce_of_lt (poseidon2Hash_lt perm input index),
      fieldReduce_of_lt (canonical index)] at same
    exact same.symm
  · rintro rfl index publicValue present
    rw [generateRow_output]
    exact Option.some_inj.mp ((standing index).symm.trans present)

/-- Two claims: the two hashes in the middle are compared with no row. -/
def paddingClaims (perm : T8Permutation) : List OwnershipPublicClaim :=
  [{ expectedNullifier := poseidon2Hash perm 0
     expectedCommitment := unreachedWords },
    { expectedNullifier := unreachedWords
      expectedCommitment := poseidon2Hash perm 0 }]

/-- Four rows that hash the zero state are accepted for them. -/
theorem satisfies_paddingClaims (perm : T8Permutation) :
    Satisfies perm (paddingClaims perm)
      (List.replicate 4 (generateRow perm 0)) := by
  have bound
      {start : Nat}
      (present : ∀ index : Fin 4,
        (buildOwnershipPublicValues (paddingClaims perm))[start + index]? =
          some (Goldilocks.new (poseidon2Hash perm 0 index))) :
      Vanish
        (boundary (generateRow perm 0)
          (buildOwnershipPublicValues (paddingClaims perm)) start) :=
    (vanish_boundary_digest_iff present (poseidon2Hash_lt perm 0)).mpr rfl
  apply CircuitTrace.satisfies_replicate
  · exact permutationRow_generateRow perm 0
  · apply bound
    intro index
    fin_cases index <;> rfl
  · apply bound
    intro index
    fin_cases index <;> rfl

/-- Neither hash in the middle belongs to an input, and the circuit accepts. -/
theorem not_sound_paddingClaims :
    ¬Sound VerifierPy.t8Permutation
      (paddingClaims VerifierPy.t8Permutation) := by
  intro sound
  have height : 4 = CircuitTrace.nextPowerOfTwo (2 * 2) :=
    congrArg (2 ^ ·) (Nat.clog_pow 2 2 (by decide)).symm
  obtain ⟨witnesses, all⟩ :=
    sound _ (List.length_replicate.trans height)
      (satisfies_paddingClaims VerifierPy.t8Permutation)
  obtain ⟨w, opened⟩ :=
    exists_forall₂_iff.mp ⟨witnesses, all⟩ _ List.mem_cons_self
  exact poseidon2Hash_ne_unreachedWords _ _ opened.2

end ScalarCore.OwnershipAir
