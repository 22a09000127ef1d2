import ScalarCore.MintTrace
import ScalarCore.OwnershipCompleteness

namespace ScalarCore.BatchMint

/-!
# Mint claims of two circuits

A mint is proved by two circuits: one hashes the nullifier of the claim in two rows, the
other checks the amounts.  They are tied together by a comparison of the nullifiers
outside both.

The nullifier circuit is the ownership circuit of one input, whose rows are not tied to
each other.  A proof is modelled by the trace that it is made for.
-/

open FallibleChecks FieldConstraints MintLinearAir OwnershipAir Poseidon2Air

/-- `DOMAIN_POU_MINT_FE`. -/
def domainPouMintFe : UInt64 :=
  0x706f755f6d696e74

/-- `MintNullifierWitness`. -/
structure MintNullifierWitness where
  nodeIdLo : UInt64
  epochId : UInt64
  deriving DecidableEq

/-- `MintNullifierClaim`. -/
structure MintNullifierClaim where
  innerHash : Digest4
  mintNullifier : Digest4
  deriving DecidableEq

/-- `mint_inner_input`. -/
def mintInnerInput (w : MintNullifierWitness) : FieldState :=
  ![Goldilocks.new w.nodeIdLo, Goldilocks.new w.epochId, Goldilocks.new 0,
    Goldilocks.new 0, Goldilocks.new 0, Goldilocks.new 0, Goldilocks.new 0,
    Goldilocks.new 0]

/-- `mint_outer_input`. -/
def mintOuterInput (innerHash : Digest4) : FieldState :=
  ![Goldilocks.new (innerHash 0), Goldilocks.new (innerHash 1),
    Goldilocks.new (innerHash 2), Goldilocks.new (innerHash 3),
    Goldilocks.new domainPouMintFe, Goldilocks.new 0, Goldilocks.new 0,
    Goldilocks.new 0]

/-- `compute_mint_nullifier_claim`; `poseidon2_hash_mint` is the hash of the other circuits. -/
def computeMintNullifierClaim
    (perm : T8Permutation)
    (w : MintNullifierWitness) : MintNullifierClaim :=
  let innerHash := poseidon2Hash perm (mintInnerInput w)
  let mintNullifier := poseidon2Hash perm (mintOuterInput innerHash)
  { innerHash, mintNullifier }

/-- `build_mint_nullifier_trace`. -/
def buildMintNullifierTrace
    (perm : T8Permutation)
    (w : MintNullifierWitness)
    (claim : MintNullifierClaim) : List Poseidon2Air.Row :=
  [mintInnerInput w, mintOuterInput claim.innerHash].map (generateRow perm)

/-- `build_mint_nullifier_public_values`. -/
def buildMintNullifierPublicValues (claim : MintNullifierClaim) : List Goldilocks :=
  digestElements claim.innerHash ++ digestElements claim.mintNullifier

/-- The claim as that of an input of the ownership circuit. -/
def MintNullifierClaim.asOwnership (claim : MintNullifierClaim) : OwnershipPublicClaim where
  expectedNullifier := claim.innerHash
  expectedCommitment := claim.mintNullifier

/-- The traces that the two proofs of `BatchMintProof` are made for. -/
structure BatchMintTraces where
  mc2 : List Poseidon2Air.Row
  linear : List MintLinearAir.Row

/-- `BatchMintError`, as far as the checks before the proofs go. -/
inductive BatchMintError where
  | linearFailed (error : MintLinearError)
  | nullifierMismatch
  deriving DecidableEq

/-- `prove_batch_mint`: the checks, and the traces; `none` where one cannot be built. -/
def proveBatchMint
    (perm : T8Permutation)
    (nullWitness : MintNullifierWitness)
    (nullClaim : MintNullifierClaim)
    (linearPi : MintLinearPublicInputs) :
    Except BatchMintError (Option BatchMintTraces) :=
  if linearPi.mintNullifier ≠ nullClaim.mintNullifier then
    .error .nullifierMismatch
  else
    match linearPi.checkConstraints with
    | .error error => .error (.linearFailed error)
    | .ok () =>
        .ok do
          let linear ← buildMintLinearTrace linearPi
          return { mc2 := buildMintNullifierTrace perm nullWitness nullClaim, linear }

/--
`verify_batch_mint`: the comparison of the nullifiers, and both circuits.  The nullifier
circuit has two rows, and the linear one at least one.
-/
structure VerifyBatchMint
    (perm : T8Permutation)
    (traces : BatchMintTraces)
    (nullClaim : MintNullifierClaim)
    (linearPi : MintLinearPublicInputs) : Prop where
  sameNullifier : linearPi.mintNullifier = nullClaim.mintNullifier
  twoRows : traces.mc2.length = 2
  nullifier : Satisfies perm [nullClaim.asOwnership] traces.mc2
  someRow : traces.linear ≠ []
  linear : ∀ row ∈ traces.linear, Accepts row linearPi

/-- The words of a claim in the field. -/
def MintNullifierClaim.reduced (claim : MintNullifierClaim) : MintNullifierClaim where
  innerHash index := fieldReduce (claim.innerHash index)
  mintNullifier index := fieldReduce (claim.mintNullifier index)

variable {perm : T8Permutation} {nullWitness : MintNullifierWitness}
  {nullClaim : MintNullifierClaim} {linearPi : MintLinearPublicInputs}

/-- Both circuits have the same public values. -/
theorem buildMintNullifierPublicValues_eq (claim : MintNullifierClaim) :
    buildMintNullifierPublicValues claim =
      buildOwnershipPublicValues [claim.asOwnership] :=
  rfl

/-- Where four words stand, a row has to hash to them up to the prime. -/
theorem vanish_boundary_words_iff
    {input : FieldState}
    {words : Digest4}
    {publicValues : List Goldilocks}
    {start : Nat}
    (standing :
      ∀ index : Fin 4,
        publicValues[start + index]? = some (Goldilocks.new (words index))) :
    Vanish (boundary (generateRow perm input) publicValues start) ↔
      ∀ index, fieldReduce (words index) = poseidon2Hash perm input index := by
  rw [vanish_boundary_iff]
  refine forall_congr' fun index => ?_
  rw [standing index]
  simp only [Option.mem_def, Option.some.injEq, forall_eq']
  rw [generateRow_output, Goldilocks.new_eq_iff,
    fieldReduce_of_lt (poseidon2Hash_lt perm input index)]
  exact eq_comm

/-- The outer row hashes the words of the inner hash in the field. -/
theorem mintOuterInput_reduced (innerHash : Digest4) :
    mintOuterInput (fun index => fieldReduce (innerHash index)) =
      mintOuterInput innerHash := by
  simp only [mintOuterInput, Goldilocks.new_fieldReduce]

/-- The nullifier circuit accepts the prover's trace for the claim of the witness only. -/
theorem satisfies_buildMintNullifierTrace_iff :
    Satisfies perm [nullClaim.asOwnership]
        (buildMintNullifierTrace perm nullWitness nullClaim) ↔
      nullClaim.reduced = computeMintNullifierClaim perm nullWitness := by
  have inner :
      Vanish
          (boundary (generateRow perm (mintInnerInput nullWitness))
            (buildOwnershipPublicValues [nullClaim.asOwnership]) 0) ↔
        nullClaim.reduced.innerHash =
          poseidon2Hash perm (mintInnerInput nullWitness) :=
    (vanish_boundary_words_iff (publicValues_first _ [])).trans funext_iff.symm
  have outer :
      Vanish
          (boundary (generateRow perm (mintOuterInput nullClaim.innerHash))
            (buildOwnershipPublicValues [nullClaim.asOwnership])
            ((2 * [nullClaim.asOwnership].length - 1) * p2OutputBound)) ↔
        nullClaim.reduced.mintNullifier =
          poseidon2Hash perm (mintOuterInput nullClaim.innerHash) :=
    (vanish_boundary_words_iff (publicValues_last [] _)).trans funext_iff.symm
  have sameClaim :
      nullClaim.reduced = computeMintNullifierClaim perm nullWitness ↔
        nullClaim.reduced.innerHash = poseidon2Hash perm (mintInnerInput nullWitness) ∧
          nullClaim.reduced.mintNullifier =
            poseidon2Hash perm (mintOuterInput nullClaim.reduced.innerHash) := by
    constructor
    · intro same
      rw [same]
      exact ⟨rfl, rfl⟩
    · rintro ⟨sameInner, sameOuter⟩
      rw [sameInner] at sameOuter
      calc nullClaim.reduced
        _ = ⟨nullClaim.reduced.innerHash, nullClaim.reduced.mintNullifier⟩ := rfl
        _ = computeMintNullifierClaim perm nullWitness := by
          rw [sameInner, sameOuter]
          rfl
  have reducedInput :
      mintOuterInput nullClaim.reduced.innerHash = mintOuterInput nullClaim.innerHash :=
    mintOuterInput_reduced nullClaim.innerHash
  rw [sameClaim, reducedInput, ← inner, ← outer]
  constructor
  · intro satisfied
    exact ⟨satisfied.first _ rfl, satisfied.last _ rfl⟩
  · rintro ⟨isFirst, isLast⟩
    refine ⟨?_, ?_, ?_⟩
    · intro row listed
      obtain ⟨input, _, rfl⟩ := List.mem_map.mp listed
      exact permutationRow_generateRow perm input
    · intro row heads
      cases Option.mem_some_iff.mp heads
      exact isFirst
    · intro row ends
      cases Option.mem_some_iff.mp ends
      exact isLast

/-- The prover makes traces for the inputs that pass the checks. -/
theorem proveBatchMint_eq_ok_some_iff {traces : BatchMintTraces} :
    proveBatchMint perm nullWitness nullClaim linearPi = .ok (some traces) ↔
      linearPi.mintNullifier = nullClaim.mintNullifier ∧
        linearPi.checkConstraints = .ok () ∧
        traces.mc2 = buildMintNullifierTrace perm nullWitness nullClaim ∧
        buildMintLinearTrace linearPi = some traces.linear := by
  rw [proveBatchMint, ite_error_eq_ok_iff, not_not]
  refine and_congr_right fun _ => ?_
  cases checked : linearPi.checkConstraints with
  | error error =>
      exact iff_of_false nofun fun passed => nomatch passed.1
  | ok passed =>
      obtain ⟨mc2, linear⟩ := traces
      simp only [Except.ok.injEq, Option.bind_eq_bind, Option.bind_eq_some_iff,
        Option.pure_def, Option.some.injEq, BatchMintTraces.mk.injEq, true_and]
      constructor
      · rintro ⟨_, built, rfl, rfl⟩
        exact ⟨rfl, built⟩
      · rintro ⟨rfl, built⟩
        exact ⟨linear, built, rfl, rfl⟩

/--
An honest mint is proved and accepted: the prover's traces verify exactly when the checks
pass, both parts have one nullifier, and the claim is the witness's up to the prime.

Verification alone shows less.  Some traces are accepted for a claim exactly when both
parts have one nullifier and the reward is not a multiple of the prime, whatever the
nullifier is, and whether or not the checks pass.
-/
theorem verifyBatchMint_iff
    (surjective : Function.Surjective (permute perm))
    (nullClaim : MintNullifierClaim)
    (linearPi : MintLinearPublicInputs) :
    (∀ nullWitness,
        (∃ traces,
            proveBatchMint perm nullWitness nullClaim linearPi = .ok (some traces) ∧
              VerifyBatchMint perm traces nullClaim linearPi) ↔
          linearPi.mintNullifier = nullClaim.mintNullifier ∧
            linearPi.checkConstraints = .ok () ∧
            nullClaim.reduced = computeMintNullifierClaim perm nullWitness) ∧
      ((∃ traces, VerifyBatchMint perm traces nullClaim linearPi) ↔
        linearPi.mintNullifier = nullClaim.mintNullifier ∧
          linearPi.rewardAmountSscl ≠ 0 ∧
          linearPi.rewardAmountSscl ≠ goldilocksPrime) := by
  constructor
  · intro nullWitness
    constructor
    · rintro ⟨traces, proved, verified⟩
      obtain ⟨same, passed, isMc2, _⟩ := proveBatchMint_eq_ok_some_iff.mp proved
      have satisfied := verified.nullifier
      rw [isMc2] at satisfied
      exact ⟨same, passed, satisfies_buildMintNullifierTrace_iff.mp satisfied⟩
    · rintro ⟨same, passed, isClaim⟩
      obtain ⟨rows, built, four, accepted⟩ := exists_accepts_buildMintLinearTrace passed
      refine
        ⟨⟨buildMintNullifierTrace perm nullWitness nullClaim, rows⟩,
          proveBatchMint_eq_ok_some_iff.mpr ⟨same, passed, rfl, built⟩, ?_⟩
      exact
        { sameNullifier := same
          twoRows := rfl
          nullifier := satisfies_buildMintNullifierTrace_iff.mpr isClaim
          someRow := List.ne_nil_of_length_pos (four ▸ Nat.zero_lt_succ 3)
          linear := accepted }
  · have rewarded :
        (linearPi.rewardAmountSscl ≠ 0 ∧ linearPi.rewardAmountSscl ≠ goldilocksPrime) ↔
          ∃ row, Accepts row linearPi := by
      rw [exists_accepts_iff, Ne, Ne, Ne, new_eq_zero_iff, not_or]
    rw [rewarded]
    constructor
    · rintro ⟨traces, verified⟩
      obtain ⟨row, listed⟩ := List.exists_mem_of_ne_nil _ verified.someRow
      exact ⟨verified.sameNullifier, row, verified.linear row listed⟩
    · rintro ⟨same, row, accepted⟩
      obtain ⟨trace, height, satisfied⟩ :=
        exists_satisfies surjective (List.cons_ne_nil nullClaim.asOwnership [])
      have two : CircuitTrace.nextPowerOfTwo (2 * [nullClaim.asOwnership].length) = 2 :=
        congrArg (2 ^ ·) (Nat.clog_pow 2 1 (by decide))
      refine ⟨⟨trace, [row]⟩, same, height.trans two, satisfied, List.cons_ne_nil _ _, ?_⟩
      intro other listed
      rwa [List.mem_singleton.mp listed]

/-- A mint under a nullifier that is no hash, beyond the cap. -/
def forgedClaim : MintNullifierClaim where
  innerHash := unreachedWords
  mintNullifier := unreachedWords

/-- It is accepted, and no witness has its nullifier. -/
theorem verifyBatchMint_forged :
    (∃ traces,
        VerifyBatchMint VerifierPy.t8Permutation traces forgedClaim
          { uncappedMint with mintNullifier := unreachedWords }) ∧
      ∀ nullWitness,
        (computeMintNullifierClaim VerifierPy.t8Permutation nullWitness).mintNullifier ≠
          unreachedWords :=
  ⟨(verifyBatchMint_iff VerifierPy.permute_surjective forgedClaim
      { uncappedMint with mintNullifier := unreachedWords }).2.mpr
      ⟨rfl, by decide, by decide⟩,
    fun _ => poseidon2Hash_ne_unreachedWords _ _⟩

end ScalarCore.BatchMint
