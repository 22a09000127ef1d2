import ScalarCore.OwnershipAir

namespace ScalarCore.OwnershipAir

/-!
# Completeness of the ownership circuit

The last public values belong to the last input.  Its commitment row is the last
row of the trace only when the rows need no padding; otherwise the circuit
compares them with a row that hashes the zero state.
-/

open FieldConstraints Poseidon2Air

/-- The claims the owner of some inputs makes. -/
def honestClaims
    (perm : T8Permutation)
    (witnesses : List InputWitness) :
    List OwnershipPublicClaim :=
  witnesses.map fun w =>
    { expectedNullifier := computeExpectedNullifier perm w
      expectedCommitment := computeExpectedCommitment perm w }

variable {perm : T8Permutation}

/-- The elements of a list of digests, four for each. -/
theorem length_flatMap_digestElements
    {Claim : Type}
    (claims : List Claim)
    (words : Claim → Digest4) :
    (claims.flatMap fun claim => digestElements (words claim)).length =
      claims.length * p2OutputBound := by
  induction claims with
  | nil =>
      rfl
  | cons claim rest inductionHypothesis =>
      have four : (digestElements (words claim)).length = p2OutputBound := rfl
      rw [List.flatMap_cons, List.length_append, inductionHypothesis, four,
        List.length_cons]
      ring

/-- A digest stands after the digests before it. -/
theorem getElem?_digestElements
    {before after : List Goldilocks}
    {words : Digest4}
    {start : Nat}
    (position : before.length = start)
    (index : Fin 4) :
    (before ++ (digestElements words ++ after))[start + index]? =
      some (Goldilocks.new (words index)) := by
  have inside : (index : Nat) < (digestElements words).length := index.isLt
  rw [← position, List.getElem?_append_right (Nat.le_add_right _ _),
    Nat.add_sub_cancel_left, List.getElem?_append_left inside]
  fin_cases index <;> rfl

/-- The first public values are the nullifier of the first claim. -/
theorem publicValues_first
    (claim : OwnershipPublicClaim)
    (rest : List OwnershipPublicClaim)
    (index : Fin 4) :
    (buildOwnershipPublicValues (claim :: rest))[0 + (index : Nat)]? =
      some (Goldilocks.new (claim.expectedNullifier index)) := by
  rw [buildOwnershipPublicValues, List.flatMap_cons, List.append_assoc]
  exact @getElem?_digestElements [] _ claim.expectedNullifier 0 rfl index

/-- The last public values are the commitment of the last claim. -/
theorem publicValues_last
    (claims : List OwnershipPublicClaim)
    (claim : OwnershipPublicClaim)
    (index : Fin 4) :
    (buildOwnershipPublicValues (claims ++ [claim]))[
        (2 * (claims ++ [claim]).length - 1) * p2OutputBound + index]? =
      some (Goldilocks.new (claim.expectedCommitment index)) := by
  rw [buildOwnershipPublicValues, List.flatMap_append, List.flatMap_append,
    List.flatMap_singleton, List.flatMap_singleton, ← List.append_assoc,
    ← List.append_nil (digestElements claim.expectedCommitment)]
  apply getElem?_digestElements
  rw [List.length_append, List.length_append, length_flatMap_digestElements,
    length_flatMap_digestElements, List.length_append]
  have four : (digestElements claim.expectedNullifier).length = p2OutputBound :=
    rfl
  have one : [claim].length = 1 := rfl
  rw [four, one, p2OutputBound]
  omega

/-- The input of the last row of the trace. -/
def lastInput (last : InputWitness) (count : Nat) : FieldState :=
  if CircuitTrace.nextPowerOfTwo (2 * count) = 2 * count then
    commitmentInput last
  else
    0

/-- The trace ends in the last commitment, or in padding. -/
theorem getLast?_buildOwnershipTrace
    (witnesses : List InputWitness)
    (last : InputWitness) :
    (buildOwnershipTrace perm (witnesses ++ [last])).getLast? =
      some (generateRow perm
        (lastInput last (witnesses ++ [last]).length)) := by
  have count :
      ((witnesses ++ [last]).map nullifierInput ++
          (witnesses ++ [last]).map commitmentInput).length =
        2 * (witnesses ++ [last]).length := by
    rw [List.length_append, List.length_map, List.length_map]
    omega
  have isLast :
      ((witnesses ++ [last]).map nullifierInput ++
          (witnesses ++ [last]).map commitmentInput).getLast? =
        some (commitmentInput last) := by
    rw [@List.map_append _ _ commitmentInput witnesses [last],
      ← List.append_assoc]
    exact List.getLast?_concat
  have padded := @CircuitTrace.getLast?_padded _ _ _ (0 : FieldState) isLast
  rw [count] at padded
  rw [buildOwnershipTrace, ownershipInputs, List.getLast?_map, count, padded]
  rfl

/-- Twice a positive number is a power of two when the number is one. -/
theorem two_mul_eq_pow_iff {count : Nat} :
    (∃ exponent, 2 * count = 2 ^ exponent) ↔
      ∃ exponent, count = 2 ^ exponent := by
  constructor
  · rintro ⟨exponent, double⟩
    cases exponent with
    | zero =>
        omega
    | succ exponent =>
        exact ⟨exponent, by omega⟩
  · rintro ⟨exponent, rfl⟩
    exact ⟨exponent + 1, (pow_succ' 2 exponent).symm⟩

/-- The honest trace is accepted when its last row hashes the last commitment. -/
theorem satisfies_buildOwnershipTrace_iff_lastRow
    (before : List InputWitness)
    (last : InputWitness) :
    Satisfies perm (honestClaims perm (before ++ [last]))
        (buildOwnershipTrace perm (before ++ [last])) ↔
      computeExpectedCommitment perm last =
        poseidon2Hash perm (lastInput last (before ++ [last]).length) := by
  have everyRow :
      ∀ row ∈ buildOwnershipTrace perm (before ++ [last]),
        PermutationRow perm row := by
    intro row listed
    obtain ⟨input, _, rfl⟩ := List.mem_map.mp listed
    exact permutationRow_generateRow perm input
  have firstRow :
      ∀ row ∈ (buildOwnershipTrace perm (before ++ [last])).head?,
        Vanish
          (boundary row
            (buildOwnershipPublicValues
              (honestClaims perm (before ++ [last]))) 0) := by
    intro row isFirst
    obtain ⟨first, rest, split⟩ :=
      List.exists_cons_of_ne_nil
        (List.append_ne_nil_of_right_ne_nil before (List.cons_ne_nil last []))
    rw [split] at isFirst ⊢
    cases Option.mem_some_iff.mp isFirst
    exact (vanish_boundary_digest_iff (publicValues_first _ _)
      fun index => poseidon2Hash_lt perm _ index).mpr rfl
  have lastRow :
      Vanish
          (boundary
            (generateRow perm (lastInput last (before ++ [last]).length))
            (buildOwnershipPublicValues (honestClaims perm (before ++ [last])))
            ((2 * (honestClaims perm (before ++ [last])).length - 1) *
              p2OutputBound)) ↔
        computeExpectedCommitment perm last =
          poseidon2Hash perm
            (lastInput last (before ++ [last]).length) := by
    rw [honestClaims, List.map_append]
    exact vanish_boundary_digest_iff (publicValues_last _ _)
      fun index => poseidon2Hash_lt perm _ index
  rw [← lastRow]
  constructor
  · intro satisfied
    exact satisfied.last _ (getLast?_buildOwnershipTrace before last)
  · intro vanish
    refine ⟨everyRow, firstRow, ?_⟩
    intro row isLast
    rw [getLast?_buildOwnershipTrace] at isLast
    rwa [← Option.mem_some_iff.mp isLast]

/--
The honest trace is accepted for the honest claims exactly when the number of
inputs is a power of two, or the last commitment is the hash of the zero state.
-/
theorem satisfies_buildOwnershipTrace_iff
    (perm : T8Permutation)
    {witnesses : List InputWitness}
    (nonempty : witnesses ≠ []) :
    Satisfies perm (honestClaims perm witnesses)
        (buildOwnershipTrace perm witnesses) ↔
      (∃ exponent, witnesses.length = 2 ^ exponent) ∨
        computeExpectedCommitment perm (witnesses.getLast nonempty) =
          poseidon2Hash perm 0 := by
  obtain ⟨before, last, rfl⟩ :
      ∃ before last, witnesses = before ++ [last] :=
    ⟨_, _, (List.dropLast_append_getLast nonempty).symm⟩
  rw [satisfies_buildOwnershipTrace_iff_lastRow, List.getLast_append_singleton,
    ← two_mul_eq_pow_iff, ← CircuitTrace.nextPowerOfTwo_eq_self_iff, lastInput]
  by_cases full :
      CircuitTrace.nextPowerOfTwo (2 * (before ++ [last]).length) =
        2 * (before ++ [last]).length
  · rw [if_pos full]
    exact ⟨fun _ => .inl full, fun _ => rfl⟩
  · rw [if_neg full]
    exact ⟨.inr, fun either => either.resolve_left full⟩

/-- Four inputs of one owner, each with a secret of its own. -/
def fourWitnesses : List InputWitness :=
  [sampleWitness,
    { sampleWitness with secret := 11, salt := 12 },
    { sampleWitness with secret := 13, value := 900 },
    { sampleWitness with secret := 14, spendingKeyHi := 7, birthEpoch := 101 }]

/-- Four inputs are a power of two. -/
theorem satisfies_buildOwnershipTrace_four :
    Satisfies VerifierPy.t8Permutation
      (honestClaims VerifierPy.t8Permutation fourWitnesses)
      (buildOwnershipTrace VerifierPy.t8Permutation fourWitnesses) :=
  (satisfies_buildOwnershipTrace_iff VerifierPy.t8Permutation
    (List.cons_ne_nil _ _)).mpr (.inl ⟨2, rfl⟩)

/-- Three inputs are not: the last row of eight hashes the zero state. -/
theorem not_satisfies_buildOwnershipTrace_three :
    ¬ Satisfies VerifierPy.t8Permutation
      (honestClaims VerifierPy.t8Permutation
        [sampleWitness, sampleWitness, sampleWitness])
      (buildOwnershipTrace VerifierPy.t8Permutation
        [sampleWitness, sampleWitness, sampleWitness]) := by
  have height : CircuitTrace.nextPowerOfTwo 6 ≠ 6 := by
    rw [Ne, CircuitTrace.nextPowerOfTwo_eq_self_iff]
    rintro ⟨exponent, isPower⟩
    have three : 3 ∣ 2 ^ exponent :=
      ⟨2, isPower.symm⟩
    exact absurd (Nat.prime_three.dvd_of_dvd_pow three) (by decide)
  have padding : lastInput sampleWitness 3 = 0 :=
    if_neg height
  intro satisfied
  have same :=
    (satisfies_buildOwnershipTrace_iff_lastRow
      [sampleWitness, sampleWitness] sampleWitness).mp satisfied
  have firstWord :=
    congrFun (same.trans (congrArg (poseidon2Hash _) padding)) 0
  revert firstWord
  decide +kernel

end ScalarCore.OwnershipAir
