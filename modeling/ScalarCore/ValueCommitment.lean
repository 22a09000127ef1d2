import ScalarCore.ImtBinding
import ScalarCore.Poseidon2Verifier

namespace ScalarCore

/-!
# Value commitments

A commitment is the first half of one permuted state that holds the value, the
blinding factor and the salt.  The words are reduced when they enter the state, so
a commitment binds what the three words are in the field.
-/

/-- `ValueCommitment`. -/
structure ValueCommitment where
  commitment : Digest4
  deriving DecidableEq

/-- `ValueCommitmentOpening`. -/
structure ValueCommitmentOpening where
  value : UInt64
  blindingFactor : UInt64
  salt : UInt64
  deriving DecidableEq

namespace ValueCommitmentOpening

/-- The state that is permuted. -/
def input (opening : ValueCommitmentOpening) : State8 :=
  #v[opening.value, opening.blindingFactor, opening.salt, 0, 0, 0, 0, 0]

/-- `commit`. -/
def commit
    (perm : T8Permutation)
    (opening : ValueCommitmentOpening) :
    ValueCommitment :=
  let output := poseidon2PermuteT8 perm opening.input
  { commitment := fun index => output.get (digestPosition index) }

/-- `verify`. -/
def verify
    (perm : T8Permutation)
    (opening : ValueCommitmentOpening)
    (commitment : ValueCommitment) :
    Bool :=
  decide (opening.commit perm = commitment)

/-- The opening with its words reduced into the field. -/
def reduced (opening : ValueCommitmentOpening) : ValueCommitmentOpening where
  value := fieldReduce opening.value
  blindingFactor := fieldReduce opening.blindingFactor
  salt := fieldReduce opening.salt

theorem verify_eq_true_iff
    {perm : T8Permutation}
    {opening : ValueCommitmentOpening}
    {commitment : ValueCommitment} :
    opening.verify perm commitment = true ↔ opening.commit perm = commitment :=
  decide_eq_true_iff

/-- An opening is accepted with its own commitment. -/
theorem verify_commit
    (perm : T8Permutation)
    (opening : ValueCommitmentOpening) :
    opening.verify perm (opening.commit perm) = true :=
  verify_eq_true_iff.mpr rfl

/-- Words that are zero stay zero when they are reduced. -/
theorem input_reduced (opening : ValueCommitmentOpening) :
    opening.reduced.input = opening.input.map fieldReduce := by
  simp [input, reduced, fieldReduce_of_lt (show (0 : UInt64) < goldilocksPrime by decide)]

theorem input_injective :
    Function.Injective ValueCommitmentOpening.input := by
  intro opening opening' same
  have value := congrArg (fun state : State8 => state[0]) same
  have blindingFactor := congrArg (fun state : State8 => state[1]) same
  have salt := congrArg (fun state : State8 => state[2]) same
  cases opening
  cases opening'
  exact (ValueCommitmentOpening.mk.injEq ..).mpr ⟨value, blindingFactor, salt⟩

end ValueCommitmentOpening

open ValueCommitmentOpening

/-- The first four elements of a state. -/
def leadingElements (state : State8) : Digest4 :=
  fun index => state.get (digestPosition index)

/-- The canonical states that hold an opening. -/
def openingStates : Set State8 :=
  {state |
    (∀ index, state.get index < goldilocksPrime) ∧
      ∀ index : Fin 8, 3 ≤ index.val → state.get index = 0}

/-- The first four outputs of the permutation tell the opening states apart. -/
def SeparatesOpenings (perm : T8Permutation) : Prop :=
  Set.InjOn (fun state => leadingElements (perm.permute state)) openingStates

/-- The permutation sees the reduced words only. -/
theorem commit_eq
    (perm : T8Permutation)
    (opening : ValueCommitmentOpening) :
    opening.commit perm =
      { commitment := leadingElements (perm.permute opening.reduced.input) } := by
  rw [input_reduced, commit, ValueCommitment.mk.injEq]
  funext index
  match index with
  | 0 | 1 | 2 | 3 => rfl

theorem input_reduced_mem (opening : ValueCommitmentOpening) :
    opening.reduced.input ∈ openingStates := by
  have zeros :
      ∀ index : Fin 8, 3 ≤ index.val → opening.reduced.input.get index = 0 := by
    intro index past
    match index, past with
    | 3, _ | 4, _ | 5, _ | 6, _ | 7, _ => rfl
  refine ⟨fun index => ?_, zeros⟩
  rw [input_reduced, get_vectorMap]
  exact fieldReduce_lt _

/-- Commitments agree exactly when the openings do in the field. -/
theorem commit_eq_commit_iff
    {perm : T8Permutation}
    (separates : SeparatesOpenings perm)
    (opening opening' : ValueCommitmentOpening) :
    opening.commit perm = opening'.commit perm ↔ opening.reduced = opening'.reduced := by
  rw [commit_eq, commit_eq, ValueCommitment.mk.injEq]
  constructor
  · intro same
    exact input_injective
      (separates (input_reduced_mem opening) (input_reduced_mem opening') same)
  · intro same
    rw [same]

/-- Both openings are accepted with the commitment. -/
def AcceptedWith
    (perm : T8Permutation)
    (opening opening' : ValueCommitmentOpening)
    (commitment : ValueCommitment) :
    Prop :=
  opening.verify perm commitment = true ∧ opening'.verify perm commitment = true

theorem exists_acceptedWith_iff
    {perm : T8Permutation}
    {opening opening' : ValueCommitmentOpening} :
    (∃ commitment, AcceptedWith perm opening opening' commitment) ↔
      opening.commit perm = opening'.commit perm := by
  constructor
  · rintro ⟨commitment, accepted, accepted'⟩
    rw [verify_eq_true_iff.mp accepted, verify_eq_true_iff.mp accepted']
  · intro same
    refine ⟨opening.commit perm, verify_commit perm opening, ?_⟩
    exact verify_eq_true_iff.mpr same.symm

theorem reduced_eq_reduced_iff (opening opening' : ValueCommitmentOpening) :
    opening.reduced = opening'.reduced ↔
      opening.value.toNat ≡ opening'.value.toNat [MOD goldilocksPrime.toNat] ∧
        opening.blindingFactor.toNat ≡ opening'.blindingFactor.toNat
          [MOD goldilocksPrime.toNat] ∧
        opening.salt.toNat ≡ opening'.salt.toNat [MOD goldilocksPrime.toNat] := by
  rw [reduced, reduced, ValueCommitmentOpening.mk.injEq, fieldReduce_eq_iff, fieldReduce_eq_iff,
    fieldReduce_eq_iff]

/--
No commitment is accepted with both openings exactly when their words are not all
congruent modulo the prime.
-/
theorem value_commitment_binding_iff
    {perm : T8Permutation}
    (separates : SeparatesOpenings perm)
    (opening opening' : ValueCommitmentOpening) :
    (∀ commitment, ¬ AcceptedWith perm opening opening' commitment) ↔
      ¬ (opening.value.toNat ≡ opening'.value.toNat [MOD goldilocksPrime.toNat] ∧
        opening.blindingFactor.toNat ≡ opening'.blindingFactor.toNat
          [MOD goldilocksPrime.toNat] ∧
        opening.salt.toNat ≡ opening'.salt.toNat [MOD goldilocksPrime.toNat]) := by
  rw [← not_exists, exists_acceptedWith_iff, commit_eq_commit_iff separates,
    reduced_eq_reduced_iff]

/-- The value zero, and the value that is zero in the field. -/
def zeroOpenings : ValueCommitmentOpening × ValueCommitmentOpening :=
  (⟨0, 1, 2⟩, ⟨goldilocksPrime, 1, 2⟩)

/--
Whatever is assumed of the permutation, commitments do not bind: one to zero is
also one to the prime.
-/
theorem no_permutation_binds :
    ¬ ∃ perm : T8Permutation,
      ∀ opening opening' : ValueCommitmentOpening,
        opening ≠ opening' →
          ∀ commitment, ¬ AcceptedWith perm opening opening' commitment := by
  rintro ⟨perm, binds⟩
  have different : zeroOpenings.1 ≠ zeroOpenings.2 := by
    decide
  have congruent : zeroOpenings.1.reduced = zeroOpenings.2.reduced := by
    decide
  have shared : zeroOpenings.1.commit perm = zeroOpenings.2.commit perm := by
    rw [commit_eq, commit_eq, congruent]
  obtain ⟨commitment, accepted⟩ := exists_acceptedWith_iff.mpr shared
  exact binds _ _ different commitment accepted

/-- Openings whose values differ by one. -/
def neighbourOpenings : ValueCommitmentOpening × ValueCommitmentOpening :=
  (⟨100, 1, 2⟩, ⟨101, 1, 2⟩)

/--
The verifier's permutation on the states of the neighbours, and no permutation on
the others.
-/
def neighbourPermutation : T8Permutation where
  permute state :=
    if state = neighbourOpenings.1.input ∨ state = neighbourOpenings.2.input then
      VerifierPy.t8Permutation.permute state
    else
      mirrorPermutation.permute state
  canonical state index := by
    split
    · exact VerifierPy.t8Permutation.canonical state index
    · exact mirrorPermutation.canonical state index

/-- The permuted states of the neighbours are no opening states. -/
theorem permute_neighbours :
    leadingElements (VerifierPy.t8Permutation.permute neighbourOpenings.1.input) 3 ≠ 0 ∧
      leadingElements (VerifierPy.t8Permutation.permute neighbourOpenings.2.input) 3 ≠ 0 ∧
      leadingElements (VerifierPy.t8Permutation.permute neighbourOpenings.1.input) 3 ≠
        leadingElements (VerifierPy.t8Permutation.permute neighbourOpenings.2.input) 3 := by
  decide +kernel

/-- An opening state keeps its leading elements where nothing is permuted. -/
theorem leadingElements_mirrorPermutation
    {state : State8}
    (isOpening : state ∈ openingStates) :
    leadingElements (mirrorPermutation.permute state) = leadingElements state := by
  funext index
  rw [leadingElements, mirrorPermutation, get_vectorMap, fieldReduce_of_lt (isOpening.1 _)]
  rfl

/-- Opening states differ in their leading elements. -/
theorem leadingElements_injOn : Set.InjOn leadingElements openingStates := by
  intro state isOpening state' isOpening' same
  apply Vector.ext
  intro index inside
  by_cases leads : index < 4
  · exact congrFun same ⟨index, leads⟩
  · have past : 3 ≤ index := by
      omega
    exact (isOpening.2 ⟨index, inside⟩ past).trans (isOpening'.2 ⟨index, inside⟩ past).symm

theorem separatesOpenings_neighbourPermutation :
    SeparatesOpenings neighbourPermutation := by
  obtain ⟨first, second, different⟩ := permute_neighbours
  have kept {state : State8} (isOpening : state ∈ openingStates) :
      leadingElements (mirrorPermutation.permute state) 3 = 0 := by
    rw [leadingElements_mirrorPermutation isOpening]
    exact isOpening.2 3 (by decide)
  have permuted {state : State8}
      (sampled : state = neighbourOpenings.1.input ∨ state = neighbourOpenings.2.input) :
      leadingElements (VerifierPy.t8Permutation.permute state) 3 ≠ 0 := by
    rcases sampled with rfl | rfl
    · exact first
    · exact second
  intro state isOpening state' isOpening' same
  simp only [neighbourPermutation] at same
  split at same <;> rename_i sampled <;> split at same <;> rename_i sampled'
  · have fourth := congrFun same 3
    rcases sampled with rfl | rfl <;> rcases sampled' with rfl | rfl
    · rfl
    · exact absurd fourth different
    · exact absurd fourth.symm different
    · rfl
  · exact absurd ((congrFun same 3).trans (kept isOpening')) (permuted sampled)
  · exact absurd ((congrFun same 3).symm.trans (kept isOpening)) (permuted sampled')
  · rw [leadingElements_mirrorPermutation isOpening,
      leadingElements_mirrorPermutation isOpening'] at same
    exact leadingElements_injOn isOpening isOpening' same

/-- The neighbours share no commitment. -/
theorem value_commitment_binding_neighbours :
    SeparatesOpenings neighbourPermutation ∧
      ((∀ commitment,
        ¬ AcceptedWith neighbourPermutation neighbourOpenings.1 neighbourOpenings.2 commitment) ↔
        ¬ (neighbourOpenings.1.value.toNat ≡ neighbourOpenings.2.value.toNat
            [MOD goldilocksPrime.toNat] ∧
          neighbourOpenings.1.blindingFactor.toNat ≡ neighbourOpenings.2.blindingFactor.toNat
            [MOD goldilocksPrime.toNat] ∧
          neighbourOpenings.1.salt.toNat ≡ neighbourOpenings.2.salt.toNat
            [MOD goldilocksPrime.toNat])) :=
  ⟨separatesOpenings_neighbourPermutation,
    value_commitment_binding_iff separatesOpenings_neighbourPermutation _ _⟩

end ScalarCore
