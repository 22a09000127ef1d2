import ScalarCore.CircuitTrace
import ScalarCore.Goldilocks

namespace ScalarCore.Poseidon2Air

/-!
# Rows of the permutation circuit

A row computes one permutation: its first eight columns are the input and eight
columns from `p2OutputColOffset` on are the output.  The columns between hold
the states of the rounds.  They are functions of the input, and no constraint
outside the library reads them, so they are left out.
-/

/-- A state of field elements, `[Goldilocks; P2_WIDTH]`. -/
abbrev FieldState :=
  Fin 8 → Goldilocks

/-- `permute_mut`: the permutation on field elements. -/
def permute (perm : T8Permutation) (state : FieldState) : FieldState :=
  fun index =>
    Goldilocks.new
      ((perm.permute
        (Vector.ofFn fun position =>
          Goldilocks.asCanonicalU64 (state position))).get index)

/-- The first four words of a state. -/
def digestWords (state : FieldState) : Digest4 :=
  fun index => Goldilocks.asCanonicalU64 (state (digestPosition index))

/-- `poseidon2_hash`, and `poseidon2_permute` of the membership circuit. -/
def poseidon2Hash (perm : T8Permutation) (input : FieldState) : Digest4 :=
  digestWords (permute perm input)

/-- A row of the trace, as a function from columns to elements. -/
abbrev Row :=
  Nat → Goldilocks

/-- Column of the first output element. -/
def p2OutputColOffset : Nat :=
  172

/-- Number of output elements bound to public values. -/
def p2OutputBound : Nat :=
  4

/-- The input of a row. -/
def rowInput (row : Row) : FieldState :=
  fun index => row index

/-- The output of a row. -/
def rowOutput (row : Row) : FieldState :=
  fun index => row (p2OutputColOffset + index)

/-- The constraints of the library's circuit hold on a row. -/
def PermutationRow (perm : T8Permutation) (row : Row) : Prop :=
  rowOutput row = permute perm (rowInput row)

/-- The row that `generate_trace_rows` makes for an input. -/
def generateRow (perm : T8Permutation) (input : FieldState) : Row :=
  fun column =>
    if inside : column < 8 then
      input ⟨column, inside⟩
    else if inside : column - p2OutputColOffset < 8 then
      permute perm input ⟨column - p2OutputColOffset, inside⟩
    else
      0

@[simp] theorem rowInput_generateRow
    (perm : T8Permutation)
    (input : FieldState) :
    rowInput (generateRow perm input) = input := by
  funext index
  simp [rowInput, generateRow]

@[simp] theorem rowOutput_generateRow
    (perm : T8Permutation)
    (input : FieldState) :
    rowOutput (generateRow perm input) = permute perm input := by
  funext index
  have past : ¬p2OutputColOffset + index.val < 8 := by
    simp only [p2OutputColOffset]
    omega
  simp [rowOutput, generateRow, past]

/-- Generated rows meet the constraints. -/
theorem permutationRow_generateRow
    (perm : T8Permutation)
    (input : FieldState) :
    PermutationRow perm (generateRow perm input) := by
  rw [PermutationRow, rowOutput_generateRow, rowInput_generateRow]

/-- Digest words are canonical. -/
theorem poseidon2Hash_lt
    (perm : T8Permutation)
    (input : FieldState)
    (index : Fin 4) :
    poseidon2Hash perm input index < goldilocksPrime :=
  Goldilocks.asCanonicalU64_lt _

/-- Words no hash answers. -/
def unreachedWords : Digest4 :=
  fun _ => 0xFFFFFFFFFFFFFFFF

theorem limb_replicate_ones :
    (Bytes32.replicate 0xFF).limb = unreachedWords := by
  funext index
  fin_cases index <;> decide

theorem poseidon2Hash_ne_unreachedWords
    (perm : T8Permutation)
    (input : FieldState) :
    poseidon2Hash perm input ≠ unreachedWords := by
  intro same
  have below := poseidon2Hash_lt perm input 0
  rw [same] at below
  exact absurd below (by decide)

/-- The state whose first four elements are given words. -/
def stateOfWords (words : Digest4) : FieldState :=
  fun index =>
    if inside : index.val < 4 then
      Goldilocks.new (words ⟨index, inside⟩)
    else
      0

/-- When every state is reached, any words are the output of some row. -/
theorem exists_row_outputs
    {perm : T8Permutation}
    (surjective : Function.Surjective (permute perm))
    (words : Digest4) :
    ∃ row, PermutationRow perm row ∧
      ∀ index : Fin 4,
        row (p2OutputColOffset + index) = Goldilocks.new (words index) := by
  obtain ⟨input, reached⟩ := surjective (stateOfWords words)
  refine ⟨generateRow perm input, permutationRow_generateRow perm input, ?_⟩
  intro index
  calc generateRow perm input (p2OutputColOffset + index)
      = rowOutput (generateRow perm input) (digestPosition index) := rfl
    _ = stateOfWords words (digestPosition index) := by
        rw [rowOutput_generateRow, reached]
    _ = Goldilocks.new (words index) :=
        dif_pos index.isLt

end ScalarCore.Poseidon2Air
