import ScalarCore.Poseidon2Verifier

namespace ScalarCore

/-!
# Absorbing in the chained hash

The chained hash combines each chunk with the first elements of the state by
exclusive or and reduces the result.  Two canonical words become one when their
combinations with the element differ by the prime; only an element that is 0
keeps all canonical words apart.
-/

/-- A list of canonical representatives. -/
def CanonicalWords (words : List UInt64) : Prop :=
  ∀ word ∈ words, word < goldilocksPrime

/-- A state of canonical representatives. -/
def CanonicalState (state : State8) : Prop :=
  ∀ index : Fin 8, state.get index < goldilocksPrime

/-!
## One word
-/

/-- Combined with an element, two words are the same or a prime apart. -/
def MergedBy (element word word' : UInt64) : Prop :=
  word = word' ∨
    (element ^^^ word).toNat = (element ^^^ word').toNat + goldilocksPrime.toNat ∨
    (element ^^^ word').toNat = (element ^^^ word).toNat + goldilocksPrime.toNat

theorem xor_left_cancel
    {element word word' : UInt64}
    (same : element ^^^ word = element ^^^ word') :
    word = word' := by
  have again := congrArg (element ^^^ ·) same
  simpa only [← UInt64.xor_assoc, UInt64.xor_self, UInt64.zero_xor] using again

/-- Two words are reduced to one when they are the same or a prime apart. -/
theorem fieldReduce_xor_eq_iff
    {element word word' : UInt64} :
    fieldReduce (element ^^^ word) = fieldReduce (element ^^^ word') ↔
      MergedBy element word word' := by
  have bound := (element ^^^ word).toNat_lt
  have bound' := (element ^^^ word').toNat_lt
  have prime : goldilocksPrime.toNat = 18446744069414584321 := rfl
  have same_iff : word = word' ↔
      (element ^^^ word).toNat = (element ^^^ word').toNat := by
    rw [UInt64.toNat_inj]
    exact ⟨congrArg _, xor_left_cancel⟩
  rw [← UInt64.toNat_inj, toNat_fieldReduce, toNat_fieldReduce, MergedBy,
    same_iff, prime]
  omega

/-- An element that is 0 keeps canonical words apart. -/
theorem eq_of_mergedBy_zero
    {word word' : UInt64}
    (canonical : word < goldilocksPrime)
    (canonical' : word' < goldilocksPrime)
    (merged : MergedBy 0 word word') :
    word = word' := by
  rw [UInt64.lt_iff_toNat_lt] at canonical canonical'
  rw [MergedBy, UInt64.zero_xor, UInt64.zero_xor] at merged
  rcases merged with same | above | below
  · exact same
  · omega
  · omega

/-- A word past the half and the prime are a canonical word apart. -/
theorem xor_prime_lt
    {element : UInt64}
    (large : 2 ^ 32 ≤ element.toNat) :
    element ^^^ goldilocksPrime < goldilocksPrime := by
  rw [UInt64.lt_iff_toNat_lt]
  by_contra notBelow
  have bound := (element ^^^ goldilocksPrime).toNat_lt
  have prime : goldilocksPrime.toNat = 18446744069414584321 := rfl
  have upper :
      (element ^^^ goldilocksPrime).toNat / 2 ^ 32 = 2 ^ 32 - 1 := by
    omega
  have halves :
      element.toNat / 2 ^ 32 ^^^ (2 ^ 32 - 1) = 2 ^ 32 - 1 := by
    rw [UInt64.toNat_xor, Nat.xor_div_two_pow, prime] at upper
    exact upper
  have cleared := congrArg (· ^^^ (2 ^ 32 - 1)) halves
  simp only [Nat.xor_assoc, Nat.xor_self, Nat.xor_zero] at cleared
  omega

/-- A small word is added to the upper half of the prime. -/
theorem toNat_xor_upper
    {element : UInt64}
    (small : element.toNat < 2 ^ 32) :
    (element ^^^ 0xFFFFFFFF00000000).toNat =
      (2 ^ 32 - 1) * 2 ^ 32 + element.toNat := by
  have upper :
      (element ^^^ 0xFFFFFFFF00000000).toNat / 2 ^ 32 = 2 ^ 32 - 1 := by
    rw [UInt64.toNat_xor, Nat.xor_div_two_pow, Nat.div_eq_of_lt small,
      Nat.zero_xor]
    rfl
  have lower :
      (element ^^^ 0xFFFFFFFF00000000).toNat % 2 ^ 32 = element.toNat := by
    rw [UInt64.toNat_xor, Nat.xor_mod_two_pow, Nat.mod_eq_of_lt small]
    exact Nat.xor_zero _
  omega

/-- Any other canonical element makes one of two canonical words. -/
theorem exists_mergedBy
    {element : UInt64}
    (nonzero : element ≠ 0)
    (canonical : element < goldilocksPrime) :
    ∃ word word',
      word < goldilocksPrime ∧ word' < goldilocksPrime ∧ word ≠ word' ∧
        MergedBy element word word' := by
  have prime : goldilocksPrime.toNat = 18446744069414584321 := rfl
  by_cases large : 2 ^ 32 ≤ element.toNat
  · have word_xor : element ^^^ (element ^^^ goldilocksPrime) = goldilocksPrime := by
      rw [← UInt64.xor_assoc, UInt64.xor_self, UInt64.zero_xor]
    refine
      ⟨element ^^^ goldilocksPrime, element, xor_prime_lt large, canonical, ?_,
        .inr (.inl ?_)⟩
    · intro same
      rw [same, UInt64.xor_self] at word_xor
      exact absurd word_xor (by decide)
    · rw [word_xor, UInt64.xor_self]
      rfl
  · have small : element.toNat < 2 ^ 32 := Nat.lt_of_not_le large
    have positive : element.toNat ≠ 0 :=
      fun isZero => nonzero (UInt64.toNat_inj.mp isZero)
    have before : (element - 1).toNat = element.toNat - 1 := by
      rw [UInt64.toNat_sub_of_le _ _ (UInt64.le_iff_toNat_le.mpr ?_)]
      · rfl
      · exact Nat.one_le_iff_ne_zero.mpr positive
    have word_small : (element ^^^ (element - 1)).toNat < 2 ^ 32 := by
      rw [UInt64.toNat_xor]
      exact Nat.xor_lt_two_pow small (by omega)
    refine
      ⟨0xFFFFFFFF00000000, element ^^^ (element - 1), by decide, ?_, ?_,
        .inr (.inl ?_)⟩
    · rw [UInt64.lt_iff_toNat_lt, prime]
      omega
    · intro same
      rw [← same] at word_small
      exact absurd word_small (by decide)
    · rw [toNat_xor_upper small, ← UInt64.xor_assoc, UInt64.xor_self,
        UInt64.zero_xor, before, prime]
      omega

/-!
## One chunk
-/

/-- The words of two chunks are merged by the elements that they meet. -/
def MergedChunk (state : State8) (chunk chunk' : List UInt64) : Prop :=
  ∀ (index : Fin 8) (word word' : UInt64),
    chunk[index.val]? = some word →
    chunk'[index.val]? = some word' →
    MergedBy (state.get index) word word'

theorem absorb_get_of_some
    {state : State8}
    {chunk : List UInt64}
    {index : Fin 8}
    {word : UInt64}
    (isWord : chunk[index.val]? = some word) :
    (absorb state chunk).get index =
      fieldReduce (state.get index ^^^ fieldReduce word) := by
  rw [absorb, get_vectorOfFn]
  simp only [isWord]

theorem absorb_get_of_none
    {state : State8}
    {chunk : List UInt64}
    {index : Fin 8}
    (noWord : chunk[index.val]? = none) :
    (absorb state chunk).get index = state.get index := by
  rw [absorb, get_vectorOfFn]
  simp only [noWord]

theorem state8_ext
    {state state' : State8}
    (same : ∀ index : Fin 8, state.get index = state'.get index) :
    state = state' := by
  apply Vector.ext
  intro index below
  exact same ⟨index, below⟩

/-- Chunks of one length are absorbed alike exactly when all words are merged. -/
theorem absorb_eq_iff
    (state : State8)
    {chunk chunk' : List UInt64}
    (sameLength : chunk.length = chunk'.length)
    (canonical : CanonicalWords chunk)
    (canonical' : CanonicalWords chunk') :
    absorb state chunk = absorb state chunk' ↔ MergedChunk state chunk chunk' := by
  have atIndex {index : Fin 8} {word word' : UInt64}
      (isWord : chunk[index.val]? = some word)
      (isWord' : chunk'[index.val]? = some word') :
      (absorb state chunk).get index = (absorb state chunk').get index ↔
        MergedBy (state.get index) word word' := by
    rw [absorb_get_of_some isWord, absorb_get_of_some isWord',
      fieldReduce_of_lt (canonical word (List.mem_of_getElem? isWord)),
      fieldReduce_of_lt (canonical' word' (List.mem_of_getElem? isWord')),
      fieldReduce_xor_eq_iff]
  constructor
  · intro same index word word' isWord isWord'
    rw [← atIndex isWord isWord', same]
  · intro merged
    apply state8_ext
    intro index
    cases isWord : chunk[index.val]? with
    | none =>
        have isWord' : chunk'[index.val]? = none := by
          rw [List.getElem?_eq_none_iff] at isWord ⊢
          rwa [← sameLength]
        rw [absorb_get_of_none isWord, absorb_get_of_none isWord']
    | some word =>
        cases isWord' : chunk'[index.val]? with
        | none =>
            rw [List.getElem?_eq_none_iff, ← sameLength,
              ← List.getElem?_eq_none_iff, isWord] at isWord'
            cases isWord'
        | some word' =>
            exact (atIndex isWord isWord').mpr (merged index word word' isWord isWord')

/-- A state keeps the canonical chunks of one length apart. -/
def AbsorbsInjectively (state : State8) (size : Nat) : Prop :=
  ∀ chunk chunk' : List UInt64,
    chunk.length = size →
    chunk'.length = size →
    CanonicalWords chunk →
    CanonicalWords chunk' →
    absorb state chunk = absorb state chunk' →
    chunk = chunk'

theorem canonicalWords_set
    {chunk : List UInt64}
    (canonical : CanonicalWords chunk)
    {word : UInt64}
    (isCanonical : word < goldilocksPrime)
    (index : Nat) :
    CanonicalWords (chunk.set index word) := by
  intro other listed
  rcases List.mem_or_eq_of_mem_set listed with stays | rfl
  · exact canonical other stays
  · exact isCanonical

/-- Chunks that differ in one place are merged when the words of that place are. -/
theorem mergedChunk_set
    {state : State8}
    {index : Fin 8}
    {word word' : UInt64}
    (merged : MergedBy (state.get index) word word')
    {chunk : List UInt64}
    (within : index.val < chunk.length) :
    MergedChunk state (chunk.set index.val word)
      (chunk.set index.val word') := by
  intro other found found' isFound isFound'
  by_cases same : other = index
  · subst same
    rw [List.getElem?_set_self within, Option.some_inj] at isFound isFound'
    rwa [← isFound, ← isFound']
  · have otherPlace : index.val ≠ other.val := fun samePlace =>
      same (Fin.ext samePlace.symm)
    rw [List.getElem?_set_ne otherPlace] at isFound isFound'
    exact .inl (Option.some_inj.mp (isFound.symm.trans isFound'))

/-- A state with an element that is not 0 absorbs two chunks alike. -/
theorem not_absorbsInjectively
    {state : State8}
    (canonicalState : CanonicalState state)
    {size : Nat}
    {index : Fin 8}
    (below : index.val < size)
    (nonzero : state.get index ≠ 0) :
    ¬AbsorbsInjectively state size := by
  intro injective
  obtain ⟨word, word', canonical, canonical', different, merged⟩ :=
    exists_mergedBy nonzero (canonicalState index)
  let zeros : List UInt64 := List.replicate size 0
  have length_zeros : zeros.length = size := List.length_replicate
  have canonical_zeros : CanonicalWords zeros := by
    intro zero listed
    rw [List.eq_of_mem_replicate listed]
    decide
  have within : index.val < zeros.length := by
    rwa [length_zeros]
  have length_set (word : UInt64) : (zeros.set index.val word).length = size := by
    rw [List.length_set, length_zeros]
  have sameState :
      absorb state (zeros.set index.val word) =
        absorb state (zeros.set index.val word') := by
    rw [absorb_eq_iff state ((length_set word).trans (length_set word').symm)
      (canonicalWords_set canonical_zeros canonical _)
      (canonicalWords_set canonical_zeros canonical' _)]
    exact mergedChunk_set merged within
  have sameChunk :=
    injective _ _ (length_set word) (length_set word')
      (canonicalWords_set canonical_zeros canonical _)
      (canonicalWords_set canonical_zeros canonical' _) sameState
  have sameWord := congrArg (fun chunk => chunk[index.val]?) sameChunk
  simp only [List.getElem?_set_self within, Option.some_inj] at sameWord
  exact different sameWord

/-- A state whose elements are 0 keeps the chunks apart. -/
theorem absorbsInjectively_of_zero
    {state : State8}
    {size : Nat}
    (withinRate : size ≤ 4)
    (zeros : ∀ index : Fin 8, index.val < size → state.get index = 0) :
    AbsorbsInjectively state size := by
  intro chunk chunk' length_eq length_eq' canonical canonical' sameState
  have sameLength : chunk.length = chunk'.length :=
    length_eq.trans length_eq'.symm
  rw [absorb_eq_iff state sameLength canonical canonical'] at sameState
  apply List.ext_getElem sameLength
  intro index below below'
  have withinState : index < 8 := by
    omega
  have merged :=
    sameState ⟨index, withinState⟩ _ _ (List.getElem?_eq_getElem below)
      (List.getElem?_eq_getElem below')
  rw [zeros ⟨index, withinState⟩ (by rwa [← length_eq])] at merged
  exact
    eq_of_mergedBy_zero (canonical _ (List.getElem_mem below))
      (canonical' _ (List.getElem_mem below')) merged

/-- A state keeps chunks apart exactly when the elements that they meet are 0. -/
theorem absorbsInjectively_iff
    {state : State8}
    (canonicalState : CanonicalState state)
    {size : Nat}
    (withinRate : size ≤ 4) :
    AbsorbsInjectively state size ↔
      ∀ index : Fin 8, index.val < size → state.get index = 0 := by
  constructor
  · intro injective index below
    by_contra nonzero
    exact not_absorbsInjectively canonicalState below nonzero injective
  · intro zeros
    exact absorbsInjectively_of_zero withinRate zeros

/-!
## Sequences
-/

variable {perm : T8Permutation}

/-- The states before each permutation, from a state. -/
def absorbedFrom (perm : T8Permutation) :
    State8 → List (List UInt64) → List State8
  | _, [] => []
  | state, chunk :: rest =>
      let absorbed := absorb state chunk
      absorbed :: absorbedFrom perm (poseidon2PermuteT8 perm absorbed) rest

/-- The states before each permutation of the chained hash. -/
def absorbedStates (perm : T8Permutation) (input : List UInt64) : List State8 :=
  absorbedFrom perm (Vector.replicate 8 0) (rateChunks input)

/-- Chunk after chunk, the words are merged by the state reached. -/
def MergedFrom (perm : T8Permutation) :
    State8 → List (List UInt64) → List (List UInt64) → Prop
  | _, [], [] => True
  | state, chunk :: rest, chunk' :: rest' =>
      MergedChunk state chunk chunk' ∧
        MergedFrom perm (poseidon2PermuteT8 perm (absorb state chunk)) rest rest'
  | _, [], _ :: _ => False
  | _, _ :: _, [] => False

/-- Two sequences of words merge, chunk after chunk. -/
def MergedInputs (perm : T8Permutation) (input input' : List UInt64) : Prop :=
  MergedFrom perm (Vector.replicate 8 0) (rateChunks input) (rateChunks input')

/-- Chunks of the same lengths, within the rate. -/
def SameShape (chunks chunks' : List (List UInt64)) : Prop :=
  List.Forall₂
    (fun chunk chunk' => chunk.length = chunk'.length ∧ chunk.length ≤ 4)
    chunks chunks'

/-- A chunk can be cut from four words or more. -/
theorem exists_chunk
    {input : List UInt64}
    {count : Nat}
    (enough : input.length = count + 4) :
    ∃ first second third fourth rest,
      input = first :: second :: third :: fourth :: rest := by
  obtain ⟨first, input, rfl⟩ := List.exists_cons_of_length_eq_add_one enough
  rw [List.length_cons, Nat.add_right_cancel_iff] at enough
  obtain ⟨second, input, rfl⟩ := List.exists_cons_of_length_eq_add_one enough
  rw [List.length_cons, Nat.add_right_cancel_iff] at enough
  obtain ⟨third, input, rfl⟩ := List.exists_cons_of_length_eq_add_one enough
  rw [List.length_cons, Nat.add_right_cancel_iff] at enough
  obtain ⟨fourth, rest, rfl⟩ := List.exists_cons_of_length_eq_add_one enough
  exact ⟨first, second, third, fourth, rest, rfl⟩

/-- Fewer words than a chunk are the last chunk. -/
theorem rateChunks_of_length_lt
    {rest : List UInt64}
    (short : rest.length < 4)
    (nonempty : rest ≠ []) :
    rateChunks rest = [rest] := by
  rw [rateChunks]
  · intro first second third fourth later same
    have lengths := congrArg List.length same
    simp only [List.length_cons] at lengths
    omega
  · exact nonempty

/-- Inputs of one length are cut alike. -/
theorem sameShape_rateChunks
    {input input' : List UInt64}
    (sameLength : input.length = input'.length) :
    SameShape (rateChunks input) (rateChunks input') := by
  induction input using rateChunks.induct generalizing input' with
  | case1 first second third fourth rest inductionHypothesis =>
      obtain ⟨first', second', third', fourth', rest', rfl⟩ :=
        exists_chunk sameLength.symm
      refine .cons ⟨rfl, le_rfl⟩ (inductionHypothesis ?_)
      simpa using sameLength
  | case2 =>
      rw [List.length_nil, eq_comm, List.length_eq_zero_iff] at sameLength
      rw [sameLength]
      exact .nil
  | case3 rest noChunk nonempty =>
      have short : rest.length < 4 := by
        by_contra long
        obtain ⟨first, second, third, fourth, later, same⟩ :=
          exists_chunk (Nat.sub_add_cancel (Nat.not_lt.mp long)).symm
        exact noChunk first second third fourth later same
      have nonempty' : input' ≠ [] := by
        rw [← List.length_pos_iff, ← sameLength]
        exact List.length_pos_iff.mpr nonempty
      rw [rateChunks_of_length_lt short nonempty,
        rateChunks_of_length_lt (sameLength ▸ short) nonempty']
      exact .cons ⟨sameLength, short.le⟩ .nil

/-- The words of the chunks are those of the input. -/
theorem canonicalWords_rateChunks
    {input : List UInt64}
    (canonical : CanonicalWords input) :
    ∀ chunk ∈ rateChunks input, CanonicalWords chunk := by
  induction input using rateChunks.induct with
  | case1 first second third fourth rest inductionHypothesis =>
      rw [rateChunks, List.forall_mem_cons]
      constructor
      · intro word listed
        apply canonical
        exact List.mem_append_left rest listed
      · apply inductionHypothesis
        intro word listed
        apply canonical
        exact List.mem_append_right [first, second, third, fourth] listed
  | case2 =>
      exact List.forall_mem_nil _
  | case3 rest short nonempty =>
      rw [rateChunks]
      · exact List.forall_mem_singleton.mpr canonical
      · exact short
      · exact nonempty

theorem absorbedFrom_eq_iff
    {state : State8}
    {chunks chunks' : List (List UInt64)}
    (sameShape : SameShape chunks chunks')
    (canonical : ∀ chunk ∈ chunks, CanonicalWords chunk)
    (canonical' : ∀ chunk ∈ chunks', CanonicalWords chunk) :
    absorbedFrom perm state chunks = absorbedFrom perm state chunks' ↔
      MergedFrom perm state chunks chunks' := by
  induction sameShape generalizing state with
  | nil =>
      exact iff_of_true rfl trivial
  | cons sameLength rest inductionHypothesis =>
      rw [List.forall_mem_cons] at canonical canonical'
      have absorbed_iff :=
        absorb_eq_iff state sameLength.1 canonical.1 canonical'.1
      rw [absorbedFrom, absorbedFrom, List.cons.injEq, absorbed_iff, MergedFrom]
      apply and_congr_right
      intro merged
      rw [← absorbed_iff.mpr merged]
      exact inductionHypothesis canonical.2 canonical'.2

/-- Different states that the permutation does not tell apart in one half. -/
structure HalfCollision
    (perm : T8Permutation)
    (state state' : State8) : Prop where
  different : state ≠ state'
  canonical : CanonicalState state
  canonical' : CanonicalState state'
  sameHalf :
    (∀ index : Fin 8,
        index.val < 4 →
        (poseidon2PermuteT8 perm state).get index =
          (poseidon2PermuteT8 perm state').get index) ∨
      ∀ index : Fin 8,
        4 ≤ index.val →
        (poseidon2PermuteT8 perm state).get index =
          (poseidon2PermuteT8 perm state').get index

theorem canonicalState_permute (state : State8) :
    CanonicalState (poseidon2PermuteT8 perm state) :=
  fun index => perm.canonical _ index

theorem canonicalState_absorb
    {state : State8}
    (canonical : CanonicalState state)
    (chunk : List UInt64) :
    CanonicalState (absorb state chunk) := by
  intro index
  cases isWord : chunk[index.val]? with
  | none =>
      rw [absorb_get_of_none isWord]
      exact canonical index
  | some word =>
      rw [absorb_get_of_some isWord]
      exact fieldReduce_lt _

/-- The capacity is left alone when a chunk is absorbed. -/
theorem absorb_capacity
    {state : State8}
    {chunk : List UInt64}
    (withinRate : chunk.length ≤ 4)
    {index : Fin 8}
    (capacity : 4 ≤ index.val) :
    (absorb state chunk).get index = state.get index :=
  absorb_get_of_none
    (List.getElem?_eq_none_iff.mpr (withinRate.trans capacity))

/-- The state after all chunks, from a state. -/
def permutedFrom
    (perm : T8Permutation)
    (state : State8)
    (chunks : List (List UInt64)) : State8 :=
  chunks.foldl (fun state chunk => poseidon2PermuteT8 perm (absorb state chunk))
    state

/-- Outputs that agree although the states differed come from a collision. -/
theorem exists_halfCollision
    {state state' : State8}
    {chunks chunks' : List (List UInt64)}
    (sameShape : SameShape chunks chunks')
    (canonical : CanonicalState state)
    (canonical' : CanonicalState state')
    (differ :
      absorbedFrom perm state chunks ≠ absorbedFrom perm state' chunks')
    (sameOutput :
      ∀ index : Fin 8,
        index.val < 4 →
        (permutedFrom perm state chunks).get index =
          (permutedFrom perm state' chunks').get index) :
    ∃ first second, HalfCollision perm first second := by
  induction sameShape generalizing state state' with
  | nil =>
      exact absurd rfl differ
  | @cons chunk chunk' rest rest' sameLength sameRest inductionHypothesis =>
      by_cases laterSame :
        absorbedFrom perm (poseidon2PermuteT8 perm (absorb state chunk)) rest =
          absorbedFrom perm (poseidon2PermuteT8 perm (absorb state' chunk')) rest'
      · -- Only this state differs, so the next one hides it.
        refine
          ⟨absorb state chunk, absorb state' chunk', ?_,
            canonicalState_absorb canonical chunk,
            canonicalState_absorb canonical' chunk', ?_⟩
        · intro same
          exact differ (congrArg₂ List.cons same laterSame)
        · cases sameRest with
          | nil =>
              exact .inl sameOutput
          | cons nextLength _ =>
              have nextSame := (List.cons.inj laterSame).1
              refine .inr fun index capacity => ?_
              have atIndex := congrArg (·.get index) nextSame
              rwa [absorb_capacity nextLength.2 capacity,
                absorb_capacity (nextLength.1 ▸ nextLength.2) capacity] at atIndex
      · exact
          inductionHypothesis (canonicalState_permute _) (canonicalState_permute _)
            laterSame sameOutput

theorem canonicalState_zero : CanonicalState (Vector.replicate 8 0) := by
  intro index
  have zero : (Vector.replicate 8 (0 : UInt64)).get index = 0 :=
    Vector.getElem_replicate _
  rw [zero]
  decide

/--
The chained hash absorbs a canonical chunk injectively exactly where the elements
that it meets are 0, as at the first chunk.  Sequences of one length lead to the
same states exactly when their words merge, chunk after chunk; and an output
collision of sequences with different states collides in half of a permutation.
-/
theorem chained_absorption (perm : T8Permutation) :
    (∀ (state : State8) (size : Nat),
        CanonicalState state →
        size ≤ 4 →
        (AbsorbsInjectively state size ↔
          ∀ index : Fin 8, index.val < size → state.get index = 0)) ∧
      (∀ input input' : List UInt64,
        input.length = input'.length →
        CanonicalWords input →
        CanonicalWords input' →
        (absorbedStates perm input = absorbedStates perm input' ↔
          MergedInputs perm input input')) ∧
      ∀ input input' : List UInt64,
        input.length = input'.length →
        absorbedStates perm input ≠ absorbedStates perm input' →
        poseidon2HashChained perm input = poseidon2HashChained perm input' →
        ∃ first second, HalfCollision perm first second := by
  refine ⟨?_, ?_, ?_⟩
  · intro state size canonical withinRate
    exact absorbsInjectively_iff canonical withinRate
  · intro input input' sameLength canonical canonical'
    exact
      absorbedFrom_eq_iff (sameShape_rateChunks sameLength)
        (canonicalWords_rateChunks canonical)
        (canonicalWords_rateChunks canonical')
  · intro input input' sameLength differ sameOutput
    apply exists_halfCollision (sameShape_rateChunks sameLength)
      canonicalState_zero canonicalState_zero differ
    intro index withinDigest
    exact congrFun sameOutput ⟨index.val, withinDigest⟩

/-- The element that four zeros leave in the first place of the state. -/
def secondElement : UInt64 :=
  4904961330882102773

/-- Two inputs of five canonical words have the same states and the same hash. -/
theorem absorbedStates_collide :
    CanonicalWords [0, 0, 0, 0, secondElement] ∧
      CanonicalWords [0, 0, 0, 0, secondElement ^^^ goldilocksPrime] ∧
      [0, 0, 0, 0, secondElement] ≠
        [0, 0, 0, 0, secondElement ^^^ goldilocksPrime] ∧
      absorbedStates VerifierPy.t8Permutation [0, 0, 0, 0, secondElement] =
        absorbedStates VerifierPy.t8Permutation
          [0, 0, 0, 0, secondElement ^^^ goldilocksPrime] := by
  refine ⟨?_, ?_, by decide, by decide +kernel⟩
  · simp only [CanonicalWords, List.forall_mem_cons, List.not_mem_nil,
      false_implies, implies_true, and_true]
    decide
  · simp only [CanonicalWords, List.forall_mem_cons, List.not_mem_nil,
      false_implies, implies_true, and_true]
    decide

end ScalarCore
