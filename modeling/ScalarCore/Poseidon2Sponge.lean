import ScalarCore.Poseidon2Width4

namespace ScalarCore

/-!
# The padded sponge

The input is reduced, a one is appended, zeros fill the last block, and one is
added to the last word.  The last block tells how many words of input it holds, so
the padded words determine the reduced input.  Bytes are packed eight to a word
before that, and the packing keeps neither their number nor words above the prime.
-/

namespace Poseidon2Hasher

/-- `RATE`. -/
def rate : Nat :=
  3

/-- `while !padded.len().is_multiple_of(RATE)`, for so many rounds. -/
def fillBlock : Nat → List UInt64 → List UInt64
  | 0, padded => padded
  | rounds + 1, padded =>
      if padded.length % rate = 0 then padded else fillBlock rounds (padded ++ [0])

/-- The padded input that `hash` builds. -/
def pad (input : List UInt64) : List UInt64 :=
  let padded := fillBlock rate (input.map fieldReduce ++ [1])
  padded.modify (padded.length - 1) (fieldAdd · 1)

/-- `padded.chunks(RATE)`. -/
def blocks : List UInt64 → List (List UInt64)
  | first :: second :: third :: rest => [first, second, third] :: blocks rest
  | [] => []
  | rest => [rest]

/-- A block is added to the state, which is permuted. -/
def absorbBlock (state : State4) (block : List UInt64) : State4 :=
  poseidon2Permutation
    (Vector.ofFn fun index =>
      match block[index.val]? with
      | some element => fieldAdd (state.get index) element
      | none => state.get index)

/-- `Poseidon2Hasher::hash`. -/
def hash (input : List UInt64) : Digest4 :=
  let state := (blocks (pad input)).foldl absorbBlock (Vector.replicate 4 0)
  let squeezed := poseidon2Permutation state
  ![state.get 0, state.get 1, squeezed.get 0, squeezed.get 1]

/-- `input.chunks(8)`. -/
def byteChunks (input : List UInt8) : List (List UInt8) :=
  (List.range ((input.length + 7) / 8)).map fun index => (input.drop (index * 8)).take 8

/-- A chunk in a buffer of eight bytes, read as a field element. -/
def chunkElement (chunk : List UInt8) : UInt64 :=
  fieldReduce (fromLeBytes (chunk ++ List.replicate (8 - chunk.length) 0))

/-- The elements that `hash_bytes_to_field` feeds to `hash`. -/
def fieldElems (input : List UInt8) : List UInt64 :=
  let elements := (byteChunks input).map chunkElement
  if elements.isEmpty then elements ++ [0] else elements

/-- `hash_bytes_to_field`. -/
def hashBytesToField (input : List UInt8) : Digest4 :=
  hash (fieldElems input)

/-!
## Padding
-/

/-- The last block: its last word tells how many words of input it holds. -/
def padTail : List UInt64 → List UInt64
  | first :: second :: third :: rest => first :: second :: third :: padTail rest
  | [first, second] => [first, second, 2]
  | [first] => [first, 1, 1]
  | [] => [1, 0, 1]

/-- Blocks in front are kept while the last one is filled. -/
theorem fillBlock_cons_block
    (rounds : Nat)
    (first second third : UInt64)
    (padded : List UInt64) :
    fillBlock rounds (first :: second :: third :: padded) =
      first :: second :: third :: fillBlock rounds padded := by
  induction rounds generalizing padded with
  | zero =>
      rfl
  | succ rounds inductionHypothesis =>
      have sameRemainder :
          (first :: second :: third :: padded).length % rate = padded.length % rate := by
        simp only [List.length_cons, rate]
        omega
      rw [fillBlock, fillBlock, sameRemainder]
      split
      · rfl
      · exact inductionHypothesis (padded ++ [0])

/-- The last word is that of the last block. -/
theorem modify_last_cons_block
    (first second third : UInt64)
    {padded : List UInt64}
    (nonempty : padded ≠ []) :
    (first :: second :: third :: padded).modify
        ((first :: second :: third :: padded).length - 1) (fieldAdd · 1) =
      first :: second :: third :: padded.modify (padded.length - 1) (fieldAdd · 1) := by
  have positive := List.length_pos_of_ne_nil nonempty
  have position :
      (first :: second :: third :: padded).length - 1 = padded.length - 1 + 1 + 1 + 1 := by
    simp only [List.length_cons]
    omega
  rw [position, List.modify_succ_cons, List.modify_succ_cons, List.modify_succ_cons]

theorem fillBlock_ne_nil
    (rounds : Nat)
    {padded : List UInt64}
    (nonempty : padded ≠ []) :
    fillBlock rounds padded ≠ [] := by
  induction rounds generalizing padded with
  | zero =>
      exact nonempty
  | succ rounds inductionHypothesis =>
      rw [fillBlock]
      split
      · exact nonempty
      · exact inductionHypothesis (List.append_ne_nil_of_right_ne_nil _ (List.cons_ne_nil _ _))

/-- The loop and the final marker leave the reduced input with its last block. -/
theorem pad_eq (input : List UInt64) : pad input = padTail (input.map fieldReduce) := by
  unfold pad
  generalize input.map fieldReduce = reduced
  induction reduced using padTail.induct with
  | case1 first second third rest inductionHypothesis =>
      have nonempty : fillBlock rate (rest ++ [1]) ≠ [] :=
        fillBlock_ne_nil rate (List.append_ne_nil_of_right_ne_nil _ (List.cons_ne_nil _ _))
      simp only [List.cons_append, fillBlock_cons_block, modify_last_cons_block _ _ _ nonempty,
        padTail]
      rw [inductionHypothesis]
  | case2 first second =>
      have marked : fieldAdd 1 1 = 2 := by
        decide
      simp [fillBlock, rate, padTail, List.modify, marked]
  | case3 first =>
      have marked : fieldAdd 0 1 = 1 := by
        decide
      simp [fillBlock, rate, padTail, List.modify, marked]
  | case4 =>
      have marked : fieldAdd 0 1 = 1 := by
        decide
      simp [fillBlock, rate, padTail, List.modify, marked]

theorem padTail_ne_nil (input : List UInt64) : padTail input ≠ [] := by
  fun_cases padTail input <;> exact List.cons_ne_nil _ _

/-- The padded words determine the words, last block first. -/
theorem padTail_injective : Function.Injective padTail := by
  intro input input' same
  induction input using padTail.induct generalizing input' with
  | case1 first second third rest inductionHypothesis =>
      match input' with
      | first' :: second' :: third' :: rest' =>
          simp only [padTail, List.cons.injEq] at same
          obtain ⟨rfl, rfl, rfl, sameRest⟩ := same
          rw [inductionHypothesis sameRest]
      | [] | [_] | [_, _] =>
          simp only [padTail, List.cons.injEq] at same
          exact absurd same.2.2.2 (padTail_ne_nil rest)
  | case2 first second =>
      match input' with
      | first' :: second' :: third' :: rest' =>
          simp only [padTail, List.cons.injEq] at same
          exact absurd same.2.2.2.symm (padTail_ne_nil rest')
      | [] | [_] =>
          simp only [padTail, List.cons.injEq] at same
          exact absurd same.2.2.1 (by decide)
      | [first', second'] =>
          simp only [padTail, List.cons.injEq] at same
          rw [same.1, same.2.1]
  | case3 first =>
      match input' with
      | first' :: second' :: third' :: rest' =>
          simp only [padTail, List.cons.injEq] at same
          exact absurd same.2.2.2.symm (padTail_ne_nil rest')
      | [] =>
          simp only [padTail, List.cons.injEq] at same
          exact absurd same.2.1 (by decide)
      | [first', second'] =>
          simp only [padTail, List.cons.injEq] at same
          exact absurd same.2.2.1 (by decide)
      | [first'] =>
          simp only [padTail, List.cons.injEq] at same
          rw [same.1]
  | case4 =>
      match input' with
      | first' :: second' :: third' :: rest' =>
          simp only [padTail, List.cons.injEq] at same
          exact absurd same.2.2.2.symm (padTail_ne_nil rest')
      | [first', second'] =>
          simp only [padTail, List.cons.injEq] at same
          exact absurd same.2.2.1 (by decide)
      | [first'] =>
          simp only [padTail, List.cons.injEq] at same
          exact absurd same.2.1 (by decide)
      | [] =>
          rfl

/-- The blocks are the padded words in their order. -/
theorem flatten_blocks (padded : List UInt64) : (blocks padded).flatten = padded := by
  induction padded using blocks.induct with
  | case1 first second third rest inductionHypothesis =>
      rw [blocks, List.flatten_cons, inductionHypothesis]
      rfl
  | case2 =>
      rfl
  | case3 rest short nonempty =>
      rw [blocks.eq_3 rest short nonempty, List.flatten_singleton]

/-- Inputs share their blocks when they are the same elements. -/
theorem blocks_pad_eq_iff (input input' : List UInt64) :
    blocks (pad input) = blocks (pad input') ↔
      input.map fieldReduce = input'.map fieldReduce := by
  constructor
  · intro same
    apply padTail_injective
    rw [← pad_eq, ← pad_eq, ← flatten_blocks (pad input), same, flatten_blocks]
  · intro same
    rw [pad_eq, pad_eq, same]

/-- Every word of the sequence is below the prime. -/
def CanonicalSequence (input : List UInt64) : Prop :=
  ∀ word ∈ input, word < goldilocksPrime

theorem CanonicalSequence.map_fieldReduce
    {input : List UInt64}
    (canonical : CanonicalSequence input) :
    input.map fieldReduce = input := by
  have kept : ∀ word ∈ input, fieldReduce word = id word :=
    fun word listed => fieldReduce_of_lt (canonical word listed)
  rw [List.map_congr_left kept, List.map_id]

/-- Canonical sequences of any lengths are padded to different blocks. -/
theorem blocks_pad_injOn :
    Set.InjOn (fun input => blocks (pad input)) {input | CanonicalSequence input} := by
  intro input canonical input' canonical' same
  have reduced := (blocks_pad_eq_iff input input').mp same
  rwa [canonical.map_fieldReduce, canonical'.map_fieldReduce] at reduced

/-!
## Packing
-/

/-- How many words a byte string is packed into. -/
def wordCount (input : List UInt8) : Nat :=
  max 1 ((input.length + 7) / 8)

/-- The number in the eight bytes at a position, or in those that are left. -/
def wordAt (input : List UInt8) (index : Nat) : Nat :=
  Nat.ofDigits 256 (((input.drop (index * 8)).take 8).map UInt8.toNat)

/-- Zeros behind a chunk do not change its number. -/
theorem toNat_chunkElement
    {chunk : List UInt8}
    (short : chunk.length ≤ 8) :
    (chunkElement chunk).toNat =
      Nat.ofDigits 256 (chunk.map UInt8.toNat) % goldilocksPrime.toNat := by
  have buffer : (chunk ++ List.replicate (8 - chunk.length) 0).length ≤ 8 := by
    rw [List.length_append, List.length_replicate]
    omega
  rw [chunkElement, toNat_fieldReduce, toNat_fromLeBytes buffer, List.map_append,
    List.map_replicate]
  exact congrArg (· % goldilocksPrime.toNat) (Nat.ofDigits_append_replicate_zero _)

/-- The elements are the words in the field; the empty string is one zero word. -/
theorem fieldElems_eq (input : List UInt8) :
    (fieldElems input).map UInt64.toNat =
      (List.range (wordCount input)).map fun index =>
        wordAt input index % goldilocksPrime.toNat := by
  have elementAt (index : Nat) :
      (chunkElement ((input.drop (index * 8)).take 8)).toNat =
        wordAt input index % goldilocksPrime.toNat :=
    toNat_chunkElement (List.length_take_le _ _)
  by_cases isEmpty : input = []
  · subst isEmpty
    decide
  · have positive := List.length_pos_of_ne_nil isEmpty
    have count : wordCount input = (input.length + 7) / 8 := by
      unfold wordCount
      omega
    have elements : fieldElems input = (byteChunks input).map chunkElement := by
      apply if_neg
      rw [List.isEmpty_iff, ← List.length_eq_zero_iff, List.length_map, byteChunks,
        List.length_map, List.length_range]
      omega
    rw [elements, byteChunks, List.map_map, List.map_map, count]
    exact List.map_congr_left fun index _ => elementAt index

/-- The byte strings are packed into the same words of the field. -/
def SameWords (input input' : List UInt8) : Prop :=
  wordCount input = wordCount input' ∧
    ∀ index < wordCount input,
      wordAt input index ≡ wordAt input' index [MOD goldilocksPrime.toNat]

theorem fieldElems_eq_iff (input input' : List UInt8) :
    fieldElems input = fieldElems input' ↔ SameWords input input' := by
  have numbers :
      fieldElems input = fieldElems input' ↔
        (fieldElems input).map UInt64.toNat = (fieldElems input').map UInt64.toNat :=
    (List.map_injective_iff.mpr fun _ _ => UInt64.toNat_inj.mp).eq_iff.symm
  rw [numbers, fieldElems_eq, fieldElems_eq]
  constructor
  · intro same
    have counts : wordCount input = wordCount input' := by
      simpa using congrArg List.length same
    refine ⟨counts, fun index inside => ?_⟩
    rw [← counts] at same
    exact List.map_inj_left.mp same index (List.mem_range.mpr inside)
  · rintro ⟨counts, words⟩
    rw [← counts]
    exact List.map_congr_left fun index inside => words index (List.mem_range.mp inside)

/-- A letter, and the letter with a zero byte behind it. -/
def trailingZero : List UInt8 × List UInt8 :=
  ([0x61], [0x61, 0x00])

/-- Both strings are hashed as one element. -/
theorem trailingZero_share_elements :
    ¬ ((∀ input input' : List UInt64,
        CanonicalSequence input → CanonicalSequence input' →
          input ≠ input' → blocks (pad input) ≠ blocks (pad input')) ∧
      ∀ input input' : List UInt8, input ≠ input' → fieldElems input ≠ fieldElems input') := by
  rintro ⟨-, packed⟩
  exact packed trailingZero.1 trailingZero.2 (by decide) (by decide)

/--
Canonical sequences of any lengths are padded to different blocks, and byte strings
are hashed as different elements exactly when they are not the same words of the
field.
-/
theorem sponge_padding_unambiguous_iff
    (input input' : List UInt64)
    (bytes bytes' : List UInt8) :
    (CanonicalSequence input → CanonicalSequence input' →
      input ≠ input' → blocks (pad input) ≠ blocks (pad input')) ∧
      (fieldElems bytes ≠ fieldElems bytes' ↔ ¬ SameWords bytes bytes') :=
  ⟨fun canonical canonical' different same =>
      different (blocks_pad_injOn canonical canonical' same),
    not_congr (fieldElems_eq_iff bytes bytes')⟩

/-- A zero more is a different sequence, and a different letter different words. -/
theorem sponge_padding_unambiguous_letters :
    blocks (pad [1]) ≠ blocks (pad [1, 0]) ∧ fieldElems [0x61] ≠ fieldElems [0x62] := by
  have zero : CanonicalSequence [0] := List.forall_mem_singleton.mpr (by decide)
  have one : CanonicalSequence [1] := List.forall_mem_singleton.mpr (by decide)
  have both : CanonicalSequence [1, 0] := List.forall_mem_append.mpr ⟨one, zero⟩
  have otherWords : ¬ SameWords [0x61] [0x62] := by
    rintro ⟨-, words⟩
    exact absurd (words 0 (by decide)) (by decide)
  have unambiguous := sponge_padding_unambiguous_iff [1] [1, 0] [0x61] [0x62]
  exact ⟨unambiguous.1 one both (by decide), unambiguous.2.mpr otherWords⟩

end Poseidon2Hasher

end ScalarCore
