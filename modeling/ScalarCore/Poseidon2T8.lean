import ScalarCore.Bytes
import Mathlib.Data.Vector.Basic

namespace ScalarCore

/-!
# The width-8 Poseidon2 hash

Digests inside the circuit are four Goldilocks elements, the first half of the
state after one permutation.  The permutation itself belongs to a library that
is not part of the source, so it is a parameter: what the source relies on is
that it answers canonical representatives.
-/

/-- The Goldilocks prime `2^64 - 2^32 + 1`. -/
def goldilocksPrime : UInt64 :=
  0xFFFFFFFF00000001

/-- Reduce a word into the field. -/
def fieldReduce (x : UInt64) : UInt64 :=
  if x ≥ goldilocksPrime then x - goldilocksPrime else x

/-- A permutation state, `[u64; 8]`. -/
abbrev State8 :=
  Vector UInt64 8

/-- Four words, `[u64; 4]`. -/
abbrev Digest4 :=
  Fin 4 → UInt64

/-- The permutation of the field library on canonical states. -/
structure T8Permutation where
  permute : State8 → State8
  /-- `as_canonical_u64` answers representatives below the prime. -/
  canonical :
    ∀ (state : State8) (index : Fin 8),
      (permute state).get index < goldilocksPrime

/-- One permutation of the reduced input. -/
def poseidon2PermuteT8
    (perm : T8Permutation)
    (input : State8) :
    State8 :=
  perm.permute (input.map fieldReduce)

/-- The words of an input in chunks of the rate, the last one shorter. -/
def rateChunks : List UInt64 → List (List UInt64)
  | first :: second :: third :: fourth :: rest =>
      [first, second, third, fourth] :: rateChunks rest
  | [] => []
  | rest => [rest]

/-- Combine a chunk into the first elements of a state. -/
def absorb (state : State8) (chunk : List UInt64) : State8 :=
  Vector.ofFn fun index =>
    match chunk[index.val]? with
    | some word => fieldReduce (state.get index ^^^ fieldReduce word)
    | none => state.get index

/-- The element of a state that a word of the digest holds. -/
def digestPosition (index : Fin 4) : Fin 8 :=
  index.castLE (by decide)

/-- `poseidon2_hash_chained`: one permutation for each chunk. -/
def poseidon2HashChained
    (perm : T8Permutation)
    (input : List UInt64) :
    Digest4 :=
  let state :=
    (rateChunks input).foldl
      (fun state chunk => poseidon2PermuteT8 perm (absorb state chunk))
      (Vector.replicate 8 0)
  fun index => state.get (digestPosition index)

/-- The first four elements of a state as 32 bytes. -/
def field8ToBytes32 (state : State8) : Bytes32 :=
  Bytes32.ofLimbs fun index => state.get (digestPosition index)

@[simp] theorem get_vectorMap
    {Item Item' : Type}
    {size : Nat}
    (map : Item → Item')
    (items : Vector Item size)
    (index : Fin size) :
    (items.map map).get index = map (items.get index) :=
  Vector.getElem_map ..

@[simp] theorem get_vectorOfFn
    {Item : Type}
    {size : Nat}
    (itemAt : Fin size → Item)
    (index : Fin size) :
    (Vector.ofFn itemAt).get index = itemAt index :=
  Vector.getElem_ofFn ..

/-- Reduction is the remainder modulo the prime. -/
theorem toNat_fieldReduce (x : UInt64) :
    (fieldReduce x).toNat = x.toNat % goldilocksPrime.toNat := by
  have bound := x.toNat_lt
  have prime : goldilocksPrime.toNat = 18446744069414584321 := rfl
  unfold fieldReduce
  split
  · next large =>
      have notBelow := UInt64.le_iff_toNat_le.mp large
      rw [UInt64.toNat_sub_of_le _ _ large]
      rw [prime] at notBelow ⊢
      omega
  · next small =>
      have below := UInt64.le_iff_toNat_le.not.mp small
      rw [prime] at below ⊢
      omega

/-- A canonical representative is its own reduction. -/
theorem fieldReduce_of_lt
    {x : UInt64}
    (canonical : x < goldilocksPrime) :
    fieldReduce x = x :=
  if_neg (UInt64.not_le.mpr canonical)

/-- Reduced words are canonical. -/
theorem fieldReduce_lt (x : UInt64) :
    fieldReduce x < goldilocksPrime := by
  rw [UInt64.lt_iff_toNat_lt, toNat_fieldReduce]
  exact Nat.mod_lt _ (by decide)

/-- A word that is below the prime is what it reduces to. -/
theorem fieldReduce_eq_self_iff {word : UInt64} :
    fieldReduce word = word ↔ word < goldilocksPrime := by
  constructor
  · intro fixed
    rw [← fixed]
    exact fieldReduce_lt word
  · exact fieldReduce_of_lt

@[simp] theorem fieldReduce_idem (x : UInt64) :
    fieldReduce (fieldReduce x) = fieldReduce x :=
  fieldReduce_of_lt (fieldReduce_lt x)

/-- Chunks are formed before the words are looked at. -/
theorem rateChunks_map
    (map : UInt64 → UInt64)
    (words : List UInt64) :
    rateChunks (words.map map) = (rateChunks words).map (List.map map) := by
  induction words using rateChunks.induct with
  | case1 first second third fourth rest inductionHypothesis =>
      simp only [List.map_cons, rateChunks, inductionHypothesis, List.map_nil]
  | case2 =>
      rfl
  | case3 rest short nonempty =>
      match rest, short, nonempty with
      | [_], _, _ => rfl
      | [_, _], _, _ => rfl
      | [_, _, _], _, _ => rfl
      | first :: second :: third :: fourth :: rest, short, _ =>
          exact absurd rfl (short first second third fourth rest)

/-- A chunk is reduced when it is absorbed. -/
theorem absorb_map_fieldReduce
    (state : State8)
    (chunk : List UInt64) :
    absorb state (chunk.map fieldReduce) = absorb state chunk := by
  unfold absorb
  congr 1
  funext index
  rw [List.getElem?_map]
  cases chunk[index.val]? with
  | none =>
      rfl
  | some word =>
      simp only [Option.map_some, fieldReduce_idem]

/-- The chained hash sees its input as field elements. -/
theorem poseidon2HashChained_map_fieldReduce
    (perm : T8Permutation)
    (input : List UInt64) :
    poseidon2HashChained perm (input.map fieldReduce) =
      poseidon2HashChained perm input := by
  unfold poseidon2HashChained
  simp only [rateChunks_map, List.foldl_map, absorb_map_fieldReduce]

@[simp] theorem limb_field8ToBytes32
    (state : State8)
    (index : Fin 4) :
    (field8ToBytes32 state).limb index = state.get (digestPosition index) := by
  simp [field8ToBytes32]

/-- Words read from two arrays agree as field elements. -/
def AgreeModP
    (width : Nat)
    (first second : Bytes32) : Prop :=
  ∀ index : Fin 4,
    index.val < width →
      (first.limb index).toNat ≡ (second.limb index).toNat
        [MOD goldilocksPrime.toNat]

theorem fieldReduce_eq_iff (x y : UInt64) :
    fieldReduce x = fieldReduce y ↔
      x.toNat ≡ y.toNat [MOD goldilocksPrime.toNat] := by
  rw [← UInt64.toNat_inj, toNat_fieldReduce, toNat_fieldReduce, Nat.ModEq]

/-- The other word of the same element, where there is one. -/
def otherWord (word : UInt64) : UInt64 :=
  if word ≥ goldilocksPrime then
    word - goldilocksPrime
  else if word < 0xFFFFFFFF then
    word + goldilocksPrime
  else
    word

/-- The other word lies the prime below, the prime above, or does not exist. -/
theorem toNat_otherWord (word : UInt64) :
    (goldilocksPrime.toNat ≤ word.toNat ∧
      (otherWord word).toNat + goldilocksPrime.toNat = word.toNat) ∨
    (word.toNat < 0xFFFFFFFF ∧
      (otherWord word).toNat = word.toNat + goldilocksPrime.toNat) ∨
    (0xFFFFFFFF ≤ word.toNat ∧ word.toNat < goldilocksPrime.toNat ∧
      otherWord word = word) := by
  have half : (0xFFFFFFFF : UInt64).toNat = 0xFFFFFFFF := rfl
  have prime : goldilocksPrime.toNat = 0xFFFFFFFF00000001 := rfl
  unfold otherWord
  split_ifs with above below
  · have order := UInt64.le_iff_toNat_le.mp above
    have difference := UInt64.toNat_sub_of_le _ _ above
    exact .inl ⟨order, by omega⟩
  · have order := UInt64.lt_iff_toNat_lt.mp below
    have sum := UInt64.toNat_add word goldilocksPrime
    exact .inr (.inl ⟨by omega, by omega⟩)
  · have notAbove := UInt64.lt_iff_toNat_lt.mp (UInt64.not_le.mp above)
    have notBelow := UInt64.le_iff_toNat_le.mp (UInt64.not_lt.mp below)
    exact .inr (.inr ⟨by omega, notAbove, rfl⟩)

/-- Both words are one element. -/
theorem fieldReduce_otherWord (word : UInt64) :
    fieldReduce (otherWord word) = fieldReduce word := by
  rw [fieldReduce_eq_iff]
  obtain ⟨-, sum⟩ | ⟨-, sum⟩ | ⟨-, -, same⟩ := toNat_otherWord word
  · rw [← sum]
    exact (Nat.add_modEq_right).symm
  · rw [sum]
    exact Nat.add_modEq_right
  · rw [same]

/-- The words that are alone in their element. -/
theorem otherWord_eq_self_iff {word : UInt64} :
    otherWord word = word ↔ 0xFFFFFFFF ≤ word ∧ word < goldilocksPrime := by
  have half : (0xFFFFFFFF : UInt64).toNat = 0xFFFFFFFF := rfl
  have prime : goldilocksPrime.toNat = 0xFFFFFFFF00000001 := rfl
  rw [← UInt64.toNat_inj, UInt64.le_iff_toNat_le, UInt64.lt_iff_toNat_lt]
  obtain ⟨above, sum⟩ | ⟨below, sum⟩ | ⟨notBelow, notAbove, same⟩ :=
    toNat_otherWord word
  · omega
  · omega
  · rw [same]
    omega

/-- A word that reduces to one without a second word was canonical. -/
theorem fieldReduce_eq_self_of_le
    {word : UInt64}
    (notBelow : 0xFFFFFFFF ≤ fieldReduce word) :
    fieldReduce word = word := by
  have order := UInt64.le_iff_toNat_le.mp notBelow
  have residue := toNat_fieldReduce word
  have bound := word.toNat_lt
  have half : (0xFFFFFFFF : UInt64).toNat = 0xFFFFFFFF := rfl
  have prime : goldilocksPrime.toNat = 0xFFFFFFFF00000001 := rfl
  rw [prime] at residue
  rw [fieldReduce_eq_self_iff, UInt64.lt_iff_toNat_lt]
  omega

/-- Arrays of canonical words that agree as field elements are equal. -/
theorem eq_of_agreeModP
    {first second : Bytes32}
    (agree : AgreeModP 4 first second)
    (firstCanonical : ∀ index, first.limb index < goldilocksPrime)
    (secondCanonical : ∀ index, second.limb index < goldilocksPrime) :
    first = second := by
  apply Bytes32.limb_injective
  funext index
  have reduced :=
    (fieldReduce_eq_iff _ _).mpr (agree index index.isLt)
  rwa [fieldReduce_of_lt (firstCanonical index),
    fieldReduce_of_lt (secondCanonical index)] at reduced

end ScalarCore
