import Mathlib.FieldTheory.Finite.Basic
import ScalarCore.Poseidon2Air
import ScalarCore.Poseidon2Verifier

namespace ScalarCore.VerifierPy

/-!
# The verifier's permutation is a permutation

Every layer of a round can be undone: the constants are added, the seventh
power is a bijection of the field, and the two linear layers are injective.
The layers work on numbers, so injectivity is stated for what the numbers are
in the field.  On finitely many states an injective map is onto.
-/

open Poseidon2Air

section DiagonalPlusSum

variable {F : Type*} [Field F]
variable {Index : Type*} [Fintype Index]

/--
The sum of all elements, added to a multiple of each, determines them: the
matrix is a diagonal plus all ones.
-/
theorem eq_zero_of_sum_add_mul
    {diagonal element : Index → F}
    (inverse : Index → F)
    (inverts : ∀ index, inverse index * diagonal index = 1)
    (regular : 1 + ∑ index, inverse index ≠ 0)
    (vanishes :
      ∀ index, ∑ other, element other + diagonal index * element index = 0)
    (index : Index) :
    element index = 0 := by
  have solved (index : Index) :
      element index = -(inverse index * ∑ other, element other) := by
    linear_combination
      inverse index * vanishes index - element index * inverts index
  have total :
      ∑ other, element other =
        -((∑ other, inverse other) * ∑ other, element other) := by
    conv_lhs =>
      rw [Finset.sum_congr rfl fun other _ => solved other]
    rw [Finset.sum_neg_distrib, Finset.sum_mul]
  have noSum : ∑ other, element other = 0 := by
    have product :
        (1 + ∑ other, inverse other) * ∑ other, element other = 0 := by
      linear_combination total
    exact (mul_eq_zero.mp product).resolve_left regular
  rw [solved, noSum, mul_zero, neg_zero]

end DiagonalPlusSum

/-- Vectors of numbers that are one state of field elements. -/
def SameElements
    {size : Nat}
    (first second : Vector Nat size) : Prop :=
  ∀ index : Fin size,
    ((first.get index : Nat) : Goldilocks) = (second.get index : Nat)

/-- A layer that tells different states apart. -/
def Reflects
    {size : Nat}
    (layer : Vector Nat size → Vector Nat size) : Prop :=
  ∀ first second,
    SameElements (layer first) (layer second) → SameElements first second

theorem get_eq_getElem
    {size : Nat}
    (items : Vector Nat size)
    (index : Fin size) :
    items.get index = items[index.val] :=
  rfl

theorem natCast_mod_prime (value : Nat) :
    ((value % goldilocksP : Nat) : Goldilocks) = value :=
  ZMod.natCast_mod value goldilocksP

@[simp] theorem cast_fadd (a b : Nat) :
    ((fadd a b : Nat) : Goldilocks) = a + b := by
  rw [fadd, natCast_mod_prime, Nat.cast_add]

@[simp] theorem cast_fmul (a b : Nat) :
    ((fmul a b : Nat) : Goldilocks) = a * b := by
  rw [fmul, natCast_mod_prime, Nat.cast_mul]

@[simp] theorem cast_sbox (x : Nat) :
    ((sbox x : Nat) : Goldilocks) = x ^ 7 := by
  rw [sbox, natCast_mod_prime, Nat.cast_pow]

/-- The seventh power is undone by the power that inverts 7 modulo `p - 1`. -/
theorem seventhPower_injective :
    Function.Injective fun element : Goldilocks => element ^ 7 := by
  intro first second same
  have undone (element : Goldilocks) :
      (element ^ 7) ^ 10540996611094048183 = element := by
    by_cases zero : element = 0
    · subst zero
      rw [zero_pow (by norm_num), zero_pow (by norm_num)]
    · have order : element ^ (0xFFFFFFFF00000001 - 1) = 1 :=
        ZMod.pow_card_sub_one_eq_one zero
      calc (element ^ 7) ^ 10540996611094048183
          = (element ^ (0xFFFFFFFF00000001 - 1)) ^ 4 * element := by
            rw [← pow_mul, ← pow_mul, ← pow_succ]
        _ = element := by
            rw [order, one_pow, one_mul]
  calc first
      = (first ^ 7) ^ 10540996611094048183 := (undone first).symm
    _ = (second ^ 7) ^ 10540996611094048183 := by
        rw [show first ^ 7 = second ^ 7 from same]
    _ = second := undone second

theorem cast_sbox_inj {x y : Nat} :
    ((sbox x : Nat) : Goldilocks) = (sbox y : Nat) ↔ (x : Goldilocks) = y := by
  rw [cast_sbox, cast_sbox]
  exact seventhPower_injective.eq_iff

/-- The small matrix is circulant. -/
theorem cast_applyMat4 (x : Vector Nat 4) (index : Fin 4) :
    (((applyMat4 x).get index : Nat) : Goldilocks) =
      2 * (x.get index : Nat) + 3 * (x.get (index + 1) : Nat) +
        (x.get (index + 2) : Nat) + (x.get (index + 3) : Nat) := by
  fin_cases index <;> simp [applyMat4, get_eq_getElem] <;> ring

/-- The small matrix has an inverse up to the factor 35. -/
theorem reflects_applyMat4 : Reflects applyMat4 := by
  intro first second same index
  have regular : (35 : Goldilocks) ≠ 0 := by
    decide
  have row0 := same index
  have row1 := same (index + 1)
  have row2 := same (index + 2)
  have row3 := same (index + 3)
  simp only [cast_applyMat4, add_assoc, Fin.reduceAdd, add_zero]
    at row0 row1 row2 row3
  apply mul_left_cancel₀ regular
  linear_combination -4 * row0 + 3 * row1 - 11 * row2 + 17 * row3

/-- The first, and the second, half of a state times the small matrix. -/
def matrixHalves (state : Vector Nat 8) : Vector Nat 4 × Vector Nat 4 :=
  (applyMat4 (Vector.ofFn fun index => state.get (index.castAdd 4)),
    applyMat4 (Vector.ofFn fun index => state.get (index.addNat 4)))

theorem get_append_low
    (low high : Vector Nat 4)
    (index : Fin 4) :
    (low ++ high).get (index.castAdd 4) = low.get index :=
  Vector.getElem_append_left index.isLt

theorem get_append_high
    (low high : Vector Nat 4)
    (index : Fin 4) :
    (low ++ high).get (index.addNat 4) = high.get index := by
  have past : 4 ≤ index.val + 4 :=
    Nat.le_add_left 4 index.val
  have inside : index.val + 4 < 4 + 4 := by
    omega
  calc (low ++ high).get (index.addNat 4)
      = (low ++ high)[index.val + 4] := rfl
    _ = high.get index := by
        rw [Vector.getElem_append_right inside past]
        simp only [Nat.add_sub_cancel]
        rfl

/-- The external layer over the halves of a state. -/
theorem mdsLightPermutation8_eq (state : Vector Nat 8) :
    mdsLightPermutation8 state =
      Vector.ofFn fun (index : Fin 8) =>
        fadd (((matrixHalves state).1 ++ (matrixHalves state).2).get index)
          (fadd ((matrixHalves state).1.get (Fin.ofNat 4 index))
            ((matrixHalves state).2.get (Fin.ofNat 4 index))) := by
  have low :
      #v[state[0], state[1], state[2], state[3]] =
        Vector.ofFn fun (index : Fin 4) => state.get (index.castAdd 4) := by
    rfl
  have high :
      #v[state[4], state[5], state[6], state[7]] =
        Vector.ofFn fun (index : Fin 4) => state.get (index.addNat 4) := by
    rfl
  unfold mdsLightPermutation8
  rw [low, high]
  dsimp only [matrixHalves]
  congr 1
  funext index
  rw [get_vectorOfFn]
  exact congrArg₂ fadd rfl
    (congrArg₂ fadd (get_append_low _ _ _) (get_append_high _ _ _))

/-- The external layer adds the column sums to each element. -/
theorem get_mdsLight_low (state : Vector Nat 8) (index : Fin 4) :
    (mdsLightPermutation8 state).get (index.castAdd 4) =
      fadd ((matrixHalves state).1.get index)
        (fadd ((matrixHalves state).1.get index)
          ((matrixHalves state).2.get index)) := by
  have column : Fin.ofNat 4 (index.castAdd 4).val = index :=
    Fin.ext (Nat.mod_eq_of_lt index.isLt)
  rw [mdsLightPermutation8_eq, get_vectorOfFn, column]
  exact congrArg₂ fadd (get_append_low _ _ _) rfl

theorem get_mdsLight_high (state : Vector Nat 8) (index : Fin 4) :
    (mdsLightPermutation8 state).get (index.addNat 4) =
      fadd ((matrixHalves state).2.get index)
        (fadd ((matrixHalves state).1.get index)
          ((matrixHalves state).2.get index)) := by
  have column : Fin.ofNat 4 (index.addNat 4).val = index := by
    apply Fin.ext
    show (index.val + 4) % 4 = index.val
    rw [Nat.add_mod_right, Nat.mod_eq_of_lt index.isLt]
  rw [mdsLightPermutation8_eq, get_vectorOfFn, column]
  exact congrArg₂ fadd (get_append_high _ _ _) rfl

/-- Twice one half plus the other, both ways round, determines the halves. -/
theorem reflects_mdsLightPermutation8 : Reflects mdsLightPermutation8 := by
  intro first second same
  have regular : (3 : Goldilocks) ≠ 0 := by
    decide
  have rows (index : Fin 4) :=
    And.intro (same (index.castAdd 4)) (same (index.addNat 4))
  simp only [get_mdsLight_low, get_mdsLight_high, cast_fadd] at rows
  have lowSame :
      SameElements (matrixHalves first).1 (matrixHalves second).1 := by
    intro index
    obtain ⟨low, high⟩ := rows index
    apply mul_left_cancel₀ regular
    linear_combination 2 * low - high
  have highSame :
      SameElements (matrixHalves first).2 (matrixHalves second).2 := by
    intro index
    obtain ⟨low, high⟩ := rows index
    apply mul_left_cancel₀ regular
    linear_combination 2 * high - low
  have lowElements := reflects_applyMat4 _ _ lowSame
  have highElements := reflects_applyMat4 _ _ highSame
  simp only [SameElements, get_vectorOfFn] at lowElements highElements
  have inHalf :
      ∀ index : Fin 8,
        (∃ low : Fin 4, low.castAdd 4 = index) ∨
          ∃ high : Fin 4, high.addNat 4 = index := by
    decide
  intro index
  rcases inHalf index with ⟨low, rfl⟩ | ⟨high, rfl⟩
  · exact lowElements low
  · exact highElements high

/-- Field additions in a row are a sum. -/
theorem cast_foldl_fadd (items : List Nat) (start : Nat) :
    ((items.foldl fadd start : Nat) : Goldilocks) =
      ((start + items.sum : Nat) : Goldilocks) := by
  induction items generalizing start with
  | nil =>
      simp
  | cons item rest inductionHypothesis =>
      rw [List.foldl_cons, inductionHypothesis, List.sum_cons, Nat.cast_add,
        cast_fadd, Nat.cast_add, Nat.cast_add, add_assoc]

theorem cast_stateSum (state : Vector Nat 8) :
    ((state.foldl fadd 0 : Nat) : Goldilocks) =
      ∑ index, ((state.get index : Nat) : Goldilocks) := by
  have entries : state.toList = List.ofFn state.get := by
    rw [← Vector.toList_ofFn]
    congr 1
    apply Vector.ext
    intro index inside
    rw [Vector.getElem_ofFn, get_eq_getElem]
  rw [← Vector.foldl_toList, cast_foldl_fadd, entries, List.sum_ofFn, zero_add,
    Nat.cast_sum]

/-- Inverses of the diagonal of the internal layer. -/
def diagonalInverse : Vector Nat 8 :=
  #v[
    0x7fffffff80000000, 0x0000000000000001, 0x7fffffff80000001,
    0x0000000000000002, 0xaaaaaaaa00000001, 0xfffffffeffffffff,
    0x5555555500000000, 0x3fffffffc0000000
  ]

theorem reflects_internalLinearLayer8 : Reflects internalLinearLayer8 := by
  intro first second same
  have rows (index : Fin 8) :
      ∑ other, (((first.get other : Nat) : Goldilocks) - (second.get other : Nat)) +
        (matrixDiag8.get index : Nat) *
          (((first.get index : Nat) : Goldilocks) - (second.get index : Nat)) =
        0 := by
    have row := same index
    simp only [internalLinearLayer8, get_vectorOfFn, cast_fadd, cast_fmul,
      cast_stateSum] at row
    rw [Finset.sum_sub_distrib]
    linear_combination row
  intro index
  apply sub_eq_zero.mp
  apply eq_zero_of_sum_add_mul
    (fun position => ((diagonalInverse.get position : Nat) : Goldilocks)) _ _
    rows
  · decide
  · decide

theorem reflects_externalRound (rc : Vector Nat 8) :
    Reflects (externalRound · rc) := by
  intro first second same index
  have powers := reflects_mdsLightPermutation8 _ _ same index
  simp only [get_vectorMap, get_vectorOfFn, cast_sbox_inj, cast_fadd] at powers
  exact add_right_cancel powers

/-- The first element after the S-box, the others as they were. -/
theorem get_set_zero
    (state : Vector Nat 8)
    (value : Nat)
    (inside : 0 < 8)
    (index : Fin 8) :
    (state.set 0 value inside).get index =
      if index = 0 then value else state.get index := by
  by_cases isFirst : index = 0
  · subst isFirst
    simp [get_eq_getElem]
  · have apart : (0 : Nat) ≠ index.val :=
      fun same => isFirst (Fin.ext same.symm)
    rw [if_neg isFirst, get_eq_getElem, get_eq_getElem,
      Vector.getElem_set_ne _ _ apart]

theorem reflects_internalRound (rc : Nat) :
    Reflects (internalRound · rc) := by
  intro first second same index
  have entries := reflects_internalLinearLayer8 _ _ same
  by_cases isFirst : index = 0
  · subst isFirst
    have powers := entries 0
    simp only [get_set_zero, if_true, cast_sbox_inj, cast_fadd] at powers
    exact add_right_cancel powers
  · have kept := entries index
    simpa only [get_set_zero, if_neg isFirst] using kept

/-- Rounds in a row tell different states apart. -/
theorem reflects_foldl
    {Constants : Type}
    {round : Vector Nat 8 → Constants → Vector Nat 8}
    (reflects : ∀ constants, Reflects (round · constants))
    (schedule : List Constants) :
    Reflects (schedule.foldl round ·) := by
  induction schedule with
  | nil =>
      intro first second same
      exact same
  | cons constants rest inductionHypothesis =>
      intro first second same
      exact reflects constants _ _ (inductionHypothesis _ _ same)

theorem reflects_poseidon2PermuteT8 : Reflects poseidon2PermuteT8 := by
  intro first second same index
  unfold poseidon2PermuteT8 at same
  have middle :=
    reflects_foldl reflects_externalRound rcExternalFinal _ _ same
  have initial :=
    reflects_foldl reflects_internalRound rcInternal _ _ middle
  have mixed :=
    reflects_foldl reflects_externalRound rcExternalInitial _ _ initial
  have reduced := reflects_mdsLightPermutation8 _ _ mixed index
  simpa only [get_vectorMap, natCast_mod_prime] using reduced

/-- A canonical number keeps its element as a machine word. -/
theorem new_ofNat
    {value : Nat}
    (canonical : value < goldilocksP) :
    Goldilocks.new (UInt64.ofNat value) = value := by
  have wordBound : goldilocksP < 2 ^ 64 := by
    decide
  rw [Goldilocks.new, UInt64.toNat_ofNat',
    Nat.mod_eq_of_lt (canonical.trans wordBound)]

/-- The words of a state, as numbers. -/
def stateNumbers (state : FieldState) : Vector Nat 8 :=
  (Vector.ofFn fun position =>
    Goldilocks.asCanonicalU64 (state position)).map UInt64.toNat

@[simp] theorem cast_stateNumbers
    (state : FieldState)
    (index : Fin 8) :
    (((stateNumbers state).get index : Nat) : Goldilocks) = state index := by
  rw [stateNumbers, get_vectorMap, get_vectorOfFn,
    Goldilocks.toNat_asCanonicalU64, ZMod.natCast_zmod_val]

theorem permute_t8Permutation
    (state : FieldState)
    (index : Fin 8) :
    permute t8Permutation state index =
      ((poseidon2PermuteT8 (stateNumbers state)).get index : Nat) := by
  calc permute t8Permutation state index
      = Goldilocks.new
          (((poseidon2PermuteT8 (stateNumbers state)).map UInt64.ofNat).get
            index) := rfl
    _ = ((poseidon2PermuteT8 (stateNumbers state)).get index : Nat) := by
        rw [get_vectorMap, new_ofNat (poseidon2PermuteT8_lt _ index)]

/-- The verifier's permutation of field elements is injective. -/
theorem permute_injective :
    Function.Injective (permute t8Permutation) := by
  intro first second same
  have numbers : SameElements (stateNumbers first) (stateNumbers second) := by
    apply reflects_poseidon2PermuteT8
    intro index
    rw [← permute_t8Permutation, ← permute_t8Permutation, same]
  funext index
  rw [← cast_stateNumbers first, numbers index, cast_stateNumbers]

/-- Every state is reached by the verifier's permutation. -/
theorem permute_surjective :
    Function.Surjective (permute t8Permutation) :=
  Finite.surjective_of_injective permute_injective

end ScalarCore.VerifierPy
