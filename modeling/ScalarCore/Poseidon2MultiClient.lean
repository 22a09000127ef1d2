import Mathlib.LinearAlgebra.Matrix.Notation
import Mathlib.LinearAlgebra.Matrix.ToLin
import Mathlib.Tactic.FinCases
import ScalarCore.Poseidon2Bijective

namespace ScalarCore

/-!
# The two width-8 permutations in Python

The multi-client verifier has its own copy of the permutation.  It does not reduce
its input, multiplies by the diagonal before it adds the sum, and takes the seventh
power in four products.  Each linear layer is a regular matrix over the field, so
the permutation of the verifier is a bijection of the canonical states, and the
copy agrees with it on every state of natural numbers.
-/

namespace MultiClient

open VerifierPy (goldilocksP)

/-- `gl_add`. -/
def glAdd (a b : Nat) : Nat :=
  (a + b) % goldilocksP

/-- `gl_mul`. -/
def glMul (a b : Nat) : Nat :=
  (a * b) % goldilocksP

/-- `gl_pow7`. -/
def glPow7 (a : Nat) : Nat :=
  let a2 := glMul a a
  let a4 := glMul a2 a2
  glMul (glMul a4 a2) a

/-- `_apply_mat4`. -/
def applyMat4 (s : Vector Nat 4) : Vector Nat 4 :=
  let t01 := glAdd (s.get 0) (s.get 1)
  let t23 := glAdd (s.get 2) (s.get 3)
  let t0123 := glAdd t01 t23
  let t01123 := glAdd t0123 (s.get 1)
  let t01233 := glAdd t0123 (s.get 3)
  let r3 := glAdd t01233 (glAdd (s.get 0) (s.get 0))
  let r1 := glAdd t01123 (glAdd (s.get 2) (s.get 2))
  let r0 := glAdd t01123 t01
  let r2 := glAdd t01233 t23
  Vector.ofFn ![r0, r1, r2, r3]

/-- `_external_mds_8`. -/
def externalMds8 (state : Vector Nat 8) : Vector Nat 8 :=
  let left := applyMat4 (Vector.ofFn fun k => state.get (k.castAdd 4))
  let right := applyMat4 (Vector.ofFn fun k => state.get (k.addNat 4))
  let s := left ++ right
  let sums := Vector.ofFn fun (k : Fin 4) => glAdd (s.get (k.castAdd 4)) (s.get (k.addNat 4))
  Vector.ofFn fun (i : Fin 8) => glAdd (s.get i) (sums.get (Fin.ofNat 4 i.val))

/-- `_DIAG_8`. -/
def diag8 : Vector Nat 8 :=
  Vector.ofFn ![
    0xFFFFFFFEFFFFFFFF, 0x0000000000000001, 0x0000000000000002,
    0x7FFFFFFF80000001, 0x0000000000000003, 0x7FFFFFFF80000000,
    0xFFFFFFFEFFFFFFFE, 0xFFFFFFFEFFFFFFFD
  ]

/-- `_internal_mds_8`. -/
def internalMds8 (state : Vector Nat 8) : Vector Nat 8 :=
  let total := state.foldl glAdd 0
  Vector.ofFn fun (i : Fin 8) => glAdd (glMul (state.get i) (diag8.get i)) total

/-- `RC_EXT_INIT`. -/
def rcExtInit : List (Vector Nat 8) :=
  [
    Vector.ofFn ![0xdd5743e7f2a5a5d9, 0xcb3a864e58ada44b, 0xffa2449ed32f8cdc,
      0x42025f65d6bd13ee, 0x7889175e25506323, 0x34b98bb03d24b737,
      0xbdcc535ecc4faa2a, 0x5b20ad869fc0d033],
    Vector.ofFn ![0xf1dda5b9259dfcb4, 0x27515210be112d59, 0x4227d1718c766c3f,
      0x26d333161a5bd794, 0x49b938957bf4b026, 0x4a56b5938b213669,
      0x1120426b48c8353d, 0x6b323c3f10a56cad],
    Vector.ofFn ![0xce57d6245ddca6b2, 0xb1fc8d402bba1eb1, 0xb5c5096ca959bd04,
      0x6db55cd306d31f7f, 0xc49d293a81cb9641, 0x1ce55a4fe979719f,
      0xa92e60a9d178a4d1, 0x002cc64973bcfd8c],
    Vector.ofFn ![0xcea721cce82fb11b, 0xe5b55eb8098ece81, 0x4e30525c6f1ddd66,
      0x43c6702827070987, 0xaca68430a7b5762a, 0x3674238634df9c93,
      0x88cee1c825e33433, 0xde99ae8d74b57176]
  ]

/-- `RC_EXT_FINAL`. -/
def rcExtFinal : List (Vector Nat 8) :=
  [
    Vector.ofFn ![0x014ef1197d341346, 0x9725e20825d07394, 0xfdb25aef2c5bae3b,
      0xbe5402dc598c971e, 0x93a5711f04cdca3d, 0xc45a9a5b2f8fb97b,
      0xfe8946a924933545, 0x2af997a27369091c],
    Vector.ofFn ![0xaa62c88e0b294011, 0x058eb9d810ce9f74, 0xb3cb23eced349ae4,
      0xa3648177a77b4a84, 0x43153d905992d95d, 0xf4e2a97cda44aa4b,
      0x5baa2702b908682f, 0x082923bdf4f750d1],
    Vector.ofFn ![0x98ae09a325893803, 0xf8a6475077968838, 0xceb0735bf00b2c5f,
      0x0a1a5d953888e072, 0x2fcb190489f94475, 0xb5be06270dec69fc,
      0x739cb934b09acf8b, 0x537750b75ec7f25b],
    Vector.ofFn ![0xe9dd318bae1f3961, 0xf7462137299efe1a, 0xb1f6b8eee9adb940,
      0xbdebcc8a809dfe6b, 0x40fc1f791b178113, 0x3ac1c3362d014864,
      0x9a016184bdb8aeba, 0x95f2394459fbc25e]
  ]

/-- `RC_INT`. -/
def rcInt : List Nat :=
  [
    0x488897d85ff51f56, 0x1140737ccb162218, 0xa7eeb9215866ed35,
    0x9bd2976fee49fcc9, 0xc0c8f0de580a3fcc, 0x4fb2dae6ee8fc793,
    0x343a89f35f37395b, 0x223b525a77ca72c8, 0x56ccb62574aaa918,
    0xc4d507d8027af9ed, 0xa080673cf0b7e95c, 0xf0184884eb70dcf8,
    0x044f10b0cb3d5c69, 0xe9e3f7993938f186, 0x1b761c80e772f459,
    0x606cec607a1b5fac, 0x14a0c2e1d45f03cd, 0x4eace8855398574f,
    0xf905ca7103eff3e6, 0xf8c8f8d20862c059, 0xb524fe8bdd678e5a,
    0xfbb7865901a1ec41
  ]

/-- A full round: `AddRC`, `SBox` on all, external layer. -/
def fullRound (s rc : Vector Nat 8) : Vector Nat 8 :=
  let added := Vector.ofFn fun (i : Fin 8) => glAdd (s.get i) (rc.get i)
  externalMds8 (added.map glPow7)

theorem width8_pos : 0 < 8 :=
  Nat.succ_pos 7

/-- A partial round: `AddRC` and `SBox` on the first element, internal layer. -/
def partialRound (s : Vector Nat 8) (rc : Nat) : Vector Nat 8 :=
  let added := s.set 0 (glAdd (s.get 0) rc) width8_pos
  internalMds8 (added.set 0 (glPow7 (added.get 0)) width8_pos)

/-- `poseidon2_permute` of the multi-client verifier. -/
def poseidon2Permute (state : Vector Nat 8) : Vector Nat 8 :=
  let initial := rcExtInit.foldl fullRound (externalMds8 state)
  let middle := rcInt.foldl partialRound initial
  rcExtFinal.foldl fullRound middle

end MultiClient

namespace VerifierPy

open Poseidon2Air

/-!
## The layers as matrices
-/

/-- The field elements of a vector of numbers. -/
def numberElements
    {size : Nat}
    (items : Vector Nat size) :
    Fin size → Goldilocks :=
  fun index => (items.get index : Nat)

/-- The numbers of a vector of field elements. -/
def elementNumbers
    {size : Nat}
    (elements : Fin size → Goldilocks) :
    Vector Nat size :=
  Vector.ofFn fun index => (elements index).val

@[simp] theorem numberElements_elementNumbers
    {size : Nat}
    (elements : Fin size → Goldilocks) :
    numberElements (elementNumbers elements) = elements := by
  funext index
  rw [numberElements, elementNumbers, get_vectorOfFn, ZMod.natCast_zmod_val]

theorem mod_eq_mod_of_cast_eq {a b : Nat} (same : (a : Goldilocks) = b) :
    a % goldilocksP = b % goldilocksP :=
  (ZMod.natCast_eq_natCast_iff' a b goldilocksP).mp same

/-- Canonical numbers are told apart by their elements. -/
theorem eq_of_numberElements
    {size : Nat}
    {first second : Vector Nat size}
    (canonical : ∀ index, first.get index < goldilocksP)
    (canonical' : ∀ index, second.get index < goldilocksP)
    (same : numberElements first = numberElements second) :
    first = second := by
  apply Vector.ext
  intro index inside
  have congruent := mod_eq_mod_of_cast_eq (congrFun same ⟨index, inside⟩)
  rwa [Nat.mod_eq_of_lt (canonical _), Nat.mod_eq_of_lt (canonical' _)] at congruent

/-- A layer that is an invertible linear map of the field elements. -/
def InvertibleLayer (layer : Vector Nat 8 → Vector Nat 8) : Prop :=
  ∃ linear : (Fin 8 → Goldilocks) ≃ₗ[Goldilocks] (Fin 8 → Goldilocks),
    ∀ state, numberElements (layer state) = linear (numberElements state)

/-- A matrix that tells states apart is invertible. -/
theorem invertibleLayer_of_mulVec
    {layer : Vector Nat 8 → Vector Nat 8}
    (matrix : Matrix (Fin 8) (Fin 8) Goldilocks)
    (multiplies :
      ∀ state, numberElements (layer state) = matrix.mulVec (numberElements state))
    (reflects : Reflects layer) :
    InvertibleLayer layer := by
  have injective : Function.Injective matrix.mulVecLin := by
    intro first second same
    have reflected :
        SameElements (elementNumbers first) (elementNumbers second) := by
      apply reflects
      intro index
      have images :
          numberElements (layer (elementNumbers first)) =
            numberElements (layer (elementNumbers second)) := by
        rw [multiplies, multiplies, numberElements_elementNumbers,
          numberElements_elementNumbers]
        exact same
      exact congrFun images index
    have elements :
        numberElements (elementNumbers first) = numberElements (elementNumbers second) :=
      funext reflected
    rwa [numberElements_elementNumbers, numberElements_elementNumbers] at elements
  refine ⟨LinearEquiv.ofInjectiveEndo matrix.mulVecLin injective, ?_⟩
  intro state
  rw [multiplies]
  rfl

/-- The matrix of the comment on `apply_mat4`. -/
def mat4 : Matrix (Fin 4) (Fin 4) Nat :=
  !![2, 3, 1, 1; 1, 2, 3, 1; 1, 1, 2, 3; 3, 1, 1, 2]

theorem cast_mat4_mulVec (x : Fin 4 → Nat) (index : Fin 4) :
    ((mat4.mulVec x index : Nat) : Goldilocks) =
      ∑ column, (mat4 index column : Goldilocks) * (x column : Nat) := by
  rw [Matrix.mulVec, dotProduct, Nat.cast_sum]
  apply Finset.sum_congr rfl
  intro column _
  rw [Nat.cast_mul]

theorem cast_applyMat4_eq_sum (x : Vector Nat 4) (index : Fin 4) :
    (((applyMat4 x).get index : Nat) : Goldilocks) =
      ∑ column, (mat4 index column : Goldilocks) * (x.get column : Nat) := by
  rw [cast_applyMat4, Fin.sum_univ_four]
  fin_cases index <;> simp [mat4] <;> ring

theorem applyMat4_lt (x : Vector Nat 4) (index : Fin 4) :
    (applyMat4 x).get index < goldilocksP := by
  have bound (a b : Nat) : fadd a b < goldilocksP :=
    Nat.mod_lt _ (by decide)
  fin_cases index <;> exact bound _ _

/-- The unrolled sums are the matrix product. -/
theorem get_applyMat4 (x : Vector Nat 4) (index : Fin 4) :
    (applyMat4 x).get index = mat4.mulVec x.get index % goldilocksP := by
  have congruent :
      (((applyMat4 x).get index : Nat) : Goldilocks) = (mat4.mulVec x.get index : Nat) := by
    rw [cast_applyMat4_eq_sum, cast_mat4_mulVec]
  have reduced := mod_eq_mod_of_cast_eq congruent
  rwa [Nat.mod_eq_of_lt (applyMat4_lt x index)] at reduced

/-- The external layer: the small matrix on the halves, doubled on the diagonal. -/
def mdsMatrix : Matrix (Fin 8) (Fin 8) Goldilocks :=
  Matrix.of fun row column =>
    ((if row.val / 4 = column.val / 4 then 2 else 1) *
      mat4 (Fin.ofNat 4 row.val) (Fin.ofNat 4 column.val) : Nat)

theorem mdsMatrix_halves (row column : Fin 4) :
    mdsMatrix (row.castAdd 4) (column.castAdd 4) = 2 * (mat4 row column : Goldilocks) ∧
      mdsMatrix (row.castAdd 4) (column.addNat 4) = (mat4 row column : Goldilocks) ∧
      mdsMatrix (row.addNat 4) (column.castAdd 4) = (mat4 row column : Goldilocks) ∧
      mdsMatrix (row.addNat 4) (column.addNat 4) = 2 * (mat4 row column : Goldilocks) := by
  fin_cases row <;> fin_cases column <;> decide

/-- A sum over the state is a sum over each of its halves. -/
theorem sum_halves (summand : Fin 8 → Goldilocks) :
    ∑ index, summand index =
      ∑ index : Fin 4, summand (index.castAdd 4) + ∑ index : Fin 4, summand (index.addNat 4) := by
  rw [Fin.sum_univ_eight, Fin.sum_univ_four, Fin.sum_univ_four]
  simp only [← add_assoc]
  rfl

theorem numberElements_mdsLightPermutation8 (state : Vector Nat 8) :
    numberElements (mdsLightPermutation8 state) =
      mdsMatrix.mulVec (numberElements state) := by
  have inHalf :
      ∀ index : Fin 8,
        (∃ low : Fin 4, low.castAdd 4 = index) ∨ ∃ high : Fin 4, high.addNat 4 = index := by
    decide
  funext index
  rw [Matrix.mulVec, dotProduct, sum_halves]
  rcases inHalf index with ⟨low, rfl⟩ | ⟨high, rfl⟩
  · rw [numberElements, get_mdsLight_low]
    simp only [mdsMatrix_halves, cast_fadd, matrixHalves, cast_applyMat4_eq_sum, get_vectorOfFn,
      numberElements, mul_assoc, ← Finset.mul_sum]
    ring
  · rw [numberElements, get_mdsLight_high]
    simp only [mdsMatrix_halves, cast_fadd, matrixHalves, cast_applyMat4_eq_sum, get_vectorOfFn,
      numberElements, mul_assoc, ← Finset.mul_sum]
    ring

/-- The internal layer: all ones, plus the diagonal. -/
def internalMatrix : Matrix (Fin 8) (Fin 8) Goldilocks :=
  Matrix.of fun row column =>
    1 + if row = column then ((matrixDiag8.get row : Nat) : Goldilocks) else 0

theorem numberElements_internalLinearLayer8 (state : Vector Nat 8) :
    numberElements (internalLinearLayer8 state) =
      internalMatrix.mulVec (numberElements state) := by
  funext index
  simp only [numberElements, internalLinearLayer8, get_vectorOfFn, cast_fadd, cast_fmul,
    cast_stateSum, internalMatrix, Matrix.mulVec, dotProduct, Matrix.of_apply, add_mul, one_mul,
    ite_mul, zero_mul, Finset.sum_add_distrib, Finset.sum_ite_eq, Finset.mem_univ, if_true]

theorem invertibleLayer_mdsLightPermutation8 : InvertibleLayer mdsLightPermutation8 :=
  invertibleLayer_of_mulVec mdsMatrix numberElements_mdsLightPermutation8
    reflects_mdsLightPermutation8

theorem invertibleLayer_internalLinearLayer8 : InvertibleLayer internalLinearLayer8 :=
  invertibleLayer_of_mulVec internalMatrix numberElements_internalLinearLayer8
    reflects_internalLinearLayer8

/-!
## The permutation
-/

theorem poseidon2PermuteT8_bijOn :
    Set.BijOn poseidon2PermuteT8 {state | ∀ index, state.get index < goldilocksP}
      {state | ∀ index, state.get index < goldilocksP} := by
  refine ⟨fun state _ => poseidon2PermuteT8_lt state, ?_, ?_⟩
  · intro first canonical second canonical' same
    have reflected : SameElements first second :=
      reflects_poseidon2PermuteT8 first second fun index => by rw [same]
    exact eq_of_numberElements canonical canonical' (funext reflected)
  · intro target canonical
    obtain ⟨source, reached⟩ := permute_surjective (numberElements target)
    have sourceLt (index : Fin 8) : (stateNumbers source).get index < goldilocksP := by
      rw [stateNumbers, get_vectorMap, get_vectorOfFn, Goldilocks.toNat_asCanonicalU64]
      exact ZMod.val_lt _
    refine ⟨stateNumbers source, sourceLt, ?_⟩
    apply eq_of_numberElements (poseidon2PermuteT8_lt _) canonical
    funext index
    rw [← congrFun reached index, permute_t8Permutation]
    rfl

end VerifierPy

namespace MultiClient

open Poseidon2Air VerifierPy

/-!
## The copy of the multi-client verifier
-/

theorem glAdd_eq_fadd : glAdd = fadd :=
  rfl

theorem glPow7_eq_sbox : glPow7 = sbox := by
  funext a
  have same : ((glPow7 a : Nat) : Goldilocks) = (sbox a : Nat) := by
    rw [cast_sbox]
    simp only [glPow7, glMul, natCast_mod_prime, Nat.cast_mul]
    ring
  have reduced := mod_eq_mod_of_cast_eq same
  rwa [glPow7, glMul, sbox, Nat.mod_mod, Nat.mod_mod] at reduced

theorem externalMds8_eq : externalMds8 = mdsLightPermutation8 :=
  rfl

theorem internalMds8_eq : internalMds8 = internalLinearLayer8 := by
  funext state
  apply Vector.ext
  intro index inside
  rw [internalMds8, internalLinearLayer8]
  simp only [Vector.getElem_ofFn]
  rw [glAdd, fadd, glMul, fmul, Nat.add_comm, Nat.mul_comm]
  rfl

theorem fullRound_eq : fullRound = externalRound := by
  funext s rc
  rw [fullRound, externalRound, glPow7_eq_sbox, externalMds8_eq, glAdd_eq_fadd]

theorem partialRound_eq : partialRound = internalRound := by
  funext s rc
  have first : (s.set 0 (fadd (s.get 0) rc) width8_pos).get 0 = fadd (s.get 0) rc :=
    Vector.getElem_set_self width8_pos
  rw [partialRound, internalRound, internalMds8_eq, glPow7_eq_sbox, glAdd_eq_fadd, first,
    Vector.set_set]
  rfl

/-- The first layer reduces what it is given. -/
theorem mdsLightPermutation8_mod (state : Vector Nat 8) :
    mdsLightPermutation8 (state.map (· % goldilocksP)) = mdsLightPermutation8 state := by
  have elements :
      numberElements (state.map (· % goldilocksP)) = numberElements state := by
    funext index
    rw [numberElements, get_vectorMap, natCast_mod_prime]
    rfl
  apply eq_of_numberElements (mdsLightPermutation8_lt _) (mdsLightPermutation8_lt _)
  rw [numberElements_mdsLightPermutation8, numberElements_mdsLightPermutation8, elements]

theorem poseidon2Permute_eq (state : Vector Nat 8) :
    poseidon2Permute state = VerifierPy.poseidon2PermuteT8 state := by
  have constants :
      rcExtInit = rcExternalInitial ∧ rcInt = rcInternal ∧ rcExtFinal = rcExternalFinal :=
    ⟨rfl, rfl, rfl⟩
  obtain ⟨initial, internal, final⟩ := constants
  rw [poseidon2Permute, VerifierPy.poseidon2PermuteT8, initial, internal, final, fullRound_eq,
    partialRound_eq, externalMds8_eq, mdsLightPermutation8_mod]

/--
The permutation of the verifier is a bijection of the canonical states, with
invertible layers and the small matrix of the comment, and the multi-client verifier
answers the same for every state.
-/
theorem poseidon2_permutations :
    Set.BijOn VerifierPy.poseidon2PermuteT8 {state | ∀ index, state.get index < goldilocksP}
        {state | ∀ index, state.get index < goldilocksP} ∧
      InvertibleLayer mdsLightPermutation8 ∧
      InvertibleLayer internalLinearLayer8 ∧
      (∀ (x : Vector Nat 4) (index : Fin 4),
        (VerifierPy.applyMat4 x).get index = mat4.mulVec x.get index % goldilocksP) ∧
      ∀ state : Vector Nat 8, poseidon2Permute state = VerifierPy.poseidon2PermuteT8 state :=
  ⟨poseidon2PermuteT8_bijOn, invertibleLayer_mdsLightPermutation8,
    invertibleLayer_internalLinearLayer8, get_applyMat4, poseidon2Permute_eq⟩

end MultiClient

end ScalarCore
