import ScalarCore.Poseidon2T8
import Mathlib.Data.Nat.Basic

namespace ScalarCore.VerifierPy

/-!
# The permutation of the independent verifier

The second implementation of the width-8 permutation, written out over natural
numbers.  It is an instance of `T8Permutation`, so every result about an
arbitrary permutation applies to it.
-/

/-- `GOLDILOCKS_P`. -/
def goldilocksP : Nat :=
  0xFFFFFFFF00000001

def rcExternalInitial : List (Vector Nat 8) :=
  [
    #v[0xdd5743e7f2a5a5d9, 0xcb3a864e58ada44b, 0xffa2449ed32f8cdc,
      0x42025f65d6bd13ee, 0x7889175e25506323, 0x34b98bb03d24b737,
      0xbdcc535ecc4faa2a, 0x5b20ad869fc0d033],
    #v[0xf1dda5b9259dfcb4, 0x27515210be112d59, 0x4227d1718c766c3f,
      0x26d333161a5bd794, 0x49b938957bf4b026, 0x4a56b5938b213669,
      0x1120426b48c8353d, 0x6b323c3f10a56cad],
    #v[0xce57d6245ddca6b2, 0xb1fc8d402bba1eb1, 0xb5c5096ca959bd04,
      0x6db55cd306d31f7f, 0xc49d293a81cb9641, 0x1ce55a4fe979719f,
      0xa92e60a9d178a4d1, 0x002cc64973bcfd8c],
    #v[0xcea721cce82fb11b, 0xe5b55eb8098ece81, 0x4e30525c6f1ddd66,
      0x43c6702827070987, 0xaca68430a7b5762a, 0x3674238634df9c93,
      0x88cee1c825e33433, 0xde99ae8d74b57176]
  ]

def rcExternalFinal : List (Vector Nat 8) :=
  [
    #v[0x014ef1197d341346, 0x9725e20825d07394, 0xfdb25aef2c5bae3b,
      0xbe5402dc598c971e, 0x93a5711f04cdca3d, 0xc45a9a5b2f8fb97b,
      0xfe8946a924933545, 0x2af997a27369091c],
    #v[0xaa62c88e0b294011, 0x058eb9d810ce9f74, 0xb3cb23eced349ae4,
      0xa3648177a77b4a84, 0x43153d905992d95d, 0xf4e2a97cda44aa4b,
      0x5baa2702b908682f, 0x082923bdf4f750d1],
    #v[0x98ae09a325893803, 0xf8a6475077968838, 0xceb0735bf00b2c5f,
      0x0a1a5d953888e072, 0x2fcb190489f94475, 0xb5be06270dec69fc,
      0x739cb934b09acf8b, 0x537750b75ec7f25b],
    #v[0xe9dd318bae1f3961, 0xf7462137299efe1a, 0xb1f6b8eee9adb940,
      0xbdebcc8a809dfe6b, 0x40fc1f791b178113, 0x3ac1c3362d014864,
      0x9a016184bdb8aeba, 0x95f2394459fbc25e]
  ]

def rcInternal : List Nat :=
  [
    0x488897d85ff51f56, 0x1140737ccb162218, 0xa7eeb9215866ed35,
    0x9bd2976fee49fcc9, 0xc0c8f0de580a3fcc, 0x4fb2dae6ee8fc793,
    0x343a89f35f37395b, 0x223b525a77ca72c8, 0x56ccb62574aaa918,
    0xc4d507d8027af9ed, 0xa080673cf0b7e95c, 0xf0184884eb70dcf8,
    0x044f10b0cb3d5c69, 0xe9e3f7993938f186, 0x1b761c80e772f459,
    0x606cec607a1b5fac, 0x14a0c2e1d45f03cd, 0x4eace8855398574f,
    0xf905ca7103eff3e6, 0xf8c8f8d20862c059, 0xb524fe8bdd678e5a,
    0xfbb7865901a1ec41
  ]

def matrixDiag8 : Vector Nat 8 :=
  #v[
    0xfffffffeffffffff, 0x0000000000000001, 0x0000000000000002,
    0x7fffffff80000001, 0x0000000000000003, 0x7fffffff80000000,
    0xfffffffefffffffe, 0xfffffffefffffffd
  ]

/-- Field addition. -/
def fadd (a b : Nat) : Nat :=
  (a + b) % goldilocksP

/-- Field multiplication. -/
def fmul (a b : Nat) : Nat :=
  (a * b) % goldilocksP

/-- The S-box, the seventh power. -/
def sbox (x : Nat) : Nat :=
  x ^ 7 % goldilocksP

/-- Multiplication by the matrix with first row 2, 3, 1, 1. -/
def applyMat4 (x : Vector Nat 4) : Vector Nat 4 :=
  let t01 := fadd x[0] x[1]
  let t23 := fadd x[2] x[3]
  let t0123 := fadd t01 t23
  let t01123 := fadd t0123 x[1]
  let t01233 := fadd t0123 x[3]
  let r3 := fadd t01233 (fadd x[0] x[0])
  let r1 := fadd t01123 (fadd x[2] x[2])
  let r0 := fadd t01123 t01
  let r2 := fadd t01233 t23
  #v[r0, r1, r2, r3]

/-- The external linear layer. -/
def mdsLightPermutation8 (state : Vector Nat 8) : Vector Nat 8 :=
  let c0 := applyMat4 #v[state[0], state[1], state[2], state[3]]
  let c1 := applyMat4 #v[state[4], state[5], state[6], state[7]]
  let chunks := c0 ++ c1
  let sums :=
    Vector.ofFn fun (k : Fin 4) => fadd chunks[k.val] chunks[k.val + 4]
  Vector.ofFn fun (i : Fin 8) =>
    fadd (chunks.get i) (sums.get ⟨i.val % 4, Nat.mod_lt _ (by decide)⟩)

/-- The internal linear layer. -/
def internalLinearLayer8 (state : Vector Nat 8) : Vector Nat 8 :=
  let s := state.foldl fadd 0
  Vector.ofFn fun (i : Fin 8) => fadd s (fmul (matrixDiag8.get i) (state.get i))

/-- One external round: constants, S-box on every element, linear layer. -/
def externalRound (state rc : Vector Nat 8) : Vector Nat 8 :=
  let added := Vector.ofFn fun (i : Fin 8) => fadd (state.get i) (rc.get i)
  mdsLightPermutation8 (added.map sbox)

/-- One internal round: constant and S-box on the first element only. -/
def internalRound (state : Vector Nat 8) (rc : Nat) : Vector Nat 8 :=
  internalLinearLayer8 (state.set 0 (sbox (fadd state[0] rc)))

/-- `poseidon2_permute_t8` of the verifier. -/
def poseidon2PermuteT8 (stateIn : Vector Nat 8) : Vector Nat 8 :=
  let reduced := stateIn.map (· % goldilocksP)
  let initial :=
    rcExternalInitial.foldl externalRound (mdsLightPermutation8 reduced)
  let middle := rcInternal.foldl internalRound initial
  rcExternalFinal.foldl externalRound middle

theorem mdsLightPermutation8_lt
    (state : Vector Nat 8)
    (index : Fin 8) :
    (mdsLightPermutation8 state).get index < goldilocksP := by
  simp only [mdsLightPermutation8, get_vectorOfFn]
  exact Nat.mod_lt _ (by decide)

/-- Every element of a permuted state is canonical. -/
theorem poseidon2PermuteT8_lt
    (stateIn : Vector Nat 8)
    (index : Fin 8) :
    (poseidon2PermuteT8 stateIn).get index < goldilocksP :=
  -- The last step of the last external round is the linear layer.
  mdsLightPermutation8_lt _ index

/-- The verifier's permutation on machine words. -/
def t8Permutation : T8Permutation where
  permute state := (poseidon2PermuteT8 (state.map UInt64.toNat)).map UInt64.ofNat
  canonical state index := by
    have inField :=
      poseidon2PermuteT8_lt (state.map UInt64.toNat) index
    have prime : goldilocksPrime.toNat = goldilocksP := rfl
    have wordBound : goldilocksP < 2 ^ 64 := by
      decide
    simp only [get_vectorMap]
    rw [UInt64.lt_iff_toNat_lt, prime, UInt64.toNat_ofNat',
      Nat.mod_eq_of_lt (inField.trans wordBound)]
    exact inField

end ScalarCore.VerifierPy
