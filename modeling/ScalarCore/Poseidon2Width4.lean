import Mathlib.Tactic.FinCases
import Mathlib.Tactic.LinearCombination
import ScalarCore.FieldArithmetic
import ScalarCore.Poseidon2Bijective
import ScalarCore.Poseidon2Pair

namespace ScalarCore

/-!
# The width-4 Poseidon2 permutation

Four full rounds, 22 partial rounds and four full rounds over machine words, after
one linear layer.  In the field each layer can be undone, so the permutation is a
bijection of the canonical states.  The round constants are a parameter: what is
needed of them is that those which only enter a sum are canonical.
-/

/-- A state, `[u64; 4]`. -/
abbrev State4 :=
  Vector UInt64 4

/-- `ROUND_CONSTANTS`. -/
def roundConstants : Vector State4 30 :=
  #v[
    #v[0x3aaed6e034fef709, 0x2da65cf597408562, 0xa7aace2d982bcb6a,
      0xbc121600d772d547],
    #v[0x1b114ef06f74865a, 0x58ab3321665a38c2, 0xec6e45fef040c842,
      0x9dc72efe8eb36d95],
    #v[0x69309d63ad1865c9, 0x71a7ff71644d8e7e, 0x05a8d7027238a428,
      0xe2f309a35adf55a3],
    #v[0xaab6a20f988e3a49, 0xb2a1e4506874ebf9, 0x31aca8878a23c40d,
      0x9a67297d522172c7],
    #v[0xd63b2a0d592f9779, 0x3a610b62597d4252, 0xc35857316552ee9c,
      0xeb7b4b8efcef4b6a],
    #v[0x1849a3e493848923, 0x6bfaacbb4ff1db98, 0x3eb14cd17d192d03,
      0x133e95099396da3c],
    #v[0xb8735f19f764cf4c, 0x3a15f2bcac9cf32e, 0xb5f0c9217f35cf57,
      0x1fd04c544470eafd],
    #v[0xc8a2058487ac0285, 0x5e0be2f9eac6aad5, 0xee4fc2378b7c35f8,
      0xeb8047e6be838132],
    #v[0x05543806b9d76ce9, 0x7fabcc72309725b2, 0xc7a3868a71fd4d8f,
      0xd29015c3c417e4bb],
    #v[0x56b7c4440cc9e9c8, 0xd8b1c629e71bb164, 0xf4c0847ca9341ac4,
      0x1f8546dc97cdba25],
    #v[0x3c56b447f4137881, 0x59b35f9c795255cf, 0x32e7ca296fe46732,
      0x2cc294ad1a52a94d],
    #v[0x1060b200e2725944, 0x3ee35f5ee6a0f0cd, 0x71ba8842cf6a016f,
      0x68060a2ffdce977d],
    #v[0x2f3e3d3e3b283902, 0x350bf8d978a3670f, 0xd0d9c23db3cbd8c5,
      0x16f68724b6900378],
    #v[0x7c2bf4809b9782dd, 0x052af0b40e08c9d0, 0xd831fb83be48c0af,
      0xe8a94bfb9464613e],
    #v[0x2c96a7d0898dbe1b, 0x38364d93a426bbd5, 0x2912a5153ed0ba7c,
      0x0af0925d868358f2],
    #v[0x362cdcb4d9e7cc6e, 0x194a6b07ff7ae21d, 0x28dd53b3bcd5e851,
      0x59fb7afb4bee528c],
    #v[0x4bd0360314bc46a0, 0x076257530c706d7a, 0x5b790519caf338c1,
      0x454cdca868c6610c],
    #v[0x426ca38cca16970d, 0xc9555fe6efa48f9a, 0x23f18cd0ca651b3a,
      0x12f6be2551a9ece4],
    #v[0x5d19cd85625e6cd4, 0x033f57ecb7f9988b, 0x51dbf1d36da0e24f,
      0x3e077397f307b7d4],
    #v[0x96024145db4a13da, 0x2be4ba6bd810a850, 0xd49cface475c85eb,
      0x54b101b103564356],
    #v[0x51daf7526c6d3721, 0x9e2c63ccadb3e457, 0x7574671c8831bd72,
      0x593906603a027573],
    #v[0xbf978d0d430a1038, 0x16498e417fbda281, 0x3324b0966a2b5c61,
      0xb565ea80a19f1465],
    #v[0xb1f1e0f1dfe67dc4, 0x069ee318d5037863, 0x025015c57735ec6d,
      0x83ca2cb6afc9c0b5],
    #v[0x9aca0c65658045da, 0x32c72b854aa33f6a, 0x1b86c06c65e563e9,
      0xd3b2e743605233c7],
    #v[0xde5453cdb5f6a3c1, 0x160c94d47b36ba4e, 0xc572402fa8c73cc1,
      0x59231b2ee92c0409],
    #v[0x05b087175e09ee36, 0xb2e9c18902a18e06, 0x5846001972ba7da8,
      0x6aebcd9abd529048],
    #v[0x2d3a03adc848eab1, 0x9b779ac00fbb85db, 0x4ebb1bbd83118149,
      0x263f74ab9d87da4b],
    #v[0x8a7fcc51f6fec3c8, 0x879bdb1cb5d7d9a2, 0x812d6a0b9d0363e5,
      0xad371d1acf8f155b],
    #v[0xb250667f5e91f0ba, 0x5c54378b048155dd, 0x0297d13f80000cb3,
      0xf2abfe46670b1961],
    #v[0x4880f5bc96111cde, 0xe89150e848fa6bd6, 0x6e504d15b09e7e2e,
      0xd02e8fc81d0b1a92]
  ]

/-- `MATRIX_FULL`. -/
def matrixFull : Vector State4 4 :=
  #v[#v[5, 7, 1, 3], #v[3, 5, 7, 1], #v[1, 3, 5, 7], #v[7, 1, 3, 5]]

/-- `MAT_DIAG4_M_1`. -/
def matDiag4M1 : State4 :=
  #v[0, 1, 2, 3]

/-- `sbox`. -/
def sbox (x : UInt64) : UInt64 :=
  fieldPow x 7

/-- `mds_multiply_full`. -/
def mdsMultiplyFull (state : State4) : State4 :=
  Vector.ofFn fun i =>
    ([0, 1, 2, 3] : List (Fin 4)).foldl
      (fun acc j => fieldAdd acc (fieldMul ((matrixFull.get i).get j) (state.get j)))
      0

/-- `mds_multiply_partial`. -/
def mdsMultiplyPartial (state : State4) : State4 :=
  let sum := state.toList.foldl fieldAdd 0
  Vector.ofFn fun i => fieldAdd sum (fieldMul (state.get i) (matDiag4M1.get i))

/-- The round constants are added. -/
def addRoundConstants (state rc : State4) : State4 :=
  Vector.ofFn fun i => fieldAdd (state.get i) (rc.get i)

/-- A full round: constants, S-box on every word, linear layer. -/
def fullRound (state rc : State4) : State4 :=
  mdsMultiplyFull ((addRoundConstants state rc).map sbox)

theorem width4_pos : 0 < 4 :=
  Nat.succ_pos 3

/-- The S-box on the first word only. -/
def partialSbox (state : State4) : State4 :=
  state.set 0 (sbox (state.get 0)) width4_pos

/-- A partial round: constants, S-box on the first word, linear layer. -/
def partialRound (state rc : State4) : State4 :=
  mdsMultiplyPartial (partialSbox (addRoundConstants state rc))

/-- The permutation with given round constants. -/
def permutationWith (constants : Vector State4 30) (state : State4) : State4 :=
  let first := (constants.toList.take 4).foldl fullRound (mdsMultiplyFull state)
  let middle := ((constants.toList.drop 4).take 22).foldl partialRound first
  ((constants.toList.drop 26).take 4).foldl fullRound middle

/-- `poseidon2_permutation`. -/
def poseidon2Permutation : State4 → State4 :=
  permutationWith roundConstants

example :
    poseidon2Permutation #v[0, 0, 0, 0] =
      #v[0x922416154318390c, 0xf4205842c6a5997e, 0x386c95c28126300a,
        0xccdb766d10c91fde] := by
  decide +kernel

/-!
## Canonical states
-/

/-- Every word of the state is below the prime. -/
def IsCanonical (state : State4) : Prop :=
  ∀ index, state.get index < goldilocksPrime

/-- The field elements of a state. -/
def elements (state : State4) : Fin 4 → Goldilocks :=
  fun index => Goldilocks.new (state.get index)

/-- Canonical states are told apart by their elements. -/
theorem IsCanonical.eq_of_elements
    {state state' : State4}
    (canonical : IsCanonical state)
    (canonical' : IsCanonical state')
    (same : elements state = elements state') :
    state = state' := by
  apply Vector.ext
  intro index inside
  have reduced := Goldilocks.new_eq_iff.mp (congrFun same ⟨index, inside⟩)
  rwa [fieldReduce_of_lt (canonical _), fieldReduce_of_lt (canonical' _)] at reduced

/-- Canonical words are added up in the field. -/
theorem foldl_fieldAdd
    {words : List UInt64}
    (canonical : ∀ word ∈ words, word < goldilocksPrime)
    {acc : UInt64}
    (start : acc < goldilocksPrime) :
    words.foldl fieldAdd acc < goldilocksPrime ∧
      Goldilocks.new (words.foldl fieldAdd acc) =
        Goldilocks.new acc + (words.map Goldilocks.new).sum := by
  induction words generalizing acc with
  | nil =>
      exact ⟨start, (add_zero _).symm⟩
  | cons word rest inductionHypothesis =>
      have isWord := canonical word List.mem_cons_self
      obtain ⟨below, total⟩ :=
        inductionHypothesis (fun other listed => canonical other (List.mem_cons_of_mem _ listed))
          (fieldAdd_lt start isWord)
      refine ⟨below, ?_⟩
      rw [List.foldl_cons, total, new_fieldAdd start, List.map_cons, List.sum_cons, add_assoc]

/-!
## The layers in the field
-/

theorem new_sbox (x : UInt64) : Goldilocks.new (sbox x) = Goldilocks.new x ^ 7 :=
  new_fieldPow x 7

theorem zero_lt_goldilocksPrime : (0 : UInt64) < goldilocksPrime := by
  decide

/-- A row of the full layer. -/
theorem foldl_matrixFull (state : State4) (index : Fin 4) :
    (mdsMultiplyFull state).get index < goldilocksPrime ∧
      elements (mdsMultiplyFull state) index =
        (([0, 1, 2, 3] : List (Fin 4)).map fun j =>
          Goldilocks.new ((matrixFull.get index).get j) * elements state j).sum := by
  have products :
      ∀ word ∈ ([0, 1, 2, 3] : List (Fin 4)).map fun j =>
          fieldMul ((matrixFull.get index).get j) (state.get j),
        word < goldilocksPrime := by
    simp [fieldMul_lt]
  have row := foldl_fieldAdd products zero_lt_goldilocksPrime
  rw [List.foldl_map, List.map_map] at row
  rw [elements, mdsMultiplyFull, get_vectorOfFn, row.2]
  refine ⟨row.1, ?_⟩
  have start : Goldilocks.new 0 = 0 := by
    decide
  rw [start, zero_add]
  simp only [List.map_cons, List.map_nil, Function.comp_apply, new_fieldMul]
  rfl

/-- Each row of the matrix is the one above, moved by one place. -/
theorem new_matrixFull :
    ∀ i j : Fin 4,
      Goldilocks.new ((matrixFull.get i).get j) = (![5, 7, 1, 3] : Fin 4 → Goldilocks) (j - i) := by
  decide

/-- The full layer is a circulant matrix. -/
theorem elements_mdsMultiplyFull (state : State4) (index : Fin 4) :
    elements (mdsMultiplyFull state) index =
      5 * elements state index + 7 * elements state (index + 1) +
        elements state (index + 2) + 3 * elements state (index + 3) := by
  rw [(foldl_matrixFull state index).2]
  simp only [new_matrixFull, List.map_cons, List.map_nil, List.sum_cons, List.sum_nil]
  fin_cases index <;> simp <;> ring

theorem isCanonical_mdsMultiplyFull (state : State4) :
    IsCanonical (mdsMultiplyFull state) :=
  fun index => (foldl_matrixFull state index).1

/-- The circulant matrix has an inverse up to the factor 64. -/
theorem elements_eq_of_mdsMultiplyFull
    {state state' : State4}
    (same : mdsMultiplyFull state = mdsMultiplyFull state') :
    elements state = elements state' := by
  have regular : (64 : Goldilocks) ≠ 0 := by
    decide
  have rows (index : Fin 4) := congrFun (congrArg elements same) index
  simp only [elements_mdsMultiplyFull] at rows
  funext index
  have row0 := rows index
  have row1 := rows (index + 1)
  have row2 := rows (index + 2)
  have row3 := rows (index + 3)
  simp only [add_assoc, Fin.reduceAdd, add_zero] at row0 row1 row2 row3
  apply mul_left_cancel₀ regular
  linear_combination row0 + row1 - 7 * row2 + 9 * row3

/-- The sum of the elements of a state. -/
theorem sum_map_new (state : State4) :
    (state.toList.map Goldilocks.new).sum = ∑ index, elements state index := by
  have entries : state.toList = List.ofFn state.get := by
    rw [← Vector.toList_ofFn]
    congr 1
    apply Vector.ext
    intro index inside
    rw [Vector.getElem_ofFn]
    rfl
  rw [entries, List.map_ofFn, List.sum_ofFn]
  rfl

/-- The words of the diagonal are their positions. -/
theorem new_matDiag4M1 :
    ∀ index : Fin 4, Goldilocks.new (matDiag4M1.get index) = (index.val : Goldilocks) := by
  decide

/-- The partial layer adds the sum of a canonical state to the multiples of its elements. -/
theorem mdsMultiplyPartial_spec
    {state : State4}
    (canonical : IsCanonical state) :
    IsCanonical (mdsMultiplyPartial state) ∧
      ∀ index : Fin 4,
        elements (mdsMultiplyPartial state) index =
          ∑ other, elements state other + (index.val : Goldilocks) * elements state index := by
  have words : ∀ word ∈ state.toList, word < goldilocksPrime := by
    intro word listed
    obtain ⟨index, inside, rfl⟩ := List.mem_iff_getElem.mp listed
    rw [Vector.length_toList] at inside
    exact canonical ⟨index, inside⟩
  obtain ⟨below, total⟩ := foldl_fieldAdd words zero_lt_goldilocksPrime
  have start : Goldilocks.new 0 = 0 := by
    decide
  constructor
  · intro index
    rw [mdsMultiplyPartial, get_vectorOfFn]
    exact fieldAdd_lt below (fieldMul_lt _ _)
  · intro index
    rw [elements, mdsMultiplyPartial, get_vectorOfFn, new_fieldAdd below, total, start, zero_add,
      sum_map_new, new_fieldMul, new_matDiag4M1, mul_comm]
    rfl

/-- The first row of the partial layer is the sum, and the others are regular. -/
theorem elements_eq_of_mdsMultiplyPartial
    {state state' : State4}
    (canonical : IsCanonical state)
    (canonical' : IsCanonical state')
    (same : mdsMultiplyPartial state = mdsMultiplyPartial state') :
    elements state = elements state' := by
  have rows (index : Fin 4) := congrFun (congrArg elements same) index
  simp only [(mdsMultiplyPartial_spec canonical).2, (mdsMultiplyPartial_spec canonical').2]
    at rows
  have sums := rows 0
  simp only [Fin.val_zero, Nat.cast_zero, zero_mul, add_zero] at sums
  have apart : ∀ index : Fin 4, index ≠ 0 → ((index.val : Nat) : Goldilocks) ≠ 0 := by
    decide
  have others (index : Fin 4) (later : index ≠ 0) :
      elements state index = elements state' index := by
    apply mul_left_cancel₀ (apart index later)
    exact add_left_cancel (sums ▸ rows index)
  rw [Fin.sum_univ_four, Fin.sum_univ_four, others 1 (by decide), others 2 (by decide),
    others 3 (by decide)] at sums
  funext index
  by_cases isFirst : index = 0
  · rw [isFirst]
    exact add_right_cancel (add_right_cancel (add_right_cancel sums))
  · exact others index isFirst

/-!
## Rounds
-/

/-- A map of the canonical states that tells them apart. -/
structure Regular (layer : State4 → State4) : Prop where
  canonical : ∀ state, IsCanonical state → IsCanonical (layer state)
  injective :
    ∀ state state',
      IsCanonical state →
      IsCanonical state' →
      layer state = layer state' →
      state = state'

theorem Regular.comp
    {layer layer' : State4 → State4}
    (regular : Regular layer)
    (regular' : Regular layer') :
    Regular (layer ∘ layer') where
  canonical state isCanonical := regular.canonical _ (regular'.canonical state isCanonical)
  injective state state' isCanonical isCanonical' same :=
    regular'.injective _ _ isCanonical isCanonical'
      (regular.injective _ _ (regular'.canonical state isCanonical)
        (regular'.canonical state' isCanonical') same)

/-- Regular rounds in a row are regular. -/
theorem regular_foldl
    {round : State4 → State4 → State4}
    {schedule : List State4}
    (regular : ∀ rc ∈ schedule, Regular (round · rc)) :
    Regular (schedule.foldl round ·) := by
  induction schedule with
  | nil =>
      exact ⟨fun _ isCanonical => isCanonical, fun _ _ _ _ same => same⟩
  | cons rc rest inductionHypothesis =>
      exact
        (inductionHypothesis fun other listed =>
          regular other (List.mem_cons_of_mem rc listed)).comp
          (regular rc List.mem_cons_self)

theorem regular_mdsMultiplyFull : Regular mdsMultiplyFull where
  canonical state _ := isCanonical_mdsMultiplyFull state
  injective _ _ isCanonical isCanonical' same :=
    isCanonical.eq_of_elements isCanonical' (elements_eq_of_mdsMultiplyFull same)

/-- A word and a constant are added before the S-box: the sum decides the word. -/
theorem new_eq_of_sbox_fieldAdd
    {word word' rc : UInt64}
    (canonical : word < goldilocksPrime)
    (canonical' : word' < goldilocksPrime)
    (same :
      Goldilocks.new (sbox (fieldAdd word rc)) = Goldilocks.new (sbox (fieldAdd word' rc))) :
    Goldilocks.new word = Goldilocks.new word' := by
  rw [new_sbox, new_sbox] at same
  have sums := VerifierPy.seventhPower_injective same
  rw [new_fieldAdd canonical, new_fieldAdd canonical'] at sums
  exact add_right_cancel sums

/-- A full round is regular for all constants. -/
theorem regular_fullRound (rc : State4) : Regular (fullRound · rc) where
  canonical state _ := isCanonical_mdsMultiplyFull _
  injective state state' isCanonical isCanonical' same := by
    refine isCanonical.eq_of_elements isCanonical' (funext fun index => ?_)
    have powers := congrFun (elements_eq_of_mdsMultiplyFull same) index
    simp only [elements, addRoundConstants, get_vectorMap, get_vectorOfFn] at powers
    exact new_eq_of_sbox_fieldAdd (isCanonical index) (isCanonical' index) powers

theorem get_partialSbox (state : State4) (index : Fin 4) :
    (partialSbox state).get index =
      if index = 0 then sbox (state.get index) else state.get index := by
  by_cases isFirst : index = 0
  · rw [if_pos isFirst, isFirst]
    exact Vector.getElem_set_self _
  · have apart : (0 : Nat) ≠ index.val :=
      fun same => isFirst (Fin.ext same.symm)
    rw [if_neg isFirst]
    exact Vector.getElem_set_ne _ _ apart

/-- The constants that enter a sum only are canonical. -/
def SummedCanonical (rc : State4) : Prop :=
  ∀ index, index ≠ 0 → rc.get index < goldilocksPrime

/-- Before the linear layer of a partial round the state is canonical. -/
theorem isCanonical_partialSbox
    {state rc : State4}
    (canonical : IsCanonical state)
    (summed : SummedCanonical rc) :
    IsCanonical (partialSbox (addRoundConstants state rc)) := by
  intro index
  rw [get_partialSbox]
  split
  · exact fieldPow_lt _ _
  · next later =>
      rw [addRoundConstants, get_vectorOfFn]
      exact fieldAdd_lt (canonical index) (summed index later)

/-- A partial round is regular when the constants that enter a sum only are canonical. -/
theorem regular_partialRound
    {rc : State4}
    (summed : SummedCanonical rc) :
    Regular (partialRound · rc) where
  canonical _ isCanonical :=
    (mdsMultiplyPartial_spec (isCanonical_partialSbox isCanonical summed)).1
  injective state state' isCanonical isCanonical' same := by
    refine isCanonical.eq_of_elements isCanonical' (funext fun index => ?_)
    have entries :=
      congrFun
        (elements_eq_of_mdsMultiplyPartial (isCanonical_partialSbox isCanonical summed)
          (isCanonical_partialSbox isCanonical' summed) same)
        index
    simp only [elements, get_partialSbox] at entries ⊢
    by_cases isFirst : index = 0
    · rw [if_pos isFirst, if_pos isFirst, addRoundConstants, addRoundConstants, get_vectorOfFn,
        get_vectorOfFn] at entries
      exact new_eq_of_sbox_fieldAdd (isCanonical index) (isCanonical' index) entries
    · rw [if_neg isFirst, if_neg isFirst, addRoundConstants, addRoundConstants, get_vectorOfFn,
        get_vectorOfFn, new_fieldAdd (isCanonical index), new_fieldAdd (isCanonical' index)]
        at entries
      exact add_right_cancel entries

/-- The partial rounds' constants that enter a sum only are canonical. -/
def SummedConstantsCanonical (constants : Vector State4 30) : Prop :=
  ∀ rc ∈ (constants.toList.drop 4).take 22, SummedCanonical rc

theorem regular_permutationWith
    {constants : Vector State4 30}
    (summed : SummedConstantsCanonical constants) :
    Regular (permutationWith constants) :=
  (regular_foldl fun rc _ => regular_fullRound rc).comp
    ((regular_foldl fun rc listed => regular_partialRound (summed rc listed)).comp
      ((regular_foldl fun rc _ => regular_fullRound rc).comp regular_mdsMultiplyFull))

/-- There are finitely many canonical states. -/
theorem finite_canonical : {state | IsCanonical state}.Finite := by
  apply Set.Finite.of_finite_image (Set.toFinite (elements '' {state | IsCanonical state}))
  intro state isCanonical state' isCanonical' same
  exact IsCanonical.eq_of_elements isCanonical isCanonical' same

/-- Zeros, but for two words of the first partial round. -/
def overfullConstants : Vector State4 30 :=
  Vector.ofFn fun i =>
    if i = 4 then #v[0, 0xffffffffffffffff, 0xffffffffffffffff, 0] else #v[0, 0, 0, 0]

/-- Two states whose sums differ by what the first partial round drops. -/
def collidingStates : State4 × State4 :=
  (#v[0x3bd693688159be6a, 0xd98da4d51b5a6a5a, 0x25a7ce91dcfe7210, 0xf0e2d39b87d70371],
    #v[0x17825a3e2c2d0389, 0x8f0e21155c293035, 0x1d3eaaa2ef15a267, 0x4e72ff3850bc04bc])

/-- What the permutation answers for both states. -/
def collision : State4 :=
  #v[0x2894e0c9f700f641, 0xf30b67738ebdc7e9, 0xfe6fedbdf8a5e56f, 0xc619ce857357e159]

/-- With two summed constants that are not canonical, two states collide. -/
theorem overfullConstants_collide :
    ¬ ∀ constants : Vector State4 30,
      Set.BijOn (permutationWith constants) {state | IsCanonical state}
        {state | IsCanonical state} := by
  intro always
  have first : IsCanonical collidingStates.1 := by
    unfold IsCanonical
    decide +kernel
  have second : IsCanonical collidingStates.2 := by
    unfold IsCanonical
    decide +kernel
  have firstAnswer : permutationWith overfullConstants collidingStates.1 = collision := by
    decide +kernel
  have secondAnswer : permutationWith overfullConstants collidingStates.2 = collision := by
    decide +kernel
  have different : collidingStates.1 ≠ collidingStates.2 := by
    decide +kernel
  exact
    different
      ((always overfullConstants).injOn first second (firstAnswer.trans secondAnswer.symm))

/--
The permutation is a bijection of the canonical states for all round constants of
which those that enter a sum only are canonical.
-/
theorem permutationWith_bijOn
    {constants : Vector State4 30}
    (summed : SummedConstantsCanonical constants) :
    Set.BijOn (permutationWith constants) {state | IsCanonical state}
      {state | IsCanonical state} := by
  have regular := regular_permutationWith summed
  have injOn : Set.InjOn (permutationWith constants) {state | IsCanonical state} :=
    fun _ isCanonical _ isCanonical' same =>
      regular.injective _ _ isCanonical isCanonical' same
  exact (finite_canonical.injOn_iff_bijOn_of_mapsTo regular.canonical).mp injOn

theorem summedConstantsCanonical_roundConstants :
    SummedConstantsCanonical roundConstants := by
  have rounds :
      ((roundConstants.toList.drop 4).take 22).all fun rc =>
        decide
          (rc.get 1 < goldilocksPrime ∧ rc.get 2 < goldilocksPrime ∧
            rc.get 3 < goldilocksPrime) := by
    decide
  intro rc listed index other
  rcases of_decide_eq_true (List.all_eq_true.mp rounds rc listed) with
    ⟨first, second, third⟩
  fin_cases index
  · exact absurd rfl other
  · exact first
  · exact second
  · exact third

/-- With the constants of the source the permutation is a bijection. -/
theorem poseidon2Permutation_bijOn :
    SummedConstantsCanonical roundConstants ∧
      Set.BijOn poseidon2Permutation {state | IsCanonical state} {state | IsCanonical state} :=
  ⟨summedConstantsCanonical_roundConstants,
    permutationWith_bijOn summedConstantsCanonical_roundConstants⟩

/-- Every state is answered with a canonical one. -/
theorem isCanonical_poseidon2Permutation (state : State4) :
    IsCanonical (poseidon2Permutation state) :=
  (regular_foldl fun rc _ => regular_fullRound rc).canonical _
    ((regular_foldl fun rc listed =>
        regular_partialRound (summedConstantsCanonical_roundConstants rc listed)).canonical _
      ((regular_foldl fun rc _ => regular_fullRound rc).canonical _
        (isCanonical_mdsMultiplyFull state)))

/-- The hash of two words with this permutation. -/
def poseidon2PairHash : PairHash where
  compress left right := (poseidon2Permutation #v[0, left, right, 0]).get 0
  canonical left right := isCanonical_poseidon2Permutation #v[0, left, right, 0] 0

end ScalarCore
