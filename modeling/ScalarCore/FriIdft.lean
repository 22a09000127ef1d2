import ScalarCore.ButterflyNetwork
import ScalarCore.FriFold

namespace ScalarCore.VerifierPy

/-!
# The inverse transform of the final polynomial

The values are put in natural order and go through butterflies at the distances 1,
2, 4 and so on.  The weight of a butterfly is a power of the inverse root whose
exponent is the place within the half, in every stage.  Where an assertion of the
source fails or an index is out of range, there is no result.
-/

open ButterflyNetwork PolynomialFold

/-- The butterfly of the pair at `i` and `i + step_size`. -/
def idftButterfly
    (w : Goldilocks)
    (stepSize : Nat)
    (coeffs : List EF)
    (i : Nat) : Option (List EF) := do
  let u ← coeffs[i]?
  let paired ← coeffs[i + stepSize]?
  let v := efScalarMul w paired
  return (coeffs.set i (efAdd u v)).set (i + stepSize) (efSub u v)

/-- `range(j, n, 2 * step_size)`. -/
def pairsOfPlace (n stepSize j : Nat) : List Nat :=
  List.range' j ((n - j + 2 * stepSize - 1) / (2 * stepSize)) (2 * stepSize)

/-- The butterflies of one place, and the weight of the next. -/
def idftPlace
    (omegaInv : Goldilocks)
    (n stepSize : Nat)
    (reached : List EF × Goldilocks)
    (j : Nat) : Option (List EF × Goldilocks) := do
  let (coeffs, w) := reached
  let joined ← (pairsOfPlace n stepSize j).foldlM (idftButterfly w stepSize) coeffs
  return (joined, w * omegaInv)

/-- The stages from a distance on; `fuel` counts them. -/
def idftStages
    (omegaInv : Goldilocks)
    (n : Nat) :
    Nat → Nat → List EF → Option (List EF)
  | 0, _, _ => none
  | fuel + 1, stepSize, coeffs =>
      if stepSize < n then do
        let (joined, _) ←
          (List.range stepSize).foldlM (idftPlace omegaInv n stepSize) (coeffs, 1)
        idftStages omegaInv n fuel (stepSize <<< 1) joined
      else
        some coeffs

/-- `idft_goldilocks`. -/
def idftGoldilocks (evalsBr : List EF) (logN : Nat) : Option (List EF) := do
  let n := 1 <<< logN
  guard (evalsBr.length = n)
  let coeffs ← (List.range n).mapM fun i => evalsBr[bitReverse i logN]?
  let omega ← goldilocksTwoAdicGenerator logN
  let omegaInv := powMod omega (0xFFFFFFFF00000001 - 2)
  let joined ← idftStages omegaInv n n 1 coeffs
  let nInv := powMod (n : Goldilocks) (0xFFFFFFFF00000001 - 2)
  return joined.map (efScalarMul nInv)

/-!
## The butterflies in their order
-/

/-- The list of a function's values at the places below `n`. -/
def tabulate (n : Nat) (values : Nat → EF) : List EF :=
  (List.range n).map values

@[simp] theorem getElem?_tabulate
    {n i : Nat}
    (inRange : i < n)
    (values : Nat → EF) :
    (tabulate n values)[i]? = some (values i) := by
  rw [tabulate, List.getElem?_map, List.getElem?_range inRange,
    Option.map_some]

theorem set_tabulate (n i : Nat) (values : Nat → EF) (value : EF) :
    (tabulate n values).set i value =
      tabulate n (Function.update values i value) := by
  apply List.ext_getElem?
  intro k
  by_cases inRange : k < n
  · by_cases same : i = k
    · rw [same, List.getElem?_set_self (by simpa [tabulate] using inRange),
        getElem?_tabulate inRange, Function.update_self]
    · rw [List.getElem?_set_ne same, getElem?_tabulate inRange,
        getElem?_tabulate inRange, Function.update_of_ne (Ne.symm same)]
  · rw [List.getElem?_eq_none (by simpa [tabulate] using inRange),
      List.getElem?_eq_none (by simpa [tabulate] using inRange)]

/-- Tables agree when their functions do on the places. -/
theorem tabulate_congr
    {n : Nat}
    {values values' : Nat → EF}
    (same : ∀ k < n, values k = values' k) :
    tabulate n values = tabulate n values' :=
  List.map_congr_left fun k listed => same k (List.mem_range.mp listed)

theorem idftButterfly_tabulate
    (w : Goldilocks)
    {n stepSize i : Nat}
    (inRange : i + stepSize < n)
    (values : Nat → EF) :
    idftButterfly w stepSize (tabulate n values) i =
      some (tabulate n (butterflyAt w stepSize i values)) := by
  have lower : i < n := by omega
  simp only [idftButterfly, getElem?_tabulate inRange,
    getElem?_tabulate lower, Option.bind_eq_bind, Option.bind_some,
    Option.pure_def, set_tabulate, efAdd_eq, efSub_eq, efScalarMul_eq,
    butterflyAt]

theorem foldlM_idftButterfly
    (w : Goldilocks)
    {n stepSize : Nat}
    {bases : List Nat}
    (inRange : ∀ i ∈ bases, i + stepSize < n)
    (values : Nat → EF) :
    bases.foldlM (idftButterfly w stepSize) (tabulate n values) =
      some
        (tabulate n
          (bases.foldl (fun values i => butterflyAt w stepSize i values)
            values)) := by
  induction bases generalizing values with
  | nil =>
      rfl
  | cons i rest inductionHypothesis =>
      rw [List.forall_mem_cons] at inRange
      rw [List.foldlM_cons, idftButterfly_tabulate w inRange.1,
        List.foldl_cons]
      exact inductionHypothesis inRange.2 _

/-!
## One stage

A stage of `blocks` pairs of halves of `span` places goes through the places of a
half, and for each through the blocks.
-/

section Stage

variable {n span blocks : Nat}
  (positive : 0 < span)
  (someBlock : 0 < blocks)
  (size : n = blocks * (2 * span))

include positive someBlock size

theorem pairsOfPlace_eq
    {j : Nat}
    (inHalf : j < span) :
    pairsOfPlace n span j = List.range' j blocks (2 * span) := by
  have enough : 1 * (2 * span) ≤ blocks * (2 * span) :=
    Nat.mul_le_mul_right _ someBlock
  have count :
      n - j + 2 * span - 1 = (2 * span - 1 - j) + blocks * (2 * span) := by
    omega
  rw [pairsOfPlace, count, Nat.add_mul_div_right _ _ (by omega),
    Nat.div_eq_of_lt (by omega), Nat.zero_add]

/-- The bases of a place are the lower places with its position in their half. -/
theorem mem_pairsOfPlace_iff
    {i j : Nat}
    (inHalf : j < span) :
    i ∈ pairsOfPlace n span j ↔
      i < n ∧ i / span % 2 = 0 ∧ i % span = j := by
  rw [pairsOfPlace_eq positive someBlock size inHalf, List.mem_range']
  constructor
  · rintro ⟨block, inBlocks, rfl⟩
    have before : (block + 1) * (2 * span) ≤ blocks * (2 * span) :=
      Nat.mul_le_mul_right _ inBlocks
    have place : j + 2 * span * block = span * (2 * block) + j := by ring
    rw [Nat.succ_mul, Nat.mul_comm] at before
    refine ⟨by omega, ?_, ?_⟩
    · rw [place, Nat.mul_add_div positive, Nat.div_eq_of_lt inHalf,
        Nat.add_zero, Nat.mul_mod_right]
    · rw [place, Nat.mul_add_mod, Nat.mod_eq_of_lt inHalf]
  · rintro ⟨inRange, lower, isPlace⟩
    have isBlock : i / span = 2 * (i / span / 2) := by omega
    have place : j + 2 * span * (i / span / 2) = i := by
      calc j + 2 * span * (i / span / 2)
          = span * (2 * (i / span / 2)) + i % span := by
            rw [isPlace]
            ring
        _ = i := by
            rw [← isBlock, Nat.div_add_mod]
    have bounded : 2 * span * (i / span / 2) < 2 * span * blocks := by
      rw [Nat.mul_comm (2 * span) blocks]
      omega
    exact ⟨i / span / 2, Nat.lt_of_mul_lt_mul_left bounded, place.symm⟩

/-- The lower places in the order in which a stage takes them. -/
theorem nodup_pairs :
    ((List.range span).flatMap (pairsOfPlace n span)).Nodup := by
  rw [List.nodup_flatMap]
  constructor
  · intro j listed
    rw [pairsOfPlace_eq positive someBlock size (List.mem_range.mp listed)]
    exact List.nodup_range' _ (by omega)
  · refine List.nodup_range.imp_of_mem ?_
    intro j j' listed listed' different i isPair isPair'
    have place :=
      (mem_pairsOfPlace_iff positive someBlock size
        (List.mem_range.mp listed)).mp isPair
    have place' :=
      (mem_pairsOfPlace_iff positive someBlock size
        (List.mem_range.mp listed')).mp isPair'
    exact different (place.2.2.symm.trans place'.2.2)

/-- Every place is in the pair of one of them. -/
theorem pairBase_mem_pairs
    {k : Nat}
    (inRange : k < n) :
    pairBase span k ∈ (List.range span).flatMap (pairsOfPlace n span) := by
  rcases exists_pair positive k with ⟨base, lower, isPlace⟩
  have bounded : base < n := by omega
  have inHalf := Nat.mod_lt base positive
  rw [(pairBase_eq_iff positive lower k).mpr isPlace, List.mem_flatMap]
  exact
    ⟨base % span, List.mem_range.mpr inHalf,
      (mem_pairsOfPlace_iff positive someBlock size inHalf).mpr
        ⟨bounded, lower, rfl⟩⟩

/-- The lower places have their partners below `n`. -/
theorem partner_lt
    {i j : Nat}
    (inHalf : j < span)
    (isPair : i ∈ pairsOfPlace n span j) :
    i + span < n := by
  rw [pairsOfPlace_eq positive someBlock size inHalf, List.mem_range'] at isPair
  rcases isPair with ⟨block, inBlocks, rfl⟩
  have before : (block + 1) * (2 * span) ≤ blocks * (2 * span) :=
    Nat.mul_le_mul_right _ inBlocks
  rw [Nat.succ_mul, Nat.mul_comm] at before
  omega

/-- The places up to one of them, with the weight that follows. -/
theorem foldlM_idftPlace
    (omegaInv : Goldilocks)
    (values : Nat → EF)
    {count : Nat}
    (inHalf : count ≤ span) :
    (List.range count).foldlM (idftPlace omegaInv n span)
        (tabulate n values, 1) =
      some
        (tabulate n
          (((List.range count).flatMap (pairsOfPlace n span)).foldl
            (fun values i => butterflyAt (omegaInv ^ (i % span)) span i values)
            values),
          omegaInv ^ count) := by
  induction count with
  | zero =>
      rfl
  | succ count inductionHypothesis =>
      have place : count < span := inHalf
      have partners :
          ∀ i ∈ pairsOfPlace n span count, i + span < n :=
        fun i isPair => partner_lt positive someBlock size place isPair
      have joined := foldlM_idftButterfly (omegaInv ^ count) partners
      have weights (values : Nat → EF) :
          (pairsOfPlace n span count).foldl
              (fun values i => butterflyAt (omegaInv ^ count) span i values)
              values =
            (pairsOfPlace n span count).foldl
              (fun values i =>
                butterflyAt (omegaInv ^ (i % span)) span i values)
              values := by
        apply List.foldl_ext
        intro values i isPair
        rw [((mem_pairsOfPlace_iff positive someBlock size place).mp
          isPair).2.2]
      rw [List.range_succ, List.foldlM_append,
        inductionHypothesis (Nat.le_of_lt place), List.flatMap_append,
        List.foldl_append, List.flatMap_singleton, ← weights]
      simp only [Option.bind_eq_bind, Option.bind_some, List.foldlM_cons,
        List.foldlM_nil, idftPlace, joined, Option.pure_def, pow_succ]

/-- All places together are the stage of the network. -/
theorem foldlM_idftPlace_eq_stage
    (omegaInv : Goldilocks)
    (values : Nat → EF) :
    (List.range span).foldlM (idftPlace omegaInv n span)
        (tabulate n values, 1) =
      some (tabulate n (stage omegaInv span values), omegaInv ^ span) := by
  rw [foldlM_idftPlace positive someBlock size omegaInv values (le_refl span)]
  apply congrArg (fun table => some (table, omegaInv ^ span))
  apply tabulate_congr
  intro k inRange
  rw [foldl_butterflyAt positive omegaInv _
    (nodup_pairs positive someBlock size),
    if_pos (pairBase_mem_pairs positive someBlock size inRange)]
  intro i listed
  rcases List.mem_flatMap.mp listed with ⟨j, isPlace, isPair⟩
  exact
    ((mem_pairsOfPlace_iff positive someBlock size
      (List.mem_range.mp isPlace)).mp isPair).2.1

end Stage

/-!
## The transform
-/

/-- The remaining stages take the first ones to the network. -/
theorem idftStages_eq
    (omegaInv : Goldilocks)
    (values : Nat → EF)
    {log fuel : Nat}
    (enough : log < fuel)
    (done : Nat) :
    idftStages omegaInv (2 ^ (done + log)) fuel (2 ^ done)
        (tabulate (2 ^ (done + log)) (network omegaInv done values)) =
      some
        (tabulate (2 ^ (done + log)) (network omegaInv (done + log) values)) := by
  induction log generalizing fuel done with
  | zero =>
      match fuel, enough with
      | fuel + 1, _ =>
          rw [idftStages, if_neg (by simp)]
          rfl
  | succ log inductionHypothesis =>
      match fuel, enough with
      | fuel + 1, enough =>
          have smaller : 2 ^ done < 2 ^ (done + (log + 1)) :=
            Nat.pow_lt_pow_right (by decide) (by omega)
          have size : 2 ^ (done + (log + 1)) = 2 ^ log * (2 * 2 ^ done) := by
            ring
          have isStage :=
            foldlM_idftPlace_eq_stage (Nat.two_pow_pos done)
              (Nat.two_pow_pos log) size omegaInv (network omegaInv done values)
          have next : 2 ^ done <<< 1 = 2 ^ (done + 1) := by
            rw [Nat.shiftLeft_eq, pow_one, pow_succ]
          have later :=
            inductionHypothesis (Nat.lt_of_succ_lt_succ enough) (done + 1)
          rw [Nat.add_right_comm done 1 log, Nat.add_assoc done log 1] at later
          rw [idftStages, if_pos smaller, isStage]
          simp only [Option.bind_eq_bind, Option.bind_some, next]
          exact later

/-- A power with the exponent of Fermat's theorem is the inverse. -/
theorem powMod_fermat
    {a : Goldilocks}
    (nonzero : a ≠ 0) :
    powMod a (0xFFFFFFFF00000001 - 2) = a⁻¹ := by
  have inverse := finv_of_ne_zero nonzero
  rw [finv, if_neg nonzero, Option.some_inj] at inverse
  exact inverse

theorem natCast_two_pow_ne_zero (log : Nat) :
    ((2 ^ log : Nat) : Goldilocks) ≠ 0 := by
  rw [Nat.cast_pow]
  exact pow_ne_zero log two_ne_zero_goldilocks

/-- The transform answers the outputs of the network, divided by their number. -/
theorem idftGoldilocks_eq
    {logN : Nat}
    (positive : 0 < logN)
    (inRange : logN ≤ 32)
    {evalsBr : List EF}
    {values : Nat → EF}
    (length : evalsBr.length = 2 ^ logN)
    (natural :
      ∀ i < 2 ^ logN, evalsBr[bitReverse i logN]? = some (values i)) :
    idftGoldilocks evalsBr logN =
      some
        ((tabulate (2 ^ logN)
          (network (twoAdicRoot logN)⁻¹ logN values)).map
            fun output => ((2 ^ logN : Nat) : Goldilocks)⁻¹ • output) := by
  have reordered :
      ((List.range (2 ^ logN)).mapM fun i => evalsBr[bitReverse i logN]?) =
        some (tabulate (2 ^ logN) values) :=
    FallibleChecks.mapM_eq_some_map fun i listed =>
      natural i (List.mem_range.mp listed)
  have stages :=
    idftStages_eq (twoAdicRoot logN)⁻¹ values
      (Nat.lt_two_pow_self (n := logN)) 0
  rw [Nat.zero_add, pow_zero] at stages
  have initial : network (twoAdicRoot logN)⁻¹ 0 values = values := rfl
  rw [initial] at stages
  have shifted : 1 <<< logN = 2 ^ logN := by
    rw [Nat.shiftLeft_eq, Nat.one_mul]
  have scaled :
      efScalarMul ((2 ^ logN : Nat) : Goldilocks)⁻¹ =
        fun output => ((2 ^ logN : Nat) : Goldilocks)⁻¹ • output :=
    funext (efScalarMul_eq _)
  simp only [idftGoldilocks, shifted, length, guard_true, reordered,
    goldilocksTwoAdicGenerator_eq positive inRange,
    powMod_fermat (twoAdicRoot_ne_zero logN),
    powMod_fermat (natCast_two_pow_ne_zero logN), stages, scaled,
    Option.bind_eq_bind, Option.bind_some, Option.pure_def]

/-- In natural order the values are those at the powers of the root. -/
theorem getElem?_evaluations_bitReverse
    (root shift : Goldilocks)
    (coeffs : List EF)
    {log i : Nat}
    (inRange : i < 2 ^ log) :
    (evaluations root shift log coeffs)[bitReverse i log]? =
      some (evalAt coeffs (shift * root ^ i)) := by
  rw [getElem?_evaluations root shift coeffs (bitReverse_lt i log), cosetPoint,
    bitReverse_bitReverse inRange]

/--
Fed the values of a polynomial on a coset, the transform answers coefficients whose
polynomial has the values of the network.
-/
theorem exists_idftGoldilocks
    {logN : Nat}
    (positive : 0 < logN)
    (inRange : logN ≤ 32)
    (shift : Goldilocks)
    (coeffs : List EF) :
    ∃ answer,
      idftGoldilocks (evaluations (twoAdicRoot logN) shift logN coeffs) logN =
        some answer ∧
      answer.length = 2 ^ logN ∧
      ∀ x : Goldilocks,
        ((2 ^ logN : Nat) : Goldilocks) • evalAt answer x =
          blockValue (twoAdicRoot logN)⁻¹
            (fun i => evalAt coeffs (shift * twoAdicRoot logN ^ i)) logN 0 x := by
  refine
    ⟨_,
      idftGoldilocks_eq positive inRange (length_evaluations _ _ _ _)
        (fun i inRange => getElem?_evaluations_bitReverse _ _ _ inRange),
      by simp [tabulate], fun x => ?_⟩
  rw [evalAt_map_smul, smul_inv_smul₀ (natCast_two_pow_ne_zero logN), tabulate,
    evalAt_network]

/-!
## Which coefficients come back
-/

/-- The transform takes the values at the powers of the generator to the coefficients. -/
def RoundTrips (logN : Nat) (coeffs : List EF) : Prop :=
  ∃ omega,
    goldilocksTwoAdicGenerator logN = some omega ∧
    idftGoldilocks (evaluations omega 1 logN coeffs) logN = some coeffs

/--
The polynomial has one value at the root and at minus one, and one value at all roots
of unity of its order other than one, the root and their opposites.
-/
structure Interchangeable
    (omega : Goldilocks)
    (logN : Nat)
    (coeffs : List EF) : Prop where
  swapped : evalAt coeffs omega = evalAt coeffs (-1 : Goldilocks)
  elsewhere : EqualElsewhere omega logN (evalAt coeffs)

section RoundTrip

variable {log : Nat}
  (inRange : log + 1 ≤ 32)
  {coeffs : List EF}
  (length : coeffs.length = 2 ^ (log + 1))

include inRange length

/-- The coefficients come back when the network gives back the values. -/
theorem roundTrips_iff :
    RoundTrips (log + 1) coeffs ↔
      ∀ x : Goldilocks, x ^ 2 ^ (log + 1) = 1 →
        blockValue (twoAdicRoot (log + 1))⁻¹
            (fun i => evalAt coeffs (twoAdicRoot (log + 1) ^ i)) (log + 1) 0 x =
          (2 ^ (log + 1) : Goldilocks) • evalAt coeffs x := by
  have isRoot := twoAdicRoot_pow_half inRange
  rcases exists_idftGoldilocks (Nat.succ_pos log) inRange 1 coeffs with
    ⟨answer, isAnswer, answerLength, outputs⟩
  have cast :
      ((2 ^ (log + 1) : Nat) : Goldilocks) = (2 ^ (log + 1) : Goldilocks) :=
    Nat.cast_pow 2 (log + 1)
  simp only [one_mul, cast] at outputs
  have generator := goldilocksTwoAdicGenerator_eq (Nat.succ_pos log) inRange
  constructor
  · rintro ⟨omega, isOmega, isSame⟩ x ofUnity
    rw [generator, Option.some_inj] at isOmega
    rw [← isOmega, isAnswer, Option.some_inj] at isSame
    rw [← outputs, isSame]
  · intro comesOut
    refine ⟨_, generator, ?_⟩
    rw [isAnswer, Option.some_inj]
    apply
      eq_of_evalAt_eq (nodup_root_powers isRoot two_ne_zero_goldilocks)
        (answerLength.trans length.symm)
    · rw [answerLength, List.length_map, List.length_range]
    · intro x listed
      rcases List.mem_map.mp listed with ⟨i, _, rfl⟩
      apply
        smul_right_injective EF
          (pow_ne_zero (log + 1) two_ne_zero_goldilocks)
      change _ • evalAt answer _ = _ • evalAt coeffs _
      rw [outputs]
      apply comesOut
      rw [pow_right_comm, root_pow_order isRoot, one_pow]

/-- It is enough that the polynomial is interchangeable. -/
theorem roundTrips_of_interchangeable
    (isInterchangeable :
      Interchangeable (twoAdicRoot (log + 1)) (log + 1) coeffs) :
    RoundTrips (log + 1) coeffs :=
  (roundTrips_iff inRange length).mpr fun _ ofUnity =>
    blockValue_of_equalElsewhere (twoAdicRoot_pow_half inRange)
      two_ne_zero_goldilocks isInterchangeable.swapped
      isInterchangeable.elsewhere ofUnity

/-- The values at the root and at minus one are exchanged. -/
theorem swapped_of_roundTrips
    (comesBack : RoundTrips (log + 1) coeffs) :
    evalAt coeffs (twoAdicRoot (log + 1)) = evalAt coeffs (-1 : Goldilocks) := by
  have isRoot := twoAdicRoot_pow_half inRange
  have comesOut :=
    (roundTrips_iff inRange length).mp comesBack _ (root_pow_order isRoot)
  rw [blockValue_root isRoot] at comesOut
  exact
    (smul_right_injective EF
      (pow_ne_zero (log + 1) two_ne_zero_goldilocks) comesOut).symm

/-- Up to eight coefficients nothing less is enough. -/
theorem interchangeable_of_roundTrips
    (small : log ≤ 2)
    (comesBack : RoundTrips (log + 1) coeffs) :
    Interchangeable (twoAdicRoot (log + 1)) (log + 1) coeffs := by
  have isRoot := twoAdicRoot_pow_half inRange
  refine ⟨swapped_of_roundTrips inRange length comesBack, ?_⟩
  rcases Nat.lt_or_eq_of_le small with smaller | rfl
  · exact equalElsewhere_of_le isRoot (Nat.le_of_lt_succ smaller) _
  · exact
      equalElsewhere_of_comesOut isRoot two_ne_zero_goldilocks
        ((roundTrips_iff inRange length).mp comesBack)

end RoundTrip

/-- The root of order two is minus one. -/
theorem twoAdicRoot_one : twoAdicRoot 1 = -1 := by
  have half : twoAdicRoot 1 ^ 2 ^ 0 = -1 := twoAdicRoot_pow_half (by decide)
  rwa [pow_zero, pow_one] at half

/-- The roots of higher orders are not. -/
theorem twoAdicRoot_ne_neg_one
    {log : Nat}
    (inRange : log + 2 ≤ 32) :
    twoAdicRoot (log + 2) ≠ -1 := by
  intro same
  have half := twoAdicRoot_pow_half inRange
  rw [same, pow_succ', pow_mul, neg_one_sq, one_pow] at half
  exact neg_one_ne_one two_ne_zero_goldilocks half.symm

/-- Two coefficients come back. -/
theorem roundTrips_one
    {coeffs : List EF}
    (length : coeffs.length = 2 ^ 1) :
    RoundTrips 1 coeffs := by
  have inRange : 0 + 1 ≤ 32 := by decide
  apply roundTrips_of_interchangeable inRange length
  refine ⟨?_, equalElsewhere_of_le (twoAdicRoot_pow_half inRange) (by decide) _⟩
  rw [Nat.zero_add, twoAdicRoot_one]

/-- The coefficients of the variable as a polynomial. -/
def variablePolynomial (logN : Nat) : List EF :=
  List.replicate 1 0 ++ [efFromBase 1] ++ List.replicate (2 ^ logN - 2) 0

theorem length_variablePolynomial (log : Nat) :
    (variablePolynomial (log + 1)).length = 2 ^ (log + 1) := by
  have positive := Nat.two_pow_pos log
  simp only [variablePolynomial, List.length_append, List.length_replicate,
    List.length_cons, List.length_nil, pow_succ]
  omega

theorem efFromBase_one_ne_zero : efFromBase 1 ≠ 0 := by
  intro zero
  exact one_ne_zero (congrFun zero 0)

/-- From four coefficients on, those of the variable do not come back. -/
theorem not_roundTrips_variablePolynomial
    {log : Nat}
    (inRange : log + 2 ≤ 32) :
    ¬RoundTrips (log + 2) (variablePolynomial (log + 2)) := by
  intro comesBack
  have swapped :=
    swapped_of_roundTrips inRange (length_variablePolynomial (log + 1)) comesBack
  simp only [variablePolynomial, evalAt_append_zeros, evalAt_monomial,
    pow_one] at swapped
  exact
    twoAdicRoot_ne_neg_one inRange
      (smul_left_injective Goldilocks efFromBase_one_ne_zero swapped)

end ScalarCore.VerifierPy
