import ScalarCore.FriIdft
import ScalarCore.FriQuery

namespace ScalarCore.VerifierPy

/-!
# Final polynomials of any length

The commit phase takes the logarithm of the length of its final polynomial as a
parameter.  It stops folding at the height that belongs to it, takes the first of the
values left and, unless there is one, transforms them.  The query phase compares the
answer with the values left, at the points of their coset.
-/

open ButterflyNetwork PolynomialFold

/-- The final polynomial: its values are transformed unless there is one. -/
def finalPolyOf
    (logFinalPolyLen : Nat)
    (folded : List EF) : Option (List EF) :=
  let finalPolyLen := 1 <<< logFinalPolyLen
  let finalEvalsBr := folded.take finalPolyLen
  if finalPolyLen = 1 then
    some finalEvalsBr
  else
    let logFinal := finalPolyLen.log2
    idftGoldilocks finalEvalsBr logFinal

section Commit

variable {State : Type}
  (perm : T8Permutation)
  (challenger : Challenger State)
  (cosetShift : Goldilocks)

/-- `fri_commit_phase` with `log_final_poly_len`, and the challenger after it. -/
def friCommitPhaseWith
    (logFinalPolyLen : Nat)
    (evalsEfBr : List EF)
    (transcript : State) : Option (FriCommitPhaseResult × State) := do
  let n := evalsEfBr.length
  guard (n &&& (n - 1) = 0 ∧ 2 ≤ n)
  let logN := n.log2
  guard (friLogBlowup < logN)
  let (steps, folded, sampled) ←
    commitRoundsWith perm challenger cosetShift logFinalPolyLen n evalsEfBr
      transcript
  let finalPoly ← finalPolyOf logFinalPolyLen folded
  let after :=
    finalPoly.foldl
      (fun transcript coeff =>
        challenger.observeBase transcript (efToU64s coeff))
      sampled
  let result : FriCommitPhaseResult :=
    { steps
      finalPoly
      numRounds := steps.length
      logTraceHeight := logN - friLogBlowup
      logBlowup := friLogBlowup }
  return (result, after)

/-- With one coefficient it is the commit phase of the module's constants. -/
theorem friCommitPhaseWith_zero
    (evalsEfBr : List EF)
    (transcript : State) :
    friCommitPhaseWith perm challenger cosetShift friLogFinalPolyLen evalsEfBr
        transcript =
      friCommitPhase perm challenger cosetShift evalsEfBr transcript := by
  have direct (folded : List EF) :
      finalPolyOf friLogFinalPolyLen folded =
        some (folded.take (1 <<< friLogFinalPolyLen)) :=
    rfl
  simp only [friCommitPhaseWith, friCommitPhase, commitRounds, direct,
    Option.bind_eq_bind, Option.bind_some]

end Commit

/-!
## The final polynomial of an honest commitment
-/

/-- The first of the values left are those on the coset of the smaller root. -/
theorem take_cosetEvaluations
    {logFinalPolyLen : Nat}
    (inRange : friLogBlowup + logFinalPolyLen ≤ 32)
    (cosetShift : Goldilocks)
    (coeffs : List EF) :
    (cosetEvaluations (friLogBlowup + logFinalPolyLen) cosetShift coeffs).take
        (2 ^ logFinalPolyLen) =
      cosetEvaluations logFinalPolyLen cosetShift coeffs := by
  rw [Nat.add_comm] at inRange ⊢
  rw [cosetEvaluations, take_evaluations, twoAdicRoot_pow inRange,
    cosetEvaluations]

/-- One value is the final polynomial itself. -/
theorem finalPolyOf_zero
    (cosetShift : Goldilocks)
    {coeffs : List EF}
    (constant : coeffs.length ≤ 1) :
    finalPolyOf 0 (cosetEvaluations (friLogBlowup + 0) cosetShift coeffs) =
      some [evalAt coeffs (0 : Goldilocks)] := by
  rw [cosetEvaluations, evaluations_eq_replicate constant]
  rfl

/-- Several values are transformed. -/
theorem exists_finalPolyOf
    {log : Nat}
    (inRange : friLogBlowup + (log + 1) ≤ 32)
    (cosetShift : Goldilocks)
    (coeffs : List EF) :
    ∃ finalPoly,
      finalPolyOf (log + 1)
          (cosetEvaluations (friLogBlowup + (log + 1)) cosetShift coeffs) =
        some finalPoly ∧
      finalPoly.length = 2 ^ (log + 1) ∧
      ∀ x : Goldilocks,
        (2 ^ (log + 1) : Goldilocks) • evalAt finalPoly x =
          blockValue (twoAdicRoot (log + 1))⁻¹
            (fun i => evalAt coeffs (cosetShift * twoAdicRoot (log + 1) ^ i))
            (log + 1) 0 x := by
  have smaller : log + 1 ≤ 32 := by omega
  rcases exists_idftGoldilocks (Nat.succ_pos log) smaller cosetShift coeffs with
    ⟨finalPoly, isAnswer, length, outputs⟩
  have several : 1 <<< (log + 1) ≠ 1 := by
    have positive := Nat.two_pow_pos log
    rw [Nat.shiftLeft_eq, Nat.one_mul, pow_succ]
    omega
  refine ⟨finalPoly, ?_, length, fun x => ?_⟩
  · simp only [finalPolyOf, if_neg several]
    rw [Nat.shiftLeft_eq, Nat.one_mul, take_cosetEvaluations inRange,
      Nat.log2_two_pow]
    exact isAnswer
  · rw [← outputs, Nat.cast_pow]
    rfl

/-- There always is a final polynomial. -/
theorem finalPolyOf_isSome
    {logFinalPolyLen : Nat}
    (inRange : friLogBlowup + logFinalPolyLen ≤ 32)
    (cosetShift : Goldilocks)
    (coeffs : List EF) :
    ∃ finalPoly,
      finalPolyOf logFinalPolyLen
          (cosetEvaluations (friLogBlowup + logFinalPolyLen) cosetShift coeffs) =
        some finalPoly := by
  cases logFinalPolyLen with
  | zero =>
      exact ⟨_, rfl⟩
  | succ log =>
      rcases exists_finalPolyOf inRange cosetShift coeffs with
        ⟨finalPoly, isFinalPoly, _⟩
      exact ⟨finalPoly, isFinalPoly⟩

section Honest

variable {State : Type}
  (perm : T8Permutation)
  (challenger : Challenger State)
  {cosetShift : Goldilocks}
  (nonzero : cosetShift ≠ 0)
  {logFinalPolyLen k : Nat}
  (positive : 1 ≤ k + logFinalPolyLen)
  (inRange : k + (friLogBlowup + logFinalPolyLen) ≤ 32)

include nonzero positive inRange

/-- The commit phase answers, whatever elements are drawn. -/
theorem exists_friCommitPhaseWith
    (coeffs : List EF)
    (transcript : State) :
    ∃ commitResult after,
      friCommitPhaseWith perm challenger cosetShift logFinalPolyLen
          (cosetEvaluations (k + (friLogBlowup + logFinalPolyLen)) cosetShift
            coeffs)
          transcript =
        some (commitResult, after) ∧
      commitResult.steps.map FriCommitPhaseStep.logArity = roundArities k ∧
      finalPolyOf logFinalPolyLen
          (cosetEvaluations (friLogBlowup + logFinalPolyLen) cosetShift
            (foldedThrough cosetShift commitResult.steps coeffs)) =
        some commitResult.finalPoly ∧
      FoldChain cosetShift (k + (friLogBlowup + logFinalPolyLen))
        (cosetEvaluations (k + (friLogBlowup + logFinalPolyLen)) cosetShift
          coeffs)
        commitResult.steps
        (cosetEvaluations (friLogBlowup + logFinalPolyLen) cosetShift
          (foldedThrough cosetShift commitResult.steps coeffs)) := by
  have above : friLogBlowup < k + (friLogBlowup + logFinalPolyLen) := by omega
  have enough : k < 2 ^ (k + (friLogBlowup + logFinalPolyLen)) :=
    Nat.lt_two_pow_self.trans_le
      (Nat.pow_le_pow_right Nat.two_pos (Nat.le_add_right k _))
  have two : 2 ≤ 2 ^ (k + (friLogBlowup + logFinalPolyLen)) :=
    Nat.pow_le_pow_right (n := 2) Nat.two_pos (show 1 ≤ _ by omega)
  rcases roundsFold perm challenger logFinalPolyLen nonzero inRange _ coeffs
      transcript enough with
    ⟨steps, sampled, isRounds, chain, arities⟩
  rcases finalPolyOf_isSome (Nat.le_of_add_left_le inRange) cosetShift
      (foldedThrough cosetShift steps coeffs) with
    ⟨finalPoly, isFinalPoly⟩
  simp only [friCommitPhaseWith, length_cosetEvaluations, two_pow_and_pred, two,
    and_self, guard_true, Nat.log2_two_pow, above, isRounds, isFinalPoly,
    Option.bind_eq_bind, Option.bind_some, Option.pure_def]
  exact ⟨_, _, rfl, arities, isFinalPoly, chain⟩

end Honest

/-!
## Queries of an honest commitment
-/

section Queries

variable {cosetShift : Goldilocks}
  (nonzero : cosetShift ≠ 0)
  {log logFinal : Nat}
  (positive : 0 < logFinal)
  (finalInRange : logFinal ≤ 32)

include nonzero positive finalInRange

/-- All queries are verified when the final polynomial has the values left. -/
theorem verified_iff
    {initialEvals coeffs : List EF}
    {commitResult : FriCommitPhaseResult}
    (length : initialEvals.length = 2 ^ log)
    (chain :
      FoldChain cosetShift log initialEvals commitResult.steps
        (cosetEvaluations logFinal cosetShift coeffs)) :
    (∀ startIndex < 2 ^ log,
        ∃ initial rounds,
          buildQueryRoundsFromCommitResult commitResult initialEvals startIndex =
            some (initial, rounds) ∧
          verifyQuery startIndex initial rounds log logFinal
              commitResult.finalPoly cosetShift =
            some true) ↔
      ∀ position < 2 ^ logFinal,
        evalAt commitResult.finalPoly (roundPoint cosetShift logFinal position) =
          evalAt coeffs (roundPoint cosetShift logFinal position) := by
  rcases verifyQuery_of_chain nonzero positive finalInRange length chain
      (length_cosetEvaluations _ _ _) with
    ⟨folds, rfl, compared⟩
  constructor
  · intro verified position inFinal
    have inDomain : position * 2 ^ folds < 2 ^ (logFinal + folds) := by
      rw [pow_add]
      exact Nat.mul_lt_mul_of_pos_right inFinal (Nat.two_pow_pos folds)
    have reached : position * 2 ^ folds / 2 ^ folds = position :=
      Nat.mul_div_cancel position (Nat.two_pow_pos folds)
    rcases verified _ inDomain with ⟨initial, rounds, isBuilt, isVerified⟩
    rcases compared _ inDomain with
      ⟨initial', rounds', isBuilt', isCompared⟩
    rw [isBuilt, Option.some_inj, Prod.mk.injEq] at isBuilt'
    rw [← isBuilt'.1, ← isBuilt'.2, isVerified, reached,
      getD_cosetEvaluations cosetShift coeffs inFinal, Option.some_inj]
      at isCompared
    exact beq_iff_eq.mp isCompared.symm
  · intro agrees startIndex inDomain
    rcases compared _ inDomain with ⟨initial, rounds, isBuilt, isCompared⟩
    have inFinal : startIndex / 2 ^ folds < 2 ^ logFinal := by
      rw [pow_add, Nat.mul_comm] at inDomain
      exact Nat.div_lt_of_lt_mul inDomain
    refine ⟨initial, rounds, isBuilt, isCompared.trans ?_⟩
    rw [getD_cosetEvaluations cosetShift coeffs inFinal, agrees _ inFinal,
      beq_self_eq_true]

/-- The points of the coset are different. -/
theorem nodup_roundPoints :
    ((List.range (2 ^ logFinal)).map (roundPoint cosetShift logFinal)).Nodup := by
  apply List.nodup_range.map_on
  intro position listed position' listed' same
  rw [List.mem_range] at listed listed'
  rcases Nat.exists_eq_succ_of_ne_zero positive.ne' with ⟨log, rfl⟩
  have reversed :=
    root_pow_injective (twoAdicRoot_pow_half finalInRange)
      two_ne_zero_goldilocks (bitReverse_lt _ _) (bitReverse_lt _ _)
      (mul_left_cancel₀ nonzero same)
  rw [← bitReverse_bitReverse listed, ← bitReverse_bitReverse listed', reversed]

/-- And then it has the same values everywhere. -/
theorem agree_iff
    {finalPoly coeffs : List EF}
    (shorter : coeffs.length ≤ finalPoly.length)
    (enough : finalPoly.length ≤ 2 ^ logFinal) :
    (∀ position < 2 ^ logFinal,
        evalAt finalPoly (roundPoint cosetShift logFinal position) =
          evalAt coeffs (roundPoint cosetShift logFinal position)) ↔
      ∀ x : Goldilocks, evalAt finalPoly x = evalAt coeffs x := by
  constructor
  · intro agrees
    apply
      evalAt_eq_of_sameValues
        (nodup_roundPoints nonzero positive finalInRange) shorter
    · rwa [List.length_map, List.length_range]
    · intro x listed
      rcases List.mem_map.mp listed with ⟨position, isPosition, rfl⟩
      exact agrees position (List.mem_range.mp isPosition)
  · intro same position _
    exact same _

end Queries

/-!
## For which lengths queries are verified
-/

/--
Folding `k` times, with a final polynomial of `2 ^ logFinalPolyLen` coefficients, leads
to queries that are verified at every position, for all polynomials of that degree.
-/
def HonestQueriesAccepted
    {State : Type}
    (perm : T8Permutation)
    (challenger : Challenger State)
    (transcript : State)
    (logFinalPolyLen k : Nat)
    (cosetShift : Goldilocks) : Prop :=
  ∀ coeffs : List EF,
    coeffs.length ≤ 2 ^ (k + logFinalPolyLen) →
    ∃ commitResult after,
      friCommitPhaseWith perm challenger cosetShift logFinalPolyLen
          (cosetEvaluations (k + (friLogBlowup + logFinalPolyLen)) cosetShift
            coeffs)
          transcript =
        some (commitResult, after) ∧
      ∀ startIndex < 2 ^ (k + (friLogBlowup + logFinalPolyLen)),
        ∃ initial rounds,
          buildQueryRoundsFromCommitResult commitResult
              (cosetEvaluations (k + (friLogBlowup + logFinalPolyLen)) cosetShift
                coeffs)
              startIndex =
            some (initial, rounds) ∧
          verifyQuery startIndex initial rounds
              (k + (friLogBlowup + logFinalPolyLen) : Nat)
              (friLogBlowup + logFinalPolyLen : Nat) commitResult.finalPoly
              cosetShift =
            some true

/-- The coset of two points is transformed back when it is not shifted. -/
theorem finalPoly_of_two
    {coeffs finalPoly : List EF}
    (short : coeffs.length ≤ 2)
    (isFinalPoly :
      finalPolyOf 1 (cosetEvaluations (friLogBlowup + 1) 1 coeffs) =
        some finalPoly)
    (x : Goldilocks) :
    evalAt finalPoly x = evalAt coeffs x := by
  have inRange : friLogBlowup + (0 + 1) ≤ 32 := by decide
  have isRoot := twoAdicRoot_pow_half (Nat.le_of_add_left_le inRange)
  rcases exists_finalPolyOf inRange 1 coeffs with
    ⟨answer, isAnswer, length, outputs⟩
  rw [isFinalPoly, Option.some_inj] at isAnswer
  simp only [isAnswer, one_mul] at outputs ⊢
  apply
    evalAt_eq_of_sameValues (nodup_root_powers isRoot two_ne_zero_goldilocks)
      (length ▸ short)
  · rw [length, List.length_map, List.length_range]
  · intro point listed
    rcases List.mem_map.mp listed with ⟨i, _, rfl⟩
    have swapped :
        evalAt coeffs (twoAdicRoot (0 + 1)) = evalAt coeffs (-1 : Goldilocks) := by
      rw [Nat.zero_add, twoAdicRoot_one]
    apply smul_right_injective EF (pow_ne_zero 1 two_ne_zero_goldilocks)
    refine (outputs _).trans ?_
    apply
      blockValue_of_equalElsewhere isRoot two_ne_zero_goldilocks swapped
        (equalElsewhere_of_le isRoot (by decide) _)
    rw [pow_right_comm, root_pow_order isRoot, one_pow]

/-- A multiple of the variable tells the points that come out exchanged. -/
theorem eq_of_finalPoly_variable
    {log : Nat}
    (inRange : friLogBlowup + (log + 1) ≤ 32)
    {cosetShift : Goldilocks}
    {coeff : EF}
    (notZero : coeff ≠ 0)
    {finalPoly : List EF}
    (isFinalPoly :
      finalPolyOf (log + 1)
          (cosetEvaluations (friLogBlowup + (log + 1)) cosetShift
            (List.replicate 1 0 ++ [coeff])) =
        some finalPoly)
    (same :
      ∀ x : Goldilocks,
        evalAt finalPoly x = evalAt (List.replicate 1 0 ++ [coeff]) x) :
    cosetShift = 1 ∧ twoAdicRoot (log + 1) = -1 := by
  have smaller : log + 1 ≤ 32 := by omega
  have isRoot := twoAdicRoot_pow_half smaller
  have order := pow_ne_zero (log + 1) two_ne_zero_goldilocks
  rcases exists_finalPolyOf inRange cosetShift
      (List.replicate 1 0 ++ [coeff]) with
    ⟨answer, isAnswer, _, outputs⟩
  rw [isFinalPoly, Option.some_inj] at isAnswer
  simp only [← isAnswer, same, evalAt_monomial, pow_one] at outputs
  have atOne := outputs 1
  rw [blockValue_one, Nat.zero_mul, pow_zero, mul_one] at atOne
  have isOne : 1 = cosetShift :=
    smul_left_injective Goldilocks notZero
      (smul_right_injective EF order atOne)
  have atRoot :=
    (outputs (twoAdicRoot (log + 1))).trans
      (blockValue_root isRoot fun y => (cosetShift * y) • coeff)
  rw [← isOne, one_mul] at atRoot
  exact
    ⟨isOne.symm,
      smul_left_injective Goldilocks notZero
        (smul_right_injective EF order atRoot)⟩

theorem finalHeight_pos (logFinalPolyLen : Nat) :
    0 < friLogBlowup + logFinalPolyLen :=
  Nat.add_pos_left (by decide) logFinalPolyLen

section Lengths

variable {State : Type}
  (perm : T8Permutation)
  (challenger : Challenger State)
  (transcript : State)
  {cosetShift : Goldilocks}
  (nonzero : cosetShift ≠ 0)
  {logFinalPolyLen k : Nat}
  (positive : 1 ≤ k + logFinalPolyLen)
  (inRange : k + (friLogBlowup + logFinalPolyLen) ≤ 32)

include nonzero positive inRange

/-- Queries are verified when every final polynomial is that of the values left. -/
theorem honestQueriesAccepted_of_same
    (same :
      ∀ coeffs finalPoly : List EF,
        coeffs.length ≤ 2 ^ logFinalPolyLen →
        finalPolyOf logFinalPolyLen
            (cosetEvaluations (friLogBlowup + logFinalPolyLen) cosetShift
              coeffs) =
          some finalPoly →
        ∀ x : Goldilocks, evalAt finalPoly x = evalAt coeffs x) :
    HonestQueriesAccepted perm challenger transcript logFinalPolyLen k
      cosetShift := by
  intro coeffs degree
  rcases exists_friCommitPhaseWith perm challenger nonzero positive inRange
      coeffs transcript with
    ⟨commitResult, after, isResult, arities, isFinalPoly, chain⟩
  have ownDegree :
      (foldedThrough cosetShift commitResult.steps coeffs).length ≤
        2 ^ logFinalPolyLen :=
    length_foldedThrough_le arities (by rwa [Nat.add_comm])
  refine ⟨commitResult, after, isResult, ?_⟩
  apply
    (verified_iff nonzero (finalHeight_pos _) (Nat.le_of_add_left_le inRange)
      (length_cosetEvaluations _ _ _) chain).mpr
  intro position _
  exact same _ _ ownDegree isFinalPoly _

/-- Where queries are verified, that of a multiple of the variable is. -/
theorem exists_variable_of_honestQueriesAccepted
    (accepted :
      HonestQueriesAccepted perm challenger transcript logFinalPolyLen k
        cosetShift)
    (several : 0 < logFinalPolyLen) :
    ∃ coeff : EF,
      coeff ≠ 0 ∧
      ∃ finalPoly,
        finalPolyOf logFinalPolyLen
            (cosetEvaluations (friLogBlowup + logFinalPolyLen) cosetShift
              (List.replicate 1 0 ++ [coeff])) =
          some finalPoly ∧
        ∀ x : Goldilocks,
          evalAt finalPoly x = evalAt (List.replicate 1 0 ++ [coeff]) x := by
  have finalInRange := Nat.le_of_add_left_le inRange
  have degree :
      (List.replicate (2 ^ k) 0 ++ [efFromBase 1]).length ≤
        2 ^ (k + logFinalPolyLen) := by
    have double : 2 ^ (k + 1) ≤ 2 ^ (k + logFinalPolyLen) :=
      Nat.pow_le_pow_right Nat.two_pos (Nat.add_le_add_left several k)
    have atLeastOne := Nat.two_pow_pos k
    rw [pow_succ] at double
    rw [List.length_append, List.length_replicate, List.length_singleton]
    omega
  rcases accepted _ degree with ⟨commitResult, after, isResult, verified⟩
  rcases exists_friCommitPhaseWith perm challenger nonzero positive inRange
      (List.replicate (2 ^ k) 0 ++ [efFromBase 1]) transcript with
    ⟨commitResult', after', isResult', arities, isFinalPoly, chain⟩
  rw [isResult, Option.some_inj, Prod.mk.injEq] at isResult'
  rw [← isResult'.1] at arities isFinalPoly chain
  have agrees :=
    (verified_iff nonzero (finalHeight_pos _) finalInRange
      (length_cosetEvaluations _ _ _) chain).mp verified
  rcases foldedThrough_monomial nonzero arities (efFromBase 1) with
    ⟨factor, notZero, isVariable⟩
  rw [isVariable] at isFinalPoly agrees
  refine
    ⟨factor • efFromBase 1, smul_ne_zero notZero efFromBase_one_ne_zero,
      commitResult.finalPoly, isFinalPoly, ?_⟩
  have length : commitResult.finalPoly.length = 2 ^ logFinalPolyLen := by
    rcases Nat.exists_eq_succ_of_ne_zero several.ne' with ⟨log, rfl⟩
    rcases exists_finalPolyOf finalInRange cosetShift
        (List.replicate 1 0 ++ [factor • efFromBase 1]) with
      ⟨finalPoly, isSame, length, _⟩
    rw [isFinalPoly, Option.some_inj] at isSame
    rw [isSame, length]
  apply
    (agree_iff nonzero (finalHeight_pos _) finalInRange _ _).mp agrees
  · rw [length]
    exact Nat.pow_le_pow_right Nat.two_pos several
  · rw [length]
    exact Nat.pow_le_pow_right Nat.two_pos (Nat.le_add_left _ _)

/-- Queries are verified for one coefficient, and for two on the coset of one. -/
theorem honestQueriesAccepted_iff :
    HonestQueriesAccepted perm challenger transcript logFinalPolyLen k
        cosetShift ↔
      logFinalPolyLen = 0 ∨ logFinalPolyLen = 1 ∧ cosetShift = 1 := by
  constructor
  · intro accepted
    match logFinalPolyLen with
    | 0 =>
        exact .inl rfl
    | log + 1 =>
        rcases exists_variable_of_honestQueriesAccepted perm challenger
            transcript nonzero positive inRange accepted (Nat.succ_pos log) with
          ⟨coeff, notZero, finalPoly, isFinalPoly, same⟩
        have finalInRange := Nat.le_of_add_left_le inRange
        rcases eq_of_finalPoly_variable finalInRange notZero isFinalPoly
            same with
          ⟨isOne, isNegOne⟩
        have single : log = 0 := by
          by_contra several
          rcases Nat.exists_eq_succ_of_ne_zero several with ⟨more, rfl⟩
          exact twoAdicRoot_ne_neg_one (by omega) isNegOne
        exact .inr ⟨congrArg (· + 1) single, isOne⟩
  · intro lengths
    apply
      honestQueriesAccepted_of_same perm challenger transcript nonzero positive
        inRange
    intro coeffs finalPoly short isFinalPoly x
    rcases lengths with rfl | ⟨rfl, rfl⟩
    · have constant : coeffs.length ≤ 1 := short
      have isValue := finalPolyOf_zero cosetShift constant
      rw [isFinalPoly, Option.some_inj] at isValue
      rw [isValue, evalAt_singleton]
      exact evalAt_eq_of_length_le_one constant _ _
    · exact finalPoly_of_two short isFinalPoly x

end Lengths

/--
The inverse transform inverts evaluation for two values and for no other number.  What
it takes to coefficients at any size are the values of a polynomial that does not tell
the root from minus one, nor the other roots of unity apart, and up to eight values
nothing else.  Queries of an honest commitment are verified when the final polynomial
is a constant or, on the coset that is not shifted, has two coefficients.
-/
theorem inverse_transform_and_queries
    {logN : Nat}
    (sizePositive : 1 ≤ logN)
    (sizeInRange : logN ≤ 32)
    {State : Type}
    (perm : T8Permutation)
    (challenger : Challenger State)
    (transcript : State)
    {logFinalPolyLen k : Nat}
    (positive : 1 ≤ k + logFinalPolyLen)
    (inRange : k + (friLogBlowup + logFinalPolyLen) ≤ 32)
    {cosetShift : Goldilocks}
    (nonzero : cosetShift ≠ 0) :
    ((∀ coeffs : List EF, coeffs.length = 2 ^ logN → RoundTrips logN coeffs) ↔
      logN = 1) ∧
    (∀ (omega : Goldilocks) (coeffs : List EF),
      goldilocksTwoAdicGenerator logN = some omega →
      coeffs.length = 2 ^ logN →
      (Interchangeable omega logN coeffs → RoundTrips logN coeffs) ∧
      (RoundTrips logN coeffs →
        evalAt coeffs omega = evalAt coeffs (-1 : Goldilocks)) ∧
      (logN ≤ 3 → RoundTrips logN coeffs → Interchangeable omega logN coeffs)) ∧
    (HonestQueriesAccepted perm challenger transcript logFinalPolyLen k cosetShift ↔
      logFinalPolyLen = 0 ∨ logFinalPolyLen = 1 ∧ cosetShift = 1) := by
  refine ⟨?_, ?_, ?_⟩
  · constructor
    · intro inverts
      by_contra several
      rcases Nat.exists_eq_add_of_le' (show 2 ≤ logN by omega) with ⟨log, rfl⟩
      exact
        not_roundTrips_variablePolynomial sizeInRange
          (inverts _ (length_variablePolynomial (log + 1)))
    · rintro rfl coeffs length
      exact roundTrips_one length
  · intro omega coeffs isOmega length
    rw [goldilocksTwoAdicGenerator_eq sizePositive sizeInRange,
      Option.some_inj] at isOmega
    subst isOmega
    rcases Nat.exists_eq_succ_of_ne_zero (Nat.ne_of_gt sizePositive) with
      ⟨log, rfl⟩
    exact
      ⟨roundTrips_of_interchangeable sizeInRange length,
        swapped_of_roundTrips sizeInRange length,
        fun small =>
          interchangeable_of_roundTrips sizeInRange length
            (Nat.le_of_succ_le_succ small)⟩
  · exact
      honestQueriesAccepted_iff perm challenger transcript nonzero positive
        inRange

/-- Four values, and a final polynomial of two coefficients on the shifted coset. -/
theorem inverse_transform_and_queries_four :
    ¬(∀ coeffs : List EF, coeffs.length = 2 ^ 2 → RoundTrips 2 coeffs) ∧
      RoundTrips 2 [efFromBase 1, 0, 0, 0] ∧
      HonestQueriesAccepted t8Permutation
        (P2Challenger.challenger t8Permutation) P2Challenger.new 1 2 1 ∧
      ¬HonestQueriesAccepted t8Permutation
        (P2Challenger.challenger t8Permutation) P2Challenger.new 1 2 7 := by
  have positive : 1 ≤ 2 := by decide
  have inRange : 2 ≤ 32 := by decide
  have statement (cosetShift : Goldilocks) (nonzero : cosetShift ≠ 0) :=
    inverse_transform_and_queries positive inRange t8Permutation
      (P2Challenger.challenger t8Permutation) P2Challenger.new
      (show 1 ≤ 2 + 1 by decide) (show 2 + (friLogBlowup + 1) ≤ 32 by decide)
      nonzero
  have sizes := (statement 1 one_ne_zero).1
  have constants :=
    ((statement 1 one_ne_zero).2.1 _ [efFromBase 1, 0, 0, 0]
      (goldilocksTwoAdicGenerator_eq positive inRange) rfl).1
  have value (x : Goldilocks) :
      evalAt [efFromBase 1, 0, 0, 0] x = efFromBase 1 := by
    simp [evalAt]
  have queries (cosetShift : Goldilocks) (nonzero : cosetShift ≠ 0) :=
    (statement cosetShift nonzero).2.2
  refine ⟨fun inverts => ?_, constants ⟨?_, ?_⟩, ?_, fun accepted => ?_⟩
  · exact absurd (sizes.mp inverts) (by decide)
  · rw [value, value]
  · intro x y _ _ _ _
    rw [value, value]
  · exact (queries 1 one_ne_zero).mpr (.inr ⟨rfl, rfl⟩)
  · exact absurd ((queries 7 (by decide)).mp accepted) (by decide)

/--
The four coefficients of the variable do not come back from their values, and a query
fails for a final polynomial of two coefficients on the default coset and for one of
four on any.
-/
theorem idftGoldilocks_variable :
    (∃ omega answer,
      goldilocksTwoAdicGenerator 2 = some omega ∧
      idftGoldilocks
          (evaluations omega 1 2 [0, efFromBase 1, 0, 0]) 2 =
        some answer ∧
      answer ≠ [0, efFromBase 1, 0, 0]) ∧
    ¬HonestQueriesAccepted t8Permutation
      (P2Challenger.challenger t8Permutation) P2Challenger.new 1 0 7 ∧
    ¬HonestQueriesAccepted t8Permutation
      (P2Challenger.challenger t8Permutation) P2Challenger.new 2 0 1 := by
  have queries
      (logFinalPolyLen : Nat)
      (cosetShift : Goldilocks)
      (nonzero : cosetShift ≠ 0)
      (positive : 1 ≤ 0 + logFinalPolyLen)
      (inRange : 0 + (friLogBlowup + logFinalPolyLen) ≤ 32) :=
    honestQueriesAccepted_iff t8Permutation
      (P2Challenger.challenger t8Permutation) P2Challenger.new nonzero positive
      inRange
  refine ⟨?_, fun accepted => ?_, fun accepted => ?_⟩
  · have positive : 0 < 2 := by decide
    have inRange : 0 + 2 ≤ 32 := by decide
    have generator := goldilocksTwoAdicGenerator_eq positive inRange
    rcases exists_idftGoldilocks positive inRange 1 [0, efFromBase 1, 0, 0] with
      ⟨answer, isAnswer, _⟩
    refine ⟨_, answer, generator, isAnswer, fun same => ?_⟩
    rw [same] at isAnswer
    exact not_roundTrips_variablePolynomial inRange ⟨_, generator, isAnswer⟩
  · have lengths :=
      (queries 1 7 (by decide) (by decide) (by decide)).mp accepted
    exact absurd lengths (by decide)
  · have lengths :=
      (queries 2 1 (by decide) (by decide) (by decide)).mp accepted
    exact absurd lengths (by decide)

end ScalarCore.VerifierPy
