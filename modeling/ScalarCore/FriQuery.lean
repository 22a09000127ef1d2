import Mathlib.Data.List.InsertIdx
import ScalarCore.FriCommit
import ScalarCore.Poseidon2Verifier

namespace ScalarCore.VerifierPy

/-!
# The query phase of the independent verifier

A query follows one position through the rounds.  In each round the value
carried along is put among its siblings, the group is folded, and in the end the
value is compared with the final polynomial.
-/

open PolynomialFold

/-- `FriQueryRoundInput`. -/
structure FriQueryRoundInput where
  beta : EF
  logArity : Nat
  siblingValues : List EF

/-- The final polynomial at a point, from the highest coefficient down. -/
def evalFinalPoly (finalPoly : List EF) (xFinal : Goldilocks) : EF :=
  finalPoly.reverse.foldl
    (fun evalAtX coeff => efAdd (efMul evalAtX (efFromBase xFinal)) coeff)
    ![0, 0, 0]

/--
The rounds of `verify_query` from an index, a value and a height on, and the
comparison after them.
-/
def verifyQueryRounds
    (logFinalHeight : Int)
    (finalPoly : List EF)
    (cosetShift : Goldilocks) :
    List FriQueryRoundInput → Nat → EF → Int → Option Bool
  | [], currentIndex, foldedEval, logCurrent =>
      if logCurrent ≠ logFinalHeight then
        some false
      else do
        let xFinal ←
          domainPointAtIndex currentIndex logFinalHeight cosetShift
        return evalFinalPoly finalPoly xFinal == foldedEval
  | rnd :: rest, currentIndex, foldedEval, logCurrent =>
      let arity := 1 <<< rnd.logArity
      if rnd.logArity ≠ 1 ∧ rnd.logArity ≠ 2 then
        none
      else if rnd.siblingValues.length ≠ arity - 1 then
        some false
      else do
        let indexInGroup := currentIndex % arity
        let evalsFull := rnd.siblingValues.insertIdx indexInGroup foldedEval
        let groupIndex := currentIndex >>> rnd.logArity
        let folded ←
          foldQueryStep rnd.logArity evalsFull rnd.beta groupIndex logCurrent
            cosetShift
        verifyQueryRounds logFinalHeight finalPoly cosetShift rest groupIndex
          folded (logCurrent - rnd.logArity)

/-- `verify_query`. -/
def verifyQuery
    (startIndex : Nat)
    (initialFoldedEval : EF)
    (rounds : List FriQueryRoundInput)
    (logGlobalMaxHeight logFinalHeight : Int)
    (finalPoly : List EF)
    (cosetShift : Goldilocks) : Option Bool :=
  verifyQueryRounds logFinalHeight finalPoly cosetShift rounds startIndex
    initialFoldedEval logGlobalMaxHeight

/-- The siblings of a position in each layer that was folded. -/
def queryRounds :
    List FriCommitPhaseStep → List EF → Nat → Option (List FriQueryRoundInput)
  | [], _, _ => some []
  | step :: rest, layerEvals, currentIndex => do
      let arity := 1 <<< step.logArity
      let groupIndex := currentIndex >>> step.logArity
      let indexInGroup := currentIndex % arity
      let fullGroup := (layerEvals.drop (groupIndex * arity)).take arity
      let siblings ←
        ((List.range arity).filter (· ≠ indexInGroup)).mapM fun j =>
          fullGroup[j]?
      let later ← queryRounds rest step.foldedEvals groupIndex
      let rnd : FriQueryRoundInput :=
        { beta := step.beta
          logArity := step.logArity
          siblingValues := siblings }
      return rnd :: later

/-- `build_query_rounds_from_commit_result`. -/
def buildQueryRoundsFromCommitResult
    (commitResult : FriCommitPhaseResult)
    (initialEvals : List EF)
    (startIndex : Nat) : Option (EF × List FriQueryRoundInput) := do
  let rounds ← queryRounds commitResult.steps initialEvals startIndex
  let initialFoldedEval ← initialEvals[startIndex]?
  return (initialFoldedEval, rounds)

/-!
## A group and its siblings
-/

/-- The values of a group are those of its positions. -/
theorem take_drop_eq_map
    (layer : List EF)
    {start size : Nat}
    (inRange : start + size ≤ layer.length) :
    (layer.drop start).take size =
      (List.range size).map fun j => layer.getD (start + j) 0 := by
  apply List.ext_getElem?
  intro j
  by_cases inGroup : j < size
  · rw [List.getElem?_take_of_lt inGroup, List.getElem?_drop,
      List.getElem?_map, List.getElem?_range inGroup,
      getElem?_eq_getD (by omega)]
    rfl
  · have pastTaken : ((layer.drop start).take size).length ≤ j := by
      rw [List.length_take]
      omega
    have pastMapped :
        ((List.range size).map fun j => layer.getD (start + j) 0).length ≤
          j := by
      rw [List.length_map, List.length_range]
      omega
    rw [List.getElem?_eq_none pastTaken, List.getElem?_eq_none pastMapped]

/-- The siblings with the value in its place are the group again. -/
theorem exists_siblings
    {logArity : Nat}
    (arity : logArity = 1 ∨ logArity = 2)
    (value : Nat → EF)
    {indexInGroup : Nat}
    (inGroup : indexInGroup < 2 ^ logArity) :
    ∃ siblings,
      ((List.range (2 ^ logArity)).filter (· ≠ indexInGroup)).mapM
          (fun j => ((List.range (2 ^ logArity)).map value)[j]?) =
        some siblings ∧
      siblings.length = 2 ^ logArity - 1 ∧
      siblings.insertIdx indexInGroup (value indexInGroup) =
        (List.range (2 ^ logArity)).map value := by
  rcases arity with rfl | rfl
  · match indexInGroup, inGroup with
    | 0, _ => exact ⟨[value 1], rfl, rfl, rfl⟩
    | 1, _ => exact ⟨[value 0], rfl, rfl, rfl⟩
  · match indexInGroup, inGroup with
    | 0, _ => exact ⟨[value 1, value 2, value 3], rfl, rfl, rfl⟩
    | 1, _ => exact ⟨[value 0, value 2, value 3], rfl, rfl, rfl⟩
    | 2, _ => exact ⟨[value 0, value 1, value 3], rfl, rfl, rfl⟩
    | 3, _ => exact ⟨[value 0, value 1, value 2], rfl, rfl, rfl⟩

/-!
## Queries of an honest commitment
-/

/-- The comparison evaluates the final polynomial at its point. -/
theorem evalFinalPoly_eq (finalPoly : List EF) (xFinal : Goldilocks) :
    evalFinalPoly finalPoly xFinal = evalAt finalPoly xFinal := by
  have zero : (![0, 0, 0] : EF) = 0 := by
    ext i
    fin_cases i <;> rfl
  rw [evalFinalPoly, List.foldl_reverse, zero, evalAt]
  apply congrArg fun step => List.foldr step 0 finalPoly
  funext coeff value
  rw [efMul_efFromBase, efAdd_eq, add_comm]

section Queries

variable {cosetShift : Goldilocks}
  (nonzero : cosetShift ≠ 0)

include nonzero

/-- In each round the group is the layer's, and its fold is in the next layer. -/
theorem exists_queryRound
    {log logArity : Nat}
    {layer foldedEvals : List EF}
    {beta : EF}
    (arity : logArity = 1 ∨ logArity = 2)
    (length : layer.length = 2 ^ (log + logArity))
    (logInRange : log + logArity ≤ 32)
    (isFold : foldColumn logArity layer beta cosetShift = some foldedEvals)
    {index : Nat}
    (inRange : index < 2 ^ (log + logArity)) :
    ∃ siblings,
      ((List.range (2 ^ logArity)).filter (· ≠ index % 2 ^ logArity)).mapM
          (fun j =>
            ((layer.drop (index / 2 ^ logArity * 2 ^ logArity)).take
              (2 ^ logArity))[j]?) =
        some siblings ∧
      siblings.length = 2 ^ logArity - 1 ∧
      foldQueryStep logArity
          (siblings.insertIdx (index % 2 ^ logArity) (layer.getD index 0))
          beta (index / 2 ^ logArity) (log + logArity : Nat) cosetShift =
        some (foldedEvals.getD (index / 2 ^ logArity) 0) := by
  have size := Nat.two_pow_pos logArity
  rw [pow_add, Nat.mul_comm] at inRange
  have isGroup : index / 2 ^ logArity < 2 ^ log :=
    Nat.div_lt_of_lt_mul inRange
  have placed :
      index / 2 ^ logArity * 2 ^ logArity + index % 2 ^ logArity = index := by
    rw [Nat.mul_comm]
    exact Nat.div_add_mod index (2 ^ logArity)
  have fits :
      index / 2 ^ logArity * 2 ^ logArity + 2 ^ logArity ≤ layer.length := by
    rw [length, pow_add, ← Nat.succ_mul]
    exact Nat.mul_le_mul_right _ isGroup
  rcases exists_siblings arity
      (fun j => layer.getD (index / 2 ^ logArity * 2 ^ logArity + j) 0)
      (Nat.mod_lt index size) with
    ⟨siblings, isSiblings, count, together⟩
  rw [placed] at together
  refine ⟨siblings, ?_, count, ?_⟩
  · rw [take_drop_eq_map layer fits]
    exact isSiblings
  · rw [foldColumn_eq beta nonzero arity length logInRange,
      Option.some_inj] at isFold
    rw [together, Nat.mul_comm,
      foldQueryStep_eq beta nonzero arity logInRange
        (fun index => layer.getD index 0),
      ← isFold, List.getD_eq_getElem?_getD, List.getElem?_map,
      List.getElem?_range isGroup]
    rfl

/--
The query phase follows a chain of folds to its last layer, where it compares the
final polynomial with the value at the position it has reached.
-/
theorem verifyQueryRounds_of_chain
    (finalPoly : List EF)
    {log logFinal : Nat}
    (positive : 0 < logFinal)
    (finalInRange : logFinal ≤ 32)
    {layer final : List EF}
    {steps : List FriCommitPhaseStep}
    (chain : FoldChain cosetShift log layer steps final)
    (finalLength : final.length = 2 ^ logFinal) :
    ∃ folds,
      log = logFinal + folds ∧
      ∀ index < 2 ^ log,
        ∃ rounds,
          queryRounds steps layer index = some rounds ∧
          verifyQueryRounds logFinal finalPoly cosetShift rounds index
              (layer.getD index 0) log =
            some
              (evalAt finalPoly
                  (roundPoint cosetShift logFinal (index / 2 ^ folds)) ==
                final.getD (index / 2 ^ folds) 0) := by
  induction chain with
  | @done log layer length =>
      have isLog : log = logFinal :=
        Nat.pow_right_injective (le_refl 2) (length.symm.trans finalLength)
      subst isLog
      refine ⟨0, rfl, fun index inRange => ⟨[], rfl, ?_⟩⟩
      have point :=
        domainPointAtIndex_eq positive finalInRange index cosetShift
      rw [verifyQueryRounds, if_neg (by simp), point, pow_zero, Nat.div_one]
      simp only [Option.bind_eq_bind, Option.bind_some, Option.pure_def,
        evalFinalPoly_eq, roundPoint]
  | @round log layer final step rest arity length logInRange isFold later
      inductionHypothesis =>
      have supported : ¬ (step.logArity ≠ 1 ∧ step.logArity ≠ 2) :=
        fun unsupported => arity.elim unsupported.1 unsupported.2
      have remaining :
          ((log + step.logArity : Nat) : Int) - step.logArity = log := by
        rw [Nat.cast_add, add_sub_cancel_right]
      rcases inductionHypothesis finalLength with ⟨folds, isLog, verified⟩
      refine
        ⟨folds + step.logArity, by rw [isLog, Nat.add_assoc],
          fun index inRange => ?_⟩
      rcases exists_queryRound nonzero arity length logInRange isFold
          inRange with
        ⟨siblings, isSiblings, count, isStep⟩
      have isGroup : index / 2 ^ step.logArity < 2 ^ log := by
        rw [pow_add, Nat.mul_comm] at inRange
        exact Nat.div_lt_of_lt_mul inRange
      have reached :
          index / 2 ^ step.logArity / 2 ^ folds =
            index / 2 ^ (folds + step.logArity) := by
        rw [Nat.div_div_eq_div_mul, ← pow_add, Nat.add_comm]
      rcases verified _ isGroup with ⟨rounds, isRounds, compared⟩
      rw [reached] at compared
      refine
        ⟨{ beta := step.beta
           logArity := step.logArity
           siblingValues := siblings } :: rounds, ?_, ?_⟩
      · simp only [queryRounds, Nat.shiftLeft_eq, Nat.one_mul,
          Nat.shiftRight_eq_div_pow, isSiblings, isRounds,
          Option.bind_eq_bind, Option.bind_some, Option.pure_def]
      · simp only [verifyQueryRounds, Nat.shiftLeft_eq, Nat.one_mul,
          Nat.shiftRight_eq_div_pow, if_neg supported, count, ne_eq,
          not_true_eq_false, if_false, isStep, remaining,
          Option.bind_eq_bind, Option.bind_some]
        exact compared

/-- A query of what the commit phase folded is built and compared. -/
theorem verifyQuery_of_chain
    {log logFinal : Nat}
    (positive : 0 < logFinal)
    (finalInRange : logFinal ≤ 32)
    {initialEvals final : List EF}
    {commitResult : FriCommitPhaseResult}
    (length : initialEvals.length = 2 ^ log)
    (chain : FoldChain cosetShift log initialEvals commitResult.steps final)
    (finalLength : final.length = 2 ^ logFinal) :
    ∃ folds,
      log = logFinal + folds ∧
      ∀ startIndex < 2 ^ log,
        ∃ initial rounds,
          buildQueryRoundsFromCommitResult commitResult initialEvals startIndex =
            some (initial, rounds) ∧
          verifyQuery startIndex initial rounds log logFinal
              commitResult.finalPoly cosetShift =
            some
              (evalAt commitResult.finalPoly
                  (roundPoint cosetShift logFinal (startIndex / 2 ^ folds)) ==
                final.getD (startIndex / 2 ^ folds) 0) := by
  rcases verifyQueryRounds_of_chain nonzero commitResult.finalPoly positive
      finalInRange chain finalLength with
    ⟨folds, isLog, compared⟩
  refine ⟨folds, isLog, fun startIndex inRange => ?_⟩
  rcases compared startIndex inRange with ⟨rounds, isRounds, isCompared⟩
  refine ⟨initialEvals.getD startIndex 0, rounds, ?_, isCompared⟩
  simp only [buildQueryRoundsFromCommitResult, isRounds,
    getElem?_eq_getD (length.symm ▸ inRange : startIndex < _),
    Option.bind_eq_bind, Option.bind_some, Option.pure_def]

/-- With one value left the comparison succeeds. -/
theorem verifyQuery_of_equal
    {log : Nat}
    {initialEvals : List EF}
    {commitResult : FriCommitPhaseResult}
    {value : EF}
    (length : initialEvals.length = 2 ^ log)
    (isFinalPoly : commitResult.finalPoly = [value])
    (chain :
      FoldChain cosetShift log initialEvals commitResult.steps
        (List.replicate 8 value))
    {startIndex : Nat}
    (inRange : startIndex < 2 ^ log) :
    ∃ initial rounds,
      buildQueryRoundsFromCommitResult commitResult initialEvals startIndex =
        some (initial, rounds) ∧
      verifyQuery startIndex initial rounds log friLogBlowup
          commitResult.finalPoly cosetShift =
        some true := by
  have positive : 0 < friLogBlowup := by decide
  have finalInRange : friLogBlowup ≤ 32 := by decide
  rcases verifyQuery_of_chain nonzero positive finalInRange length chain
      List.length_replicate with
    ⟨folds, rfl, compared⟩
  rcases compared startIndex inRange with ⟨initial, rounds, isBuilt, isCompared⟩
  refine ⟨initial, rounds, isBuilt, isCompared.trans ?_⟩
  have reached : startIndex / 2 ^ folds < 8 := by
    rw [pow_add, Nat.mul_comm] at inRange
    exact Nat.div_lt_of_lt_mul inRange
  have isValue :
      (List.replicate 8 value).getD (startIndex / 2 ^ folds) 0 = value := by
    rw [List.getD_eq_getElem?_getD, List.getElem?_replicate, if_pos reached,
      Option.getD_some]
  rw [isFinalPoly, evalAt_singleton, isValue, beq_self_eq_true]

end Queries

/-- A chain with a step ends with what the last step folded. -/
theorem FoldChain.getLast?_steps
    {cosetShift : Goldilocks}
    {log : Nat}
    {layer final : List EF}
    {steps : List FriCommitPhaseStep}
    (chain : FoldChain cosetShift log layer steps final)
    (folded : steps ≠ []) :
    steps.getLast?.map FriCommitPhaseStep.foldedEvals = some final := by
  induction chain with
  | done length =>
      exact absurd rfl folded
  | @round log layer final step rest arity length inRange isFold later
      inductionHypothesis =>
      cases later with
      | done length =>
          rfl
      | round arity length inRange isFold later =>
          rw [List.getLast?_cons_cons]
          exact inductionHypothesis (List.cons_ne_nil _ _)

/--
The values of a polynomial with `2 ^ k` coefficients at most, on any coset of
`2 ^ (k + 3)` points and with any sequence of drawn elements, are folded to eight
equal values, the final polynomial, and a query at any position is verified.
-/
theorem fri_query_complete
    {State : Type}
    (perm : T8Permutation)
    (challenger : Challenger State)
    (transcript : State)
    {k : Nat}
    (positive : 1 ≤ k)
    (inRange : k + 3 ≤ 32)
    {cosetShift : Goldilocks}
    (nonzero : cosetShift ≠ 0)
    {coeffs : List EF}
    (degree : coeffs.length ≤ 2 ^ k) :
    ∃ commitResult value after,
      friCommitPhase perm challenger cosetShift
          (cosetEvaluations (k + 3) cosetShift coeffs) transcript =
        some (commitResult, after) ∧
      commitResult.steps.map FriCommitPhaseStep.logArity = roundArities k ∧
      commitResult.steps.getLast?.map FriCommitPhaseStep.foldedEvals =
        some (List.replicate 8 value) ∧
      commitResult.finalPoly = [value] ∧
      ∀ startIndex < 2 ^ (k + 3),
        ∃ initial rounds,
          buildQueryRoundsFromCommitResult commitResult
              (cosetEvaluations (k + 3) cosetShift coeffs) startIndex =
            some (initial, rounds) ∧
          verifyQuery startIndex initial rounds (k + 3 : Nat) friLogBlowup
              commitResult.finalPoly cosetShift =
            some true := by
  rcases exists_friCommitPhase perm challenger nonzero positive inRange degree
      transcript with
    ⟨commitResult, value, after, isResult, isFinalPoly, chain, arities⟩
  have folded : commitResult.steps ≠ [] := by
    intro none
    rw [none, List.map_nil] at arities
    have total := congrArg List.length arities
    simp only [roundArities, List.length_nil, List.length_append,
      List.length_replicate] at total
    omega
  exact
    ⟨commitResult, value, after, isResult, arities, chain.getLast?_steps folded,
      isFinalPoly, fun startIndex inDomain =>
        verifyQuery_of_equal nonzero (length_evaluations _ _ _ _) isFinalPoly
          chain inDomain⟩

/-- The linear polynomial of two coefficients, with the duplex challenger. -/
theorem fri_query_complete_linear :
    ∃ commitResult value after,
      friCommitPhase t8Permutation (P2Challenger.challenger t8Permutation) 7
          (cosetEvaluations 4 7 [efFromBase 1, efFromBase 2])
          P2Challenger.new =
        some (commitResult, after) ∧
      commitResult.steps.map FriCommitPhaseStep.logArity = roundArities 1 ∧
      commitResult.steps.getLast?.map FriCommitPhaseStep.foldedEvals =
        some (List.replicate 8 value) ∧
      commitResult.finalPoly = [value] ∧
      ∀ startIndex < 2 ^ (1 + 3),
        ∃ initial rounds,
          buildQueryRoundsFromCommitResult commitResult
              (cosetEvaluations 4 7 [efFromBase 1, efFromBase 2]) startIndex =
            some (initial, rounds) ∧
          verifyQuery startIndex initial rounds 4 friLogBlowup
              commitResult.finalPoly 7 =
            some true :=
  fri_query_complete t8Permutation (P2Challenger.challenger t8Permutation)
    P2Challenger.new (k := 1) (by decide) (by decide) (by decide) (by decide)

end ScalarCore.VerifierPy
