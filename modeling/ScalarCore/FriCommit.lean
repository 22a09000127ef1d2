import Mathlib.Data.Nat.Log
import ScalarCore.FriMerkle

namespace ScalarCore.VerifierPy

/-!
# The commit phase of the independent verifier

Each round commits the evaluations as a matrix with a Merkle root, lets the
challenger observe the root, draws an extension element and folds.  The phase is
stated for every challenger, hence for every sequence of drawn elements; the
duplex challenger of the source is one of them.

The constants are those of the module: the final polynomial has one coefficient,
so the branch that interpolates a longer one is not taken.
-/

open PolynomialFold

/-- `FRI_LOG_BLOWUP`. -/
def friLogBlowup : Nat :=
  3

/-- `FRI_MAX_LOG_ARITY`. -/
def friMaxLogArity : Nat :=
  2

/-- `FRI_LOG_FINAL_POLY_LEN`. -/
def friLogFinalPolyLen : Nat :=
  0

/-!
## The challenger
-/

/-- What the commit phase asks of a challenger. -/
structure Challenger (State : Type) where
  observeBase : State → List UInt64 → State
  sampleEf : State → EF × State

/-- `P2Challenger`. -/
structure P2Challenger where
  state : State8
  inputBuffer : List UInt64
  outputBuffer : List UInt64

namespace P2Challenger

/-- `P2Challenger()`. -/
def new : P2Challenger where
  state := Vector.replicate 8 0
  inputBuffer := []
  outputBuffer := []

/-- `_duplex`: permute, and offer the rate portion. -/
def duplex (perm : T8Permutation) (challenger : P2Challenger) : P2Challenger :=
  let permuted := poseidon2PermuteT8 perm challenger.state
  { challenger with
    state := permuted
    outputBuffer := permuted.toList.take 4 }

/-- The buffered input enters the state. -/
def absorbInput
    (perm : T8Permutation)
    (challenger : P2Challenger) : P2Challenger :=
  { duplex perm
      { challenger with
        state := absorb challenger.state challenger.inputBuffer } with
    inputBuffer := [] }

/-- Buffered input is absorbed, if there is any. -/
def flush (perm : T8Permutation) (challenger : P2Challenger) : P2Challenger :=
  if challenger.inputBuffer = [] then
    challenger
  else
    absorbInput perm challenger

/-- One value is buffered; a full buffer is absorbed before. -/
def bufferValue
    (perm : T8Permutation)
    (challenger : P2Challenger)
    (value : UInt64) : P2Challenger :=
  let room :=
    if challenger.inputBuffer.length = 4 then
      absorbInput perm challenger
    else
      challenger
  { room with inputBuffer := room.inputBuffer ++ [fieldReduce value] }

/-- `observe_base`. -/
def observeBase
    (perm : T8Permutation)
    (challenger : P2Challenger)
    (values : List UInt64) : P2Challenger :=
  flush perm (values.foldl (bufferValue perm) challenger)

/-- The challenger whose output buffer holds three words at least. -/
def refill (perm : T8Permutation) (challenger : P2Challenger) : P2Challenger :=
  let flushed := flush perm challenger
  if flushed.outputBuffer.length < 3 then
    duplex perm flushed
  else
    flushed

/--
`sample_ef`: three words are drawn.  As three are there, the buffer is not empty
before the last is drawn.
-/
def sampleEf
    (perm : T8Permutation)
    (challenger : P2Challenger) : EF × P2Challenger :=
  let refilled := refill perm challenger
  let word (index : Nat) :=
    Goldilocks.new (refilled.outputBuffer.getD index 0)
  (![word 0, word 1, word 2],
    { refilled with outputBuffer := refilled.outputBuffer.drop 3 })

/-- The duplex challenger of the source. -/
def challenger (perm : T8Permutation) : Challenger P2Challenger where
  observeBase := observeBase perm
  sampleEf := sampleEf perm

end P2Challenger

/-!
## The commit phase
-/

/-- `FriCommitPhaseStep`. -/
structure FriCommitPhaseStep where
  commitmentRoot : Digest4
  logArity : Nat
  foldedEvals : List EF
  numRows : Nat
  beta : EF

/-- `FriCommitPhaseResult`. -/
structure FriCommitPhaseResult where
  steps : List FriCommitPhaseStep
  finalPoly : List EF
  numRounds : Nat
  logTraceHeight : Nat
  logBlowup : Nat

section Commit

variable {State : Type}
  (perm : T8Permutation)
  (challenger : Challenger State)
  (cosetShift : Goldilocks)

/--
One round of a commit phase whose final polynomial has `2 ^ logFinalPolyLen`
coefficients: commit, observe, draw, fold.
-/
def commitRoundWith
    (logFinalPolyLen : Nat)
    (folded : List EF)
    (transcript : State) : Option (FriCommitPhaseStep × State) := do
  let logCurrent := folded.length.log2
  let maxFoldToTarget := logCurrent - (friLogBlowup + logFinalPolyLen)
  let logArity := min maxFoldToTarget friMaxLogArity
  let arity := 1 <<< logArity
  let numRows := folded.length / arity
  let matrix :=
    (List.range numRows).map fun i => (folded.drop (i * arity)).take arity
  let (root, _) ← merkleCommitArityMatrix perm matrix
  let observed := challenger.observeBase transcript (List.ofFn root)
  let (beta, sampled) := challenger.sampleEf observed
  let foldedEvals ← foldColumn logArity folded beta cosetShift
  let step : FriCommitPhaseStep :=
    { commitmentRoot := root, logArity, foldedEvals, numRows, beta }
  return (step, sampled)

/-- The rounds, until no more than the final height is left; `fuel` counts them. -/
def commitRoundsWith
    (logFinalPolyLen : Nat) :
    Nat → List EF → State →
      Option (List FriCommitPhaseStep × List EF × State)
  | 0, _, _ => none
  | fuel + 1, folded, transcript =>
      if 1 <<< (friLogBlowup + logFinalPolyLen) < folded.length then do
        let (step, sampled) ←
          commitRoundWith perm challenger cosetShift logFinalPolyLen folded
            transcript
        let (steps, final, after) ←
          commitRoundsWith logFinalPolyLen fuel step.foldedEvals sampled
        return (step :: steps, final, after)
      else
        some ([], folded, transcript)

/-- The rounds for the constant of the module. -/
def commitRounds :
    Nat → List EF → State →
      Option (List FriCommitPhaseStep × List EF × State) :=
  commitRoundsWith perm challenger cosetShift friLogFinalPolyLen

/-- `fri_commit_phase`, with the challenger after it. -/
def friCommitPhase
    (evalsEfBr : List EF)
    (transcript : State) : Option (FriCommitPhaseResult × State) := do
  let n := evalsEfBr.length
  guard (n &&& (n - 1) = 0 ∧ 2 ≤ n)
  let logN := n.log2
  guard (friLogBlowup < logN)
  let (steps, folded, sampled) ←
    commitRounds perm challenger cosetShift n evalsEfBr transcript
  let finalPoly := folded.take (1 <<< friLogFinalPolyLen)
  let after :=
    finalPoly.foldl
      (fun transcript coeff =>
        challenger.observeBase transcript (efToU64s coeff))
      sampled
  let result : FriCommitPhaseResult :=
    { steps
      finalPoly
      numRounds := steps.length
      logTraceHeight := logN - friLogBlowup
      logBlowup := friLogBlowup }
  return (result, after)

end Commit

/-- Every matrix of `2 ^ log` rows is committed. -/
theorem exists_merkleCommitArityMatrix
    (perm : T8Permutation)
    {log : Nat}
    {matrixRows : List (List EF)}
    (length : matrixRows.length = 2 ^ log) :
    ∃ committed,
      merkleCommitArityMatrix perm matrixRows = some committed :=
  ⟨_, MatrixHash.merkleCommit_eq length⟩

/-!
## The rounds
-/

/-- Every step holds the fold of the layer before it, of `2 ^ log` values. -/
inductive FoldChain
    (cosetShift : Goldilocks) :
    Nat → List EF → List FriCommitPhaseStep → List EF → Prop
  | done
      {log : Nat}
      {layer : List EF}
      (length : layer.length = 2 ^ log) :
      FoldChain cosetShift log layer [] layer
  | round
      {log : Nat}
      {layer final : List EF}
      {step : FriCommitPhaseStep}
      {rest : List FriCommitPhaseStep}
      (arity : step.logArity = 1 ∨ step.logArity = 2)
      (length : layer.length = 2 ^ (log + step.logArity))
      (inRange : log + step.logArity ≤ 32)
      (isFold :
        foldColumn step.logArity layer step.beta cosetShift =
          some step.foldedEvals)
      (later : FoldChain cosetShift log step.foldedEvals rest final) :
      FoldChain cosetShift (log + step.logArity) layer (step :: rest) final

/-- Arity 4 in each round, and arity 2 in a last one where `k` is odd. -/
def roundArities (k : Nat) : List Nat :=
  List.replicate (k / 2) 2 ++ List.replicate (k % 2) 1

theorem roundArities_add_two (k : Nat) :
    roundArities (k + 2) = 2 :: roundArities k := by
  rw [roundArities, Nat.add_div_right k (by decide), Nat.add_mod_right,
    List.replicate_succ]
  rfl

/-- The polynomial whose values the last of the steps holds. -/
def foldedThrough
    (cosetShift : Goldilocks)
    (steps : List FriCommitPhaseStep)
    (coeffs : List EF) : List EF :=
  steps.foldl
    (fun coeffs step => foldedPolynomial step.logArity step.beta cosetShift coeffs)
    coeffs

theorem foldedThrough_cons
    (cosetShift : Goldilocks)
    (step : FriCommitPhaseStep)
    (rest : List FriCommitPhaseStep)
    (coeffs : List EF) :
    foldedThrough cosetShift (step :: rest) coeffs =
      foldedThrough cosetShift rest
        (foldedPolynomial step.logArity step.beta cosetShift coeffs) :=
  rfl

/-- Every step divides the bound on the degree by its arity. -/
theorem length_foldedThrough_le
    {cosetShift : Goldilocks}
    {k log : Nat}
    {steps : List FriCommitPhaseStep}
    (arities : steps.map FriCommitPhaseStep.logArity = roundArities k)
    {coeffs : List EF}
    (degree : coeffs.length ≤ 2 ^ (log + k)) :
    (foldedThrough cosetShift steps coeffs).length ≤ 2 ^ log := by
  induction k using Nat.twoStepInduction generalizing steps coeffs with
  | zero =>
      rw [List.map_eq_nil_iff.mp arities]
      exact degree
  | one =>
      rcases List.map_eq_singleton_iff.mp arities with ⟨step, rfl, isArity⟩
      exact
        length_foldedPolynomial_le step.beta (.inl isArity) (isArity ▸ degree)
  | more k inductionHypothesis _ =>
      rw [roundArities_add_two, List.map_eq_cons_iff] at arities
      rcases arities with ⟨step, rest, rfl, isArity, restArities⟩
      apply inductionHypothesis restArities
      apply length_foldedPolynomial_le step.beta (.inr isArity)
      rwa [isArity, Nat.add_assoc]

/-- The rounds take a single coefficient at `2 ^ k` to one at the first power. -/
theorem foldedThrough_monomial
    {cosetShift : Goldilocks}
    (nonzero : cosetShift ≠ 0)
    {k : Nat}
    {steps : List FriCommitPhaseStep}
    (arities : steps.map FriCommitPhaseStep.logArity = roundArities k)
    (coeff : EF) :
    ∃ factor : Goldilocks,
      factor ≠ 0 ∧
      foldedThrough cosetShift steps (List.replicate (2 ^ k) 0 ++ [coeff]) =
        List.replicate 1 0 ++ [factor • coeff] := by
  induction k using Nat.twoStepInduction generalizing steps coeff with
  | zero =>
      rw [List.map_eq_nil_iff.mp arities]
      exact ⟨1, one_ne_zero, by rw [one_smul]; rfl⟩
  | one =>
      rcases List.map_eq_singleton_iff.mp arities with ⟨step, rfl, isArity⟩
      have folded :=
        foldedPolynomial_monomial step.beta (.inl rfl) nonzero 1 coeff
      rw [foldedThrough_cons, isArity]
      exact folded
  | more k inductionHypothesis _ =>
      rw [roundArities_add_two, List.map_eq_cons_iff] at arities
      rcases arities with ⟨step, rest, rfl, isArity, restArities⟩
      rcases foldedPolynomial_monomial step.beta (.inr rfl) nonzero (2 ^ k)
          coeff with
        ⟨factor, notZero, folded⟩
      rcases inductionHypothesis restArities (factor • coeff) with
        ⟨factor', notZero', later⟩
      refine ⟨factor' * factor, mul_ne_zero notZero' notZero, ?_⟩
      rw [← pow_add, Nat.add_comm] at folded
      rw [foldedThrough_cons, isArity, folded, later, mul_smul]

section Rounds

variable {State : Type}
  (perm : T8Permutation)
  (challenger : Challenger State)

/--
Folding the values of a polynomial with `2 ^ k` coefficients at most ends with
eight equal values.
-/
def RoundsEnd (cosetShift : Goldilocks) (k : Nat) : Prop :=
  ∀ (fuel : Nat) (coeffs : List EF) (transcript : State),
    k < fuel →
    coeffs.length ≤ 2 ^ k →
    ∃ steps value after,
      commitRounds perm challenger cosetShift fuel
          (evaluations (twoAdicRoot (k + 3)) cosetShift (k + 3) coeffs)
          transcript =
        some (steps, List.replicate 8 value, after) ∧
      FoldChain cosetShift (k + 3)
        (evaluations (twoAdicRoot (k + 3)) cosetShift (k + 3) coeffs)
        steps (List.replicate 8 value) ∧
      steps.map FriCommitPhaseStep.logArity = roundArities k

variable (logFinalPolyLen : Nat)

/-- Folding the values of a polynomial `k` times ends with those of its fold. -/
def RoundsFold (cosetShift : Goldilocks) (k : Nat) : Prop :=
  ∀ (fuel : Nat) (coeffs : List EF) (transcript : State),
    k < fuel →
    ∃ steps after,
      commitRoundsWith perm challenger cosetShift logFinalPolyLen fuel
          (cosetEvaluations (k + (friLogBlowup + logFinalPolyLen)) cosetShift
            coeffs)
          transcript =
        some
          (steps,
            cosetEvaluations (friLogBlowup + logFinalPolyLen) cosetShift
              (foldedThrough cosetShift steps coeffs),
            after) ∧
      FoldChain cosetShift (k + (friLogBlowup + logFinalPolyLen))
        (cosetEvaluations (k + (friLogBlowup + logFinalPolyLen)) cosetShift
          coeffs)
        steps
        (cosetEvaluations (friLogBlowup + logFinalPolyLen) cosetShift
          (foldedThrough cosetShift steps coeffs)) ∧
      steps.map FriCommitPhaseStep.logArity = roundArities k

/-- Nothing is folded at the final height. -/
theorem roundsFold_zero (cosetShift : Goldilocks) :
    RoundsFold perm challenger logFinalPolyLen cosetShift 0 := by
  intro fuel coeffs transcript enough
  match fuel, enough with
  | fuel + 1, _ =>
      rw [Nat.zero_add]
      refine
        ⟨[], transcript, ?_, .done (length_cosetEvaluations _ _ _), rfl⟩
      rw [commitRoundsWith,
        if_neg (by simp [length_cosetEvaluations, Nat.shiftLeft_eq])]
      rfl

variable {cosetShift : Goldilocks}
  (nonzero : cosetShift ≠ 0)

include nonzero

/-- A round folds a polynomial to one with `2 ^ logArity` times fewer coefficients. -/
theorem exists_commitRound
    {k logArity : Nat}
    (isArity : min (k + logArity) 2 = logArity)
    (positive : 0 < logArity)
    (inRange : k + (friLogBlowup + logFinalPolyLen) + logArity ≤ 32)
    (coeffs : List EF)
    (transcript : State) :
    ∃ step sampled,
      commitRoundWith perm challenger cosetShift logFinalPolyLen
          (cosetEvaluations
            (k + (friLogBlowup + logFinalPolyLen) + logArity) cosetShift
            coeffs)
          transcript =
        some (step, sampled) ∧
      step.logArity = logArity ∧
      step.foldedEvals =
        cosetEvaluations (k + (friLogBlowup + logFinalPolyLen)) cosetShift
          (foldedPolynomial logArity step.beta cosetShift coeffs) := by
  have oneOrTwo : logArity = 1 ∨ logArity = 2 := by omega
  have toTarget :
      min
        (k + (friLogBlowup + logFinalPolyLen) + logArity -
          (friLogBlowup + logFinalPolyLen))
        friMaxLogArity = logArity := by
    rw [Nat.add_right_comm, Nat.add_sub_cancel]
    exact isArity
  have length :=
    length_cosetEvaluations (k + (friLogBlowup + logFinalPolyLen) + logArity)
      cosetShift coeffs
  have numRows :
      2 ^ (k + (friLogBlowup + logFinalPolyLen) + logArity) / 1 <<< logArity =
        2 ^ (k + (friLogBlowup + logFinalPolyLen)) := by
    rw [Nat.shiftLeft_eq, Nat.one_mul, pow_add _ (k + _)]
    exact Nat.mul_div_cancel _ (Nat.two_pow_pos logArity)
  have rowCount :
      ((List.range (2 ^ (k + (friLogBlowup + logFinalPolyLen)))).map fun i =>
          ((cosetEvaluations (k + (friLogBlowup + logFinalPolyLen) + logArity)
              cosetShift coeffs).drop (i * 1 <<< logArity)).take
            (1 <<< logArity)).length =
        2 ^ (k + (friLogBlowup + logFinalPolyLen)) := by
    rw [List.length_map, List.length_range]
  rcases exists_merkleCommitArityMatrix perm rowCount with
    ⟨⟨root, layers⟩, committed⟩
  have folded (beta : EF) :=
    foldColumn_evaluations beta coeffs oneOrTwo nonzero inRange
  simp only [commitRoundWith, length, Nat.log2_two_pow, toTarget, numRows,
    committed, folded, Option.bind_eq_bind, Option.bind_some,
    Option.pure_def]
  exact ⟨_, _, rfl, rfl, rfl⟩

/-- One round, then the rounds for what it leaves. -/
theorem RoundsFold.add
    {k logArity : Nat}
    (isArity : min (k + logArity) 2 = logArity)
    (positive : 0 < logArity)
    (inRange : k + (friLogBlowup + logFinalPolyLen) + logArity ≤ 32)
    (arities : roundArities (k + logArity) = logArity :: roundArities k)
    (later : RoundsFold perm challenger logFinalPolyLen cosetShift k) :
    RoundsFold perm challenger logFinalPolyLen cosetShift (k + logArity) := by
  intro fuel coeffs transcript enough
  have oneOrTwo : logArity = 1 ∨ logArity = 2 := by omega
  match fuel, enough with
  | fuel + 1, enough =>
      rw [Nat.add_right_comm k logArity]
      rcases exists_commitRound perm challenger logFinalPolyLen nonzero isArity
          positive inRange coeffs transcript with
        ⟨step, sampled, isRound, ownArity, ownEvals⟩
      rcases later fuel (foldedPolynomial logArity step.beta cosetShift coeffs)
          sampled (by omega) with
        ⟨steps, after, isRest, chain, restArities⟩
      have tall :
          1 <<< (friLogBlowup + logFinalPolyLen) <
            (cosetEvaluations (k + (friLogBlowup + logFinalPolyLen) + logArity)
              cosetShift coeffs).length := by
        rw [Nat.shiftLeft_eq, Nat.one_mul, length_cosetEvaluations]
        exact Nat.pow_lt_pow_right (by decide) (by omega)
      have through := foldedThrough_cons cosetShift step steps coeffs
      rw [ownArity] at through
      refine ⟨step :: steps, after, ?_, ?_, ?_⟩
      · rw [commitRoundsWith, if_pos tall, isRound]
        simp only [Option.bind_eq_bind, Option.bind_some, ownEvals, isRest,
          through]
        rfl
      · have isFold :=
          foldColumn_evaluations step.beta coeffs oneOrTwo nonzero inRange
        rw [← ownEvals] at chain isFold
        rw [through]
        rw [← ownArity] at oneOrTwo inRange isFold chain ⊢
        exact
          .round oneOrTwo (length_cosetEvaluations _ _ _) inRange isFold chain
      · rw [List.map_cons, ownArity, restArities, arities]

/-- Folding ends at the final height, whatever elements are drawn. -/
theorem roundsFold
    {k : Nat}
    (inRange : k + (friLogBlowup + logFinalPolyLen) ≤ 32) :
    RoundsFold perm challenger logFinalPolyLen cosetShift k := by
  induction k using Nat.twoStepInduction with
  | zero =>
      exact roundsFold_zero perm challenger logFinalPolyLen cosetShift
  | one =>
      exact
        (roundsFold_zero perm challenger logFinalPolyLen cosetShift).add perm
          challenger logFinalPolyLen nonzero rfl Nat.one_pos (by omega) rfl
  | more k inductionHypothesis _ =>
      exact
        (inductionHypothesis (by omega)).add perm challenger logFinalPolyLen
          nonzero (Nat.min_eq_right (Nat.le_add_left 2 k)) Nat.two_pos
          (by omega) (roundArities_add_two k)

/-- With one coefficient at the end the values left are equal. -/
theorem roundsEnd
    {k : Nat}
    (inRange : k + 3 ≤ 32) :
    RoundsEnd perm challenger cosetShift k := by
  intro fuel coeffs transcript enough degree
  rcases roundsFold perm challenger friLogFinalPolyLen nonzero inRange fuel
      coeffs transcript enough with
    ⟨steps, after, isRounds, chain, arities⟩
  have constant :
      (foldedThrough cosetShift steps coeffs).length ≤ 2 ^ 0 :=
    length_foldedThrough_le arities (by rwa [Nat.zero_add])
  have equal :
      cosetEvaluations (friLogBlowup + friLogFinalPolyLen) cosetShift
          (foldedThrough cosetShift steps coeffs) = _ :=
    evaluations_eq_replicate constant _ _ _
  rw [equal] at isRounds chain
  exact ⟨steps, _, after, isRounds, chain, arities⟩

/-- The commit phase answers, with the constant as its final polynomial. -/
theorem exists_friCommitPhase
    {k : Nat}
    (positive : 0 < k)
    (inRange : k + 3 ≤ 32)
    {coeffs : List EF}
    (degree : coeffs.length ≤ 2 ^ k)
    (transcript : State) :
    ∃ result value after,
      friCommitPhase perm challenger cosetShift
          (evaluations (twoAdicRoot (k + 3)) cosetShift (k + 3) coeffs)
          transcript =
        some (result, after) ∧
      result.finalPoly = [value] ∧
      FoldChain cosetShift (k + 3)
        (evaluations (twoAdicRoot (k + 3)) cosetShift (k + 3) coeffs)
        result.steps (List.replicate 8 value) ∧
      result.steps.map FriCommitPhaseStep.logArity = roundArities k := by
  have enough : k < 2 ^ (k + 3) :=
    Nat.lt_two_pow_self.trans
      (Nat.pow_lt_pow_right (by decide) (by omega))
  have two : 2 ≤ 2 ^ (k + 3) :=
    Nat.pow_le_pow_right (n := 2) Nat.two_pos (show 1 ≤ k + 3 by omega)
  rcases roundsEnd perm challenger nonzero inRange _ coeffs transcript enough
      degree with
    ⟨steps, value, after, isRounds, chain, arities⟩
  have above : friLogBlowup < k + 3 :=
    Nat.lt_add_of_pos_left positive
  simp only [friCommitPhase, length_evaluations, two_pow_and_pred, two,
    and_self, guard_true, Nat.log2_two_pow, above, isRounds,
    Option.bind_eq_bind, Option.bind_some, Option.pure_def]
  exact ⟨_, value, _, rfl, rfl, chain, arities⟩

end Rounds

end ScalarCore.VerifierPy
