import ScalarCore.DeferredPool

namespace ScalarCore

/-!
# The tail emission and its reserve

No epoch pays less than the tail emission: what the curve falls short of it is
paid from the reserve, the part of the supply that is never emitted.  The
accounting state checks the minted total against its cap and adds up the
reserve releases, which it compares with nothing.

The run of epochs is compared with one on natural numbers, where it is computed
until the reserve is used up.
-/

open MachineInt

/-- The whole supply, in sSCL. -/
def sMaxSscl : UInt64 :=
  21000000 * 100000000

/-- Least amount paid in an epoch, in sSCL. -/
def eTailSscl : UInt64 :=
  1000 * 100000000

/-- The reserve: the supply that is not emitted. -/
def sRSscl : UInt64 :=
  sMaxSscl - sESscl

/-- The amount paid in an epoch: its emission, raised to the tail. -/
def computeEActive (eK : UInt64) : UInt64 :=
  max eK eTailSscl

/-- Whether an epoch draws on the reserve. -/
def isBackstopActive (eK : UInt64) : Bool :=
  decide (eK < eTailSscl)

/-- The amount paid is the larger of the two. -/
theorem toNat_computeEActive (eK : UInt64) :
    (computeEActive eK).toNat = max eK.toNat eTailSscl.toNat := by
  rw [computeEActive,
    show max eK eTailSscl = if eK ≤ eTailSscl then eTailSscl else eK from rfl]
  split <;> rename_i order
  · exact (Nat.max_eq_right (UInt64.le_iff_toNat_le.mp order)).symm
  · have := UInt64.le_iff_toNat_le.not.mp order
    omega

/-- The part paid from the reserve. -/
theorem toNat_backstop (eK : UInt64) :
    (computeEActive eK - eK).toNat = eTailSscl.toNat - eK.toNat := by
  have paid := toNat_computeEActive eK
  rw [UInt64.toNat_sub_of_le]
  · omega
  · rw [UInt64.le_iff_toNat_le]
    omega

/-- The reserve pays exactly in the epochs in which it is active. -/
theorem backstop_ne_zero_iff (eK : UInt64) :
    computeEActive eK - eK ≠ 0 ↔ isBackstopActive eK = true := by
  have part := toNat_backstop eK
  rw [isBackstopActive, decide_eq_true_iff, UInt64.lt_iff_toNat_lt, Ne,
    ← UInt64.toNat_inj, UInt64.toNat_zero]
  omega

/-- Errors of the accounting operations. -/
inductive AccountingError where
  | overflow
  | supplyCapExceeded (minted reward cap : UInt64)
  deriving Repr, DecidableEq

/-- The global totals of emission and fees. -/
structure AccountingState where
  totalPouMintedSscl : UInt64
  securityFundAccumulatorSscl : UInt64
  totalReserveReleasedSscl : UInt64
  deferredEmissionPoolSscl : UInt64
  deriving Repr, DecidableEq

/-- The operations of the accounting state. -/
inductive AccountingOp where
  | recordMint (amountSscl : UInt64)
  | recordSecurityFund (amountSscl : UInt64)
  | recordReserveRelease (amountSscl : UInt64)
  | updateDeferredPool (pool : DeferredEmissionPool)
  deriving Repr, DecidableEq

namespace AccountingState

/-- All totals zero. -/
def genesis : AccountingState where
  totalPouMintedSscl := 0
  securityFundAccumulatorSscl := 0
  totalReserveReleasedSscl := 0
  deferredEmissionPoolSscl := 0

/-- Record a mint, refused where it exceeds the emitted supply. -/
def recordMint
    (state : AccountingState)
    (amountSscl : UInt64) : Except AccountingError AccountingState :=
  match checkedAdd state.totalPouMintedSscl amountSscl with
  | none => .error .overflow
  | some newTotal =>
      if newTotal > sESscl then
        .error
          (.supplyCapExceeded state.totalPouMintedSscl amountSscl sESscl)
      else
        .ok { state with totalPouMintedSscl := newTotal }

/-- Record a fee that goes to the security fund. -/
def recordSecurityFund
    (state : AccountingState)
    (amountSscl : UInt64) : AccountingState :=
  { state with
    securityFundAccumulatorSscl :=
      saturatingAdd state.securityFundAccumulatorSscl amountSscl }

/-- Record a release from the reserve. -/
def recordReserveRelease
    (state : AccountingState)
    (amountSscl : UInt64) : AccountingState :=
  { state with
    totalReserveReleasedSscl :=
      saturatingAdd state.totalReserveReleasedSscl amountSscl }

/-- Take over the balance of the deferred pool. -/
def updateDeferredPool
    (state : AccountingState)
    (pool : DeferredEmissionPool) : AccountingState :=
  { state with deferredEmissionPoolSscl := pool.totalSscl }

/-- Whether the minted total is under its cap. -/
def supplyCapOk (state : AccountingState) : Bool :=
  decide (state.totalPouMintedSscl ≤ sESscl)

/-- Perform one operation; a refused mint leaves the state as it was. -/
def applyOp
    (state : AccountingState) :
    AccountingOp → AccountingState × Except AccountingError Unit
  | .recordMint amountSscl =>
      match state.recordMint amountSscl with
      | .ok next => (next, .ok ())
      | .error failure => (state, .error failure)
  | .recordSecurityFund amountSscl =>
      (state.recordSecurityFund amountSscl, .ok ())
  | .recordReserveRelease amountSscl =>
      (state.recordReserveRelease amountSscl, .ok ())
  | .updateDeferredPool pool => (state.updateDeferredPool pool, .ok ())

/-- A recorded mint leaves the total under its cap. -/
theorem supplyCapOk_of_recordMint
    {state next : AccountingState}
    {amountSscl : UInt64}
    (recorded : state.recordMint amountSscl = .ok next) :
    next.supplyCapOk = true := by
  unfold recordMint at recorded
  split at recorded
  · cases recorded
  · split at recorded
    · cases recorded
    · next newTotal _ underCap =>
        cases recorded
        rw [gt_iff_lt, UInt64.not_lt] at underCap
        exact decide_eq_true underCap

/-- Every operation keeps the minted total under its cap. -/
theorem supplyCapOk_applyOp
    (state : AccountingState)
    (op : AccountingOp)
    (capped : state.supplyCapOk = true) :
    (applyOp state op).1.supplyCapOk = true := by
  cases op with
  | recordMint amountSscl =>
      cases recorded : state.recordMint amountSscl with
      | error failure =>
          simpa only [applyOp, recorded] using capped
      | ok next =>
          simpa only [applyOp, recorded] using
            supplyCapOk_of_recordMint recorded
  | recordSecurityFund amountSscl => exact capped
  | recordReserveRelease amountSscl => exact capped
  | updateDeferredPool pool => exact capped

/-- The minted total stays under its cap in every run from genesis. -/
theorem supplyCapOk_run (ops : List AccountingOp) :
    (StateMachine.run applyOp genesis ops).supplyCapOk = true :=
  StateMachine.run_invariant supplyCapOk_applyOp rfl ops

end AccountingState

/-- What a run of epochs has emitted, recorded and paid. -/
structure TailRun where
  accumulator : EmissionAccumulator
  accounting : AccountingState
  totalPaid : Nat
  deriving Repr, DecidableEq

namespace TailRun

/-- Before the first epoch. -/
def new : TailRun where
  accumulator := EmissionAccumulator.new
  accounting := AccountingState.genesis
  totalPaid := 0

/--
One epoch: the active emission is paid, the emission of the curve committed
and the difference recorded as a release from the reserve.
-/
def payEpoch (run : TailRun) : Except EmissionError TailRun := do
  let eK := run.accumulator.emissionThisEpoch
  let accumulator ← run.accumulator.commitEpoch eK
  .ok
    { accumulator
      accounting :=
        run.accounting.recordReserveRelease (computeEActive eK - eK)
      totalPaid := run.totalPaid + (computeEActive eK).toNat }

/-- A number of epochs in a row. -/
def payEpochs : Nat → TailRun → Except EmissionError TailRun
  | 0, run => .ok run
  | epochs + 1, run => do
      let next ← run.payEpoch
      payEpochs epochs next

/--
The supply and the reserve suffice for a number of epochs: after none of them
has more been paid than the supply, or more released than the reserve.
-/
def CapHolds (epochs : Nat) : Prop :=
  ∀ soFar ≤ epochs,
    ∃ run,
      payEpochs soFar new = .ok run ∧
        run.totalPaid ≤ sMaxSscl.toNat ∧
        run.accounting.totalReserveReleasedSscl ≤ sRSscl

end TailRun

namespace TailCurve

/-!
## The run on natural numbers
-/

/-- The emission after an amount was minted. -/
def emission (minted : Nat) : Nat :=
  let oneMinusRho := 1000000000 - minted / 1890000
  12600 * (oneMinusRho * oneMinusRho / 1000000000)

/-- Compute a number before it is used. -/
def evaluated {Result : Type} (value : Nat) (use : Nat → Result) : Result :=
  match value with
  | 0 => use 0
  | value + 1 => use (value + 1)

/--
Minted and released amounts after a number of epochs.  The intermediate amounts
are evaluated, so that a long run is a computation of bounded size.
-/
def advance : Nat → Nat → Nat → Nat × Nat
  | 0, minted, released => (minted, released)
  | epochs + 1, minted, released =>
      evaluated (emission minted) fun emitted =>
        evaluated (minted + emitted) fun nextMinted =>
          evaluated (released + (100000000000 - emitted)) fun nextReleased =>
            advance epochs nextMinted nextReleased

@[simp] theorem evaluated_eq
    {Result : Type}
    (value : Nat)
    (use : Nat → Result) :
    evaluated value use = use value := by
  cases value <;> rfl

@[simp] theorem advance_zero (minted released : Nat) :
    advance 0 minted released = (minted, released) :=
  rfl

theorem advance_succ (epochs minted released : Nat) :
    advance (epochs + 1) minted released =
      advance epochs
        (minted + emission minted)
        (released + (100000000000 - emission minted)) := by
  simp only [advance, evaluated_eq]

/-- A longer run continues a shorter one. -/
theorem advance_add (epochs later minted released : Nat) :
    advance (epochs + later) minted released =
      advance later
        (advance epochs minted released).1
        (advance epochs minted released).2 := by
  induction epochs generalizing minted released with
  | zero =>
      rw [Nat.zero_add, advance_zero]
  | succ epochs inductionHypothesis =>
      rw [Nat.succ_add, advance_succ, inductionHypothesis, ← advance_succ]

/-- Nothing that was minted or released is taken back. -/
theorem le_advance (epochs minted released : Nat) :
    minted ≤ (advance epochs minted released).1 ∧
      released ≤ (advance epochs minted released).2 := by
  induction epochs generalizing minted released with
  | zero =>
      exact ⟨Nat.le_refl _, Nat.le_refl _⟩
  | succ epochs inductionHypothesis =>
      rw [advance_succ]
      obtain ⟨mintedLater, releasedLater⟩ :=
        inductionHypothesis
          (minted + emission minted)
          (released + (100000000000 - emission minted))
      exact
        ⟨(Nat.le_add_right _ _).trans mintedLater,
          (Nat.le_add_right _ _).trans releasedLater⟩

/-- Both amounts grow with the number of epochs. -/
theorem advance_mono
    {epochs later : Nat}
    (order : epochs ≤ later)
    (minted released : Nat) :
    (advance epochs minted released).1 ≤
        (advance later minted released).1 ∧
      (advance epochs minted released).2 ≤
        (advance later minted released).2 := by
  obtain ⟨difference, rfl⟩ := Nat.exists_eq_add_of_le order
  rw [advance_add]
  exact le_advance _ _ _

/-- The last epoch that the reserve covers. -/
theorem advance_4735 :
    advance 4735 0 0 = (1832006589928200, 209986374977000) := by
  decide +kernel

/-- The first epoch that it does not. -/
theorem advance_4736 :
    advance 4736 0 0 = (1832018453181000, 210074511724200) := by
  rw [advance_add 4735 1, advance_4735]
  decide +kernel

/-- The last epoch that the supply covers. -/
theorem advance_5315 :
    advance 5315 0 0 = (1838158561726200, 261834403179000) := by
  rw [advance_add 4736 579, advance_4736]
  decide +kernel

/-- The first epoch that it does not. -/
theorem advance_5316 :
    advance 5316 0 0 = (1838168041563000, 261924923342200) := by
  rw [advance_add 5315 1, advance_5315]
  decide +kernel

end TailCurve

namespace EmissionAccumulator

/-- The emission is that of the curve on natural numbers. -/
theorem emissionThisEpoch_eq_emission (acc : EmissionAccumulator) :
    acc.emissionThisEpoch.toNat =
      TailCurve.emission acc.totalMinted.toNat := by
  rw [toNat_emissionThisEpoch, oneMinusRho, rhoFp_eq]
  rfl

end EmissionAccumulator

namespace TailRun

/-- The run stands where the curve does, its release clamped to a word. -/
structure Follows (run : TailRun) (minted released : Nat) : Prop where
  capped : minted ≤ sESscl.toNat
  accumulated : run.accumulator.totalMinted.toNat = minted
  recorded :
    run.accounting.totalReserveReleasedSscl.toNat = min released maxU64
  paid : run.totalPaid = minted + released

/-- An epoch succeeds and follows the curve. -/
theorem payEpoch_follows
    {run : TailRun}
    {minted released : Nat}
    (follows : run.Follows minted released) :
    ∃ next,
      run.payEpoch = .ok next ∧
        next.Follows
          (minted + TailCurve.emission minted)
          (released + (100000000000 - TailCurve.emission minted)) := by
  have tail : eTailSscl.toNat = 100000000000 := rfl
  have emitted := run.accumulator.emissionThisEpoch_eq_emission
  rw [follows.accumulated] at emitted
  have capped :
      run.accumulator.totalMinted.toNat ≤ sESscl.toNat :=
    follows.accumulated.trans_le follows.capped
  have withinRest :=
    EmissionAccumulator.emissionThisEpoch_le_remaining capped
  rw [follows.accumulated, emitted] at withinRest
  have fits := follows.capped
  have underCap :
      run.accumulator.totalMinted.toNat +
          run.accumulator.emissionThisEpoch.toNat ≤
        sESscl.toNat := by
    rw [follows.accumulated, emitted]
    omega
  obtain ⟨accumulator, committed, total⟩ :=
    EmissionAccumulator.commitEpoch_of_le underCap
  rw [follows.accumulated, emitted] at total
  refine ⟨_, by rw [payEpoch, committed]; rfl, ?_⟩
  constructor
  · omega
  · exact total
  · have before := follows.recorded
    have part := toNat_backstop run.accumulator.emissionThisEpoch
    rw [emitted, tail] at part
    rw [AccountingState.recordReserveRelease, toNat_saturatingAdd, before,
      part]
    omega
  · have before := follows.paid
    have active := toNat_computeEActive run.accumulator.emissionThisEpoch
    rw [emitted, tail] at active
    change run.totalPaid + (computeEActive _).toNat = _
    rw [active]
    omega

/-- Every run of epochs succeeds and follows the curve. -/
theorem payEpochs_follows
    {run : TailRun}
    {minted released : Nat}
    (follows : run.Follows minted released)
    (epochs : Nat) :
    ∃ last,
      payEpochs epochs run = .ok last ∧
        last.Follows
          (TailCurve.advance epochs minted released).1
          (TailCurve.advance epochs minted released).2 := by
  induction epochs generalizing run minted released with
  | zero =>
      exact ⟨run, rfl, follows⟩
  | succ epochs inductionHypothesis =>
      obtain ⟨next, paid, nextFollows⟩ := payEpoch_follows follows
      obtain ⟨last, restPaid, lastFollows⟩ :=
        inductionHypothesis nextFollows
      refine ⟨last, ?_, ?_⟩
      · rw [payEpochs, paid]
        exact restPaid
      · rw [TailCurve.advance_succ]
        exact lastFollows

/-- The run from the start, and where it stands. -/
theorem payEpochs_new (epochs : Nat) :
    ∃ run,
      payEpochs epochs new = .ok run ∧
        run.Follows
          (TailCurve.advance epochs 0 0).1
          (TailCurve.advance epochs 0 0).2 :=
  payEpochs_follows
    { capped := Nat.zero_le _
      accumulated := rfl
      recorded := rfl
      paid := rfl }
    epochs

/-- What was paid was minted or released. -/
theorem paid_le_iff
    {epochs : Nat}
    {run : TailRun}
    (finished : payEpochs epochs new = .ok run)
    (amount : Nat) :
    run.totalPaid ≤ amount ↔
      (TailCurve.advance epochs 0 0).1 +
        (TailCurve.advance epochs 0 0).2 ≤ amount := by
  obtain ⟨last, lastFinished, follows⟩ := payEpochs_new epochs
  rw [finished] at lastFinished
  cases lastFinished
  rw [follows.paid]

/-- The recorded release is under the reserve exactly when the exact one is. -/
theorem released_le_iff
    {epochs : Nat}
    {run : TailRun}
    (finished : payEpochs epochs new = .ok run) :
    run.accounting.totalReserveReleasedSscl ≤ sRSscl ↔
      (TailCurve.advance epochs 0 0).2 ≤ 210000000000000 := by
  obtain ⟨last, lastFinished, follows⟩ := payEpochs_new epochs
  rw [finished] at lastFinished
  cases lastFinished
  have reserve : sRSscl.toNat = 210000000000000 := rfl
  rw [UInt64.le_iff_toNat_le, follows.recorded, reserve]
  unfold maxU64
  omega

/-- The reserve has sufficed exactly for the first 4735 epochs. -/
theorem released_le_iff_epochs
    {epochs : Nat}
    {run : TailRun}
    (finished : payEpochs epochs new = .ok run) :
    run.accounting.totalReserveReleasedSscl ≤ sRSscl ↔ epochs ≤ 4735 := by
  rw [released_le_iff finished]
  constructor
  · intro covered
    by_contra late
    have grown :=
      (TailCurve.advance_mono (by omega : 4736 ≤ epochs) 0 0).2
    rw [TailCurve.advance_4736] at grown
    omega
  · intro early
    have grown := (TailCurve.advance_mono early 0 0).2
    rw [TailCurve.advance_4735] at grown
    omega

/-- The supply has sufficed exactly for the first 5315 epochs. -/
theorem paid_le_iff_epochs
    {epochs : Nat}
    {run : TailRun}
    (finished : payEpochs epochs new = .ok run) :
    run.totalPaid ≤ sMaxSscl.toNat ↔ epochs ≤ 5315 := by
  have supply : sMaxSscl.toNat = 2100000000000000 := rfl
  rw [paid_le_iff finished, supply]
  constructor
  · intro covered
    by_contra late
    have grown := TailCurve.advance_mono (by omega : 5316 ≤ epochs) 0 0
    rw [TailCurve.advance_5316] at grown
    omega
  · intro early
    have grown := TailCurve.advance_mono early 0 0
    rw [TailCurve.advance_5315] at grown
    omega

/-- A run whose release is within the reserve is within the supply. -/
theorem exists_run_within
    {epochs : Nat}
    (early : epochs ≤ 4735) :
    ∃ run,
      payEpochs epochs new = .ok run ∧
        run.totalPaid ≤ sMaxSscl.toNat ∧
        run.accounting.totalReserveReleasedSscl ≤ sRSscl := by
  obtain ⟨run, finished, _⟩ := payEpochs_new epochs
  exact
    ⟨run, finished,
      (paid_le_iff_epochs finished).mpr (by omega),
      (released_le_iff_epochs finished).mpr early⟩

/-- A run of 4736 epochs has released more than the reserve. -/
theorem not_capHolds_of_late
    {epochs : Nat}
    (late : 4735 < epochs) :
    ¬ CapHolds epochs := by
  intro holds
  obtain ⟨run, finished, _, covered⟩ := holds epochs (Nat.le_refl _)
  have early := (released_le_iff_epochs finished).mp covered
  omega

/--
The reserve pays without a limit: the supply and the reserve suffice for
exactly 4735 epochs.
-/
theorem capHolds_iff (epochs : Nat) :
    CapHolds epochs ↔ epochs ≤ 4735 := by
  constructor
  · intro holds
    by_contra late
    exact not_capHolds_of_late (by omega) holds
  · intro early soFar within
    exact exists_run_within (within.trans early)

/-- After 4736 epochs more was released than the reserve holds. -/
theorem cap_broken : ¬ ∀ epochs, CapHolds epochs :=
  fun always => not_capHolds_of_late (by decide : 4735 < 4736) (always 4736)

end TailRun

end ScalarCore
