import ScalarCore.MachineInt
import ScalarCore.StateMachine
import Mathlib.Algebra.GroupWithZero.Nat

namespace ScalarCore

/-!
# Redistribution of captured value

Captured value is counted and handed to the fee pool when it is asked for.  Over every run
of calls, what was handed out and what is pending make what was captured, as far as the
counter goes; nothing is handed out twice.
-/

open MachineInt StateMachine

/-- `MevRedistribution`. -/
structure MevRedistribution where
  totalCapturedSscl : UInt64
  totalRedistributedSscl : UInt64
  deriving DecidableEq

/-- A call that changes the totals. -/
inductive MevCall where
  | recordCapture (amountSscl : UInt64)
  | redistribute
  deriving DecidableEq

/-- What a call captures. -/
def MevCall.captured : MevCall → Nat
  | .recordCapture amountSscl => amountSscl.toNat
  | .redistribute => 0

namespace MevRedistribution

/-- `new`. -/
def new : MevRedistribution where
  totalCapturedSscl := 0
  totalRedistributedSscl := 0

/-- `record_capture`. -/
def recordCapture (mev : MevRedistribution) (amountSscl : UInt64) : MevRedistribution :=
  { mev with totalCapturedSscl := saturatingAdd mev.totalCapturedSscl amountSscl }

/-- `pending_sscl`. -/
def pendingSscl (mev : MevRedistribution) : UInt64 :=
  saturatingSub mev.totalCapturedSscl mev.totalRedistributedSscl

/-- `redistribute`. -/
def redistribute (mev : MevRedistribution) : MevRedistribution × UInt64 :=
  let pending := mev.pendingSscl
  ({ mev with totalRedistributedSscl := saturatingAdd mev.totalRedistributedSscl pending },
    pending)

/-- `invariant_holds`. -/
def invariantHolds (mev : MevRedistribution) : Bool :=
  mev.totalCapturedSscl ≥ mev.totalRedistributedSscl

/-- A call, with what it hands out. -/
def call (mev : MevRedistribution) : MevCall → MevRedistribution × UInt64
  | .recordCapture amountSscl => (mev.recordCapture amountSscl, 0)
  | .redistribute => mev.redistribute

variable {mev : MevRedistribution}

/-- The invariant is that of the numbers. -/
theorem invariantHolds_iff :
    mev.invariantHolds = true ↔
      mev.totalRedistributedSscl.toNat ≤ mev.totalCapturedSscl.toNat := by
  rw [invariantHolds, decide_eq_true_iff, ge_iff_le, UInt64.le_iff_toNat_le]

/-- What is pending is the difference of the totals. -/
theorem toNat_pendingSscl :
    mev.pendingSscl.toNat = mev.totalCapturedSscl.toNat - mev.totalRedistributedSscl.toNat :=
  toNat_saturatingSub _ _

/-- The totals after a call follow those before it. -/
structure Follows
    (mev : MevRedistribution)
    (captured handedOut : Nat)
    (next : MevRedistribution) : Prop where
  invariant : next.invariantHolds = true
  redistributed :
    next.totalRedistributedSscl.toNat = mev.totalRedistributedSscl.toNat + handedOut
  captured :
    next.totalCapturedSscl.toNat = min (mev.totalCapturedSscl.toNat + captured) maxU64

/-- A call hands out what is pending, or adds to what is captured. -/
theorem follows_call
    (holds : mev.invariantHolds = true)
    (op : MevCall) :
    Follows mev op.captured (mev.call op).2.toNat (mev.call op).1 := by
  rw [invariantHolds_iff] at holds
  have capturedFits := toNat_le_maxU64 mev.totalCapturedSscl
  cases op with
  | recordCapture amountSscl =>
      refine { invariant := ?_, redistributed := rfl, captured := toNat_saturatingAdd _ _ }
      rw [invariantHolds_iff, call, recordCapture, toNat_saturatingAdd]
      dsimp only
      omega
  | redistribute =>
      have redistributed :
          (saturatingAdd mev.totalRedistributedSscl mev.pendingSscl).toNat =
            mev.totalCapturedSscl.toNat := by
        rw [toNat_saturatingAdd, toNat_pendingSscl]
        omega
      refine { invariant := ?_, redistributed := ?_, captured := ?_ }
      · rw [invariantHolds_iff, call, redistribute]
        exact redistributed.le
      · rw [call, redistribute]
        dsimp only
        rw [redistributed, toNat_pendingSscl]
        omega
      · exact (Nat.min_eq_left capturedFits).symm

/-- A redistribution leaves nothing pending. -/
theorem pendingSscl_redistribute (holds : mev.invariantHolds = true) :
    mev.redistribute.1.pendingSscl = 0 := by
  have handedOut : mev.redistribute.2.toNat = mev.pendingSscl.toNat := rfl
  have unchanged : mev.redistribute.1.totalCapturedSscl = mev.totalCapturedSscl := rfl
  have redistributed :
      mev.redistribute.1.totalRedistributedSscl.toNat =
        mev.totalRedistributedSscl.toNat + mev.redistribute.2.toNat :=
    (follows_call holds .redistribute).redistributed
  rw [← UInt64.toNat_inj, toNat_pendingSscl, unchanged, redistributed, handedOut,
    toNat_pendingSscl, UInt64.toNat_zero]
  omega

/-- The totals after calls follow those before them. -/
theorem follows_run
    (holds : mev.invariantHolds = true)
    (calls : List MevCall) :
    Follows mev (calls.map MevCall.captured).sum
      ((outputs call mev calls).map UInt64.toNat).sum (run call mev calls) := by
  induction calls generalizing mev with
  | nil =>
      exact ⟨holds, rfl, (Nat.min_eq_left (toNat_le_maxU64 _)).symm⟩
  | cons op rest inductionHypothesis =>
      have first := follows_call holds op
      have later := inductionHypothesis first.invariant
      rw [run_cons, outputs_cons, List.map_cons, List.map_cons, List.sum_cons, List.sum_cons]
      refine { invariant := later.invariant, redistributed := ?_, captured := ?_ }
      · rw [later.redistributed, first.redistributed, Nat.add_assoc]
      · rw [later.captured, first.captured]
        omega

/-- How captured value is handed out over a run of calls. -/
structure HandsOut (calls : List MevCall) : Prop where
  invariant : (run call new calls).invariantHolds = true
  conserves :
    ((outputs call new calls).map UInt64.toNat).sum +
        (run call new calls).pendingSscl.toNat =
      min (calls.map MevCall.captured).sum maxU64
  empties : (run call new (calls ++ [.redistribute])).pendingSscl = 0

/--
In every state the redistributed total is within the captured one.  What was handed out
and what is pending are together what was captured, up to the greatest word, and a
redistribution leaves nothing pending.
-/
theorem captured_is_handed_out (calls : List MevCall) : HandsOut calls := by
  have initially : new.invariantHolds = true := rfl
  have followed := follows_run initially calls
  refine
    { invariant := followed.invariant
      conserves := ?_
      empties := ?_ }
  · have within := invariantHolds_iff.mp followed.invariant
    have redistributed := followed.redistributed
    have captured := followed.captured
    rw [show new.totalRedistributedSscl.toNat = 0 from rfl, Nat.zero_add] at redistributed
    rw [show new.totalCapturedSscl.toNat = 0 from rfl, Nat.zero_add] at captured
    rw [toNat_pendingSscl, ← redistributed, ← captured]
    omega
  · rw [run_append, run_cons, run_nil]
    exact pendingSscl_redistribute followed.invariant

end MevRedistribution

end ScalarCore
