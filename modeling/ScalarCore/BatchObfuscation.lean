import ScalarCore.Bytes
import ScalarCore.KeyedSort
import ScalarCore.MachineInt
import ScalarCore.StateMachine

namespace ScalarCore

/-!
# The batch obfuscation window

Transactions wait in a window and leave it together, in the order of a hash of their id
and a seed.  Whatever the calls are, each transaction leaves once.  The order in which a
batch leaves tells nothing of the order and the times of its submission exactly when no
two transactions of the batch share a key.
-/

open KeyedSort MachineInt StateMachine

/-- `DANDELION_BATCH_WINDOW_S`. -/
def dandelionBatchWindowS : UInt64 :=
  60

/-- The domain of the order of a batch. -/
def domainBatchObs : List UInt8 :=
  asciiBytes "scalar_batch_obs"

/-- `BatchEntry`. -/
structure BatchEntry where
  txId : UInt64
  enteredAtS : UInt64
  deriving DecidableEq

/-- `BatchObfuscationWindow`. -/
structure BatchObfuscationWindow where
  pending : List BatchEntry
  windowStartedAtS : UInt64
  deriving DecidableEq

/-- A call that changes the window. -/
inductive WindowCall where
  | add (txId nowS : UInt64)
  | drainOrdered (windowSeed nowS : UInt64)
  deriving DecidableEq

namespace BatchObfuscationWindow

variable (blake3 : List UInt8 → Bytes32)

/-- `new`. -/
def new (nowS : UInt64) : BatchObfuscationWindow where
  pending := []
  windowStartedAtS := nowS

/-- `add`. -/
def add (window : BatchObfuscationWindow) (txId nowS : UInt64) : BatchObfuscationWindow where
  pending := window.pending ++ [{ txId, enteredAtS := nowS }]
  windowStartedAtS := window.windowStartedAtS

/-- `is_expired`. -/
def isExpired (window : BatchObfuscationWindow) (nowS : UInt64) : Bool :=
  saturatingSub nowS window.windowStartedAtS ≥ dandelionBatchWindowS

/-- The key that `drain_ordered` sorts by. -/
def batchKey (windowSeed txId : UInt64) : UInt64 :=
  fromLeBytes
    ((blake3 (domainBatchObs ++ toLeBytes txId ++ toLeBytes windowSeed)).bytes.take 8)

/-- `drain_ordered`. -/
def drainOrdered
    (window : BatchObfuscationWindow)
    (windowSeed nowS : UInt64) : BatchObfuscationWindow × List UInt64 :=
  let entries :=
    sortByKey (fun entry : BatchEntry => (batchKey blake3 windowSeed entry.txId).toNat)
      window.pending
  ({ pending := [], windowStartedAtS := nowS }, entries.map BatchEntry.txId)

/-- A call, with the transactions that leave. -/
def call (window : BatchObfuscationWindow) :
    WindowCall → BatchObfuscationWindow × List UInt64
  | .add txId nowS =>
      (window.add txId nowS, [])
  | .drainOrdered windowSeed nowS =>
      window.drainOrdered blake3 windowSeed nowS

/-- The transactions that wait. -/
def waiting (window : BatchObfuscationWindow) : List UInt64 :=
  window.pending.map BatchEntry.txId

end BatchObfuscationWindow

namespace WindowCall

/-- The transaction that a call adds. -/
def added : WindowCall → Option UInt64
  | .add txId _ => some txId
  | .drainOrdered _ _ => none

/-- The batches of calls, each with the seed of its drain, where some wait already. -/
def batches : List UInt64 → List WindowCall → List (List UInt64 × UInt64)
  | _, [] => []
  | waiting, .add txId _ :: rest => batches (waiting ++ [txId]) rest
  | waiting, .drainOrdered windowSeed _ :: rest => (waiting, windowSeed) :: batches [] rest

/-- The time of the last drain, or the start. -/
def lastDrain (start : UInt64) (calls : List WindowCall) : UInt64 :=
  calls.foldl
    (fun last call =>
      match call with
      | .add _ _ => last
      | .drainOrdered _ nowS => nowS)
    start

end WindowCall

namespace BatchObfuscationWindow

open WindowCall

variable {blake3 : List UInt8 → Bytes32} {window : BatchObfuscationWindow}

/-- The order in which a batch leaves. -/
def leavingOrder
    (blake3 : List UInt8 → Bytes32)
    (windowSeed : UInt64)
    (batch : List UInt64) : List UInt64 :=
  sortByKey (fun txId => (batchKey blake3 windowSeed txId).toNat) batch

/-- A drain lets leave what waits, in the order of the keys. -/
theorem drainOrdered_eq (windowSeed nowS : UInt64) :
    window.drainOrdered blake3 windowSeed nowS =
      (new nowS, leavingOrder blake3 windowSeed window.waiting) := by
  rw [drainOrdered, leavingOrder, waiting, ← map_sortByKey]
  rfl

@[simp] theorem waiting_add (txId nowS : UInt64) :
    (window.add txId nowS).waiting = window.waiting ++ [txId] := by
  rw [waiting, add, List.map_append]
  rfl

@[simp] theorem waiting_new (nowS : UInt64) : (new nowS).waiting = [] :=
  rfl

variable (blake3) in
/-- What left at each drain, call by call. -/
def drained
    (window : BatchObfuscationWindow)
    (calls : List WindowCall) : List (List UInt64) :=
  (calls.zip (outputs (call blake3) window calls)).filterMap fun answered =>
    match answered.1 with
    | .add _ _ => none
    | .drainOrdered _ _ => some answered.2

/-- The batches leave in the order of their keys. -/
theorem drained_eq (window : BatchObfuscationWindow) (calls : List WindowCall) :
    drained blake3 window calls =
      (batches window.waiting calls).map fun batch =>
        leavingOrder blake3 batch.2 batch.1 := by
  induction calls generalizing window with
  | nil =>
      rfl
  | cons first rest inductionHypothesis =>
      cases first with
      | add txId nowS =>
          have later := inductionHypothesis (window.add txId nowS)
          rw [waiting_add] at later
          rw [batches, ← later]
          rfl
      | drainOrdered windowSeed nowS =>
          have later := inductionHypothesis (new nowS)
          rw [waiting_new] at later
          have leaves :
              window.drainOrdered blake3 windowSeed nowS =
                (new nowS, leavingOrder blake3 windowSeed window.waiting) :=
            drainOrdered_eq windowSeed nowS
          rw [batches, List.map_cons, ← later, drained, outputs_cons, call, leaves]
          rfl

/-- What left and what waits is what waited and what was added. -/
theorem conserved (window : BatchObfuscationWindow) (calls : List WindowCall) :
    ((outputs (call blake3) window calls).flatten ++
        (run (call blake3) window calls).waiting).Perm
      (window.waiting ++ calls.filterMap added) := by
  induction calls generalizing window with
  | nil =>
      rw [List.filterMap_nil, List.append_nil]
      exact List.Perm.refl _
  | cons first rest inductionHypothesis =>
      have later := inductionHypothesis (call blake3 window first).1
      rw [outputs_cons, run_cons, List.flatten_cons, List.append_assoc]
      cases first with
      | add txId nowS =>
          rw [call, waiting_add, List.append_assoc] at later
          exact later
      | drainOrdered windowSeed nowS =>
          rw [call, drainOrdered_eq, waiting_new, List.nil_append] at later
          rw [call, drainOrdered_eq]
          exact (sortByKey_perm _ _).append later

/-- The window started at the last drain. -/
theorem windowStartedAtS_run (window : BatchObfuscationWindow) (calls : List WindowCall) :
    (run (call blake3) window calls).windowStartedAtS =
      lastDrain window.windowStartedAtS calls := by
  induction calls generalizing window with
  | nil =>
      rfl
  | cons first rest inductionHypothesis =>
      rw [run_cons, inductionHypothesis]
      cases first <;> rfl

/-- The window is expired when it started a minute ago. -/
theorem isExpired_iff {nowS : UInt64} :
    window.isExpired nowS = true ↔ window.windowStartedAtS.toNat + 60 ≤ nowS.toNat := by
  rw [isExpired, decide_eq_true_iff, ge_iff_le, UInt64.le_iff_toNat_le, toNat_saturatingSub,
    show dandelionBatchWindowS.toNat = 60 from rfl]
  omega

/-- What the window shows of the calls made to it. -/
structure HidesOrder
    (blake3 : List UInt8 → Bytes32)
    (start : UInt64)
    (calls : List WindowCall) : Prop where
  conserves :
    ((outputs (call blake3) (new start) calls).flatten ++
        (run (call blake3) (new start) calls).waiting).Perm
      (calls.filterMap added)
  shows :
    drained blake3 (new start) calls =
      (batches [] calls).map fun batch => leavingOrder blake3 batch.2 batch.1
  hides :
    (∀ batch ∈ batches [] calls, ∀ left ∈ batch.1, ∀ right ∈ batch.1,
        batchKey blake3 batch.2 left = batchKey blake3 batch.2 right → left = right) ↔
      ∀ otherStart otherCalls,
        List.Forall₂ (fun batch other => batch.1.Perm other.1 ∧ batch.2 = other.2)
          (batches [] calls) (batches [] otherCalls) →
        drained blake3 (new otherStart) otherCalls = drained blake3 (new start) calls
  expires :
    ∀ nowS,
      (run (call blake3) (new start) calls).isExpired nowS = true ↔
        (lastDrain start calls).toNat + 60 ≤ nowS.toNat

/-- The calls that make given batches. -/
def callsOf (given : List (List UInt64 × UInt64)) : List WindowCall :=
  given.flatMap fun batch =>
    batch.1.map (fun txId => WindowCall.add txId 0) ++ [.drainOrdered batch.2 0]

/-- The transactions of one batch wait before their drain. -/
theorem batches_map_add (waiting batch : List UInt64) (rest : List WindowCall) :
    batches waiting (batch.map (fun txId => WindowCall.add txId 0) ++ rest) =
      batches (waiting ++ batch) rest := by
  induction batch generalizing waiting with
  | nil =>
      rw [List.map_nil, List.nil_append, List.append_nil]
  | cons txId others inductionHypothesis =>
      rw [List.map_cons, List.cons_append, batches, inductionHypothesis, List.append_assoc]
      rfl

/-- Whatever batches are given, some calls make them. -/
theorem batches_callsOf (given : List (List UInt64 × UInt64)) :
    batches [] (callsOf given) = given := by
  induction given with
  | nil =>
      rfl
  | cons batch rest inductionHypothesis =>
      rw [callsOf, List.flatMap_cons, List.append_assoc, batches_map_add, List.nil_append,
        List.singleton_append, batches, ← callsOf, inductionHypothesis]

/-- Lists of items that look alike pair by pair look alike. -/
theorem map_eq_of_forall₂
    {Item View : Type*}
    {view : Item → View}
    {related : Item → Item → Prop}
    {items others : List Item}
    (pairs : List.Forall₂ related items others)
    (alike : ∀ item ∈ items, ∀ other, related item other → view other = view item) :
    others.map view = items.map view := by
  induction pairs with
  | nil =>
      rfl
  | cons isRelated _ inductionHypothesis =>
      rw [List.map_cons, List.map_cons, alike _ List.mem_cons_self _ isRelated,
        inductionHypothesis fun item listed => alike item (List.mem_cons_of_mem _ listed)]

/-- A batch leaves in one order exactly when its keys tell its transactions apart. -/
theorem leavingOrder_eq_iff {windowSeed : UInt64} {batch : List UInt64} :
    (∀ order, batch.Perm order →
        leavingOrder blake3 windowSeed order = leavingOrder blake3 windowSeed batch) ↔
      ∀ left ∈ batch, ∀ right ∈ batch,
        batchKey blake3 windowSeed left = batchKey blake3 windowSeed right → left = right := by
  have byView :
      (∀ order, batch.Perm order →
          (leavingOrder blake3 windowSeed batch).map id =
            (leavingOrder blake3 windowSeed order).map id) ↔
        ∀ left ∈ batch, ∀ right ∈ batch,
          (batchKey blake3 windowSeed left).toNat = (batchKey blake3 windowSeed right).toNat →
            left = right :=
    map_sortByKey_eq_iff
  simp only [List.map_id, UInt64.toNat_inj] at byView
  rw [← byView]
  exact forall₂_congr fun order _ => eq_comm

/--
Every transaction that is added leaves once or still waits.  Calls that make the same
batches, whatever the order and the times of the submissions are, are answered alike
exactly when no two transactions of one batch share a key.  The window is expired a minute
after the last drain.
-/
theorem window_hides_order
    (blake3 : List UInt8 → Bytes32)
    (start : UInt64)
    (calls : List WindowCall) :
    HidesOrder blake3 start calls := by
  refine
    { conserves := conserved (new start) calls
      shows := drained_eq (new start) calls
      hides := ⟨fun distinct otherStart otherCalls sameBatches => ?_,
        fun hidden batch listed => ?_⟩
      expires := fun nowS => ?_ }
  · rw [drained_eq, drained_eq]
    refine map_eq_of_forall₂ sameBatches ?_
    rintro ⟨batch, windowSeed⟩ listed ⟨order, _⟩ ⟨reordered, rfl⟩
    exact leavingOrder_eq_iff.mpr (distinct _ listed) order reordered
  · refine leavingOrder_eq_iff.mp fun order reordered => ?_
    obtain ⟨before, after, split⟩ := List.append_of_mem listed
    -- The same batches, but for the order of one.
    have sameBatches :
        List.Forall₂ (fun batch other => batch.1.Perm other.1 ∧ batch.2 = other.2)
          (batches [] calls)
          (batches [] (callsOf (before ++ (order, batch.2) :: after))) := by
      have unchanged (kept : List (List UInt64 × UInt64)) :
          List.Forall₂ (fun batch other => batch.1.Perm other.1 ∧ batch.2 = other.2) kept
            kept :=
        List.forall₂_same.mpr fun _ _ => ⟨List.Perm.refl _, rfl⟩
      rw [batches_callsOf, split]
      exact List.rel_append (unchanged before) (.cons ⟨reordered, rfl⟩ (unchanged after))
    have alike := hidden start _ sameBatches
    rw [drained_eq, drained_eq, waiting_new, batches_callsOf, split, List.map_append,
      List.map_append, List.map_cons, List.map_cons] at alike
    exact (List.cons.inj (List.append_cancel_left alike)).1
  · rw [isExpired_iff, windowStartedAtS_run]
    rfl

end BatchObfuscationWindow

end ScalarCore
