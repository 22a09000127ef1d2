import ScalarCore.ImtSource
import ScalarCore.MachineInt

namespace ScalarCore

/-!
# The pool of pending transactions

A wallet keeps the transactions whose sub-epoch is not yet verified, retries each a few
times and drops those of earlier epochs.  What happens to a transaction depends on the
calls about it only, and each one leaves the pool at most as often as it was added.  A
result for a transaction that is not in the pool is answered like an invalid one.
-/

open MachineInt

/-- `MAX_RETRY_COUNT`. -/
def maxRetryCount : UInt32 :=
  3

/-- `TransactionSubEpochRef`. -/
structure TransactionSubEpochRef where
  epochId : UInt64
  subepochId : UInt32
  subepochHash : Bytes32
  deriving DecidableEq

/-- `PendingTx`. -/
structure PendingTx where
  txid : Bytes32
  subepochRef : TransactionSubEpochRef
  retryCount : UInt32
  deriving DecidableEq

/-- `PendingTx::new`. -/
def PendingTx.new (txid : Bytes32) (subepochRef : TransactionSubEpochRef) : PendingTx where
  txid
  subepochRef
  retryCount := 0

/-- `PendingOutcome`. -/
inductive PendingOutcome where
  | accepted
  | retained (retryCount : UInt32)
  | droppedMaxRetry
  | droppedInvalid
  deriving DecidableEq

/-- `PendingPool`. -/
@[ext] structure PendingPool where
  txs : List PendingTx
  deriving DecidableEq

/-- A call of the pool. -/
inductive PendingCall where
  | add (tx : PendingTx)
  | applyResult (txid : Bytes32) (result : VerificationResult)
  | detectEpochBoundaryDrop (currentEpochId : UInt64)
  deriving DecidableEq

/-- What a call returns. -/
inductive PendingAnswer where
  | added
  | applied (outcome : PendingOutcome)
  | dropped (txids : List Bytes32)
  deriving DecidableEq

namespace PendingPool

/-- `new`. -/
def new : PendingPool where
  txs := []

/-- `add`. -/
def add (pool : PendingPool) (tx : PendingTx) : PendingPool where
  txs := pool.txs ++ [tx]

/-- `contains`. -/
def contains (pool : PendingPool) (txid : Bytes32) : Bool :=
  pool.txs.any fun tx => tx.txid = txid

/-- `self.txs.remove(pos)`. -/
def remove (pool : PendingPool) (pos : Nat) : PendingPool where
  txs := pool.txs.eraseIdx pos

/-- `apply_result`; a retry count that does not fit stops the process. -/
def applyResult
    (pool : PendingPool)
    (txid : Bytes32)
    (result : VerificationResult) : Option (PendingPool × PendingOutcome) :=
  match pool.txs.findIdx? fun tx => tx.txid = txid with
  | none => some (pool, .droppedInvalid)
  | some pos =>
      match result with
      | .valid => some (pool.remove pos, .accepted)
      | .subEpochNotFound | .subEpochQuorumFailed _ => do
          let tx ← pool.txs[pos]?
          let retryCount ← checkedAddU32 tx.retryCount 1
          if retryCount > maxRetryCount then
            some (pool.remove pos, .droppedMaxRetry)
          else
            some ({ txs := pool.txs.set pos { tx with retryCount } }, .retained retryCount)
      | .subEpochHashMismatch | .imtFrontierMismatch | .imtCountMismatch
      | .epochMismatch _ _ => some (pool.remove pos, .droppedInvalid)

/-- `detect_epoch_boundary_drop`. -/
def detectEpochBoundaryDrop
    (pool : PendingPool)
    (currentEpochId : UInt64) : PendingPool × List Bytes32 :=
  ({ txs := pool.txs.filter fun tx => !decide (tx.subepochRef.epochId < currentEpochId) },
    (pool.txs.filter fun tx => decide (tx.subepochRef.epochId < currentEpochId)).map
      PendingTx.txid)

/-- Perform a call. -/
def perform (pool : PendingPool) : PendingCall → Option (PendingPool × PendingAnswer)
  | .add tx =>
      some (pool.add tx, .added)
  | .applyResult txid result =>
      (pool.applyResult txid result).map fun next => (next.1, .applied next.2)
  | .detectEpochBoundaryDrop currentEpochId =>
      some
        ((pool.detectEpochBoundaryDrop currentEpochId).1,
          .dropped (pool.detectEpochBoundaryDrop currentEpochId).2)

/-- Perform calls one after the other. -/
def performAll : PendingPool → List PendingCall → Option (PendingPool × List PendingAnswer)
  | pool, [] => some (pool, [])
  | pool, call :: rest => do
      let (pool, answer) ← pool.perform call
      let (pool, answers) ← performAll pool rest
      some (pool, answer :: answers)

end PendingPool

/-!
## The calls about one transaction
-/

/-- A call is about a transaction; that of a new epoch is about all. -/
def PendingCall.Concerns (txid : Bytes32) : PendingCall → Bool
  | .add tx => tx.txid = txid
  | .applyResult other _ => other = txid
  | .detectEpochBoundaryDrop _ => true

/-- What an answer says of a transaction. -/
def PendingAnswer.about (txid : Bytes32) : PendingAnswer → PendingAnswer
  | .dropped txids => .dropped (txids.filter fun other => other = txid)
  | answer => answer

/-- The answers to the calls about a transaction. -/
def answersAbout
    (txid : Bytes32)
    (calls : List PendingCall)
    (answers : List PendingAnswer) : List PendingAnswer :=
  ((calls.zip answers).filter fun answered => answered.1.Concerns txid).map fun answered =>
    answered.2.about txid

/-- The entries of a transaction. -/
def PendingPool.about (pool : PendingPool) (txid : Bytes32) : PendingPool where
  txs := pool.txs.filter fun tx => tx.txid = txid

/-- How often a transaction is added by a call. -/
def addedBy (txid : Bytes32) : PendingCall → Nat
  | .add tx => if tx.txid = txid then 1 else 0
  | _ => 0

/-- How often a transaction certainly leaves the pool by a call. -/
def leavesBy (txid : Bytes32) : PendingCall → PendingAnswer → Nat
  | .applyResult other _, .applied .accepted => if other = txid then 1 else 0
  | .applyResult other _, .applied .droppedMaxRetry => if other = txid then 1 else 0
  | _, .dropped txids => txids.count txid
  | _, _ => 0

/-- How often a transaction is answered to be invalid. -/
def invalidBy (txid : Bytes32) : PendingCall → PendingAnswer → Nat
  | .applyResult other _, .applied .droppedInvalid => if other = txid then 1 else 0
  | _, _ => 0

/-- A number counted over calls and their answers. -/
def total
    (countBy : PendingCall → PendingAnswer → Nat)
    (calls : List PendingCall)
    (answers : List PendingAnswer) : Nat :=
  ((calls.zip answers).map fun answered => countBy answered.1 answered.2).sum

/-- What a pool shows of the calls that were made. -/
structure Manages
    (calls : List PendingCall)
    (pool : PendingPool)
    (answers : List PendingAnswer) : Prop where
  bounded : ∀ tx ∈ pool.txs, tx.retryCount ≤ maxRetryCount
  apart :
    ∀ txid,
      PendingPool.new.performAll (calls.filter fun call => call.Concerns txid) =
        some (pool.about txid, answersAbout txid calls answers)
  leavesOnce :
    ∀ txid,
      (pool.about txid).txs.length + total (leavesBy txid) calls answers ≤
        (calls.map (addedBy txid)).sum
  noneLost :
    ∀ txid,
      (calls.map (addedBy txid)).sum ≤
        (pool.about txid).txs.length + total (leavesBy txid) calls answers +
          total (invalidBy txid) calls answers

/-- The outcome for an entry whose count is small enough. -/
def outcomeOf (result : VerificationResult) (tx : PendingTx) : PendingOutcome :=
  match result with
  | .valid => .accepted
  | .subEpochNotFound | .subEpochQuorumFailed _ =>
      if tx.retryCount + 1 > maxRetryCount then
        .droppedMaxRetry
      else
        .retained (tx.retryCount + 1)
  | .subEpochHashMismatch | .imtFrontierMismatch | .imtCountMismatch
  | .epochMismatch _ _ => .droppedInvalid

/-- What is left of an entry. -/
def keptOf (tx : PendingTx) : PendingOutcome → List PendingTx
  | .retained retryCount => [{ tx with retryCount }]
  | _ => []

namespace PendingPool

variable {pool : PendingPool}

/-- A transaction has no entry, or a first one. -/
theorem findIdx?_cases (txs : List PendingTx) (txid : Bytes32) :
    ((∀ tx ∈ txs, tx.txid ≠ txid) ∧
        txs.findIdx? (fun tx => tx.txid = txid) = none) ∨
      ∃ before tx after,
        txs = before ++ tx :: after ∧
          (∀ earlier ∈ before, earlier.txid ≠ txid) ∧ tx.txid = txid ∧
          txs.findIdx? (fun tx => tx.txid = txid) = some before.length := by
  induction txs with
  | nil =>
      exact Or.inl ⟨nofun, rfl⟩
  | cons first rest inductionHypothesis =>
      rw [List.findIdx?_cons]
      by_cases same : first.txid = txid
      · exact Or.inr ⟨[], first, rest, rfl, nofun, same, if_pos (decide_eq_true same)⟩
      · rw [if_neg (by simpa using same)]
        rcases inductionHypothesis with
          ⟨absent, notFound⟩ | ⟨before, tx, after, rfl, earlier, isTx, found⟩
        · refine Or.inl ⟨?_, by rw [notFound, Option.map_none]⟩
          intro tx listed
          rcases List.mem_cons.mp listed with rfl | later
          · exact same
          · exact absent tx later
        · refine
            Or.inr
              ⟨first :: before, tx, after, rfl, ?_, isTx, by rw [found, Option.map_some]; rfl⟩
          intro other listed
          rcases List.mem_cons.mp listed with rfl | later
          · exact same
          · exact earlier other later

/-- A result changes the first entry of its transaction only. -/
theorem applyResult_cases
    (bounded : ∀ tx ∈ pool.txs, tx.retryCount ≤ maxRetryCount)
    (txid : Bytes32)
    (result : VerificationResult) :
    ((∀ tx ∈ pool.txs, tx.txid ≠ txid) ∧
        pool.applyResult txid result = some (pool, .droppedInvalid)) ∨
      ∃ before tx after,
        pool.txs = before ++ tx :: after ∧
          (∀ earlier ∈ before, earlier.txid ≠ txid) ∧ tx.txid = txid ∧
          pool.applyResult txid result =
            some
              ({ txs := before ++ (keptOf tx (outcomeOf result tx) ++ after) },
                outcomeOf result tx) := by
  rcases findIdx?_cases pool.txs txid with
    ⟨absent, notFound⟩ | ⟨before, tx, after, split, earlier, isTx, found⟩
  · refine Or.inl ⟨absent, ?_⟩
    rw [applyResult, notFound]
  · refine Or.inr ⟨before, tx, after, split, earlier, isTx, ?_⟩
    have removed : pool.remove before.length = { txs := before ++ after } := by
      rw [remove, split, List.eraseIdx_append_of_length_le le_rfl, Nat.sub_self,
        List.eraseIdx_cons_zero]
    have stands : pool.txs[before.length]? = some tx := by
      rw [split, List.getElem?_append_right le_rfl, Nat.sub_self, List.getElem?_cons_zero]
    have small : tx.retryCount.toNat ≤ 3 :=
      UInt32.le_iff_toNat_le.mp
        (bounded tx (by rw [split]; exact List.mem_append_right _ List.mem_cons_self))
    have counts : checkedAddU32 tx.retryCount 1 = some (tx.retryCount + 1) := by
      refine if_pos ?_
      have one : (1 : UInt32).toNat = 1 := rfl
      rw [one, maxU32]
      omega
    have replaced (tx' : PendingTx) :
        pool.txs.set before.length tx' = before ++ tx' :: after := by
      rw [split, List.set_append_right _ _ le_rfl, Nat.sub_self, List.set_cons_zero]
    cases result <;>
      simp only [applyResult, found, removed, outcomeOf, keptOf, List.nil_append]
    all_goals
      simp only [stands, counts, Option.bind_eq_bind, Option.bind_some]
      by_cases many : tx.retryCount + 1 > maxRetryCount
      · rw [if_pos many, if_pos many]
        rfl
      · rw [if_neg many, if_neg many, replaced]
        rfl

/-- What is kept of an entry is the entry, retried once more. -/
theorem of_mem_keptOf
    {result : VerificationResult}
    {tx other : PendingTx}
    (isKept : other ∈ keptOf tx (outcomeOf result tx)) :
    other.txid = tx.txid ∧ other.retryCount ≤ maxRetryCount := by
  have retry
      (isKept :
        other ∈
          keptOf tx
            (if tx.retryCount + 1 > maxRetryCount then
              .droppedMaxRetry
            else
              .retained (tx.retryCount + 1))) :
      other.txid = tx.txid ∧ other.retryCount ≤ maxRetryCount := by
    split at isKept
    · cases isKept
    · next few =>
        rw [List.mem_singleton.mp isKept]
        exact ⟨rfl, UInt32.not_lt.mp few⟩
  cases result with
  | subEpochNotFound => exact retry isKept
  | subEpochQuorumFailed subepochId => exact retry isKept
  | valid => cases isKept
  | subEpochHashMismatch => cases isKept
  | imtFrontierMismatch => cases isKept
  | imtCountMismatch => cases isKept
  | epochMismatch txEpochId currentEpochId => cases isKept

/-- A call succeeds, and keeps every retry count small. -/
theorem perform_bounded
    (bounded : ∀ tx ∈ pool.txs, tx.retryCount ≤ maxRetryCount)
    {call : PendingCall}
    (isFresh : ∀ tx, call = .add tx → tx.retryCount ≤ maxRetryCount) :
    ∃ next answer,
      pool.perform call = some (next, answer) ∧
        ∀ tx ∈ next.txs, tx.retryCount ≤ maxRetryCount := by
  cases call with
  | add tx =>
      refine ⟨pool.add tx, .added, rfl, ?_⟩
      intro other listed
      rcases List.mem_append.mp listed with before | isNew
      · exact bounded other before
      · rw [List.mem_singleton.mp isNew]
        exact isFresh tx rfl
  | applyResult txid result =>
      rcases applyResult_cases bounded txid result with
        ⟨_, applied⟩ | ⟨before, tx, after, split, _, _, applied⟩
      · exact ⟨pool, .applied .droppedInvalid, by rw [perform, applied]; rfl, bounded⟩
      · refine ⟨_, _, by rw [perform, applied]; rfl, ?_⟩
        intro other listed
        rw [split] at bounded
        rcases List.mem_append.mp listed with isBefore | isLater
        · exact bounded other (List.mem_append_left _ isBefore)
        · rcases List.mem_append.mp isLater with isKept | isAfter
          · exact (of_mem_keptOf isKept).2
          · exact
              bounded other
                (List.mem_append_right _ (List.mem_cons_of_mem tx isAfter))
  | detectEpochBoundaryDrop currentEpochId =>
      exact ⟨_, _, rfl, fun tx listed => bounded tx (List.mem_filter.mp listed).1⟩

/-- A call that is about other transactions leaves the entries as they are. -/
theorem about_of_not_concerns
    (bounded : ∀ tx ∈ pool.txs, tx.retryCount ≤ maxRetryCount)
    {txid : Bytes32}
    {call : PendingCall}
    (other : call.Concerns txid = false)
    {next : PendingPool}
    {answer : PendingAnswer}
    (performed : pool.perform call = some (next, answer)) :
    next.about txid = pool.about txid := by
  cases call with
  | add tx =>
      cases performed
      have apart : ¬tx.txid = txid := of_decide_eq_false other
      rw [about, about, add, List.filter_append, List.filter_singleton]
      simp [apart]
  | applyResult otherTxid result =>
      have apart : ¬otherTxid = txid := of_decide_eq_false other
      rcases applyResult_cases bounded otherTxid result with
        ⟨_, applied⟩ | ⟨before, tx, after, split, _, isTx, applied⟩
      · rw [perform, applied] at performed
        cases performed
        rfl
      · rw [perform, applied] at performed
        cases performed
        have none : (keptOf tx (outcomeOf result tx)).filter (fun tx => tx.txid = txid) = [] := by
          rw [List.filter_eq_nil_iff]
          intro kept isKept
          rw [(of_mem_keptOf isKept).1, isTx]
          simpa using apart
        rw [about, about, split]
        simp [none, isTx, apart]
  | detectEpochBoundaryDrop currentEpochId =>
      cases other

/-- A call about a transaction does to its entries what it does to the pool. -/
theorem perform_about
    (bounded : ∀ tx ∈ pool.txs, tx.retryCount ≤ maxRetryCount)
    {txid : Bytes32}
    {call : PendingCall}
    (concerned : call.Concerns txid = true)
    {next : PendingPool}
    {answer : PendingAnswer}
    (performed : pool.perform call = some (next, answer)) :
    (pool.about txid).perform call = some (next.about txid, answer.about txid) := by
  cases call with
  | add tx =>
      cases performed
      have same : tx.txid = txid := of_decide_eq_true concerned
      rw [perform, about, about, add, add, List.filter_append, List.filter_singleton]
      simp [same, PendingAnswer.about]
  | applyResult otherTxid result =>
      obtain rfl : otherTxid = txid := of_decide_eq_true concerned
      have boundedAbout : ∀ tx ∈ (pool.about otherTxid).txs, tx.retryCount ≤ maxRetryCount :=
        fun tx listed => bounded tx (List.mem_filter.mp listed).1
      have isAbout : ∀ tx ∈ (pool.about otherTxid).txs, tx.txid = otherTxid :=
        fun tx listed => of_decide_eq_true (List.mem_filter.mp listed).2
      rcases applyResult_cases bounded otherTxid result with
        ⟨absent, applied⟩ | ⟨before, tx, after, split, earlier, isTx, applied⟩
      · rw [perform, applied] at performed
        cases performed
        rcases applyResult_cases boundedAbout otherTxid result with
          ⟨_, appliedAbout⟩ | ⟨before, tx, after, splitAbout, _, isTx, _⟩
        · rw [perform, appliedAbout]
          rfl
        · have listed : tx ∈ (pool.about otherTxid).txs := by
            rw [splitAbout]
            exact List.mem_append_right _ List.mem_cons_self
          exact absurd isTx (absent tx (List.mem_filter.mp listed).1)
      · have noneBefore : before.filter (fun tx => tx.txid = otherTxid) = [] := by
          rw [List.filter_eq_nil_iff]
          intro other listed
          simpa using earlier other listed
        have aboutSplit :
            (pool.about otherTxid).txs =
              tx :: after.filter fun tx => tx.txid = otherTxid := by
          rw [about, split]
          simp [noneBefore, isTx]
        have allKept :
            (keptOf tx (outcomeOf result tx)).filter (fun tx => tx.txid = otherTxid) =
              keptOf tx (outcomeOf result tx) := by
          rw [List.filter_eq_self]
          intro other isKept
          rw [(of_mem_keptOf isKept).1]
          exact decide_eq_true isTx
        rw [perform, applied] at performed
        cases performed
        rcases applyResult_cases boundedAbout otherTxid result with
          ⟨absent, _⟩ | ⟨before', tx', after', splitAbout, earlier', _, appliedAbout⟩
        · exact absurd isTx (absent tx (by rw [aboutSplit]; exact List.mem_cons_self))
        · have isFirst : before' = [] := by
            rw [List.eq_nil_iff_forall_not_mem]
            intro other listed
            refine earlier' other listed (isAbout other ?_)
            rw [splitAbout]
            exact List.mem_append_left _ listed
          rw [isFirst, List.nil_append, aboutSplit, List.cons_eq_cons] at splitAbout
          obtain ⟨rfl, rfl⟩ := splitAbout
          rw [perform, appliedAbout, isFirst]
          simp [about, noneBefore, allKept, PendingAnswer.about]
  | detectEpochBoundaryDrop currentEpochId =>
      cases performed
      simp [perform, detectEpochBoundaryDrop, about, PendingAnswer.about, List.filter_filter,
        List.filter_map, Bool.and_comm, Function.comp_def]

/-- The entries of a transaction are those of the calls about it. -/
theorem performAll_about
    {calls : List PendingCall}
    (bounded : ∀ tx ∈ pool.txs, tx.retryCount ≤ maxRetryCount)
    (fresh : ∀ tx, PendingCall.add tx ∈ calls → tx.retryCount ≤ maxRetryCount) :
    ∃ next answers,
      pool.performAll calls = some (next, answers) ∧
        (∀ tx ∈ next.txs, tx.retryCount ≤ maxRetryCount) ∧
        ∀ txid,
          (pool.about txid).performAll (calls.filter fun call => call.Concerns txid) =
            some (next.about txid, answersAbout txid calls answers) := by
  induction calls generalizing pool with
  | nil =>
      exact ⟨pool, [], rfl, bounded, fun _ => rfl⟩
  | cons call rest inductionHypothesis =>
      obtain ⟨middle, answer, performed, middleBounded⟩ :=
        perform_bounded bounded fun tx isAdd =>
          fresh tx (by rw [← isAdd]; exact List.mem_cons_self)
      obtain ⟨next, answers, performedRest, nextBounded, apart⟩ :=
        inductionHypothesis middleBounded fun tx isAdd =>
          fresh tx (List.mem_cons_of_mem call isAdd)
      refine
        ⟨next, answer :: answers, by simp [performAll, performed, performedRest],
          nextBounded, ?_⟩
      intro txid
      specialize apart txid
      cases concerned : call.Concerns txid with
      | true =>
          rw [List.filter_cons_of_pos concerned, performAll,
            perform_about bounded concerned performed]
          simp [apart, answersAbout, concerned]
      | false =>
          rw [List.filter_cons_of_neg (by rw [concerned]; exact Bool.false_ne_true),
            ← about_of_not_concerns bounded concerned performed, apart]
          simp [answersAbout, concerned]

theorem length_about (pool : PendingPool) (txid : Bytes32) :
    (pool.about txid).txs.length = pool.txs.countP fun tx => tx.txid = txid :=
  List.countP_eq_length_filter.symm

/-- A call changes the number of a transaction's entries by what it adds and settles. -/
theorem length_about_perform
    (bounded : ∀ tx ∈ pool.txs, tx.retryCount ≤ maxRetryCount)
    (txid : Bytes32)
    {call : PendingCall}
    {next : PendingPool}
    {answer : PendingAnswer}
    (performed : pool.perform call = some (next, answer)) :
    (next.about txid).txs.length + leavesBy txid call answer ≤
        (pool.about txid).txs.length + addedBy txid call ∧
      (pool.about txid).txs.length + addedBy txid call ≤
        (next.about txid).txs.length + leavesBy txid call answer +
          invalidBy txid call answer := by
  rw [length_about, length_about]
  cases call with
  | add tx =>
      cases performed
      rw [add, List.countP_append, List.countP_singleton, addedBy]
      simp [leavesBy]
  | applyResult other result =>
      rcases applyResult_cases bounded other result with
        ⟨_, applied⟩ | ⟨before, tx, after, split, _, isTx, applied⟩
      · rw [perform, applied] at performed
        cases performed
        simp [addedBy, leavesBy]
      · rw [perform, applied] at performed
        cases performed
        rw [split, List.countP_append, List.countP_append, List.countP_append,
          List.countP_cons, isTx]
        cases outcomeOf result tx <;>
          by_cases same : other = txid <;>
            simp [keptOf, addedBy, leavesBy, invalidBy, isTx, same] <;> omega
  | detectEpochBoundaryDrop currentEpochId =>
      cases performed
      have parts :=
        @List.length_eq_countP_add_countP _
          (fun tx : PendingTx => decide (tx.subepochRef.epochId < currentEpochId))
          (pool.about txid).txs
      have leaves :
          ((pool.detectEpochBoundaryDrop currentEpochId).2).count txid =
            (pool.about txid).txs.countP fun tx =>
              decide (tx.subepochRef.epochId < currentEpochId) := by
        rw [detectEpochBoundaryDrop, about, List.count_eq_countP, List.countP_map,
          List.countP_filter, List.countP_filter]
        refine List.countP_congr fun tx _ => ?_
        simp [and_comm]
      have stays :
          (pool.detectEpochBoundaryDrop currentEpochId).1.txs.countP
              (fun tx => tx.txid = txid) =
            (pool.about txid).txs.countP fun tx =>
              decide ¬decide (tx.subepochRef.epochId < currentEpochId) = true := by
        rw [detectEpochBoundaryDrop, about, List.countP_filter, List.countP_filter]
        refine List.countP_congr fun tx _ => ?_
        simp [and_comm]
      have adds : addedBy txid (.detectEpochBoundaryDrop currentEpochId) = 0 := rfl
      have dropped (txids : List Bytes32) :
          leavesBy txid (.detectEpochBoundaryDrop currentEpochId) (.dropped txids) =
            txids.count txid :=
        rfl
      rw [← length_about pool, adds, dropped, leaves, stays, parts]
      omega

/-- Over all calls a transaction leaves at most as often as it was added. -/
theorem length_about_performAll
    {calls : List PendingCall}
    (bounded : ∀ tx ∈ pool.txs, tx.retryCount ≤ maxRetryCount)
    (fresh : ∀ tx, PendingCall.add tx ∈ calls → tx.retryCount ≤ maxRetryCount)
    (txid : Bytes32)
    {next : PendingPool}
    {answers : List PendingAnswer}
    (performed : pool.performAll calls = some (next, answers)) :
    (next.about txid).txs.length + total (leavesBy txid) calls answers ≤
        (pool.about txid).txs.length + (calls.map (addedBy txid)).sum ∧
      (pool.about txid).txs.length + (calls.map (addedBy txid)).sum ≤
        (next.about txid).txs.length + total (leavesBy txid) calls answers +
          total (invalidBy txid) calls answers := by
  induction calls generalizing pool answers with
  | nil =>
      cases performed
      exact ⟨le_rfl, le_rfl⟩
  | cons call rest inductionHypothesis =>
      obtain ⟨middle, answer, performedFirst, middleBounded⟩ :=
        perform_bounded bounded fun tx isAdd =>
          fresh tx (by rw [← isAdd]; exact List.mem_cons_self)
      rw [performAll, performedFirst, Option.bind_eq_bind, Option.bind_some] at performed
      obtain ⟨⟨last, answersRest⟩, performedRest, same⟩ :=
        Option.bind_eq_some_iff.mp performed
      cases same
      obtain ⟨leavesFirst, lostFirst⟩ :=
        length_about_perform bounded txid performedFirst
      obtain ⟨leavesRest, lostRest⟩ :=
        inductionHypothesis middleBounded
          (fun tx isAdd => fresh tx (List.mem_cons_of_mem call isAdd)) performedRest
      have totals (countBy : PendingCall → PendingAnswer → Nat) :
          total countBy (call :: rest) (answer :: answersRest) =
            countBy call answer + total countBy rest answersRest := by
        rw [total, List.zip_cons_cons, List.map_cons, List.sum_cons, total]
      rw [totals, totals, List.map_cons, List.sum_cons]
      omega

/--
A pool that transactions are added to before they are retried never overflows a retry
count.  Each transaction is answered and kept as if the calls about the others had not
been made, leaves at most as often as it was added, and is lost only with an answer.
-/
theorem pool_manages
    {calls : List PendingCall}
    (fresh : ∀ tx, PendingCall.add tx ∈ calls → tx.retryCount ≤ maxRetryCount) :
    ∃ pool answers, new.performAll calls = some (pool, answers) ∧
      Manages calls pool answers := by
  have bounded : ∀ tx ∈ new.txs, tx.retryCount ≤ maxRetryCount := nofun
  obtain ⟨pool, answers, performed, poolBounded, apart⟩ :=
    performAll_about bounded fresh
  have accounted (txid : Bytes32) :=
    length_about_performAll bounded fresh txid performed
  have isEmpty (txid : Bytes32) : (new.about txid).txs.length = 0 := rfl
  refine
    ⟨pool, answers, performed,
      { bounded := poolBounded
        apart
        leavesOnce := fun txid => ?_
        noneLost := fun txid => ?_ }⟩
  · have leaves := (accounted txid).1
    rwa [isEmpty, Nat.zero_add] at leaves
  · have lost := (accounted txid).2
    rwa [isEmpty, Nat.zero_add] at lost

/-- A transaction whose quorum fails four times. -/
def failingCalls : List PendingCall :=
  .add (.new (.endingIn 1) ⟨1, 0, .zero⟩) ::
    List.replicate 4 (.applyResult (.endingIn 1) (.subEpochQuorumFailed 0))

/-- It leaves the pool. -/
theorem pool_manages_failing :
    ∃ pool answers,
      new.performAll failingCalls = some (pool, answers) ∧
        (pool.about (.endingIn 1)).txs.length +
            total (leavesBy (.endingIn 1)) failingCalls answers ≤
          1 := by
  have fresh : ∀ tx, PendingCall.add tx ∈ failingCalls → tx.retryCount ≤ maxRetryCount := by
    intro tx listed
    rcases List.mem_cons.mp listed with isFirst | later
    · cases isFirst
      decide
    · cases List.eq_of_mem_replicate later
  obtain ⟨pool, answers, performed, managed⟩ := pool_manages fresh
  exact ⟨pool, answers, performed, managed.leavesOnce (.endingIn 1)⟩

end PendingPool

end ScalarCore
