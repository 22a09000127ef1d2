import ScalarCore.DeferredPoolAccounts

namespace ScalarCore

/-!
# Runs of the deferred pool

A run of deposits and releases with nondecreasing epochs is audited: beside the
pool, the epochs of all units deposited, released and expired are recorded.
The totals of the pool are the lengths of these records, and the records with
the pool's own units account for each deposited unit once.
-/

open MachineInt UnitQueue DeferredEmissionPool

namespace PoolOp

/-- The epoch of an operation. -/
def epoch : PoolOp → UInt64
  | .deposit _ epoch => epoch
  | .release currentEpoch => currentEpoch

/-- The amount an operation offers to the pool. -/
def offered : PoolOp → Nat
  | .deposit amountSscl _ => amountSscl.toNat
  | .release _ => 0

/-- Cumulative deposits of a sequence of operations. -/
def cumulative (ops : List PoolOp) : Nat :=
  (ops.map offered).sum

/-- The last operation adds what it offers. -/
theorem cumulative_concat (ops : List PoolOp) (op : PoolOp) :
    cumulative (ops ++ [op]) = cumulative ops + op.offered := by
  simp [cumulative]

/-- The epochs of a sequence of operations never decrease. -/
def Nondecreasing (ops : List PoolOp) : Prop :=
  ops.Pairwise fun earlier later =>
    earlier.epoch.toNat ≤ later.epoch.toNat

instance (ops : List PoolOp) : Decidable (Nondecreasing ops) :=
  inferInstanceAs (Decidable (ops.Pairwise _))

end PoolOp

/-- The pool with a record of its units. -/
structure PoolAudit where
  pool : DeferredEmissionPool
  /-- Deposit epoch of each unit ever deposited. -/
  deposited : List Nat
  /-- Deposit epoch and release epoch of each unit ever released. -/
  released : List (Nat × Nat)
  /-- Deposit epoch of each unit ever expired. -/
  expired : List Nat

namespace PoolAudit

/-- The empty pool and empty records. -/
def new : PoolAudit where
  pool := .new
  deposited := []
  released := []
  expired := []

/-- Perform one operation; the output is the amount released. -/
def step (audit : PoolAudit) : PoolOp → PoolAudit × UInt64
  | .deposit amountSscl epoch =>
      ({ audit with
          pool := audit.pool.deposit amountSscl epoch
          deposited :=
            audit.deposited ++
              List.replicate (audit.pool.actualDeposit amountSscl).toNat
                epoch.toNat },
        0)
  | .release currentEpoch =>
      let outcome := audit.pool.release currentEpoch
      ({ audit with
          pool := outcome.1
          released :=
            audit.released ++
              ((unitsOf (audit.pool.live currentEpoch)).take
                outcome.2.toNat).map fun unit => (unit, currentEpoch.toNat)
          expired :=
            audit.expired ++ unitsOf (audit.pool.expiring currentEpoch) },
        outcome.2)

/-- The audited pool is the pool. -/
theorem pool_run (ops : List PoolOp) :
    (StateMachine.run step new ops).pool =
      StateMachine.run DeferredEmissionPool.step .new ops :=
  StateMachine.run_project
    (fun audit op => by
      cases op with
      | deposit amountSscl epoch =>
          rfl
      | release currentEpoch =>
          rfl)
    new ops

/-- The accounts of a pool after a sequence of operations. -/
structure Balanced (ops : List PoolOp) (audit : PoolAudit) : Prop where
  total : audit.pool.totalSscl.toNat = amountOf audit.pool.entries
  positive : ∀ entry ∈ audit.pool.entries, 0 < entry.amountSscl
  capped : audit.pool.totalSscl.toNat ≤ sESscl.toNat
  depositedCount :
    audit.pool.totalDepositedSscl.toNat = audit.deposited.length
  releasedCount :
    audit.pool.totalReleasedSscl.toNat = audit.released.length
  conserved :
    audit.deposited.Perm
      (audit.released.map Prod.fst ++ audit.expired ++
        unitsOf audit.pool.entries)
  inTime :
    ∀ unit ∈ audit.released, unit.1 ≤ unit.2 ∧ unit.2 ≤ unit.1 + 12
  offered : audit.deposited.length ≤ PoolOp.cumulative ops
  ordered :
    (audit.pool.entries.map DeferredEntry.deferredEpoch).Pairwise
      fun earlier later => earlier.toNat ≤ later.toNat
  past :
    ∀ epoch ∈ audit.pool.entries.map DeferredEntry.deferredEpoch,
      ∃ op ∈ ops, op.epoch = epoch

/-- The units in the pool, released and expired are those deposited. -/
theorem Balanced.length_conserved
    {ops : List PoolOp}
    {audit : PoolAudit}
    (balanced : Balanced ops audit) :
    audit.deposited.length =
      audit.released.length + audit.pool.totalSscl.toNat +
        audit.expired.length := by
  have counted := balanced.conserved.length_eq
  rw [List.length_append, List.length_append, List.length_map,
    length_unitsOf, ← balanced.total] at counted
  omega

theorem balanced_new : Balanced [] new where
  total := rfl
  positive := by
    simp [new, DeferredEmissionPool.new]
  capped := by
    decide
  depositedCount := rfl
  releasedCount := rfl
  conserved := List.Perm.nil
  inTime := by
    simp [new]
  offered := Nat.le_refl _
  ordered := List.Pairwise.nil
  past := by
    simp [new, DeferredEmissionPool.new]

/-- The cap fits the word. -/
theorem cap_le_maxU64 : sESscl.toNat ≤ maxU64 := by
  decide

/-- What is recorded of the epochs of the operations stays true later. -/
theorem past_append
    {ops : List PoolOp}
    {epochs : List UInt64}
    (past : ∀ epoch ∈ epochs, ∃ op ∈ ops, op.epoch = epoch)
    (next : PoolOp) :
    ∀ epoch ∈ epochs, ∃ op ∈ ops ++ [next], op.epoch = epoch := by
  intro epoch listed
  obtain ⟨op, performed, same⟩ := past epoch listed
  exact ⟨op, List.mem_append_left _ performed, same⟩

/-- The epoch of the next operation is recorded with those before. -/
theorem past_append_singleton
    {ops : List PoolOp}
    {epochs : List UInt64}
    (past : ∀ epoch ∈ epochs, ∃ op ∈ ops, op.epoch = epoch)
    (next : PoolOp) :
    ∀ epoch ∈ epochs ++ [next.epoch], ∃ op ∈ ops ++ [next], op.epoch = epoch := by
  rw [List.forall_mem_append]
  refine ⟨past_append past next, ?_⟩
  intro epoch isNext
  rw [List.mem_singleton] at isNext
  exact ⟨next, List.mem_append_right _ List.mem_cons_self, isNext.symm⟩

/-- An epoch not before those of the operations comes last. -/
theorem ordered_append_singleton
    {ops : List PoolOp}
    {epochs : List UInt64}
    (past : ∀ epoch ∈ epochs, ∃ op ∈ ops, op.epoch = epoch)
    (ordered : epochs.Pairwise fun earlier later => earlier.toNat ≤ later.toNat)
    {epoch : UInt64}
    (later : ∀ op ∈ ops, op.epoch.toNat ≤ epoch.toNat) :
    (epochs ++ [epoch]).Pairwise
      fun earlier later => earlier.toNat ≤ later.toNat := by
  rw [List.pairwise_append]
  refine ⟨ordered, List.pairwise_singleton _ _, ?_⟩
  intro earlier listed last isLast
  obtain ⟨op, performed, rfl⟩ := past earlier listed
  rw [List.mem_singleton.mp isLast]
  exact later op performed

/-- A deposit keeps the accounts balanced. -/
theorem Balanced.deposit
    {ops : List PoolOp}
    {audit : PoolAudit}
    (balanced : Balanced ops audit)
    (amountSscl epoch : UInt64)
    (later : ∀ op ∈ ops, op.epoch.toNat ≤ epoch.toNat)
    (fits : PoolOp.cumulative (ops ++ [.deposit amountSscl epoch]) ≤ maxU64) :
    Balanced (ops ++ [.deposit amountSscl epoch])
      (step audit (.deposit amountSscl epoch)).1 := by
  have offeredSum :
      PoolOp.cumulative (ops ++ [.deposit amountSscl epoch]) =
        PoolOp.cumulative ops + amountSscl.toNat :=
    PoolOp.cumulative_concat _ _
  have actual := toNat_actualDeposit balanced.capped amountSscl
  have capInRange := cap_le_maxU64
  have capped := balanced.capped
  have offered := balanced.offered
  have counted := balanced.depositedCount
  rcases audit.pool.deposit_cases amountSscl epoch with
    ⟨nothing, unchanged⟩ | ⟨something, added⟩
  · have sameRecord :
        audit.deposited ++
            List.replicate (audit.pool.actualDeposit amountSscl).toNat
              epoch.toNat =
          audit.deposited := by
      simp [nothing]
    simp only [step, unchanged, sameRecord]
    exact {
      balanced with
      offered := by
        rw [offeredSum]
        exact Nat.le_add_right_of_le balanced.offered
      past := past_append balanced.past _
    }
  · have oneMore :
        unitsOf
            (audit.pool.entries ++
              [{ deferredEpoch := epoch,
                 amountSscl := audit.pool.actualDeposit amountSscl }]) =
          unitsOf audit.pool.entries ++
            List.replicate (audit.pool.actualDeposit amountSscl).toNat
              epoch.toNat :=
      unitsOf_concat _ _
    simp only [step, added]
    exact {
      total := by
        rw [← length_unitsOf, oneMore, List.length_append, length_unitsOf,
          List.length_replicate, toNat_saturatingAdd, ← balanced.total]
        omega
      positive := by
        intro entry listed
        rcases List.mem_append.mp listed with wasListed | isNew
        · exact balanced.positive entry wasListed
        · rw [List.mem_singleton.mp isNew]
          exact UInt64.pos_iff_ne_zero.mpr something
      capped := by
        rw [toNat_saturatingAdd]
        omega
      depositedCount := by
        rw [toNat_saturatingAdd, List.length_append, List.length_replicate]
        omega
      releasedCount := balanced.releasedCount
      conserved := by
        rw [oneMore, ← List.append_assoc]
        exact balanced.conserved.append_right _
      inTime := balanced.inTime
      offered := by
        rw [offeredSum, List.length_append, List.length_replicate]
        omega
      ordered := by
        rw [List.map_append]
        exact ordered_append_singleton balanced.past balanced.ordered later
      past := by
        rw [List.map_append]
        exact past_append_singleton balanced.past (.deposit amountSscl epoch)
    }

/-- The entries of a pool under the cap add up within the word. -/
theorem Balanced.fitsWord
    {ops : List PoolOp}
    {audit : PoolAudit}
    (balanced : Balanced ops audit) :
    amountOf audit.pool.entries ≤ maxU64 := by
  rw [← balanced.total]
  exact balanced.capped.trans cap_le_maxU64

/-- A live unit was deposited at most twelve epochs ago. -/
theorem Balanced.mem_live
    {ops : List PoolOp}
    {audit : PoolAudit}
    (balanced : Balanced ops audit)
    {currentEpoch : UInt64}
    (later : ∀ op ∈ ops, op.epoch.toNat ≤ currentEpoch.toNat)
    {unit : Nat}
    (member : unit ∈ unitsOf (audit.pool.live currentEpoch)) :
    unit ≤ currentEpoch.toNat ∧ currentEpoch.toNat ≤ unit + 12 := by
  obtain ⟨lot, listed, rfl⟩ := exists_lot_of_mem_units member
  obtain ⟨entry, isLive, rfl⟩ := List.mem_map.mp listed
  obtain ⟨stored, inTime⟩ := List.mem_filter.mp isLive
  obtain ⟨op, performed, sameEpoch⟩ :=
    balanced.past _ (List.mem_map_of_mem stored)
  have notLater := later op performed
  have age := UInt64.le_iff_toNat_le.mp (of_decide_eq_true inTime)
  have twelve : deferredPoolMaxEpochs.toNat = 12 := rfl
  rw [toNat_saturatingSub, twelve] at age
  rw [sameEpoch] at notLater
  exact ⟨notLater, by simpa using Nat.sub_le_iff_le_add'.mp age⟩

/-- Units are moved when some live ones are paid and the expiring ones set aside. -/
theorem perm_take_drop
    {deposited released expired units live expiring : List Nat}
    (conserved : deposited.Perm (released ++ expired ++ units))
    (divided : (live ++ expiring).Perm units)
    (paid : Nat) :
    deposited.Perm
      ((released ++ live.take paid) ++ (expired ++ expiring) ++
        live.drop paid) := by
  rw [List.perm_iff_count]
  intro unit
  have before := conserved.count_eq unit
  have split := divided.count_eq unit
  have taken := congrArg (List.count unit) (List.take_append_drop paid live)
  simp only [List.count_append] at before split taken ⊢
  omega

/-- A release keeps the accounts balanced. -/
theorem Balanced.release
    {ops : List PoolOp}
    {audit : PoolAudit}
    (balanced : Balanced ops audit)
    (currentEpoch : UInt64)
    (later : ∀ op ∈ ops, op.epoch.toNat ≤ currentEpoch.toNat)
    (fits : PoolOp.cumulative ops ≤ maxU64) :
    Balanced (ops ++ [.release currentEpoch])
      (step audit (.release currentEpoch)).1 := by
  have capped := balanced.capped
  have capInRange := cap_le_maxU64
  have counted := balanced.length_conserved
  have offered := balanced.offered
  have total := balanced.total
  have liveWithin := audit.pool.amountOf_live_le currentEpoch
  have released := release_released balanced.fitsWord currentEpoch
  have amount := released.amount_eq
  have leftOver := released.total_eq
  have epochs := audit.pool.map_deferredEpoch_release currentEpoch
  exact {
    total := by
      simp only [step]
      rw [leftOver, ← length_unitsOf, ← length_unitsOf, released.units_eq,
        List.length_drop]
    positive := audit.pool.positive_release balanced.positive currentEpoch
    capped := by
      simp only [step]
      omega
    depositedCount := by
      simp only [step]
      rw [released.deposited_eq]
      exact balanced.depositedCount
    releasedCount := by
      simp only [step]
      rw [released.released_eq, toNat_saturatingAdd, List.length_append,
        List.length_map, List.length_take, length_unitsOf,
        balanced.releasedCount]
      omega
    conserved := by
      simp only [step]
      have sameUnits (units : List Nat) :
          (units.map fun deposit =>
              (deposit, currentEpoch.toNat)).map Prod.fst =
            units := by
        rw [List.map_map]
        exact List.map_id units
      rw [released.units_eq, List.map_append, sameUnits]
      exact
        perm_take_drop balanced.conserved
          (audit.pool.unitsOf_live_expiring currentEpoch) _
    inTime := by
      intro unit member
      rcases List.mem_append.mp member with earlier | isNew
      · exact balanced.inTime unit earlier
      · obtain ⟨deposit, taken, rfl⟩ := List.mem_map.mp isNew
        exact balanced.mem_live later (List.mem_of_mem_take taken)
    offered := by
      rw [PoolOp.cumulative_concat]
      exact offered
    ordered := balanced.ordered.sublist epochs
    past := by
      apply past_append
      intro epoch listed
      exact balanced.past epoch (epochs.subset listed)
  }

/-- One operation keeps the accounts balanced. -/
theorem Balanced.step
    {past : List PoolOp}
    {audit : PoolAudit}
    (balanced : Balanced past audit)
    (op : PoolOp)
    (nondecreasing : PoolOp.Nondecreasing (past ++ [op]))
    (fits : PoolOp.cumulative (past ++ [op]) ≤ maxU64) :
    Balanced (past ++ [op]) (PoolAudit.step audit op).1 := by
  have later : ∀ earlier ∈ past, earlier.epoch.toNat ≤ op.epoch.toNat := by
    intro earlier performed
    exact
      (List.pairwise_append.mp nondecreasing).2.2 earlier performed op
        (List.mem_singleton_self op)
  cases op with
  | deposit amountSscl epoch =>
      exact balanced.deposit amountSscl epoch later fits
  | release currentEpoch =>
      have pastFits : PoolOp.cumulative past ≤ maxU64 := by
        rwa [PoolOp.cumulative_concat] at fits
      exact balanced.release currentEpoch later pastFits

/-- The accounts balance if the operations so far are admissible. -/
def Accounted (past : List PoolOp) (audit : PoolAudit) : Prop :=
  PoolOp.Nondecreasing past →
  PoolOp.cumulative past ≤ maxU64 →
  Balanced past audit

theorem Accounted.step
    (past : List PoolOp)
    (audit : PoolAudit)
    (op : PoolOp)
    (accounted : Accounted past audit) :
    Accounted (past ++ [op]) (PoolAudit.step audit op).1 := by
  intro nondecreasing fits
  have pastFits : PoolOp.cumulative past ≤ maxU64 := by
    rw [PoolOp.cumulative_concat] at fits
    exact (Nat.le_add_right _ _).trans fits
  have balanced :=
    accounted (List.pairwise_append.mp nondecreasing).1 pastFits
  exact balanced.step op nondecreasing fits

/-- Along every run the accounts are balanced. -/
theorem balanced_run
    {ops : List PoolOp}
    (nondecreasing : PoolOp.Nondecreasing ops)
    (fits : PoolOp.cumulative ops ≤ maxU64) :
    Balanced ops (StateMachine.run PoolAudit.step new ops) := by
  have accounted : Accounted ([] ++ ops) _ :=
    StateMachine.run_history Accounted.step (fun _ _ => balanced_new) ops
  exact accounted nondecreasing fits

/-- Every release passes the invariant check of the source. -/
theorem Balanced.verifyInvariant_release
    {ops : List PoolOp}
    {audit : PoolAudit}
    (balanced : Balanced ops audit)
    (currentEpoch : UInt64) :
    (audit.pool.release currentEpoch).1.verifyInvariant
        (audit.pool.release currentEpoch).2 = true := by
  have released := release_released balanced.fitsWord currentEpoch
  have withinCap := balanced.capped
  have total := balanced.total
  have liveWithin := audit.pool.amountOf_live_le currentEpoch
  have amount := released.amount_eq
  have leftOver := released.total_eq
  rw [verifyInvariant, Bool.and_eq_true, decide_eq_true_iff,
    decide_eq_true_iff, UInt64.le_iff_toNat_le, UInt64.le_iff_toNat_le]
  omega

/-- Live units stand in the order of their deposits. -/
theorem Balanced.pairwise_live
    {ops : List PoolOp}
    {audit : PoolAudit}
    (balanced : Balanced ops audit)
    (currentEpoch : UInt64) :
    (unitsOf (audit.pool.live currentEpoch)).Pairwise (· ≤ ·) := by
  apply pairwise_units
  rw [lots, List.pairwise_map]
  exact (List.pairwise_map.mp balanced.ordered).sublist List.filter_sublist

/--
Along every run with nondecreasing epochs and cumulative deposits that fit the
word, the total is the sum of the entries, entries are positive, the total
stays under the cap, and each deposited unit is released once, expired or in
the pool.  A release returns what is unexpired up to its limit and takes it
from the oldest units, none older than twelve epochs.
-/
theorem deferredPool_accounts
    {ops : List PoolOp}
    (nondecreasing : PoolOp.Nondecreasing ops)
    (fits : PoolOp.cumulative ops ≤ maxU64) :
    let pool := StateMachine.run DeferredEmissionPool.step .new ops
    let audit := StateMachine.run PoolAudit.step .new ops
    pool.totalSscl.toNat = amountOf pool.entries ∧
      (∀ entry ∈ pool.entries, 0 < entry.amountSscl) ∧
      pool.totalSscl.toNat ≤ sESscl.toNat ∧
      pool.totalDepositedSscl.toNat =
        pool.totalReleasedSscl.toNat + pool.totalSscl.toNat +
          audit.expired.length ∧
      audit.deposited.Perm
        (audit.released.map Prod.fst ++ audit.expired ++
          unitsOf pool.entries) ∧
      (∀ unit ∈ audit.released,
        unit.1 ≤ unit.2 ∧ unit.2 ≤ unit.1 + 12) ∧
      ∀ currentEpoch,
        (pool.release currentEpoch).2.toNat =
            min (amountOf (pool.live currentEpoch))
              deferredPoolMaxReleasePerEpoch.toNat ∧
          (unitsOf (pool.live currentEpoch)).Pairwise (· ≤ ·) ∧
          unitsOf (pool.release currentEpoch).1.entries =
            (unitsOf (pool.live currentEpoch)).drop
              (pool.release currentEpoch).2.toNat := by
  intro pool audit
  have balanced : Balanced ops audit := balanced_run nondecreasing fits
  have samePool : audit.pool = pool := pool_run ops
  rw [← samePool]
  refine
    ⟨balanced.total, balanced.positive, balanced.capped, ?_,
      balanced.conserved, balanced.inTime, ?_⟩
  · rw [balanced.depositedCount, balanced.releasedCount]
    exact balanced.length_conserved
  · intro currentEpoch
    have released := release_released balanced.fitsWord currentEpoch
    exact
      ⟨released.amount_eq, balanced.pairwise_live currentEpoch,
        released.units_eq⟩

/-- The ledger of a run in which some of a deposit expires. -/
theorem deferredPool_accounts_expiry :
    let ops : List PoolOp :=
      [.deposit 2000000000000 1, .release 2, .deposit 7 9, .release 20]
    let pool := StateMachine.run DeferredEmissionPool.step .new ops
    let audit := StateMachine.run PoolAudit.step .new ops
    pool.totalDepositedSscl.toNat =
      pool.totalReleasedSscl.toNat + pool.totalSscl.toNat +
        audit.expired.length :=
  (deferredPool_accounts (by decide) (by decide)).2.2.2.1

end PoolAudit

end ScalarCore
