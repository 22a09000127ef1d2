import ScalarCore.DeferredPool
import ScalarCore.UnitQueue

namespace ScalarCore

/-!
# Accounts of the deferred pool

Each sSCL in the pool is followed as a unit tagged with the epoch of its
deposit.  In these terms the pool is a queue: a release takes units from the
front, and along every run each deposited unit is released once, expired, or
still in the pool.
-/

open MachineInt UnitQueue

/-- The entries as lots of the queue. -/
def lots (entries : List DeferredEntry) : List (Nat × Nat) :=
  entries.map fun entry =>
    (entry.deferredEpoch.toNat, entry.amountSscl.toNat)

/-- The units of the entries, oldest deposit first. -/
def unitsOf (entries : List DeferredEntry) : List Nat :=
  units (lots entries)

/-- Sum of the amounts of the entries. -/
def amountOf (entries : List DeferredEntry) : Nat :=
  (entries.map fun entry => entry.amountSscl.toNat).sum

theorem length_unitsOf (entries : List DeferredEntry) :
    (unitsOf entries).length = amountOf entries := by
  rw [unitsOf, length_units, lots, amountOf, List.map_map]
  rfl

/-- The units of a new entry come last. -/
theorem unitsOf_concat (entries : List DeferredEntry) (entry : DeferredEntry) :
    unitsOf (entries ++ [entry]) =
      unitsOf entries ++
        List.replicate entry.amountSscl.toNat entry.deferredEpoch.toNat := by
  simp [unitsOf, lots]

namespace DeferredEmissionPool

/-- The loop of the source takes from the front of the queue. -/
theorem lots_drain
    (remaining : UInt64)
    (entries : List DeferredEntry) :
    lots (drain remaining entries) =
      UnitQueue.drain remaining.toNat (lots entries) := by
  induction entries generalizing remaining with
  | nil =>
      rfl
  | cons entry rest inductionHypothesis =>
      unfold drain
      split
      · next nothingLeft =>
          subst nothingLeft
          exact (drain_zero _).symm
      · split
        · next usedUp =>
            have noneLeft :
                entry.amountSscl.toNat - remaining.toNat = 0 :=
              Nat.sub_eq_zero_of_le (UInt64.le_iff_toNat_le.mp usedUp)
            have restDrained :=
              inductionHypothesis (saturatingSub remaining entry.amountSscl)
            rw [toNat_saturatingSub] at restDrained
            simp only [lots, List.map_cons, UnitQueue.drain, noneLeft]
            exact congrArg _ restDrained
        · next partlyUsed =>
            have allTaken :
                remaining.toNat - entry.amountSscl.toNat = 0 := by
              have := UInt64.le_iff_toNat_le.not.mp partlyUsed
              omega
            simp [lots, UnitQueue.drain, allTaken]

/-- The loop keeps the epochs of the entries. -/
theorem map_deferredEpoch_drain
    (remaining : UInt64)
    (entries : List DeferredEntry) :
    (drain remaining entries).map DeferredEntry.deferredEpoch =
      entries.map DeferredEntry.deferredEpoch := by
  induction entries generalizing remaining with
  | nil =>
      rfl
  | cons entry rest inductionHypothesis =>
      unfold drain
      split
      · rfl
      · split
        · simp [inductionHypothesis]
        · rfl

/-- Under the cap, a deposit adds its amount as far as the cap allows. -/
theorem toNat_actualDeposit
    {pool : DeferredEmissionPool}
    (capped : pool.totalSscl.toNat ≤ sESscl.toNat)
    (amountSscl : UInt64) :
    (pool.actualDeposit amountSscl).toNat =
      min amountSscl.toNat (sESscl.toNat - pool.totalSscl.toNat) := by
  have capInRange : sESscl.toNat ≤ maxU64 := by
    decide
  rw [actualDeposit, toNat_saturatingSub, toNat_min, toNat_saturatingAdd]
  omega

/-- What one deposit does. -/
theorem deposit_cases
    (pool : DeferredEmissionPool)
    (amountSscl epoch : UInt64) :
    (pool.actualDeposit amountSscl = 0 ∧
        pool.deposit amountSscl epoch = pool) ∨
      (pool.actualDeposit amountSscl ≠ 0 ∧
        pool.deposit amountSscl epoch =
          { pool with
            entries :=
              pool.entries ++
                [{ deferredEpoch := epoch,
                   amountSscl := pool.actualDeposit amountSscl }]
            totalSscl :=
              saturatingAdd pool.totalSscl (pool.actualDeposit amountSscl)
            totalDepositedSscl :=
              saturatingAdd pool.totalDepositedSscl
                (pool.actualDeposit amountSscl) }) := by
  unfold deposit
  by_cases noAmount : amountSscl = 0
  · left
    have nothingAdded : pool.actualDeposit 0 = 0 := by
      rw [← UInt64.toNat_inj, actualDeposit, toNat_saturatingSub, toNat_min,
        toNat_saturatingAdd, UInt64.toNat_zero]
      omega
    subst noAmount
    exact ⟨nothingAdded, if_pos rfl⟩
  · rw [if_neg noAmount]
    by_cases nothingAdded : pool.actualDeposit amountSscl = 0
    · left
      exact ⟨nothingAdded, if_pos nothingAdded⟩
    · right
      exact ⟨nothingAdded, if_neg nothingAdded⟩

/-- The entries that a release in some epoch can still use. -/
def live
    (pool : DeferredEmissionPool)
    (currentEpoch : UInt64) : List DeferredEntry :=
  pool.entries.filter (unexpired currentEpoch)

/-- The entries that expire at a release in some epoch. -/
def expiring
    (pool : DeferredEmissionPool)
    (currentEpoch : UInt64) : List DeferredEntry :=
  pool.entries.filter fun entry => !unexpired currentEpoch entry

/-- Each unit in the pool is live or expiring. -/
theorem unitsOf_live_expiring
    (pool : DeferredEmissionPool)
    (currentEpoch : UInt64) :
    (unitsOf (pool.live currentEpoch) ++
        unitsOf (pool.expiring currentEpoch)).Perm
      (unitsOf pool.entries) := by
  have split :=
    (List.filter_append_perm (unexpired currentEpoch) pool.entries).map
      fun entry => (entry.deferredEpoch.toNat, entry.amountSscl.toNat)
  rw [List.map_append] at split
  have sameUnits := units_perm split
  rw [units_append] at sameUnits
  exact sameUnits

theorem amountOf_live_le
    (pool : DeferredEmissionPool)
    (currentEpoch : UInt64) :
    amountOf (pool.live currentEpoch) ≤ amountOf pool.entries := by
  have split := (pool.unitsOf_live_expiring currentEpoch).length_eq
  rw [List.length_append, length_unitsOf, length_unitsOf,
    length_unitsOf] at split
  omega

/-- Entries used up have no units. -/
theorem unitsOf_filter_positive (entries : List DeferredEntry) :
    unitsOf (entries.filter fun entry => decide (0 < entry.amountSscl)) =
      unitsOf entries := by
  have sameLots :
      lots (entries.filter fun entry => decide (0 < entry.amountSscl)) =
        (lots entries).filter fun lot => decide (0 < lot.2) := by
    rw [lots, lots, List.filter_map]
    congr 1
  rw [unitsOf, sameLots, units_filter_positive, unitsOf]

/-- What one release does to the amounts. -/
structure Released
    (pool : DeferredEmissionPool)
    (currentEpoch : UInt64)
    (after : DeferredEmissionPool)
    (amount : UInt64) : Prop where
  amount_eq :
    amount.toNat =
      min (amountOf (pool.live currentEpoch))
        deferredPoolMaxReleasePerEpoch.toNat
  units_eq :
    unitsOf after.entries =
      (unitsOf (pool.live currentEpoch)).drop amount.toNat
  total_eq :
    after.totalSscl.toNat =
      amountOf (pool.live currentEpoch) - amount.toNat
  released_eq :
    after.totalReleasedSscl = saturatingAdd pool.totalReleasedSscl amount
  deposited_eq : after.totalDepositedSscl = pool.totalDepositedSscl

/-- The amount a release can take. -/
def releasable
    (pool : DeferredEmissionPool)
    (currentEpoch : UInt64) : UInt64 :=
  min ((pool.live currentEpoch).map DeferredEntry.amountSscl).sum
    deferredPoolMaxReleasePerEpoch

/-- A release with nothing to take only drops the expired entries. -/
theorem release_of_nothing
    {pool : DeferredEmissionPool}
    {currentEpoch : UInt64}
    (nothing : pool.releasable currentEpoch = 0) :
    pool.release currentEpoch =
      ({ pool with
          entries := pool.live currentEpoch
          totalSscl :=
            ((pool.live currentEpoch).map DeferredEntry.amountSscl).sum },
        0) :=
  if_pos nothing

/-- Any other release drains the live entries. -/
theorem release_of_something
    {pool : DeferredEmissionPool}
    {currentEpoch : UInt64}
    (something : pool.releasable currentEpoch ≠ 0) :
    pool.release currentEpoch =
      ({ pool with
          entries :=
            (drain (pool.releasable currentEpoch)
              (pool.live currentEpoch)).filter
                fun entry => decide (0 < entry.amountSscl)
          totalSscl :=
            saturatingSub
              ((pool.live currentEpoch).map DeferredEntry.amountSscl).sum
              (pool.releasable currentEpoch)
          totalReleasedSscl :=
            saturatingAdd pool.totalReleasedSscl
              (pool.releasable currentEpoch) },
        pool.releasable currentEpoch) :=
  if_neg something

/-- A release takes the amount it returns from the front of the live units. -/
theorem release_released
    {pool : DeferredEmissionPool}
    (fits : amountOf pool.entries ≤ maxU64)
    (currentEpoch : UInt64) :
    Released pool currentEpoch (pool.release currentEpoch).1
      (pool.release currentEpoch).2 := by
  have liveFits : amountOf (pool.live currentEpoch) ≤ maxU64 :=
    (pool.amountOf_live_le currentEpoch).trans fits
  have liveTotal :
      (((pool.live currentEpoch).map DeferredEntry.amountSscl).sum).toNat =
        amountOf (pool.live currentEpoch) := by
    rw [toNat_sum]
    · rw [List.map_map]
      rfl
    · rw [List.map_map]
      exact liveFits
  have amount :
      (pool.releasable currentEpoch).toNat =
        min (amountOf (pool.live currentEpoch))
          deferredPoolMaxReleasePerEpoch.toNat := by
    rw [releasable, toNat_min, liveTotal]
  by_cases nothing : pool.releasable currentEpoch = 0
  · rw [release_of_nothing nothing]
    rw [nothing] at amount
    exact {
      amount_eq := amount
      units_eq := rfl
      total_eq := liveTotal
      released_eq := by
        rw [← UInt64.toNat_inj, toNat_saturatingAdd]
        have := pool.totalReleasedSscl.toNat_lt
        simp only [UInt64.toNat_zero, maxU64]
        omega
      deposited_eq := rfl
    }
  · rw [release_of_something nothing]
    exact {
      amount_eq := amount
      units_eq := by
        rw [unitsOf_filter_positive, unitsOf, lots_drain, units_drain]
        rfl
      total_eq := by
        rw [toNat_saturatingSub, liveTotal]
      released_eq := rfl
      deposited_eq := rfl
    }

/-- A release keeps the epochs of the entries it leaves. -/
theorem map_deferredEpoch_release
    (pool : DeferredEmissionPool)
    (currentEpoch : UInt64) :
    ((pool.release currentEpoch).1.entries.map
        DeferredEntry.deferredEpoch).Sublist
      (pool.entries.map DeferredEntry.deferredEpoch) := by
  have liveEpochs :
      ((pool.live currentEpoch).map DeferredEntry.deferredEpoch).Sublist
        (pool.entries.map DeferredEntry.deferredEpoch) :=
    List.filter_sublist.map _
  by_cases nothing : pool.releasable currentEpoch = 0
  · rw [release_of_nothing nothing]
    exact liveEpochs
  · rw [release_of_something nothing]
    refine (List.filter_sublist.map _).trans ?_
    rw [map_deferredEpoch_drain]
    exact liveEpochs

/-- A release leaves no entry without an amount. -/
theorem positive_release
    {pool : DeferredEmissionPool}
    (positive : ∀ entry ∈ pool.entries, 0 < entry.amountSscl)
    (currentEpoch : UInt64) :
    ∀ entry ∈ (pool.release currentEpoch).1.entries,
      0 < entry.amountSscl := by
  intro entry listed
  by_cases nothing : pool.releasable currentEpoch = 0
  · rw [release_of_nothing nothing] at listed
    exact positive entry (List.mem_of_mem_filter listed)
  · rw [release_of_something nothing] at listed
    exact of_decide_eq_true (List.mem_filter.mp listed).2

end DeferredEmissionPool

end ScalarCore
