import ScalarCore.EmissionAccumulator
import ScalarCore.StateMachine

namespace ScalarCore

/-!
# The deferred emission pool

Residual emission is deposited into the pool and released later, oldest first,
at most a tenth of the first epoch's emission at a time.  Entries more than
twelve epochs old expire at the next release.
-/

open MachineInt

/-- Largest amount released in one epoch. -/
def deferredPoolMaxReleasePerEpoch : UInt64 :=
  e0Sscl / 10

/-- Number of epochs after which an entry expires. -/
def deferredPoolMaxEpochs : UInt64 :=
  12

/-- A residual and the epoch in which it was deferred. -/
structure DeferredEntry where
  deferredEpoch : UInt64
  amountSscl : UInt64
  deriving Repr, DecidableEq

/-- The pool, entries in the order of their deposits. -/
structure DeferredEmissionPool where
  entries : List DeferredEntry
  totalSscl : UInt64
  totalReleasedSscl : UInt64
  totalDepositedSscl : UInt64
  deriving Repr, DecidableEq

/-- The operations of the pool. -/
inductive PoolOp where
  | deposit (amountSscl epoch : UInt64)
  | release (currentEpoch : UInt64)
  deriving Repr, DecidableEq

namespace DeferredEmissionPool

/-- The empty pool. -/
def new : DeferredEmissionPool where
  entries := []
  totalSscl := 0
  totalReleasedSscl := 0
  totalDepositedSscl := 0

/-- What a deposit adds: its amount, as far as the cap allows. -/
def actualDeposit (pool : DeferredEmissionPool) (amountSscl : UInt64) : UInt64 :=
  let newTotal := saturatingAdd pool.totalSscl amountSscl
  let capped := min newTotal sESscl
  saturatingSub capped pool.totalSscl

/-- Deposit a residual. -/
def deposit
    (pool : DeferredEmissionPool)
    (amountSscl epoch : UInt64) : DeferredEmissionPool :=
  if amountSscl = 0 then
    pool
  else
    let actual := pool.actualDeposit amountSscl
    if actual = 0 then
      pool
    else
      { pool with
        entries :=
          pool.entries ++
            [{ deferredEpoch := epoch, amountSscl := actual }]
        totalSscl := saturatingAdd pool.totalSscl actual
        totalDepositedSscl := saturatingAdd pool.totalDepositedSscl actual }

/-- Whether an entry is still within its epochs. -/
def unexpired (currentEpoch : UInt64) (entry : DeferredEntry) : Bool :=
  decide
    (saturatingSub currentEpoch entry.deferredEpoch ≤ deferredPoolMaxEpochs)

/-- The loop that takes an amount from the entries, oldest first. -/
def drain : UInt64 → List DeferredEntry → List DeferredEntry
  | _, [] => []
  | remaining, entry :: rest =>
      if remaining = 0 then
        entry :: rest
      else if entry.amountSscl ≤ remaining then
        { entry with amountSscl := 0 } ::
          drain (saturatingSub remaining entry.amountSscl) rest
      else
        { entry with
          amountSscl := saturatingSub entry.amountSscl remaining } :: rest

/-- Release residuals; the result is the amount released. -/
def release
    (pool : DeferredEmissionPool)
    (currentEpoch : UInt64) : DeferredEmissionPool × UInt64 :=
  let entries := pool.entries.filter (unexpired currentEpoch)
  let totalSscl := (entries.map DeferredEntry.amountSscl).sum
  let releaseAmount := min totalSscl deferredPoolMaxReleasePerEpoch
  if releaseAmount = 0 then
    ({ pool with entries, totalSscl }, 0)
  else
    let drained :=
      (drain releaseAmount entries).filter fun entry =>
        decide (0 < entry.amountSscl)
    ({ pool with
        entries := drained
        totalSscl := saturatingSub totalSscl releaseAmount
        totalReleasedSscl :=
          saturatingAdd pool.totalReleasedSscl releaseAmount },
      releaseAmount)

/-- Perform one operation; the output is the amount released. -/
def step (pool : DeferredEmissionPool) :
    PoolOp → DeferredEmissionPool × UInt64
  | .deposit amountSscl epoch => (pool.deposit amountSscl epoch, 0)
  | .release currentEpoch => pool.release currentEpoch

/-- The invariant check of the source. -/
def verifyInvariant
    (pool : DeferredEmissionPool)
    (releaseThisEpoch : UInt64) : Bool :=
  decide (pool.totalSscl ≤ sESscl) &&
    decide (releaseThisEpoch ≤ deferredPoolMaxReleasePerEpoch)

end DeferredEmissionPool

end ScalarCore
