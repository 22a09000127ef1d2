import ScalarCore.Bytes
import ScalarCore.KeyedSort
import ScalarCore.KeyedWrites
import ScalarCore.MachineInt
import ScalarCore.Smt
import ScalarCore.StateMachine

namespace ScalarCore

/-!
# The commit-reveal pool

A user commits to a transaction by a hash and reveals it later.  The pool gives
each commit a sequence number and drains revealed transactions in the order of
these numbers.  Entries are keyed by the commitment, so a second commit of a
hash replaces the first.

A failed reveal ends the entry: it is `Invalid` after a mismatch and `Expired`
after the timeout, and no later reveal succeeds until the hash is committed
again.
-/

open KeyedSort KeyedWrites MachineInt StateMachine

/-- A `[u8; 16]`. -/
structure Nonce where
  bytes : List UInt8
  length_eq : bytes.length = 16
  deriving DecidableEq

/-- `compute_tx_commitment`. -/
def computeTxCommitment
    (blake3 : List UInt8 → Bytes32)
    (txHash : Bytes32)
    (nonce : Nonce) : Bytes32 :=
  blake3 (asciiBytes "scalar_tx_order" ++ txHash.bytes ++ nonce.bytes)

/-- A commitment with its sequence number and the time it came. -/
structure TxCommitment where
  commitment : Bytes32
  sequence : UInt64
  receivedAtMs : UInt64
  deriving DecidableEq

/-- The status of an entry. -/
inductive CommitStatus where
  | committed
  | revealed (txBytes : List UInt8)
  | expired
  | invalid
  deriving DecidableEq

/-- An entry of the pool. -/
structure CommitEntry where
  commitment : TxCommitment
  encryptedTx : Option (List UInt8)
  status : CommitStatus
  deriving DecidableEq

/-- Errors of a reveal. -/
inductive CommitRevealError where
  | notFound (commitmentHash : Bytes32)
  | alreadyRevealed
  | commitmentMismatch
  | expired
  deriving DecidableEq

/-- The pool. -/
structure CommitRevealPool where
  entries : Finmap fun _ : Bytes32 => CommitEntry
  nextSeq : UInt64
  revealTimeoutMs : UInt64

/-- The calls that change the pool; draining meets the map in some order. -/
inductive PoolCall where
  | commit
      (commitmentHash : Bytes32)
      (encryptedTx : Option (List UInt8))
      (nowMs : UInt64)
  | reveal
      (commitmentHash : Bytes32)
      (txBytes : List UInt8)
      (nonce : Nonce)
      (nowMs : UInt64)
  | expireStale (nowMs : UInt64)
  | drainRevealed (order : IterationOrder)

/-- What a call returns. -/
inductive PoolAnswer where
  | committed (commitment : TxCommitment)
  | revealed (result : Except CommitRevealError UInt64)
  | done
  | drained (transactions : List (UInt64 × List UInt8))

/-- An entry under another status. -/
def CommitEntry.withStatus
    (entry : CommitEntry)
    (status : CommitStatus) : CommitEntry :=
  { entry with status }

/-- The transaction of a revealed entry. -/
def CommitEntry.revealedTx (entry : CommitEntry) : Option (List UInt8) :=
  match entry.status with
  | .revealed txBytes => some txBytes
  | _ => none

namespace CommitRevealPool

/-- The empty pool. -/
def new (revealTimeoutMs : UInt64) : CommitRevealPool where
  entries := ∅
  nextSeq := 0
  revealTimeoutMs

/-- The reveal window of an entry has passed. -/
def isStale
    (pool : CommitRevealPool)
    (entry : CommitEntry)
    (nowMs : UInt64) : Bool :=
  decide
    (pool.revealTimeoutMs <
      saturatingSub nowMs entry.commitment.receivedAtMs)

/-- `commit`: the counter is a machine word and wraps. -/
def commit
    (pool : CommitRevealPool)
    (commitmentHash : Bytes32)
    (encryptedTx : Option (List UInt8))
    (nowMs : UInt64) : CommitRevealPool × TxCommitment :=
  let tc : TxCommitment := {
    commitment := commitmentHash
    sequence := pool.nextSeq
    receivedAtMs := nowMs }
  ({ pool with
      nextSeq := pool.nextSeq + 1
      entries :=
        pool.entries.insert commitmentHash
          { commitment := tc, encryptedTx, status := .committed } },
    tc)

/-- Store an entry under another status. -/
def setStatus
    (pool : CommitRevealPool)
    (commitmentHash : Bytes32)
    (entry : CommitEntry)
    (status : CommitStatus) : CommitRevealPool :=
  { pool with
    entries := pool.entries.insert commitmentHash (entry.withStatus status) }

/-- `reveal`. -/
def reveal
    (blake3 : List UInt8 → Bytes32)
    (pool : CommitRevealPool)
    (commitmentHash : Bytes32)
    (txBytes : List UInt8)
    (nonce : Nonce)
    (nowMs : UInt64) :
    CommitRevealPool × Except CommitRevealError UInt64 :=
  match pool.entries.lookup commitmentHash with
  | none => (pool, .error (.notFound commitmentHash))
  | some entry =>
      match entry.status with
      | .revealed _ => (pool, .error .alreadyRevealed)
      | .expired | .invalid => (pool, .error .expired)
      | .committed =>
          if pool.isStale entry nowMs then
            (pool.setStatus commitmentHash entry .expired, .error .expired)
          else if computeTxCommitment blake3 (blake3 txBytes) nonce ≠
              commitmentHash then
            (pool.setStatus commitmentHash entry .invalid,
              .error .commitmentMismatch)
          else
            (pool.setStatus commitmentHash entry (.revealed txBytes),
              .ok entry.commitment.sequence)

/-- One entry under `expire_stale`. -/
def expireEntry
    (pool : CommitRevealPool)
    (nowMs : UInt64)
    (entry : CommitEntry) : CommitEntry :=
  if entry.status = .committed ∧ pool.isStale entry nowMs = true then
    entry.withStatus .expired
  else
    entry

/-- `expire_stale`. -/
def expireStale (pool : CommitRevealPool) (nowMs : UInt64) : CommitRevealPool :=
  { pool with
    entries :=
      updateValues (fun entry => some (pool.expireEntry nowMs entry))
        pool.entries }

/-- The revealed entries with their hashes, in the order of the map. -/
def revealedEntries
    (order : IterationOrder)
    (pool : CommitRevealPool) : List (Bytes32 × UInt64 × List UInt8) :=
  (order.list pool.entries.keys).filterMap fun commitmentHash =>
    (pool.entries.lookup commitmentHash).bind fun entry =>
      entry.revealedTx.map fun txBytes =>
        (commitmentHash, entry.commitment.sequence, txBytes)

/-- `drain_revealed`: the transactions in the order of their sequence numbers. -/
def drainRevealed
    (order : IterationOrder)
    (pool : CommitRevealPool) :
    CommitRevealPool × List (UInt64 × List UInt8) :=
  ({ pool with
      entries :=
        updateValues
          (fun entry =>
            if entry.revealedTx.isSome then
              none
            else
              some entry)
          pool.entries },
    sortByKey (fun transaction => transaction.1.toNat)
      ((pool.revealedEntries order).map Prod.snd))

/-- One call. -/
def step
    (blake3 : List UInt8 → Bytes32)
    (pool : CommitRevealPool) :
    PoolCall → CommitRevealPool × PoolAnswer
  | .commit commitmentHash encryptedTx nowMs =>
      let (after, commitment) := pool.commit commitmentHash encryptedTx nowMs
      (after, .committed commitment)
  | .reveal commitmentHash txBytes nonce nowMs =>
      let (after, result) :=
        pool.reveal blake3 commitmentHash txBytes nonce nowMs
      (after, .revealed result)
  | .expireStale nowMs =>
      (pool.expireStale nowMs, .done)
  | .drainRevealed order =>
      let (after, transactions) := pool.drainRevealed order
      (after, .drained transactions)

/-!
## What each call does to one entry
-/

variable {blake3 : List UInt8 → Bytes32} {pool : CommitRevealPool}

/-- A commit writes the entry of its hash. -/
theorem lookup_commit
    (commitmentHash other : Bytes32)
    (encryptedTx : Option (List UInt8))
    (nowMs : UInt64) :
    (pool.commit commitmentHash encryptedTx nowMs).1.entries.lookup other =
      if other = commitmentHash then
        some
          { commitment := {
              commitment := commitmentHash
              sequence := pool.nextSeq
              receivedAtMs := nowMs }
            encryptedTx
            status := .committed }
      else
        pool.entries.lookup other := by
  rw [commit]
  split
  · rename_i same
    rw [same, Finmap.lookup_insert]
  · rename_i different
    exact Finmap.lookup_insert_of_ne _ different

/-- Where an entry comes from after a commit. -/
theorem lookup_commit_cases
    {commitmentHash hash : Bytes32}
    {encryptedTx : Option (List UInt8)}
    {nowMs : UInt64}
    {entry : CommitEntry}
    (found :
      (pool.commit commitmentHash encryptedTx nowMs).1.entries.lookup hash =
        some entry) :
    hash = commitmentHash ∧
        entry.commitment.sequence = pool.nextSeq ∧
          entry.status = .committed ∨
      hash ≠ commitmentHash ∧ pool.entries.lookup hash = some entry := by
  rw [lookup_commit] at found
  split at found
  · rename_i same
    rw [Option.some_inj] at found
    subst found
    exact .inl ⟨same, rfl, rfl⟩
  · rename_i different
    exact .inr ⟨different, found⟩

/-- What a reveal can do. -/
inductive RevealCases
    (blake3 : List UInt8 → Bytes32)
    (pool : CommitRevealPool)
    (commitmentHash : Bytes32)
    (txBytes : List UInt8)
    (nonce : Nonce)
    (nowMs : UInt64) :
    CommitRevealPool × Except CommitRevealError UInt64 → Prop where
  /-- The entry does not wait for a reveal. -/
  | refused
      (error : CommitRevealError)
      (notCommitted :
        ∀ entry,
          pool.entries.lookup commitmentHash = some entry →
          entry.status ≠ .committed) :
      RevealCases blake3 pool commitmentHash txBytes nonce nowMs
        (pool, .error error)
  /-- The entry waits, and the reveal ends it. -/
  | failed
      {entry : CommitEntry}
      (error : CommitRevealError)
      {status : CommitStatus}
      (found : pool.entries.lookup commitmentHash = some entry)
      (isCommitted : entry.status = .committed)
      (isStaleOrMismatch :
        pool.isStale entry nowMs = true ∨
          computeTxCommitment blake3 (blake3 txBytes) nonce ≠ commitmentHash)
      (ended : status = .expired ∨ status = .invalid) :
      RevealCases blake3 pool commitmentHash txBytes nonce nowMs
        (pool.setStatus commitmentHash entry status, .error error)
  /-- The entry waits, and the reveal matches it in time. -/
  | succeeded
      {entry : CommitEntry}
      (found : pool.entries.lookup commitmentHash = some entry)
      (isCommitted : entry.status = .committed)
      (inTime : pool.isStale entry nowMs = false)
      (isMatch :
        computeTxCommitment blake3 (blake3 txBytes) nonce = commitmentHash) :
      RevealCases blake3 pool commitmentHash txBytes nonce nowMs
        (pool.setStatus commitmentHash entry (.revealed txBytes),
          .ok entry.commitment.sequence)

/-- Every reveal is of one of these kinds. -/
theorem reveal_cases
    (commitmentHash : Bytes32)
    (txBytes : List UInt8)
    (nonce : Nonce)
    (nowMs : UInt64) :
    RevealCases blake3 pool commitmentHash txBytes nonce nowMs
      (pool.reveal blake3 commitmentHash txBytes nonce nowMs) := by
  rw [reveal]
  cases found : pool.entries.lookup commitmentHash with
  | none =>
      exact .refused _ (by simp [found])
  | some entry =>
      have notWaiting
          (ended : entry.status ≠ .committed)
          (entry' : CommitEntry)
          (found' : pool.entries.lookup commitmentHash = some entry') :
          entry'.status ≠ .committed := by
        rw [found, Option.some_inj] at found'
        rwa [← found']
      cases status : entry.status with
      | revealed txBytes' =>
          simp only [status]
          exact .refused _ (notWaiting (by simp [status]))
      | expired =>
          simp only [status]
          exact .refused _ (notWaiting (by simp [status]))
      | invalid =>
          simp only [status]
          exact .refused _ (notWaiting (by simp [status]))
      | committed =>
          simp only [status]
          split
          · rename_i stale
            exact .failed _ found status (.inl stale) (.inl rfl)
          · rename_i fresh
            split
            · rename_i mismatch
              exact .failed _ found status (.inr mismatch) (.inr rfl)
            · rename_i isMatch
              exact
                .succeeded found status (eq_false_of_ne_true fresh)
                  (not_not.mp isMatch)

/-- Another status is stored under one hash only. -/
theorem lookup_setStatus
    (commitmentHash other : Bytes32)
    (entry : CommitEntry)
    (status : CommitStatus) :
    (pool.setStatus commitmentHash entry status).entries.lookup other =
      if other = commitmentHash then
        some (entry.withStatus status)
      else
        pool.entries.lookup other := by
  rw [setStatus]
  split
  · rename_i same
    rw [same, Finmap.lookup_insert]
  · rename_i different
    exact Finmap.lookup_insert_of_ne _ different

/-- A reveal changes nothing, or the status of an entry that waits for it. -/
theorem reveal_fst_cases
    (blake3 : List UInt8 → Bytes32)
    (pool : CommitRevealPool)
    (commitmentHash : Bytes32)
    (txBytes : List UInt8)
    (nonce : Nonce)
    (nowMs : UInt64) :
    (pool.reveal blake3 commitmentHash txBytes nonce nowMs).1 = pool ∨
      ∃ entry status,
        pool.entries.lookup commitmentHash = some entry ∧
          entry.status = .committed ∧
          (pool.reveal blake3 commitmentHash txBytes nonce nowMs).1 =
            pool.setStatus commitmentHash entry status := by
  have kind :
      RevealCases blake3 pool commitmentHash txBytes nonce nowMs _ :=
    reveal_cases commitmentHash txBytes nonce nowMs
  generalize pool.reveal blake3 commitmentHash txBytes nonce nowMs = result
    at kind ⊢
  cases kind with
  | refused error notCommitted =>
      exact .inl rfl
  | failed error found isCommitted isStaleOrMismatch ended =>
      exact .inr ⟨_, _, found, isCommitted, rfl⟩
  | succeeded found isCommitted inTime isMatch =>
      exact .inr ⟨_, _, found, isCommitted, rfl⟩

/-- A reveal touches the entry of its hash only. -/
theorem lookup_reveal_of_ne
    {commitmentHash other : Bytes32}
    (different : other ≠ commitmentHash)
    (txBytes : List UInt8)
    (nonce : Nonce)
    (nowMs : UInt64) :
    (pool.reveal blake3 commitmentHash txBytes nonce nowMs).1.entries.lookup
        other =
      pool.entries.lookup other := by
  rcases reveal_fst_cases blake3 pool commitmentHash txBytes nonce nowMs with
    unchanged | ⟨entry, status, _, _, isSet⟩
  · rw [unchanged]
  · rw [isSet, lookup_setStatus, if_neg different]

/-- A reveal succeeds in time, with a match, on an entry that waits for it. -/
theorem reveal_ok_iff_of_found
    {commitmentHash : Bytes32}
    {entry : CommitEntry}
    (found : pool.entries.lookup commitmentHash = some entry)
    (txBytes : List UInt8)
    (nonce : Nonce)
    (nowMs : UInt64) :
    (∃ sequence,
        (pool.reveal blake3 commitmentHash txBytes nonce nowMs).2 =
          .ok sequence) ↔
      entry.status = .committed ∧
        pool.isStale entry nowMs = false ∧
        computeTxCommitment blake3 (blake3 txBytes) nonce =
          commitmentHash := by
  have kind :
      RevealCases blake3 pool commitmentHash txBytes nonce nowMs _ :=
    reveal_cases commitmentHash txBytes nonce nowMs
  generalize pool.reveal blake3 commitmentHash txBytes nonce nowMs = result
    at kind ⊢
  cases kind with
  | refused error notCommitted =>
      refine ⟨nofun, fun waits => ?_⟩
      exact absurd waits.1 (notCommitted entry found)
  | failed error found' isCommitted isStaleOrMismatch ended =>
      rw [found, Option.some_inj] at found'
      subst found'
      refine ⟨nofun, fun waits => ?_⟩
      rcases isStaleOrMismatch with stale | mismatch
      · rw [waits.2.1] at stale
        cases stale
      · exact absurd waits.2.2 mismatch
  | succeeded found' isCommitted inTime isMatch =>
      rw [found, Option.some_inj] at found'
      subst found'
      exact ⟨fun _ => ⟨isCommitted, inTime, isMatch⟩, fun _ => ⟨_, rfl⟩⟩

/-- Expiry changes the status of stale entries. -/
@[simp] theorem lookup_expireStale
    (nowMs : UInt64)
    (other : Bytes32) :
    (pool.expireStale nowMs).entries.lookup other =
      (pool.entries.lookup other).map (pool.expireEntry nowMs) := by
  rw [expireStale, lookup_updateValues, Option.map_eq_bind]
  rfl

/-- Draining removes the revealed entries. -/
@[simp] theorem lookup_drainRevealed
    (order : IterationOrder)
    (other : Bytes32) :
    (pool.drainRevealed order).1.entries.lookup other =
      (pool.entries.lookup other).filter fun entry =>
        !entry.revealedTx.isSome := by
  rw [drainRevealed, lookup_updateValues]
  cases pool.entries.lookup other with
  | none =>
      rfl
  | some entry =>
      cases shown : entry.revealedTx <;> simp [shown, Option.filter]

/-- The window of a pool never changes. -/
theorem revealTimeoutMs_step (call : PoolCall) :
    (pool.step blake3 call).1.revealTimeoutMs = pool.revealTimeoutMs := by
  cases call with
  | commit commitmentHash encryptedTx nowMs =>
      rfl
  | expireStale nowMs =>
      rfl
  | drainRevealed order =>
      rfl
  | reveal commitmentHash txBytes nonce nowMs =>
      change
        (pool.reveal blake3 commitmentHash txBytes nonce
          nowMs).1.revealTimeoutMs = _
      rcases reveal_fst_cases blake3 pool commitmentHash txBytes nonce
          nowMs with
        unchanged | ⟨entry, status, _, _, isSet⟩
      · rw [unchanged]
      · rw [isSet]
        rfl

/-!
## Whether a correct reveal succeeds
-/

/-- A reveal of a hash that succeeds. -/
def Reveals
    (blake3 : List UInt8 → Bytes32)
    (hash : Bytes32)
    (pool : CommitRevealPool) : PoolCall → Prop
  | .reveal commitmentHash txBytes nonce nowMs =>
      commitmentHash = hash ∧
        ∃ sequence,
          (pool.reveal blake3 commitmentHash txBytes nonce nowMs).2 =
            .ok sequence
  | _ => False

/-- Whether a reveal of a hash was called and no commit of it since. -/
def revealCalled (hash : Bytes32) (called : Bool) : PoolCall → Bool
  | .commit commitmentHash _ _ =>
      if commitmentHash = hash then
        false
      else
        called
  | .reveal commitmentHash _ _ _ =>
      if commitmentHash = hash then
        true
      else
        called
  | _ => called

/--
The clock as far as one hash is concerned: it is not committed again at an
earlier time, and nothing is expired after its window.
-/
def InWindow
    (hash : Bytes32)
    (committedAt timeout : UInt64) : PoolCall → Prop
  | .commit commitmentHash _ nowMs =>
      commitmentHash = hash → committedAt ≤ nowMs
  | .expireStale nowMs =>
      nowMs.toNat ≤ committedAt.toNat + timeout.toNat
  | _ => True

/-- The entry of a hash waits for its reveal, or a failed reveal ended it. -/
structure Awaits
    (hash : Bytes32)
    (committedAt timeout : UInt64)
    (called : Bool)
    (pool : CommitRevealPool) : Prop where
  window : pool.revealTimeoutMs = timeout
  entry :
    ∃ entry,
      pool.entries.lookup hash = some entry ∧
        committedAt ≤ entry.commitment.receivedAtMs ∧
        if called = true then
          entry.status = .expired ∨ entry.status = .invalid
        else
          entry.status = .committed

/-- Within the window of the commit no later entry of the hash is stale. -/
theorem isStale_eq_false
    {entry : CommitEntry}
    {committedAt nowMs : UInt64}
    (later : committedAt ≤ entry.commitment.receivedAtMs)
    (inWindow :
      nowMs.toNat ≤ committedAt.toNat + pool.revealTimeoutMs.toNat) :
    pool.isStale entry nowMs = false := by
  rw [UInt64.le_iff_toNat_le] at later
  rw [isStale, decide_eq_false_iff_not, UInt64.not_lt,
    UInt64.le_iff_toNat_le, toNat_saturatingSub]
  omega

namespace Awaits

variable
  {hash : Bytes32}
  {committedAt timeout : UInt64}
  {called : Bool}

/-- A commit of the hash opens its entry again. -/
theorem commit
    (awaits : Awaits hash committedAt timeout called pool)
    {commitmentHash : Bytes32}
    {nowMs : UInt64}
    (inWindow : commitmentHash = hash → committedAt ≤ nowMs)
    (encryptedTx : Option (List UInt8)) :
    Awaits hash committedAt timeout
      (revealCalled hash called (.commit commitmentHash encryptedTx nowMs))
      (pool.commit commitmentHash encryptedTx nowMs).1 := by
  rcases awaits with ⟨window, entry, found, later, status⟩
  refine ⟨window, ?_⟩
  rw [lookup_commit, revealCalled]
  by_cases same : commitmentHash = hash
  · subst same
    rw [if_pos rfl, if_pos rfl]
    exact ⟨_, rfl, inWindow rfl, rfl⟩
  · rw [if_neg (Ne.symm same), if_neg same]
    exact ⟨entry, found, later, status⟩

/-- A reveal of the hash that does not succeed ends its entry. -/
theorem reveal
    (awaits : Awaits hash committedAt timeout called pool)
    {commitmentHash : Bytes32}
    {txBytes : List UInt8}
    {nonce : Nonce}
    {nowMs : UInt64}
    (notRevealed :
      ¬ Reveals blake3 hash pool
          (.reveal commitmentHash txBytes nonce nowMs)) :
    Awaits hash committedAt timeout
      (revealCalled hash called (.reveal commitmentHash txBytes nonce nowMs))
      (pool.reveal blake3 commitmentHash txBytes nonce nowMs).1 := by
  refine
    ⟨(revealTimeoutMs_step (.reveal commitmentHash txBytes nonce nowMs)).trans
      awaits.window, ?_⟩
  rcases awaits with ⟨window, entry, found, later, status⟩
  rw [revealCalled]
  by_cases same : commitmentHash = hash
  · subst same
    rw [if_pos rfl]
    have kind :
        RevealCases blake3 pool commitmentHash txBytes nonce nowMs _ :=
      reveal_cases commitmentHash txBytes nonce nowMs
    have notOk (sequence : UInt64) :
        (pool.reveal blake3 commitmentHash txBytes nonce nowMs).2 ≠
          .ok sequence :=
      fun ok => notRevealed ⟨rfl, sequence, ok⟩
    generalize
      pool.reveal blake3 commitmentHash txBytes nonce nowMs = result
      at kind notOk ⊢
    cases kind with
    | refused error notCommitted =>
        cases called with
        | true =>
            exact ⟨entry, found, later, status⟩
        | false =>
            exact absurd status (notCommitted entry found)
    | failed error found' isCommitted isStaleOrMismatch ended =>
        rw [found, Option.some_inj] at found'
        subst found'
        refine
          ⟨_, (lookup_setStatus _ _ _ _).trans (if_pos rfl), later, ?_⟩
        rw [if_pos rfl]
        exact ended
    | succeeded found' isCommitted inTime isMatch =>
        exact absurd rfl (notOk _)
  · rw [if_neg same, lookup_reveal_of_ne (Ne.symm same)]
    exact ⟨entry, found, later, status⟩

/-- Expiry within the window leaves the entry alone. -/
theorem expireStale
    (awaits : Awaits hash committedAt timeout called pool)
    {nowMs : UInt64}
    (inWindow : nowMs.toNat ≤ committedAt.toNat + timeout.toNat) :
    Awaits hash committedAt timeout called (pool.expireStale nowMs) := by
  rcases awaits with ⟨window, entry, found, later, status⟩
  have fresh : pool.isStale entry nowMs = false := by
    apply isStale_eq_false later
    rwa [window]
  have kept : pool.expireEntry nowMs entry = entry := by
    rw [expireEntry, fresh]
    exact if_neg (fun stale => Bool.false_ne_true stale.2)
  refine ⟨window, entry, ?_, later, status⟩
  rw [lookup_expireStale, found, Option.map_some, kept]

/-- The entry is not drained. -/
theorem drainRevealed
    (awaits : Awaits hash committedAt timeout called pool)
    (order : IterationOrder) :
    Awaits hash committedAt timeout called (pool.drainRevealed order).1 := by
  rcases awaits with ⟨window, entry, found, later, status⟩
  have notShown : entry.revealedTx = none := by
    cases called with
    | true =>
        rcases status with status | status
        · rw [CommitEntry.revealedTx, status]
        · rw [CommitEntry.revealedTx, status]
    | false =>
        rw [if_neg Bool.false_ne_true] at status
        rw [CommitEntry.revealedTx, status]
  refine ⟨window, entry, ?_, later, status⟩
  rw [lookup_drainRevealed, found, Option.filter_some, notShown]
  rfl

/-- One call keeps track of the entry of a hash. -/
theorem step
    (awaits : Awaits hash committedAt timeout called pool)
    {call : PoolCall}
    (inWindow : InWindow hash committedAt timeout call)
    (notRevealed : ¬ Reveals blake3 hash pool call) :
    Awaits hash committedAt timeout (revealCalled hash called call)
      (pool.step blake3 call).1 := by
  cases call with
  | commit commitmentHash encryptedTx nowMs =>
      exact awaits.commit inWindow encryptedTx
  | reveal commitmentHash txBytes nonce nowMs =>
      exact awaits.reveal notRevealed
  | expireStale nowMs =>
      exact awaits.expireStale inWindow
  | drainRevealed order =>
      exact awaits.drainRevealed order

end Awaits

/-- A run keeps track of the entry of a hash. -/
theorem Awaits.run
    {hash : Bytes32}
    {committedAt timeout : UInt64}
    {called : Bool}
    (awaits : Awaits hash committedAt timeout called pool)
    {calls : List PoolCall}
    (inWindow : ∀ call ∈ calls, InWindow hash committedAt timeout call)
    (notRevealed :
      EveryStep (CommitRevealPool.step blake3)
        (fun pool call => ¬ Reveals blake3 hash pool call) pool calls) :
    Awaits hash committedAt timeout (calls.foldl (revealCalled hash) called)
      (StateMachine.run (CommitRevealPool.step blake3) pool calls) := by
  induction calls generalizing pool called with
  | nil =>
      exact awaits
  | cons call rest inductionHypothesis =>
      rw [List.forall_mem_cons] at inWindow
      exact
        inductionHypothesis (awaits.step inWindow.1 notRevealed.1) inWindow.2
          notRevealed.2

/--
A user commits a hash and reveals it in the window, and no reveal of it has
succeeded before.  The reveal succeeds exactly when no reveal of the hash was
called since its last commit: a failed one ends the entry.
-/
theorem reveal_ok_iff
    {hash : Bytes32}
    {encryptedTx : Option (List UInt8)}
    {committedAt nowMs : UInt64}
    {between : List PoolCall}
    {txBytes : List UInt8}
    {nonce : Nonce}
    (isMatch : computeTxCommitment blake3 (blake3 txBytes) nonce = hash)
    (inTime :
      nowMs.toNat ≤ committedAt.toNat + pool.revealTimeoutMs.toNat)
    (inWindow :
      ∀ call ∈ between,
        InWindow hash committedAt pool.revealTimeoutMs call)
    (notRevealed :
      EveryStep (step blake3)
        (fun pool call => ¬ Reveals blake3 hash pool call)
        (pool.commit hash encryptedTx committedAt).1 between) :
    (∃ sequence,
        ((StateMachine.run (step blake3)
            (pool.commit hash encryptedTx committedAt).1 between).reveal
          blake3 hash txBytes nonce nowMs).2 = .ok sequence) ↔
      between.foldl (revealCalled hash) false = false := by
  have started :
      Awaits hash committedAt pool.revealTimeoutMs false
        (pool.commit hash encryptedTx committedAt).1 := by
    refine ⟨rfl, _, (lookup_commit _ _ _ _).trans (if_pos rfl), ?_, rfl⟩
    exact UInt64.le_refl _
  rcases started.run inWindow notRevealed with
    ⟨window, entry, found, later, status⟩
  have fresh :
      (StateMachine.run (step blake3)
          (pool.commit hash encryptedTx committedAt).1 between).isStale
        entry nowMs = false := by
    apply isStale_eq_false later
    rwa [window]
  rw [reveal_ok_iff_of_found found]
  cases called : between.foldl (revealCalled hash) false with
  | true =>
      rw [called, if_pos rfl] at status
      constructor
      · rintro ⟨isCommitted, _⟩
        rw [isCommitted] at status
        rcases status with status | status <;> cases status
      · nofun
  | false =>
      rw [called, if_neg Bool.false_ne_true] at status
      exact ⟨fun _ => rfl, fun _ => ⟨status, fresh, isMatch⟩⟩

/-- A hash that keeps the last byte of the message. -/
def lastByteHash (message : List UInt8) : Bytes32 :=
  Bytes32.endingIn (message.getLastD 0)

/-- The nonce of one byte repeated. -/
def repeatedNonce (byte : UInt8) : Nonce where
  bytes := List.replicate 16 byte
  length_eq := List.length_replicate

/-- A pool with a window of five seconds in which one hash is committed. -/
def sampleCommitted : CommitRevealPool :=
  ((new 5000).commit (Bytes32.endingIn 7) none 1000).1

/-- Calls on other hashes, and a repeated commit, do not stop the reveal. -/
theorem reveal_ok_iff_sample :
    ∃ sequence,
      ((StateMachine.run (step lastByteHash) sampleCommitted
          [.commit (Bytes32.endingIn 8) none 1200,
            .reveal (Bytes32.endingIn 8) [1] (repeatedNonce 9) 1300,
            .commit (Bytes32.endingIn 7) none 1400,
            .expireStale 5900]).reveal
        lastByteHash (Bytes32.endingIn 7) [1] (repeatedNonce 7) 6000).2 =
        .ok sequence := by
  have otherHash : Bytes32.endingIn 8 ≠ Bytes32.endingIn 7 := by
    decide
  apply (reveal_ok_iff (by decide) (by decide) ?_ ?_).mpr
  · decide
  · intro call listed
    simp only [List.mem_cons, List.not_mem_nil, or_false] at listed
    rcases listed with rfl | rfl | rfl | rfl
    · exact fun same => absurd same otherHash
    · trivial
    · exact fun _ => by decide
    · exact (by decide : (5900 : UInt64).toNat ≤ 1000 + 5000)
  · exact
      ⟨id, fun reveals => absurd reveals.1 otherHash, id, id, trivial⟩

/--
One reveal with a wrong nonce, by anyone, stops the correct one, and so does a
commit with an earlier time, which moves the window.
-/
theorem correct_reveal_blocked :
    computeTxCommitment lastByteHash (lastByteHash [1]) (repeatedNonce 7) =
        Bytes32.endingIn 7 ∧
      (sampleCommitted.reveal lastByteHash (Bytes32.endingIn 7) [2]
          (repeatedNonce 9) 1500).2 =
        .error .commitmentMismatch ∧
      ((sampleCommitted.reveal lastByteHash (Bytes32.endingIn 7) [2]
          (repeatedNonce 9) 1500).1.reveal
          lastByteHash (Bytes32.endingIn 7) [1] (repeatedNonce 7) 2000).2 =
        .error .expired ∧
      ((sampleCommitted.commit (Bytes32.endingIn 7) none 0).1.reveal
          lastByteHash (Bytes32.endingIn 7) [1] (repeatedNonce 7) 5500).2 =
        .error .expired := by
  refine ⟨by decide, rfl, rfl, rfl⟩

end CommitRevealPool

end ScalarCore
