import ScalarCore.CommitReveal
import ScalarCore.CounterNumbering

namespace ScalarCore

/-!
# The order fixed at commit time

Whether the sequence number of a hash stays as first assigned.  A run is
followed by two records that the pool does not keep: the number each hash got
at its first commit, and the hashes drained so far.

A repeated commit of a hash assigns a new number.  It does no harm to a hash
that expired before anything committed after it is still waiting; it breaks the
order in every other case, and a drained hash can be drained again.
-/

open CounterNumbering KeyedSort MachineInt StateMachine

/-- The entry waits for its reveal or for being drained. -/
def CommitEntry.Live (entry : CommitEntry) : Prop :=
  entry.status = .committed ∨ entry.revealedTx.isSome = true

namespace CommitRevealPool

/-- The revealed entries by sequence number. -/
def drainedEntries
    (order : IterationOrder)
    (pool : CommitRevealPool) : List (Bytes32 × UInt64 × List UInt8) :=
  sortByKey (fun item => item.2.1.toNat) (pool.revealedEntries order)

/-- The hashes of a drained list, position by position. -/
def drainedHashes
    (order : IterationOrder)
    (pool : CommitRevealPool) : List Bytes32 :=
  (pool.drainedEntries order).map Prod.fst

/-- What is returned are the numbers and transactions of these entries. -/
theorem drainRevealed_eq_map
    (order : IterationOrder)
    (pool : CommitRevealPool) :
    (pool.drainRevealed order).2 =
      (pool.drainedEntries order).map Prod.snd :=
  (map_sortByKey
    (fun transaction : UInt64 × List UInt8 => transaction.1.toNat) Prod.snd
    (pool.revealedEntries order)).symm

variable {pool : CommitRevealPool}

/-- The drained entries are the revealed ones. -/
theorem mem_drainedEntries
    {order : IterationOrder}
    {commitmentHash : Bytes32}
    {sequence : UInt64}
    {txBytes : List UInt8} :
    (commitmentHash, sequence, txBytes) ∈ pool.drainedEntries order ↔
      ∃ entry,
        pool.entries.lookup commitmentHash = some entry ∧
          entry.commitment.sequence = sequence ∧
          entry.revealedTx = some txBytes := by
  rw [drainedEntries, mem_sortByKey, revealedEntries, List.mem_filterMap]
  constructor
  · rintro ⟨listed, _, item⟩
    rcases Option.bind_eq_some_iff.mp item with ⟨entry, found, shown⟩
    rcases Option.map_eq_some_iff.mp shown with ⟨txBytes', isShown, same⟩
    cases same
    exact ⟨entry, found, rfl, isShown⟩
  · rintro ⟨entry, found, rfl, isShown⟩
    refine ⟨commitmentHash, ?_, ?_⟩
    · rw [order.mem_list, Finmap.mem_keys]
      exact Finmap.mem_of_lookup_eq_some found
    · rw [found, Option.bind_some, isShown, Option.map_some]

/-- The drained hashes are those of the revealed entries. -/
theorem mem_drainedHashes
    {order : IterationOrder}
    {commitmentHash : Bytes32} :
    commitmentHash ∈ pool.drainedHashes order ↔
      ∃ entry,
        pool.entries.lookup commitmentHash = some entry ∧
          entry.revealedTx.isSome = true := by
  rw [drainedHashes, List.mem_map]
  constructor
  · rintro ⟨⟨hash, sequence, txBytes⟩, listed, rfl⟩
    rcases mem_drainedEntries.mp listed with ⟨entry, found, _, shown⟩
    exact ⟨entry, found, by rw [shown, Option.isSome_some]⟩
  · rintro ⟨entry, found, shown⟩
    rcases Option.isSome_iff_exists.mp shown with ⟨txBytes, isShown⟩
    exact
      ⟨(commitmentHash, entry.commitment.sequence, txBytes),
        mem_drainedEntries.mpr ⟨entry, found, rfl, isShown⟩, rfl⟩

/-- A drained list names each hash once. -/
theorem nodup_drainedHashes (order : IterationOrder) :
    (pool.drainedHashes order).Nodup := by
  have reordered :
      (pool.drainedHashes order).Perm
        ((pool.revealedEntries order).map Prod.fst) :=
    (sortByKey_perm _ _).map _
  have hashOf
      {hash listed : Bytes32}
      (isListed :
        Option.map Prod.fst
            ((pool.entries.lookup hash).bind fun entry =>
              entry.revealedTx.map fun txBytes =>
                (hash, entry.commitment.sequence, txBytes)) =
          some listed) :
      hash = listed := by
    rcases Option.map_eq_some_iff.mp isListed with ⟨item, found, rfl⟩
    rcases Option.bind_eq_some_iff.mp found with ⟨entry, _, shown⟩
    rcases Option.map_eq_some_iff.mp shown with ⟨txBytes, _, rfl⟩
    rfl
  rw [reordered.nodup_iff, revealedEntries, List.map_filterMap]
  refine (order.nodup pool.entries.keys).filterMap ?_
  intro hash hash' listed isListed isListed'
  rw [hashOf isListed, hashOf isListed']

/-- The number of a stored hash. -/
def sequenceOf (pool : CommitRevealPool) (hash : Bytes32) : Option UInt64 :=
  (pool.entries.lookup hash).map fun entry => entry.commitment.sequence

theorem sequenceOf_of_lookup
    {hash : Bytes32}
    {entry : CommitEntry}
    (found : pool.entries.lookup hash = some entry) :
    pool.sequenceOf hash = some entry.commitment.sequence := by
  rw [sequenceOf, found, Option.map_some]

/-- A commit numbers its hash with the counter. -/
theorem sequenceOf_commit
    (commitmentHash : Bytes32)
    (encryptedTx : Option (List UInt8))
    (nowMs : UInt64) :
    (pool.commit commitmentHash encryptedTx nowMs).1.sequenceOf =
      Function.update pool.sequenceOf commitmentHash (some pool.nextSeq) := by
  ext1 hash
  rw [sequenceOf, lookup_commit, Function.update_apply]
  split <;> rfl

/-- A call that is not a commit only lets entries go or changes their status. -/
theorem entry_before_step
    {blake3 : List UInt8 → Bytes32}
    {call : PoolCall}
    (notCommit :
      ∀ commitmentHash encryptedTx nowMs,
        call ≠ .commit commitmentHash encryptedTx nowMs)
    {hash : Bytes32}
    {entry' : CommitEntry}
    (found' :
      (pool.step blake3 call).1.entries.lookup hash = some entry') :
    ∃ entry,
      pool.entries.lookup hash = some entry ∧
        entry'.commitment = entry.commitment ∧ (entry'.Live → entry.Live) := by
  cases call with
  | commit commitmentHash encryptedTx nowMs =>
      exact absurd rfl (notCommit _ _ _)
  | reveal commitmentHash txBytes nonce nowMs =>
      change
        (pool.reveal blake3 commitmentHash txBytes nonce
            nowMs).1.entries.lookup hash = some entry' at found'
      rcases reveal_fst_cases blake3 pool commitmentHash txBytes nonce
          nowMs with
        unchanged | ⟨entry, status, found, isCommitted, isSet⟩
      · rw [unchanged] at found'
        exact ⟨entry', found', rfl, id⟩
      · rw [isSet, lookup_setStatus] at found'
        split at found'
        · rename_i same
          subst same
          rw [Option.some_inj] at found'
          subst found'
          exact ⟨entry, found, rfl, fun _ => .inl isCommitted⟩
        · exact ⟨entry', found', rfl, id⟩
  | expireStale nowMs =>
      change (pool.expireStale nowMs).entries.lookup hash = some entry'
        at found'
      rw [lookup_expireStale, Option.map_eq_some_iff] at found'
      rcases found' with ⟨entry, found, rfl⟩
      refine ⟨entry, found, ?_, ?_⟩
      · rw [expireEntry]
        split <;> rfl
      · rw [expireEntry]
        split
        · rename_i stale
          exact fun _ => .inl stale.1
        · exact id
  | drainRevealed order =>
      change (pool.drainRevealed order).1.entries.lookup hash = some entry'
        at found'
      rw [lookup_drainRevealed, Option.filter_eq_some_iff] at found'
      exact ⟨entry', found'.1, rfl, id⟩

/-- Only a commit moves the counter. -/
theorem nextSeq_step
    {blake3 : List UInt8 → Bytes32}
    {call : PoolCall}
    (notCommit :
      ∀ commitmentHash encryptedTx nowMs,
        call ≠ .commit commitmentHash encryptedTx nowMs) :
    (pool.step blake3 call).1.nextSeq = pool.nextSeq := by
  cases call with
  | commit commitmentHash encryptedTx nowMs =>
      exact absurd rfl (notCommit _ _ _)
  | reveal commitmentHash txBytes nonce nowMs =>
      change
        (pool.reveal blake3 commitmentHash txBytes nonce nowMs).1.nextSeq = _
      rcases reveal_fst_cases blake3 pool commitmentHash txBytes nonce
          nowMs with
        unchanged | ⟨entry, status, _, _, isSet⟩
      · rw [unchanged]
      · rw [isSet]
        rfl
  | expireStale nowMs =>
      rfl
  | drainRevealed order =>
      rfl

/-- A reveal keeps the number of every entry. -/
theorem entry_after_reveal
    {blake3 : List UInt8 → Bytes32}
    (commitmentHash : Bytes32)
    (txBytes : List UInt8)
    (nonce : Nonce)
    (nowMs : UInt64)
    {hash : Bytes32}
    {entry : CommitEntry}
    (found : pool.entries.lookup hash = some entry) :
    ∃ entry',
      (pool.reveal blake3 commitmentHash txBytes nonce
          nowMs).1.entries.lookup hash = some entry' ∧
        entry'.commitment.sequence = entry.commitment.sequence := by
  rcases reveal_fst_cases blake3 pool commitmentHash txBytes nonce nowMs with
    unchanged | ⟨entry', status, found', _, isSet⟩
  · rw [unchanged]
    exact ⟨entry, found, rfl⟩
  · rw [isSet, lookup_setStatus]
    by_cases same : hash = commitmentHash
    · subst same
      rw [found, Option.some_inj] at found'
      subst found'
      exact ⟨_, if_pos rfl, rfl⟩
    · exact ⟨entry, (if_neg same).trans found, rfl⟩

/-- A hash that was just committed and revealed is drained. -/
theorem mem_drainedHashes_of_reveal
    {blake3 : List UInt8 → Bytes32}
    {commitmentHash : Bytes32}
    {txBytes : List UInt8}
    {nonce : Nonce}
    (isMatch :
      computeTxCommitment blake3 (blake3 txBytes) nonce = commitmentHash)
    (encryptedTx : Option (List UInt8))
    (nowMs : UInt64)
    (order : IterationOrder) :
    commitmentHash ∈
      ((pool.commit commitmentHash encryptedTx nowMs).1.reveal blake3
        commitmentHash txBytes nonce nowMs).1.drainedHashes order := by
  obtain ⟨entry, found, waits, received⟩ :
      ∃ entry,
        (pool.commit commitmentHash encryptedTx nowMs).1.entries.lookup
            commitmentHash = some entry ∧
          entry.status = .committed ∧
          entry.commitment.receivedAtMs = nowMs :=
    ⟨_, Finmap.lookup_insert _, rfl, rfl⟩
  generalize (pool.commit commitmentHash encryptedTx nowMs).1 = committed
    at found ⊢
  have fresh : committed.isStale entry nowMs = false :=
    isStale_eq_false (UInt64.le_of_eq received.symm) (Nat.le_add_right _ _)
  have kind :
      RevealCases blake3 committed commitmentHash txBytes nonce nowMs _ :=
    reveal_cases commitmentHash txBytes nonce nowMs
  generalize
    committed.reveal blake3 commitmentHash txBytes nonce nowMs = result
    at kind ⊢
  cases kind with
  | refused error notCommitted =>
      exact absurd waits (notCommitted entry found)
  | failed error found' isCommitted isStaleOrMismatch ended =>
      rw [found, Option.some_inj] at found'
      subst found'
      rcases isStaleOrMismatch with stale | mismatch
      · rw [fresh] at stale
        cases stale
      · exact absurd isMatch mismatch
  | succeeded found' isCommitted inTime isMatch =>
      exact
        mem_drainedHashes.mpr
          ⟨_, (lookup_setStatus _ _ _ _).trans (if_pos rfl), rfl⟩

/-- An entry that is not expired keeps its number until it is drained. -/
def KeepsSequences
    (before : CommitRevealPool)
    (call : PoolCall)
    (after : CommitRevealPool) : Prop :=
  ∀ hash entry,
    before.entries.lookup hash = some entry →
    entry.status ≠ .expired →
    (∃ entry',
        after.entries.lookup hash = some entry' ∧
          entry'.commitment.sequence = entry.commitment.sequence) ∨
      ∃ order, call = .drainRevealed order ∧ hash ∈ before.drainedHashes order

end CommitRevealPool

/-- A pool with what a run has to remember of its hashes. -/
structure OrderingRun where
  pool : CommitRevealPool
  firstSequence : Bytes32 → Option UInt64
  drained : List Bytes32

namespace OrderingRun

open CommitRevealPool

/-- The empty pool, nothing committed or drained. -/
def start (revealTimeoutMs : UInt64) : OrderingRun where
  pool := .new revealTimeoutMs
  firstSequence _ := none
  drained := []

/-- The numbers of the first commits after a call. -/
def firstAfter (ordering : OrderingRun) : PoolCall → Bytes32 → Option UInt64
  | .commit commitmentHash _ _ =>
      if ordering.firstSequence commitmentHash = none then
        Function.update ordering.firstSequence commitmentHash
          (some ordering.pool.nextSeq)
      else
        ordering.firstSequence
  | _ => ordering.firstSequence

/-- The hashes that a call drains. -/
def drainedBy (ordering : OrderingRun) : PoolCall → List Bytes32
  | .drainRevealed order => ordering.pool.drainedHashes order
  | _ => []

/-- One call, with the records kept up to date. -/
def step
    (blake3 : List UInt8 → Bytes32)
    (ordering : OrderingRun)
    (call : PoolCall) : OrderingRun × PoolAnswer :=
  let result := ordering.pool.step blake3 call
  ({ pool := result.1
     firstSequence := ordering.firstAfter call
     drained := ordering.drained ++ ordering.drainedBy call },
    result.2)

/-- The state after a list of calls. -/
def reached
    (blake3 : List UInt8 → Bytes32)
    (revealTimeoutMs : UInt64)
    (calls : List PoolCall) : OrderingRun :=
  run (step blake3) (start revealTimeoutMs) calls

/-- One hash was first committed before another. -/
def FirstBefore (ordering : OrderingRun) (earlier later : Bytes32) : Prop :=
  ∃ first first',
    ordering.firstSequence earlier = some first ∧
      ordering.firstSequence later = some first' ∧
        first.toNat < first'.toNat

/-- Hashes listed in the order of their first commits. -/
def AscendingFirst
    (ordering : OrderingRun)
    (hashes : List Bytes32) : Prop :=
  hashes.Pairwise ordering.FirstBefore

/-- The order of a run is the one of the first commits. -/
structure OrderingFixed
    (blake3 : List UInt8 → Bytes32)
    (revealTimeoutMs : UInt64)
    (calls : List PoolCall) : Prop where
  /-- A number does not change before its entry is drained or expired. -/
  kept :
    ∀ past call later,
      calls = past ++ call :: later →
      KeepsSequences (reached blake3 revealTimeoutMs past).pool call
        ((reached blake3 revealTimeoutMs past).step blake3 call).1.pool
  /-- No hash is drained twice. -/
  drainedOnce : (reached blake3 revealTimeoutMs calls).drained.Nodup
  /--
  Every drained list ascends in the numbers of the first commits: the list of
  hashes is the returned one position by position, see `drainRevealed_eq_map`.
  -/
  ascending :
    ∀ past order later,
      calls = past ++ .drainRevealed order :: later →
      (reached blake3 revealTimeoutMs past).AscendingFirst
        ((reached blake3 revealTimeoutMs past).pool.drainedHashes order)

/-- A commit that does not disturb the order. -/
structure AllowedCommit
    (ordering : OrderingRun)
    (commitmentHash : Bytes32) : Prop where
  /-- The hash is not stored, unless it expired. -/
  notStored :
    ∀ entry,
      ordering.pool.entries.lookup commitmentHash = some entry →
      entry.status = .expired
  /-- The hash was not drained. -/
  notDrained : commitmentHash ∉ ordering.drained
  /-- Nothing committed after the hash still waits. -/
  notOvertaken :
    ∀ first other entry first',
      ordering.firstSequence commitmentHash = some first →
      ordering.pool.entries.lookup other = some entry →
      entry.Live →
      ordering.firstSequence other = some first' →
      ¬ first.toNat < first'.toNat
  /-- The counter does not wrap. -/
  counter : ordering.pool.nextSeq.toNat < maxU64

/-- Every commit of the run is allowed. -/
def Allowed (ordering : OrderingRun) : PoolCall → Prop
  | .commit commitmentHash _ _ => ordering.AllowedCommit commitmentHash
  | _ => True

/-- The numbers in use agree with those of the first commits. -/
structure Ordered (ordering : OrderingRun) : Prop where
  firsts : Numbered ordering.firstSequence ordering.pool.nextSeq
  sequences : Numbered ordering.pool.sequenceOf ordering.pool.nextSeq
  committed :
    ∀ hash entry,
      ordering.pool.entries.lookup hash = some entry →
      ∃ first, ordering.firstSequence hash = some first
  agree :
    ∀ hash hash' entry entry',
      ordering.pool.entries.lookup hash = some entry →
      ordering.pool.entries.lookup hash' = some entry' →
      entry.Live →
      entry'.Live →
      entry.commitment.sequence.toNat < entry'.commitment.sequence.toNat →
      ordering.FirstBefore hash hash'
  notDrained :
    ∀ hash entry,
      ordering.pool.entries.lookup hash = some entry →
      hash ∉ ordering.drained
  drainedOnce : ordering.drained.Nodup

/-- Under the invariant a drained list ascends in the first commits. -/
theorem Ordered.ascendingFirst
    {ordering : OrderingRun}
    (ordered : Ordered ordering)
    (order : IterationOrder) :
    ordering.AscendingFirst (ordering.pool.drainedHashes order) := by
  have sorted :
      (ordering.pool.drainedEntries order).Pairwise fun earlier later =>
        earlier.2.1.toNat ≤ later.2.1.toNat :=
    pairwise_sortByKey _ _
  have distinct :
      (ordering.pool.drainedEntries order).Pairwise fun earlier later =>
        earlier.1 ≠ later.1 :=
    List.pairwise_map.mp (nodup_drainedHashes order)
  rw [AscendingFirst, drainedHashes, List.pairwise_map]
  refine (sorted.and distinct).imp_of_mem ?_
  rintro ⟨hash, sequence, txBytes⟩ ⟨hash', sequence', txBytes'⟩ listed
    listed' ⟨notAfter, different⟩
  rcases mem_drainedEntries.mp listed with ⟨entry, found, rfl, shown⟩
  rcases mem_drainedEntries.mp listed' with ⟨entry', found', rfl, shown'⟩
  have before :
      entry.commitment.sequence.toNat <
        entry'.commitment.sequence.toNat := by
    refine lt_of_le_of_ne notAfter fun sameNumber => different ?_
    refine
      ordered.sequences.injective hash hash' _ (sequenceOf_of_lookup found) ?_
    rw [UInt64.toNat_inj.mp sameNumber]
    exact sequenceOf_of_lookup found'
  exact
    ordered.agree hash hash' entry entry' found found'
      (.inr (by rw [shown, Option.isSome_some]))
      (.inr (by rw [shown', Option.isSome_some])) before

/-- A hash that is stored after a call was not drained by it. -/
theorem not_mem_drainedBy
    {blake3 : List UInt8 → Bytes32}
    {ordering : OrderingRun}
    {call : PoolCall}
    {hash : Bytes32}
    {entry : CommitEntry}
    (found :
      (ordering.pool.step blake3 call).1.entries.lookup hash = some entry) :
    hash ∉ ordering.drainedBy call := by
  cases call with
  | drainRevealed order =>
      intro drained
      rcases mem_drainedHashes.mp drained with ⟨entry', found', shown⟩
      change
        (ordering.pool.drainRevealed order).1.entries.lookup hash = some entry
        at found
      rw [lookup_drainRevealed, found', Option.filter_some, shown] at found
      cases found
  | commit commitmentHash encryptedTx nowMs =>
      exact List.not_mem_nil
  | reveal commitmentHash txBytes nonce nowMs =>
      exact List.not_mem_nil
  | expireStale nowMs =>
      exact List.not_mem_nil

/-- The hashes that a call drains were stored, each is drained once. -/
theorem drainedBy_stored
    {ordering : OrderingRun}
    (call : PoolCall) :
    (ordering.drainedBy call).Nodup ∧
      ∀ hash ∈ ordering.drainedBy call,
        ∃ entry, ordering.pool.entries.lookup hash = some entry := by
  cases call with
  | drainRevealed order =>
      refine ⟨nodup_drainedHashes order, fun hash drained => ?_⟩
      rcases mem_drainedHashes.mp drained with ⟨entry, found, _⟩
      exact ⟨entry, found⟩
  | commit commitmentHash encryptedTx nowMs =>
      exact ⟨List.nodup_nil, fun _ drained => absurd drained List.not_mem_nil⟩
  | reveal commitmentHash txBytes nonce nowMs =>
      exact ⟨List.nodup_nil, fun _ drained => absurd drained List.not_mem_nil⟩
  | expireStale nowMs =>
      exact ⟨List.nodup_nil, fun _ drained => absurd drained List.not_mem_nil⟩

/-- Draining keeps the drained hashes different. -/
theorem Ordered.drainedOnce_step
    {ordering : OrderingRun}
    (ordered : Ordered ordering)
    (call : PoolCall) :
    (ordering.drained ++ ordering.drainedBy call).Nodup := by
  rcases drainedBy_stored call with ⟨distinct, stored⟩
  refine List.nodup_append'.mpr ⟨ordered.drainedOnce, distinct, ?_⟩
  intro hash before now
  rcases stored hash now with ⟨entry, found⟩
  exact ordered.notDrained hash entry found before

/-- A call that is not a commit keeps the invariant. -/
theorem Ordered.step_of_not_commit
    {blake3 : List UInt8 → Bytes32}
    {ordering : OrderingRun}
    (ordered : Ordered ordering)
    {call : PoolCall}
    (notCommit :
      ∀ commitmentHash encryptedTx nowMs,
        call ≠ .commit commitmentHash encryptedTx nowMs) :
    Ordered (ordering.step blake3 call).1 := by
  have sameFirst :
      (ordering.step blake3 call).1.firstSequence =
        ordering.firstSequence := by
    cases call with
    | commit commitmentHash encryptedTx nowMs =>
        exact absurd rfl (notCommit _ _ _)
    | reveal | expireStale | drainRevealed => rfl
  have sameCounter :
      (ordering.step blake3 call).1.pool.nextSeq = ordering.pool.nextSeq :=
    nextSeq_step notCommit
  refine
    { firsts := ?_
      sequences := ?_
      committed := ?_
      agree := ?_
      notDrained := ?_
      drainedOnce := ordered.drainedOnce_step call }
  · rw [sameFirst, sameCounter]
    exact ordered.firsts
  · rw [sameCounter]
    refine ordered.sequences.restrict fun hash number isNumber => ?_
    rcases Option.map_eq_some_iff.mp isNumber with ⟨entry', found', rfl⟩
    rcases entry_before_step notCommit found' with ⟨entry, found, same, _⟩
    rw [same]
    exact sequenceOf_of_lookup found
  · intro hash entry' found'
    rcases entry_before_step notCommit found' with ⟨entry, found, _⟩
    rw [sameFirst]
    exact ordered.committed hash entry found
  · intro hash hash' entry₁ entry₂ found₁ found₂ live₁ live₂ before
    rcases entry_before_step notCommit found₁ with ⟨entry, found, same, live⟩
    rcases entry_before_step notCommit found₂ with
      ⟨entry', found', same', live'⟩
    rw [same, same'] at before
    rw [FirstBefore, sameFirst]
    exact
      ordered.agree hash hash' entry entry' found found' (live live₁)
        (live' live₂) before
  · intro hash entry' found'
    rcases entry_before_step notCommit found' with ⟨entry, found, _⟩
    intro drained
    rcases List.mem_append.mp drained with before | now
    · exact ordered.notDrained hash entry found before
    · exact not_mem_drainedBy found' now

/-- The first number of a hash once it is committed. -/
def firstOf (ordering : OrderingRun) (commitmentHash : Bytes32) : UInt64 :=
  (ordering.firstSequence commitmentHash).getD ordering.pool.nextSeq

/-- It is the one of the first commit, or the counter. -/
theorem firstOf_cases (ordering : OrderingRun) (commitmentHash : Bytes32) :
    ordering.firstOf commitmentHash = ordering.pool.nextSeq ∨
      ordering.firstSequence commitmentHash =
        some (ordering.firstOf commitmentHash) := by
  rw [firstOf]
  cases ordering.firstSequence commitmentHash with
  | none =>
      exact .inl rfl
  | some first =>
      exact .inr rfl

/-- A commit records a first number for its hash, unless there is one. -/
theorem firstAfter_commit
    (ordering : OrderingRun)
    (commitmentHash : Bytes32)
    (encryptedTx : Option (List UInt8))
    (nowMs : UInt64) :
    ordering.firstAfter (.commit commitmentHash encryptedTx nowMs) =
      Function.update ordering.firstSequence commitmentHash
        (some (ordering.firstOf commitmentHash)) := by
  rw [firstAfter, firstOf]
  cases isFirst : ordering.firstSequence commitmentHash with
  | none =>
      rw [if_pos rfl, Option.getD_none]
  | some first =>
      rw [if_neg (Option.some_ne_none first), Option.getD_some, ← isFirst,
        Function.update_eq_self]

/-- What still waits was committed before an allowed commit. -/
theorem Ordered.lt_firstOf
    {ordering : OrderingRun}
    (ordered : Ordered ordering)
    {commitmentHash : Bytes32}
    (allowed : ordering.AllowedCommit commitmentHash)
    {hash : Bytes32}
    (different : hash ≠ commitmentHash)
    {entry : CommitEntry}
    (found : ordering.pool.entries.lookup hash = some entry)
    (live : entry.Live)
    {first : UInt64}
    (isFirst : ordering.firstSequence hash = some first) :
    first.toNat < (ordering.firstOf commitmentHash).toNat := by
  rcases ordering.firstOf_cases commitmentHash with isNew | isOld
  · rw [isNew]
    exact ordered.firsts.below hash first isFirst
  · refine
      lt_of_le_of_ne
        (not_lt.mp
          (allowed.notOvertaken _ hash entry first isOld found live isFirst))
        fun same => different ?_
    rw [UInt64.toNat_inj.mp same] at isFirst
    exact ordered.firsts.injective hash commitmentHash _ isFirst isOld

/-- A commit numbers its hash last, and its first number is the last as well. -/
theorem Ordered.step_of_commit
    {blake3 : List UInt8 → Bytes32}
    {ordering : OrderingRun}
    (ordered : Ordered ordering)
    {commitmentHash : Bytes32}
    (allowed : ordering.AllowedCommit commitmentHash)
    (encryptedTx : Option (List UInt8))
    (nowMs : UInt64) :
    Ordered
      (ordering.step blake3
        (.commit commitmentHash encryptedTx nowMs)).1 := by
  have newFirsts :
      (ordering.step blake3
          (.commit commitmentHash encryptedTx nowMs)).1.firstSequence =
        Function.update ordering.firstSequence commitmentHash
          (some (ordering.firstOf commitmentHash)) :=
    ordering.firstAfter_commit commitmentHash encryptedTx nowMs
  have newSequences :
      (ordering.step blake3
          (.commit commitmentHash encryptedTx nowMs)).1.pool.sequenceOf =
        Function.update ordering.pool.sequenceOf commitmentHash
          (some ordering.pool.nextSeq) :=
    sequenceOf_commit commitmentHash encryptedTx nowMs
  refine
    { firsts := ?_
      sequences := ?_
      committed := ?_
      agree := ?_
      notDrained := ?_
      drainedOnce := ordered.drainedOnce_step _ }
  · rw [newFirsts]
    exact
      ordered.firsts.assign allowed.counter
        (ordering.firstOf_cases commitmentHash)
  · rw [newSequences]
    exact ordered.sequences.assign allowed.counter (.inl rfl)
  · intro hash entry found
    rw [newFirsts]
    rcases lookup_commit_cases found with ⟨rfl, _⟩ | ⟨different, old⟩
    · exact ⟨_, Function.update_self _ _ _⟩
    · rw [Function.update_of_ne different]
      exact ordered.committed hash entry old
  · intro hash hash' entry entry' found found' live live' before
    rw [FirstBefore, newFirsts]
    rcases lookup_commit_cases found with
      ⟨rfl, isNew, _⟩ | ⟨different, old⟩ <;>
      rcases lookup_commit_cases found' with
        ⟨rfl, isNew', _⟩ | ⟨different', old'⟩
    · rw [isNew, isNew'] at before
      exact absurd before (lt_irrefl _)
    · -- the new number is above every other
      have bound :=
        ordered.sequences.below hash' _ (sequenceOf_of_lookup old')
      rw [isNew] at before
      exact absurd (before.trans bound) (lt_irrefl _)
    · rcases ordered.committed hash entry old with ⟨first, isFirst⟩
      refine ⟨first, _, ?_, Function.update_self _ _ _, ?_⟩
      · rw [Function.update_of_ne different, isFirst]
      · exact ordered.lt_firstOf allowed different old live isFirst
    · rw [Function.update_of_ne different, Function.update_of_ne different']
      exact ordered.agree hash hash' entry entry' old old' live live' before
  · intro hash entry found
    change hash ∉ ordering.drained ++ []
    rw [List.append_nil]
    rcases lookup_commit_cases found with ⟨rfl, _⟩ | ⟨_, old⟩
    · exact allowed.notDrained
    · exact ordered.notDrained hash entry old

/-- The start has nothing to order. -/
theorem ordered_start (revealTimeoutMs : UInt64) :
    Ordered (start revealTimeoutMs) := by
  have notStored
      (hash : Bytes32)
      (entry : CommitEntry) :
      (start revealTimeoutMs).pool.entries.lookup hash ≠ some entry := by
    intro found
    cases (Finmap.lookup_empty hash).symm.trans found
  exact
    { firsts := numbered_none _
      sequences := numbered_none _
      committed := fun hash entry found =>
        absurd found (notStored hash entry)
      agree := fun hash _ entry _ found =>
        absurd found (notStored hash entry)
      notDrained := fun _ _ _ => List.not_mem_nil
      drainedOnce := List.nodup_nil }

/-- An allowed call keeps the invariant. -/
theorem Ordered.step
    {blake3 : List UInt8 → Bytes32}
    {ordering : OrderingRun}
    (ordered : Ordered ordering)
    {call : PoolCall}
    (allowed : ordering.Allowed call) :
    Ordered (ordering.step blake3 call).1 := by
  cases call with
  | commit commitmentHash encryptedTx nowMs =>
      exact ordered.step_of_commit allowed encryptedTx nowMs
  | reveal commitmentHash txBytes nonce nowMs =>
      exact ordered.step_of_not_commit nofun
  | expireStale nowMs =>
      exact ordered.step_of_not_commit nofun
  | drainRevealed order =>
      exact ordered.step_of_not_commit nofun

/-- An allowed call changes no number before its entry is drained or expired. -/
theorem keepsSequences_of_allowed
    {blake3 : List UInt8 → Bytes32}
    {ordering : OrderingRun}
    {call : PoolCall}
    (allowed : ordering.Allowed call) :
    KeepsSequences ordering.pool call (ordering.step blake3 call).1.pool := by
  intro hash entry found notExpired
  cases call with
  | commit commitmentHash encryptedTx nowMs =>
      have different : hash ≠ commitmentHash := by
        rintro rfl
        exact notExpired (AllowedCommit.notStored allowed entry found)
      refine .inl ⟨entry, ?_, rfl⟩
      exact
        (lookup_commit commitmentHash hash encryptedTx nowMs).trans
          ((if_neg different).trans found)
  | reveal commitmentHash txBytes nonce nowMs =>
      exact .inl (entry_after_reveal commitmentHash txBytes nonce nowMs found)
  | expireStale nowMs =>
      refine .inl ⟨ordering.pool.expireEntry nowMs entry, ?_, ?_⟩
      · change (ordering.pool.expireStale nowMs).entries.lookup hash = _
        rw [lookup_expireStale, found, Option.map_some]
      · rw [expireEntry]
        split <;> rfl
  | drainRevealed order =>
      cases shown : entry.revealedTx.isSome with
      | true =>
          exact
            .inr ⟨order, rfl, mem_drainedHashes.mpr ⟨entry, found, shown⟩⟩
      | false =>
          refine .inl ⟨entry, ?_, rfl⟩
          change
            (ordering.pool.drainRevealed order).1.entries.lookup hash = _
          rw [lookup_drainRevealed, found, Option.filter_some, shown]
          rfl

/-- A commit of a hash that is stored and not expired changes its number. -/
theorem Ordered.not_keepsSequences
    {blake3 : List UInt8 → Bytes32}
    {ordering : OrderingRun}
    (ordered : Ordered ordering)
    {commitmentHash : Bytes32}
    {entry : CommitEntry}
    (found : ordering.pool.entries.lookup commitmentHash = some entry)
    (notExpired : entry.status ≠ .expired)
    (encryptedTx : Option (List UInt8))
    (nowMs : UInt64) :
    ¬ KeepsSequences ordering.pool
        (.commit commitmentHash encryptedTx nowMs)
        (ordering.step blake3
          (.commit commitmentHash encryptedTx nowMs)).1.pool := by
  intro keeps
  rcases keeps commitmentHash entry found notExpired with
    ⟨entry', found', same⟩ | ⟨_, isDrain, _⟩
  · rcases lookup_commit_cases found' with ⟨_, isNew, _⟩ | ⟨different, _⟩
    · have bound :=
        ordered.sequences.below commitmentHash _ (sequenceOf_of_lookup found)
      rw [← same, isNew] at bound
      exact lt_irrefl _ bound
    · exact different rfl
  · cases isDrain

/-- A drained hash is drained again when it is committed and revealed again. -/
theorem not_nodup_drained
    {blake3 : List UInt8 → Bytes32}
    {ordering : OrderingRun}
    {commitmentHash : Bytes32}
    (drained : commitmentHash ∈ ordering.drained)
    {txBytes : List UInt8}
    {nonce : Nonce}
    (isMatch :
      computeTxCommitment blake3 (blake3 txBytes) nonce = commitmentHash)
    (encryptedTx : Option (List UInt8))
    (nowMs : UInt64)
    (order : IterationOrder) :
    ¬ (run (step blake3) ordering [
        .commit commitmentHash encryptedTx nowMs,
        .reveal commitmentHash txBytes nonce nowMs,
        .drainRevealed order]).drained.Nodup := by
  intro distinct
  have again :
      commitmentHash ∈
        ((ordering.pool.commit commitmentHash encryptedTx nowMs).1.reveal
          blake3 commitmentHash txBytes nonce nowMs).1.drainedHashes order :=
    mem_drainedHashes_of_reveal isMatch encryptedTx nowMs order
  exact
    (List.nodup_append'.mp distinct).2.2
      (List.mem_append_left _ (List.mem_append_left _ drained)) again

/-- Where every commit is allowed, the order is the one of the first commits. -/
theorem orderingFixed_of_allowed
    {blake3 : List UInt8 → Bytes32}
    {revealTimeoutMs : UInt64}
    {calls : List PoolCall}
    (allowed :
      EveryStep (step blake3) Allowed (start revealTimeoutMs) calls) :
    OrderingFixed blake3 revealTimeoutMs calls := by
  have orderedAt
      {past : List PoolCall}
      (everyStep :
        EveryStep (step blake3) Allowed (start revealTimeoutMs) past) :
      Ordered (reached blake3 revealTimeoutMs past) :=
    everyStep.run_invariant
      (fun _ _ isAllowed ordered => ordered.step isAllowed)
      (ordered_start revealTimeoutMs)
  refine
    { kept := ?_
      drainedOnce := (orderedAt allowed).drainedOnce
      ascending := ?_ }
  · intro past call later split
    exact
      keepsSequences_of_allowed
        (everyStep_iff_split.mp allowed past call later split)
  · rintro past order later rfl
    exact (orderedAt (everyStep_append.mp allowed).1).ascendingFirst order

/-- Where the drained list ascends, numbers follow the first commits. -/
theorem AscendingFirst.firstBefore
    {ordering : OrderingRun}
    {order : IterationOrder}
    (ascending :
      ordering.AscendingFirst (ordering.pool.drainedHashes order))
    {hash hash' : Bytes32}
    {entry entry' : CommitEntry}
    (found : ordering.pool.entries.lookup hash = some entry)
    (found' : ordering.pool.entries.lookup hash' = some entry')
    {txBytes txBytes' : List UInt8}
    (shown : entry.revealedTx = some txBytes)
    (shown' : entry'.revealedTx = some txBytes')
    (before :
      entry.commitment.sequence.toNat < entry'.commitment.sequence.toNat) :
    ordering.FirstBefore hash hash' := by
  have sorted :
      (ordering.pool.drainedEntries order).Pairwise fun earlier later =>
        earlier.2.1.toNat ≤ later.2.1.toNat :=
    pairwise_sortByKey _ _
  rw [AscendingFirst, drainedHashes, List.pairwise_map] at ascending
  have inListOrder :
      (ordering.pool.drainedEntries order).Pairwise fun left right =>
        left.2.1.toNat < right.2.1.toNat →
          ordering.FirstBefore left.1 right.1 := by
    refine ascending.imp ?_
    intro left right isBefore _
    exact isBefore
  have against :
      (ordering.pool.drainedEntries order).Pairwise fun left right =>
        right.2.1.toNat < left.2.1.toNat →
          ordering.FirstBefore right.1 left.1 := by
    refine sorted.imp ?_
    intro left right notAfter after
    exact absurd after notAfter.not_gt
  exact
    List.Pairwise.forall_of_forall_of_flip
      (fun _ _ below => absurd below (lt_irrefl _)) inListOrder against
      (mem_drainedEntries.mpr ⟨entry, found, rfl, shown⟩)
      (mem_drainedEntries.mpr ⟨entry', found', rfl, shown'⟩)
      before

/-- A hash that expired is committed again before another one. -/
theorem orderingFixed_of_allowed_sample :
    OrderingFixed lastByteHash 5000 [
      .commit (Bytes32.endingIn 7) none 1000,
      .expireStale 7000,
      .commit (Bytes32.endingIn 7) none 7100,
      .commit (Bytes32.endingIn 8) none 7200,
      .reveal (Bytes32.endingIn 8) [1] (repeatedNonce 8) 7300,
      .reveal (Bytes32.endingIn 7) [1] (repeatedNonce 7) 7400,
      .drainRevealed .ascending] := by
  apply orderingFixed_of_allowed
  refine ⟨?first, trivial, ?again, ?other, trivial, trivial, trivial, trivial⟩
  case first =>
    exact
      { notStored := nofun
        notDrained := List.not_mem_nil
        notOvertaken := nofun
        counter := by decide }
  case again =>
    refine
      { notStored := ?_
        notDrained := List.not_mem_nil
        notOvertaken := ?_
        counter := by decide }
    · intro entry found
      cases found
      rfl
    · intro first other entry first' isFirst _ _ isFirst'
      -- the hash itself is the only one committed so far
      have isOnly :
          Function.update (start 5000).firstSequence (Bytes32.endingIn 7)
              (some 0) other =
            some first' :=
        isFirst'
      by_cases same : other = Bytes32.endingIn 7
      · rw [same, Function.update_self, Option.some_inj] at isOnly
        rw [← isOnly]
        exact Nat.not_lt_zero _
      · rw [Function.update_of_ne same] at isOnly
        cases isOnly
  case other =>
    exact
      { notStored := nofun
        notDrained := List.not_mem_nil
        notOvertaken := nofun
        counter := by decide }

/-- Two hashes, of which one is committed again and again. -/
def resubmitted : List PoolCall := [
  .commit (Bytes32.endingIn 7) none 1000,
  .commit (Bytes32.endingIn 8) none 1100,
  .commit (Bytes32.endingIn 7) none 1200,
  .reveal (Bytes32.endingIn 7) [1] (repeatedNonce 7) 1300,
  .reveal (Bytes32.endingIn 8) [1] (repeatedNonce 8) 1400,
  .drainRevealed .ascending,
  .commit (Bytes32.endingIn 7) none 1500,
  .reveal (Bytes32.endingIn 7) [1] (repeatedNonce 7) 1600,
  .drainRevealed .ascending]

/-- Its number changes, it is drained twice, and out of order. -/
theorem resubmitted_not_ordered :
    ¬ KeepsSequences
        (reached lastByteHash 5000 (resubmitted.take 2)).pool
        (.commit (Bytes32.endingIn 7) none 1200)
        (reached lastByteHash 5000 (resubmitted.take 3)).pool ∧
      ¬ (reached lastByteHash 5000 (resubmitted.take 5)).AscendingFirst
          ((reached lastByteHash 5000
              (resubmitted.take 5)).pool.drainedHashes .ascending) ∧
      ¬ (reached lastByteHash 5000 resubmitted).drained.Nodup ∧
      ¬ OrderingFixed lastByteHash 5000 resubmitted := by
  have moves :
      ¬ KeepsSequences
          (reached lastByteHash 5000 (resubmitted.take 2)).pool
          (.commit (Bytes32.endingIn 7) none 1200)
          (reached lastByteHash 5000 (resubmitted.take 3)).pool := by
    intro keeps
    rcases keeps (Bytes32.endingIn 7) _ rfl nofun with
      ⟨entry', found', same⟩ | ⟨order, isDrain, _⟩
    · cases found'
      exact absurd same (by decide)
    · cases isDrain
  refine ⟨moves, ?_, ?_, fun fixed => ?_⟩
  · intro ascending
    have isBefore :
        (reached lastByteHash 5000 (resubmitted.take 5)).FirstBefore
          (Bytes32.endingIn 8) (Bytes32.endingIn 7) :=
      ascending.firstBefore rfl rfl rfl rfl (by decide)
    rcases isBefore with ⟨first, first', isFirst, isFirst', before⟩
    cases isFirst
    cases isFirst'
    exact absurd before (by decide)
  · intro distinct
    have drainedFirst :
        Bytes32.endingIn 7 ∈
          (reached lastByteHash 5000 (resubmitted.take 6)).drained :=
      List.mem_append_right _ (mem_drainedHashes.mpr ⟨_, rfl, rfl⟩)
    have drainedAgain :
        Bytes32.endingIn 7 ∈
          (reached lastByteHash 5000
            (resubmitted.take 8)).pool.drainedHashes .ascending :=
      mem_drainedHashes.mpr ⟨_, rfl, rfl⟩
    exact
      (List.nodup_append'.mp distinct).2.2
        (List.mem_append_left _ (List.mem_append_left _ drainedFirst))
        drainedAgain
  · exact moves (fixed.kept _ _ _ (rfl : resubmitted = _ ++ _ :: _))

end OrderingRun

end ScalarCore
