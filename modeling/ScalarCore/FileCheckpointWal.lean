import ScalarCore.CheckpointWal
import ScalarCore.FallibleChecks
import ScalarCore.KeyedSort

namespace ScalarCore

/-!
# The checkpoint log on disk

The entries are kept in memory and in files, one for each checkpoint.  A call is
first applied in memory; then the entry is written to a temporary file, which is
renamed.  Where the write fails, the memory is ahead of the files, and repeating
the call does not write again.
-/

open CheckpointWal FallibleChecks KeyedSort KeyedWrites StateMachine

/-- The name of a file in the directory of the log. -/
structure FileName where
  stem : String
  extension : Option String
  deriving DecidableEq

/-- The files of the directory with their contents. -/
abbrev Directory :=
  Finmap fun _ : FileName => List UInt8

/-- Why an operation fails. -/
inductive WalIoError where
  | io (checkpointId : UInt64)
  | serialization (checkpointId : UInt64)
  | logic (error : WalError)
  deriving Repr, DecidableEq

/-- The encoding of an entry, which is read back as it was written. -/
structure EntryCodec where
  toAllocvec : CheckpointWalEntry → Option (List UInt8)
  fromBytes : List UInt8 → Option CheckpointWalEntry
  fromBytes_toAllocvec :
    ∀ {entry bytes}, toAllocvec entry = some bytes → fromBytes bytes = some entry

/-- Where writing a file fails; a failed write may leave a file behind. -/
inductive PersistFault where
  | write (left : Option (List UInt8))
  | openFile
  | syncAll
  | rename

/-- `{checkpoint_id:016x}`. -/
def hexDigits (checkpointId : UInt64) : String :=
  String.ofList
    ((List.range 16).map fun place =>
      Nat.digitChar (checkpointId.toNat / 16 ^ (15 - place) % 16))

/-- `entry_path`. -/
def entryPath (checkpointId : UInt64) : FileName where
  stem := hexDigits checkpointId
  extension := some "wal"

/-- `tmp_path`. -/
def tmpPath (checkpointId : UInt64) : FileName where
  stem := hexDigits checkpointId
  extension := some "tmp"

/-- The names that a listing of the directory gives, in some order. -/
def ListsFiles (directory : Directory) (names : List FileName) : Prop :=
  (names : Multiset FileName) = directory.keys.val

instance (directory : Directory) (names : List FileName) :
    Decidable (ListsFiles directory names) :=
  inferInstanceAs (Decidable ((names : Multiset FileName) = directory.keys.val))

/-- Remove an entry from the memory. -/
def CheckpointWal.remove
    (wal : CheckpointWal)
    (checkpointId : UInt64) : CheckpointWal where
  entries := wal.entries.erase checkpointId

/-- The log with its directory. -/
structure FileCheckpointWal where
  inner : CheckpointWal
  walDir : Directory

/-- What an operation answers; `panicked` stands for the `unwrap` of an entry. -/
inductive FileWalAnswer where
  | done (result : WalResult)
  | removed
  | failed (error : WalIoError)
  | panicked
  deriving Repr, DecidableEq

/-- A call with the failure that its file operations meet, if any. -/
inductive FileWalCall where
  | phase (call : WalCall) (fault : Option PersistFault)
  | removeCommitted (checkpointId : UInt64) (removeFails : Bool)

namespace FileCheckpointWal

variable (codec : EntryCodec)

/-- `persist_entry`. -/
def persistEntry
    (directory : Directory)
    (entry : CheckpointWalEntry)
    (fault : Option PersistFault) : Directory × Except WalIoError Unit :=
  let cid := entry.checkpointId
  match codec.toAllocvec entry with
  | none => (directory, .error (.serialization cid))
  | some bytes =>
      let tmp := tmpPath cid
      let written := directory.insert tmp bytes
      match fault with
      | some (.write none) => (directory, .error (.io cid))
      | some (.write (some left)) => (directory.insert tmp left, .error (.io cid))
      | some .openFile | some .syncAll | some .rename =>
          (written, .error (.io cid))
      | none => ((written.erase tmp).insert (entryPath cid) bytes, .ok ())

/-- Read the entry of a file. -/
def readEntry (file : FileName × List UInt8) :
    Except WalIoError CheckpointWalEntry :=
  match codec.fromBytes file.2 with
  | some entry => .ok entry
  | none => .error (.serialization 0)

/-- The files of entries, in the order in which the directory lists its files. -/
def walFiles
    (directory : Directory)
    (names : List FileName) : List (FileName × List UInt8) :=
  (itemsAt directory names).filter fun file => file.1.extension = some "wal"

/-- `load_all`. -/
def loadAll
    (directory : Directory)
    (names : List FileName) : Except WalIoError CheckpointWal := do
  let entries ← (walFiles directory names).mapM (readEntry codec)
  pure {
    entries :=
      writeAll CheckpointWalEntry.checkpointId id ∅
        (sortByKey (fun entry => entry.checkpointId.toNat) entries)
  }

/-- `open`. -/
def openWal
    (directory : Directory)
    (names : List FileName) : Except WalIoError FileCheckpointWal := do
  let inner ← loadAll codec directory names
  pure { inner, walDir := directory }

/-- Write the entry of a checkpoint when the memory has applied its call. -/
def persistApplied
    (walDir : Directory)
    (checkpointId : UInt64)
    (fault : Option PersistFault)
    (inner : CheckpointWal)
    (result : Except WalError WalResult) : FileCheckpointWal × FileWalAnswer :=
  match result with
  | .error error => ({ inner, walDir }, .failed (.logic error))
  | .ok .alreadyInState => ({ inner, walDir }, .done .alreadyInState)
  | .ok .applied =>
      match inner.get checkpointId with
      | none => ({ inner, walDir }, .panicked)
      | some entry =>
          match persistEntry codec walDir entry fault with
          | (walDir, .error error) => ({ inner, walDir }, .failed error)
          | (walDir, .ok ()) => ({ inner, walDir }, .done .applied)

/-- `prepare`. -/
def prepare
    (wal : FileCheckpointWal)
    (checkpointId : UInt64)
    (snapshot : CheckpointSnapshot)
    (nowMs : UInt64)
    (fault : Option PersistFault) : FileCheckpointWal × FileWalAnswer :=
  let (inner, result) := wal.inner.prepare checkpointId snapshot nowMs
  persistApplied codec wal.walDir checkpointId fault inner result

/-- `inserted`. -/
def inserted
    (wal : FileCheckpointWal)
    (checkpointId : UInt64)
    (smtRoot : Bytes32)
    (smtDataPath : String)
    (nowMs : UInt64)
    (fault : Option PersistFault) : FileCheckpointWal × FileWalAnswer :=
  let (inner, result) :=
    wal.inner.inserted checkpointId smtRoot smtDataPath nowMs
  persistApplied codec wal.walDir checkpointId fault inner result

/-- `commit`. -/
def commit
    (wal : FileCheckpointWal)
    (checkpointId nowMs : UInt64)
    (fault : Option PersistFault) : FileCheckpointWal × FileWalAnswer :=
  let (inner, result) := wal.inner.commit checkpointId nowMs
  persistApplied codec wal.walDir checkpointId fault inner result

/-- `is_committed`. -/
def isCommitted (wal : FileCheckpointWal) (checkpointId : UInt64) : Bool :=
  wal.inner.isCommitted checkpointId

/-- `remove_committed`. -/
def removeCommitted
    (wal : FileCheckpointWal)
    (checkpointId : UInt64)
    (removeFails : Bool) : FileCheckpointWal × FileWalAnswer :=
  if !wal.isCommitted checkpointId then
    (wal, .removed)
  else
    let inner := wal.inner.remove checkpointId
    if (wal.walDir.lookup (entryPath checkpointId)).isSome then
      if removeFails then
        (wal, .failed (.io checkpointId))
      else
        ({ inner, walDir := wal.walDir.erase (entryPath checkpointId) },
          .removed)
    else
      ({ inner, walDir := wal.walDir }, .removed)

/-- Perform a call. -/
def step (wal : FileCheckpointWal) :
    FileWalCall → FileCheckpointWal × FileWalAnswer
  | .phase (.prepare checkpointId snapshot nowMs) fault =>
      wal.prepare codec checkpointId snapshot nowMs fault
  | .phase (.inserted checkpointId smtRoot smtDataPath nowMs) fault =>
      wal.inserted codec checkpointId smtRoot smtDataPath nowMs fault
  | .phase (.commit checkpointId nowMs) fault =>
      wal.commit codec checkpointId nowMs fault
  | .removeCommitted checkpointId removeFails =>
      wal.removeCommitted checkpointId removeFails

/-!
## What the directory holds
-/

variable {codec} {directory directory' : Directory} {entry : CheckpointWalEntry}
  {wal : FileCheckpointWal}

/-- Two numbers below a power of 16 with the same digits are equal. -/
theorem eq_of_digits_eq
    {n m : Nat}
    {count : Nat}
    (same : ∀ place < count, n / 16 ^ place % 16 = m / 16 ^ place % 16) :
    n % 16 ^ count = m % 16 ^ count := by
  induction count with
  | zero =>
      rw [pow_zero, Nat.mod_one, Nat.mod_one]
  | succ count inductionHypothesis =>
      have lower :=
        inductionHypothesis fun place below => same place (Nat.lt_succ_of_lt below)
      rw [Nat.mod_pow_succ, Nat.mod_pow_succ, lower,
        same count (Nat.lt_succ_self count)]

theorem digitChar_injective :
    ∀ n < 16, ∀ m < 16, Nat.digitChar n = Nat.digitChar m → n = m := by
  decide

theorem hexDigits_injective : Function.Injective hexDigits := by
  intro left right same
  have digits := congrArg String.toList same
  rw [hexDigits, hexDigits, String.toList_ofList, String.toList_ofList,
    List.map_inj_left] at digits
  have lower : left.toNat % 16 ^ 16 = right.toNat % 16 ^ 16 := by
    apply eq_of_digits_eq
    intro place below
    have atPlace :=
      digitChar_injective _ (Nat.mod_lt _ (by decide)) _ (Nat.mod_lt _ (by decide))
        (digits (15 - place) (List.mem_range.mpr (by omega)))
    rwa [Nat.sub_sub_self (Nat.le_of_lt_succ below)] at atPlace
  have bounded (word : UInt64) : word.toNat < 16 ^ 16 := word.toNat_lt
  rw [Nat.mod_eq_of_lt (bounded left), Nat.mod_eq_of_lt (bounded right)] at lower
  exact UInt64.toNat_inj.mp lower

theorem entryPath_injective : Function.Injective entryPath := by
  intro left right same
  exact hexDigits_injective (congrArg FileName.stem same)

theorem tmpPath_extension_ne (checkpointId : UInt64) :
    (tmpPath checkpointId).extension ≠ some "wal" := by
  simp [tmpPath]

/-- Every entry file holds the entry that it is named after. -/
def WellNamed (codec : EntryCodec) (directory : Directory) : Prop :=
  ∀ name bytes,
    directory.lookup name = some bytes →
    name.extension = some "wal" →
    ∃ entry,
      codec.fromBytes bytes = some entry ∧ name = entryPath entry.checkpointId

/-- The entry in the file of a checkpoint. -/
def stored
    (codec : EntryCodec)
    (directory : Directory)
    (checkpointId : UInt64) : Option CheckpointWalEntry :=
  (directory.lookup (entryPath checkpointId)).bind codec.fromBytes

theorem checkpointId_of_stored
    (wellNamed : WellNamed codec directory)
    {checkpointId : UInt64}
    (isStored : stored codec directory checkpointId = some entry) :
    entry.checkpointId = checkpointId := by
  obtain ⟨bytes, found, decoded⟩ := Option.bind_eq_some_iff.mp isStored
  obtain ⟨entry', decoded', named⟩ := wellNamed _ bytes found rfl
  rw [decoded, Option.some_inj] at decoded'
  rw [decoded']
  exact (entryPath_injective named).symm

/-- Reading a file gives the entry that its bytes encode. -/
theorem readEntry_eq_ok_iff
    {file : FileName × List UInt8} :
    readEntry codec file = .ok entry ↔ codec.fromBytes file.2 = some entry := by
  rw [readEntry]
  cases codec.fromBytes file.2 with
  | none =>
      simp
  | some decoded =>
      simp

theorem mem_walFiles
    {names : List FileName}
    (lists : ListsFiles directory names)
    {name : FileName}
    {bytes : List UInt8} :
    (name, bytes) ∈ walFiles directory names ↔
      directory.lookup name = some bytes ∧ name.extension = some "wal" := by
  have listed : name ∈ names ↔ name ∈ directory := by
    rw [← Finmap.mem_keys, ← Multiset.mem_coe, lists]
    rfl
  rw [walFiles, List.mem_filter, mem_itemsAt, listed, decide_eq_true_iff,
    and_congr_left_iff]
  exact fun _ => and_iff_right_of_imp Finmap.mem_of_lookup_eq_some

/-- The entries read from a well-named directory are the stored ones. -/
theorem exists_entries
    (wellNamed : WellNamed codec directory)
    {names : List FileName}
    (lists : ListsFiles directory names) :
    ∃ entries,
      (walFiles directory names).mapM (readEntry codec) = .ok entries ∧
        ∀ entry,
          entry ∈ entries ↔
            stored codec directory entry.checkpointId = some entry := by
  have readable :
      ∀ file ∈ walFiles directory names,
        ∃ entry, readEntry codec file = .ok entry := by
    rintro ⟨name, bytes⟩ isFile
    obtain ⟨found, isWal⟩ := (mem_walFiles lists).mp isFile
    obtain ⟨entry, decoded, _⟩ := wellNamed name bytes found isWal
    exact ⟨entry, readEntry_eq_ok_iff.mpr decoded⟩
  obtain ⟨entries, areEntries, mem_entries⟩ := exists_mapM_eq_ok readable
  refine ⟨entries, areEntries, fun entry => ?_⟩
  rw [mem_entries, stored, Option.bind_eq_some_iff]
  constructor
  · rintro ⟨⟨name, bytes⟩, isFile, isRead⟩
    obtain ⟨found, isWal⟩ := (mem_walFiles lists).mp isFile
    obtain ⟨entry', decoded, rfl⟩ := wellNamed name bytes found isWal
    rw [readEntry_eq_ok_iff, decoded, Option.some_inj] at isRead
    subst isRead
    exact ⟨bytes, found, decoded⟩
  · rintro ⟨bytes, found, decoded⟩
    exact
      ⟨(_, bytes), (mem_walFiles lists).mpr ⟨found, rfl⟩,
        readEntry_eq_ok_iff.mpr decoded⟩

/-- A well-named directory loads what it stores, in whatever order it is listed. -/
theorem loadAll_spec
    (wellNamed : WellNamed codec directory)
    {names : List FileName}
    (lists : ListsFiles directory names) :
    ∃ inner,
      loadAll codec directory names = .ok inner ∧
        ∀ checkpointId,
          inner.get checkpointId = stored codec directory checkpointId := by
  obtain ⟨entries, areEntries, mem_entries⟩ := exists_entries wellNamed lists
  refine ⟨_, by rw [loadAll, areEntries]; rfl, ?_⟩
  intro checkpointId
  rw [CheckpointWal.get, lookup_writeAll, Finmap.lookup_empty, Option.or_none,
    Option.map_id, id]
  cases isLast :
    lastFor CheckpointWalEntry.checkpointId checkpointId
      (sortByKey (fun entry => entry.checkpointId.toNat) entries) with
  | some last =>
      obtain ⟨isListed, rfl⟩ := mem_of_lastFor isLast
      rw [mem_sortByKey, mem_entries] at isListed
      exact isListed.symm
  | none =>
      rw [lastFor_eq_none_iff] at isLast
      cases isStored : stored codec directory checkpointId with
      | none =>
          rfl
      | some entry =>
          have sameId := checkpointId_of_stored wellNamed isStored
          refine absurd sameId (isLast entry ?_)
          rw [mem_sortByKey, mem_entries, sameId]
          exact isStored

theorem exists_listsFiles (directory : Directory) :
    ∃ names, ListsFiles directory names :=
  ⟨directory.keys.toList, Finset.coe_toList _⟩

/-- Logs with the same entries are the same. -/
theorem eq_of_get_eq
    {left right : CheckpointWal}
    (same : ∀ checkpointId, left.get checkpointId = right.get checkpointId) :
    left = right := by
  cases left
  cases right
  exact congrArg _ (Finmap.ext_lookup same)

/-- Opening the directory again gives the log that is in memory. -/
def Reloads (codec : EntryCodec) (wal : FileCheckpointWal) : Prop :=
  ∀ names,
    ListsFiles wal.walDir names → openWal codec wal.walDir names = .ok wal

/-- The memory holds what the directory stores. -/
structure Synced (codec : EntryCodec) (wal : FileCheckpointWal) : Prop where
  wellNamed : WellNamed codec wal.walDir
  same :
    ∀ checkpointId,
      wal.inner.get checkpointId = stored codec wal.walDir checkpointId

theorem reloads_iff
    (wellNamed : WellNamed codec wal.walDir) :
    Reloads codec wal ↔
      ∀ checkpointId,
        wal.inner.get checkpointId = stored codec wal.walDir checkpointId := by
  constructor
  · intro reloads checkpointId
    obtain ⟨names, lists⟩ := exists_listsFiles wal.walDir
    obtain ⟨inner, loaded, holds⟩ := loadAll_spec wellNamed lists
    have opened := reloads names lists
    rw [openWal, loaded] at opened
    rw [← holds]
    exact congrArg (·.inner.get checkpointId) (Except.ok.inj opened).symm
  · intro same names lists
    obtain ⟨inner, loaded, holds⟩ := loadAll_spec wellNamed lists
    have sameInner : inner = wal.inner :=
      eq_of_get_eq fun checkpointId => by rw [holds, same]
    rw [openWal, loaded, sameInner]
    rfl

/-!
## One call
-/

/-- An entry is written when it can be encoded and no file operation fails. -/
def Writable
    (codec : EntryCodec)
    (entry : CheckpointWalEntry)
    (fault : Option PersistFault) : Prop :=
  fault = none ∧ (codec.toAllocvec entry).isSome

/-- The entry files of two directories are the same. -/
def SameWalFiles (directory directory' : Directory) : Prop :=
  ∀ name,
    name.extension = some "wal" →
    directory'.lookup name = directory.lookup name

theorem sameWalFiles_tmp (checkpointId : UInt64) (bytes : List UInt8) :
    SameWalFiles directory (directory.insert (tmpPath checkpointId) bytes) := by
  intro name isWal
  apply Finmap.lookup_insert_of_ne
  rintro rfl
  exact tmpPath_extension_ne checkpointId isWal

theorem SameWalFiles.wellNamed
    (same : SameWalFiles directory directory')
    (wellNamed : WellNamed codec directory) :
    WellNamed codec directory' := by
  intro name bytes found isWal
  rw [same name isWal] at found
  exact wellNamed name bytes found isWal

theorem SameWalFiles.stored
    (same : SameWalFiles directory directory')
    (checkpointId : UInt64) :
    stored codec directory' checkpointId =
      stored codec directory checkpointId := by
  rw [FileCheckpointWal.stored, FileCheckpointWal.stored,
    same (entryPath checkpointId) rfl]

/-- Writing an entry either stores it or leaves all entry files as they are. -/
inductive PersistKind
    (codec : EntryCodec)
    (directory : Directory)
    (entry : CheckpointWalEntry)
    (fault : Option PersistFault) : Prop where
  | written
      (directory' : Directory)
      (writable : Writable codec entry fault)
      (result : persistEntry codec directory entry fault = (directory', .ok ()))
      (wellNamed : WellNamed codec directory → WellNamed codec directory')
      (storedAfter :
        ∀ checkpointId,
          stored codec directory' checkpointId =
            if checkpointId = entry.checkpointId then
              some entry
            else
              stored codec directory checkpointId)
  | failed
      (directory' : Directory)
      (error : WalIoError)
      (notWritable : ¬Writable codec entry fault)
      (result :
        persistEntry codec directory entry fault = (directory', .error error))
      (same : SameWalFiles directory directory')

/-- Erasing the temporary file undoes its write, as far as entries are concerned. -/
theorem sameWalFiles_renamed
    (directory : Directory)
    (checkpointId : UInt64)
    (bytes : List UInt8) :
    SameWalFiles directory
      ((directory.insert (tmpPath checkpointId) bytes).erase
        (tmpPath checkpointId)) := by
  intro name isWal
  rw [Finmap.lookup_erase_ne]
  · exact sameWalFiles_tmp checkpointId bytes name isWal
  · rintro rfl
    exact tmpPath_extension_ne checkpointId isWal

/-- A file of an entry is loaded as the entry, and the others as they were. -/
theorem stored_insert
    {bytes : List UInt8}
    {entry : CheckpointWalEntry}
    (same : SameWalFiles directory directory')
    (decoded : codec.fromBytes bytes = some entry)
    (checkpointId : UInt64) :
    stored codec (directory'.insert (entryPath entry.checkpointId) bytes)
        checkpointId =
      if checkpointId = entry.checkpointId then
        some entry
      else
        stored codec directory checkpointId := by
  by_cases sameId : checkpointId = entry.checkpointId
  · rw [if_pos sameId, sameId, stored, Finmap.lookup_insert, Option.bind_some,
      decoded]
  · rw [if_neg sameId, stored,
      Finmap.lookup_insert_of_ne _ (entryPath_injective.ne sameId), ← stored,
      same.stored]

/-- A file of an entry is named after it. -/
theorem wellNamed_insert
    {bytes : List UInt8}
    {entry : CheckpointWalEntry}
    (decoded : codec.fromBytes bytes = some entry)
    (wellNamed : WellNamed codec directory) :
    WellNamed codec
      (directory.insert (entryPath entry.checkpointId) bytes) := by
  intro name content found isWal
  obtain ⟨rfl, rfl⟩ | ⟨_, found⟩ := of_lookup_insert found
  · exact ⟨entry, decoded, rfl⟩
  · exact wellNamed name content found isWal

theorem persist_kind
    (codec : EntryCodec)
    (directory : Directory)
    (entry : CheckpointWalEntry)
    (fault : Option PersistFault) :
    PersistKind codec directory entry fault := by
  cases encoded : codec.toAllocvec entry with
  | none =>
      refine
        .failed directory (.serialization entry.checkpointId) ?_
          (by simp only [persistEntry, encoded]) (fun _ _ => rfl)
      rintro ⟨_, isSome⟩
      rw [encoded] at isSome
      cases isSome
  | some bytes =>
      have notWritable {kind : PersistFault} :
          ¬Writable codec entry (some kind) := by
        rintro ⟨noFault, _⟩
        cases noFault
      cases fault with
      | some kind =>
          cases kind with
          | write left =>
              cases left with
              | none =>
                  exact
                    .failed _ _ notWritable
                      (by simp only [persistEntry, encoded]; rfl)
                      (fun _ _ => rfl)
              | some left =>
                  exact
                    .failed _ _ notWritable
                      (by simp only [persistEntry, encoded]; rfl)
                      (sameWalFiles_tmp entry.checkpointId left)
          | openFile | syncAll | rename =>
              exact
                .failed _ _ notWritable
                  (by simp only [persistEntry, encoded]; rfl)
                  (sameWalFiles_tmp entry.checkpointId bytes)
      | none =>
          have renamed :=
            sameWalFiles_renamed directory entry.checkpointId bytes
          have decoded := codec.fromBytes_toAllocvec encoded
          refine
            .written _ ⟨rfl, by rw [encoded]; rfl⟩
              (by simp only [persistEntry, encoded]; rfl) ?_ ?_
          · intro wellNamed
            exact wellNamed_insert decoded (renamed.wellNamed wellNamed)
          · intro checkpointId
            exact stored_insert renamed decoded checkpointId

/-- A call for a phase is performed in memory and then written. -/
theorem step_phase
    (wal : FileCheckpointWal)
    (call : WalCall)
    (fault : Option PersistFault) :
    wal.step codec (.phase call fault) =
      persistApplied codec wal.walDir call.checkpointId fault
        (wal.inner.step call).1 (wal.inner.step call).2 := by
  cases call with
  | prepare checkpointId snapshot nowMs =>
      rfl
  | inserted checkpointId smtRoot smtDataPath nowMs =>
      rfl
  | commit checkpointId nowMs =>
      rfl

/-- The entry that a call has to write, if any, can be written. -/
def Persists (codec : EntryCodec) (wal : FileCheckpointWal) : FileWalCall → Prop
  | .phase call fault =>
      ∀ entry,
        Advances (wal.inner.get call.checkpointId) call entry →
        Writable codec entry fault
  | .removeCommitted .. => True

/-- What a call is expected to leave behind. -/
structure Durable
    (codec : EntryCodec)
    (wal : FileCheckpointWal)
    (call : FileWalCall) : Prop where
  reloads : Reloads codec (wal.step codec call).1
  notAdvanced :
    ∀ checkpointId,
      (wal.step codec call).2 = .failed (.io checkpointId) →
      ∀ other,
        (wal.step codec call).1.inner.phaseOf other = wal.inner.phaseOf other
  durable :
    ∀ phaseCall fault result,
      call = .phase phaseCall fault →
      (wal.step codec call).2 = .done result →
      ∀ names,
        ListsFiles (wal.step codec call).1.walDir names →
        ∃ reopened,
          openWal codec (wal.step codec call).1.walDir names = .ok reopened ∧
            reopened.inner.phaseOf phaseCall.checkpointId = some phaseCall.phase

/-- The log reloads when the directory is well named and stores the entries. -/
theorem Synced.reloads (synced : Synced codec wal) : Reloads codec wal :=
  (reloads_iff synced.wellNamed).mpr synced.same

/-- A call is durable when it leaves the log synchronised in the expected phase. -/
theorem durable_of_synced
    {call : FileWalCall}
    (synced : Synced codec (wal.step codec call).1)
    (notAdvanced :
      ∀ checkpointId,
        (wal.step codec call).2 = .failed (.io checkpointId) →
        (wal.step codec call).1.inner = wal.inner)
    (reached :
      ∀ phaseCall fault result,
        call = .phase phaseCall fault →
        (wal.step codec call).2 = .done result →
        (wal.step codec call).1.inner.phaseOf phaseCall.checkpointId =
          some phaseCall.phase) :
    Durable codec wal call where
  reloads := synced.reloads
  notAdvanced checkpointId failed other := by
    rw [notAdvanced checkpointId failed]
  durable phaseCall fault result isPhase isDone names lists :=
    ⟨_, synced.reloads names lists, reached phaseCall fault result isPhase isDone⟩

/-- A call for a phase that has nothing to write leaves everything as it is. -/
theorem durable_of_unapplied
    (synced : Synced codec wal)
    {call : WalCall}
    (fault : Option PersistFault)
    (unapplied :
      (wal.inner.step call = (wal.inner, .ok .alreadyInState) ∧
          wal.inner.phaseOf call.checkpointId = some call.phase) ∨
        ∃ error, wal.inner.step call = (wal.inner, .error error)) :
    Durable codec wal (.phase call fault) ∧
      Persists codec wal (.phase call fault) := by
  have nothing (entry : CheckpointWalEntry) :
      ¬Advances (wal.inner.get call.checkpointId) call entry := by
    intro advances
    have applied := congrArg Prod.snd (step_of_advances advances)
    obtain ⟨already, _⟩ | ⟨error, refused⟩ := unapplied
    · rw [already] at applied
      cases applied
    · rw [refused] at applied
      cases applied
  refine ⟨?_, fun entry advances => absurd advances (nothing entry)⟩
  obtain ⟨already, inPhase⟩ | ⟨error, refused⟩ := unapplied
  · have stepped :
        wal.step codec (.phase call fault) = (wal, .done .alreadyInState) := by
      rw [step_phase, already]
      rfl
    refine durable_of_synced ?_ ?_ ?_
    · rwa [stepped]
    · intro checkpointId _
      rw [stepped]
    · rintro phaseCall fault' result same _
      cases same
      rw [stepped]
      exact inPhase
  · have stepped :
        wal.step codec (.phase call fault) =
          (wal, .failed (.logic error)) := by
      rw [step_phase, refused]
      rfl
    refine durable_of_synced ?_ ?_ ?_
    · rwa [stepped]
    · intro checkpointId _
      rw [stepped]
    · rintro phaseCall fault' result _ isDone
      rw [stepped] at isDone
      cases isDone

/-- An entry that a call writes is not the one it was. -/
theorem ne_of_advances
    {before : Option CheckpointWalEntry}
    {call : WalCall}
    (advances : Advances before call entry) :
    before ≠ some entry := by
  have changed :
      before.map CheckpointWalEntry.phase ≠ some entry.phase := by
    cases advances with
    | prepare =>
        simp
    | inserted entry isPreparing =>
        simp [isPreparing]
    | commit entry isInserted =>
        simp [isInserted]
  exact fun same => changed (congrArg (Option.map CheckpointWalEntry.phase) same)

theorem checkpointId_of_advances
    {before : Option CheckpointWalEntry}
    {call : WalCall}
    (named :
      ∀ entry, before = some entry → entry.checkpointId = call.checkpointId)
    (advances : Advances before call entry) :
    entry.checkpointId = call.checkpointId := by
  cases advances with
  | prepare =>
      rfl
  | inserted entry =>
      exact named entry rfl
  | commit entry =>
      exact named entry rfl

/-- The entry applied in memory is written to its file, or the file is left behind. -/
theorem step_applied
    (codec : EntryCodec)
    {call : WalCall}
    (advances : Advances (wal.inner.get call.checkpointId) call entry)
    (fault : Option PersistFault) :
    wal.step codec (.phase call fault) =
      ({ inner := wal.inner.insert call.checkpointId entry
         walDir := (persistEntry codec wal.walDir entry fault).1 },
        match (persistEntry codec wal.walDir entry fault).2 with
        | .ok () => .done .applied
        | .error error => .failed error) := by
  rw [step_phase, step_of_advances advances, persistApplied]
  simp only [get_insert]
  rcases persistEntry codec wal.walDir entry fault with ⟨walDir, error | _⟩
  · rfl
  · rfl

/-- A call with an entry to write is durable exactly when it can be written. -/
theorem durable_iff_of_advances
    (synced : Synced codec wal)
    {call : WalCall}
    (advances : Advances (wal.inner.get call.checkpointId) call entry)
    (fault : Option PersistFault) :
    Durable codec wal (.phase call fault) ↔ Writable codec entry fault := by
  have stepped := step_applied codec advances fault
  cases persist_kind codec wal.walDir entry fault with
  | written directory' writable result wellNamed storedAfter =>
      rw [result] at stepped
      refine iff_of_true ?_ writable
      have sameId : entry.checkpointId = call.checkpointId := by
        apply checkpointId_of_advances _ advances
        intro before present
        rw [synced.same] at present
        exact checkpointId_of_stored synced.wellNamed present
      refine durable_of_synced ?_ ?_ ?_
      · rw [stepped]
        refine ⟨wellNamed synced.wellNamed, fun checkpointId => ?_⟩
        rw [storedAfter, sameId]
        by_cases same : checkpointId = call.checkpointId
        · rw [if_pos same, same]
          exact get_insert _
        · rw [if_neg same, ← synced.same]
          exact get_insert_of_ne same
      · intro checkpointId failed
        rw [stepped] at failed
        cases failed
      · rintro phaseCall fault' answer same _
        cases same
        rw [stepped, phaseOf, get_insert, Option.map_some, advances.moves.2]
  | failed directory' error notWritable result same =>
      rw [result] at stepped
      refine iff_of_false ?_ notWritable
      intro durable
      have reloads := durable.reloads
      rw [stepped, reloads_iff (same.wellNamed synced.wellNamed)] at reloads
      have atCall := reloads call.checkpointId
      rw [get_insert, same.stored, ← synced.same] at atCall
      exact ne_of_advances advances atCall.symm

theorem get_remove (inner : CheckpointWal) (checkpointId other : UInt64) :
    (inner.remove checkpointId).get other =
      if other = checkpointId then none else inner.get other := by
  by_cases same : other = checkpointId
  · rw [if_pos same, same]
    exact Finmap.lookup_erase _ _
  · rw [if_neg same]
    exact Finmap.lookup_erase_ne same

theorem stored_erase (directory : Directory) (checkpointId other : UInt64) :
    stored codec (directory.erase (entryPath checkpointId)) other =
      if other = checkpointId then none else stored codec directory other := by
  by_cases same : other = checkpointId
  · rw [if_pos same, same, stored, Finmap.lookup_erase, Option.bind_none]
  · rw [if_neg same, stored,
      Finmap.lookup_erase_ne (entryPath_injective.ne same), stored]

/-- The file of a committed entry is there. -/
theorem isSome_lookup_of_isCommitted
    (synced : Synced codec wal)
    {checkpointId : UInt64}
    (committed : wal.isCommitted checkpointId = true) :
    (wal.walDir.lookup (entryPath checkpointId)).isSome := by
  cases present : wal.walDir.lookup (entryPath checkpointId) with
  | some bytes =>
      rfl
  | none =>
      have absent := synced.same checkpointId
      rw [stored, present, Option.bind_none] at absent
      rw [isCommitted, CheckpointWal.isCommitted, absent] at committed
      cases committed

/-- Removing a committed entry removes its file with it, or leaves both. -/
theorem durable_removeCommitted
    (synced : Synced codec wal)
    (checkpointId : UInt64)
    (removeFails : Bool) :
    Durable codec wal (.removeCommitted checkpointId removeFails) := by
  have kept {answer : FileWalAnswer}
      (stepped :
        wal.step codec (.removeCommitted checkpointId removeFails) =
          (wal, answer)) :
      Durable codec wal (.removeCommitted checkpointId removeFails) := by
    refine durable_of_synced (by rwa [stepped]) (by rw [stepped]; simp) ?_
    rintro _ _ _ isPhase
    cases isPhase
  cases committed : wal.isCommitted checkpointId with
  | false =>
      apply kept
      simp only [step, removeCommitted, committed, Bool.not_false, if_true]
      rfl
  | true =>
      have isStored := isSome_lookup_of_isCommitted synced committed
      cases removeFails with
      | true =>
          apply kept
          simp only [step, removeCommitted, committed, isStored, Bool.not_true,
            Bool.false_eq_true, if_true, if_false]
          rfl
      | false =>
          have stepped :
              wal.step codec (.removeCommitted checkpointId false) =
                ({ inner := wal.inner.remove checkpointId
                   walDir := wal.walDir.erase (entryPath checkpointId) },
                  .removed) := by
            simp only [step, removeCommitted, committed, isStored, Bool.not_true,
              Bool.false_eq_true, if_true, if_false]
          refine durable_of_synced ?_ ?_ ?_
          · rw [stepped]
            refine ⟨?_, fun other => ?_⟩
            · intro name bytes found isWal
              exact
                synced.wellNamed name bytes (lookup_of_lookup_erase found) isWal
            · rw [get_remove, stored_erase, synced.same]
          · intro _ failed
            rw [stepped] at failed
            cases failed
          · rintro _ _ _ isPhase
            cases isPhase

theorem durable_iff_persists
    (synced : Synced codec wal)
    (call : FileWalCall) :
    Durable codec wal call ↔ Persists codec wal call := by
  cases call with
  | removeCommitted checkpointId removeFails =>
      exact
        iff_of_true (durable_removeCommitted synced checkpointId removeFails)
          trivial
  | phase call fault =>
      cases wal.inner.step_kind call with
      | applied entry advances result =>
          rw [durable_iff_of_advances synced advances]
          refine ⟨fun writable entry' advances' => ?_, fun all => all entry advances⟩
          have sameEntry :=
            congrArg (·.1.get call.checkpointId)
              ((step_of_advances advances).symm.trans (step_of_advances advances'))
          simp only [get_insert, Option.some_inj] at sameEntry
          rwa [← sameEntry]
      | alreadyInState entry present samePhase result =>
          have both :=
            durable_of_unapplied synced fault
              (.inl ⟨result, by rw [phaseOf, present, ← samePhase]; rfl⟩)
          exact iff_of_true both.1 both.2
      | refused error result =>
          have both := durable_of_unapplied synced fault (.inr ⟨error, result⟩)
          exact iff_of_true both.1 both.2

/-!
## Sequences of calls
-/

theorem wellNamed_persistApplied
    {walDir : Directory}
    (wellNamed : WellNamed codec walDir)
    (checkpointId : UInt64)
    (fault : Option PersistFault)
    (inner : CheckpointWal)
    (result : Except WalError WalResult) :
    WellNamed codec
      (persistApplied codec walDir checkpointId fault inner result).1.walDir := by
  unfold persistApplied
  cases result with
  | error error =>
      exact wellNamed
  | ok result =>
      cases result with
      | alreadyInState =>
          exact wellNamed
      | applied =>
          cases inner.get checkpointId with
          | none =>
              exact wellNamed
          | some entry =>
              cases persist_kind codec walDir entry fault with
              | written directory' _ result kept _ =>
                  simp only [result]
                  exact kept wellNamed
              | failed directory' error _ result same =>
                  simp only [result]
                  exact same.wellNamed wellNamed

theorem wellNamed_step
    (wellNamed : WellNamed codec wal.walDir)
    (call : FileWalCall) :
    WellNamed codec (wal.step codec call).1.walDir := by
  cases call with
  | phase call fault =>
      rw [step_phase]
      exact wellNamed_persistApplied wellNamed _ _ _ _
  | removeCommitted checkpointId removeFails =>
      simp only [step, removeCommitted]
      split
      · exact wellNamed
      · split
        · split
          · exact wellNamed
          · intro name bytes found isWal
            exact wellNamed name bytes (lookup_of_lookup_erase found) isWal
        · exact wellNamed

theorem Durable.synced
    {call : FileWalCall}
    (durable : Durable codec wal call)
    (synced : Synced codec wal) :
    Synced codec (wal.step codec call).1 :=
  have wellNamed := wellNamed_step synced.wellNamed call
  ⟨wellNamed, (reloads_iff wellNamed).mp durable.reloads⟩

/-- A log as it is opened: its memory is what its directory stores. -/
structure OpenedWal (codec : EntryCodec) where
  wal : FileCheckpointWal
  synced : Synced codec wal

/-- The log of a new directory. -/
def created (codec : EntryCodec) : OpenedWal codec where
  wal := { inner := new, walDir := ∅ }
  synced := {
    wellNamed := by
      intro name bytes found
      rw [Finmap.lookup_empty] at found
      cases found
    same := by
      intro checkpointId
      rw [get_new, stored, Finmap.lookup_empty, Option.bind_none]
  }

/-- A directory that the log has written opens. -/
theorem openWal_opened
    (wellNamed : WellNamed codec directory)
    {names : List FileName}
    (lists : ListsFiles directory names) :
    ∃ opened : OpenedWal codec,
      opened.wal.walDir = directory ∧
        openWal codec directory names = .ok opened.wal := by
  obtain ⟨inner, loaded, same⟩ := loadAll_spec wellNamed lists
  exact
    ⟨⟨⟨inner, directory⟩, ⟨wellNamed, same⟩⟩, rfl,
      by rw [openWal, loaded]; rfl⟩

/-- A call repeated after its entry was applied writes nothing, written or not. -/
theorem step_retry
    {call : WalCall}
    (advances : Advances (wal.inner.get call.checkpointId) call entry)
    (fault fault' : Option PersistFault) :
    (wal.step codec (.phase call fault)).1.step codec (.phase call fault') =
      ((wal.step codec (.phase call fault)).1, .done .alreadyInState) := by
  rw [step_applied codec advances, step_phase,
    step_of_samePhase (get_insert _) advances.moves.2]
  rfl

/--
From every opened log, the files hold what the memory holds after each call, and
a failed call has not moved its entry, exactly when every entry that a call has
to write is written.
-/
theorem fileWal_durable_iff
    (codec : EntryCodec)
    (opened : OpenedWal codec)
    (calls : List FileWalCall) :
    EveryStep (step codec) (Durable codec) opened.wal calls ↔
      EveryStep (step codec) (Persists codec) opened.wal calls :=
  everyStep_iff_of_invariant
    (fun wal call (synced : Synced codec wal) => durable_iff_persists synced call)
    (fun _ _ synced durable => durable.synced synced)
    opened.synced calls

/-- A first entry whose file cannot be written is in memory only. -/
theorem fileWal_not_durable :
    ¬∃ codec : EntryCodec,
      EveryStep (step codec) (Durable codec) (created codec).wal [
        .phase
          (.prepare 1
            ⟨1, Bytes32.zero, 0, Bytes32.zero, Bytes32.zero, Bytes32.zero, 0⟩ 1000)
          (some (.write none))] := by
  rintro ⟨codec, durable, _⟩
  have persists :=
    (durable_iff_persists (created codec).synced _).mp durable
  have writable := persists _ (.prepare 1 _ 1000)
  cases writable.1

end FileCheckpointWal

end ScalarCore
