import ScalarCore.HeartbeatService
import ScalarCore.NodeState
import ScalarCore.WalRecovery

namespace ScalarCore

/-!
# The loop of a node

At every tick of its timer a node sends a heartbeat, and at the last sub-epoch of
an epoch it writes a checkpoint.  A process may end anywhere, also between the
phases of a checkpoint.  The next one opens the same directory and counts from
the first epoch again.
-/

open CheckpointWal FileCheckpointWal MachineInt StateMachine

/-- The flags of the command line that the loop reads. -/
structure RunFlags where
  fastMode : Bool
  crashMode : Bool
  crashAfterPrepare : Bool
  deriving DecidableEq

namespace RunFlags

/-- `hbs_per_subepoch`. -/
def hbsPerSubepoch (flags : RunFlags) : UInt32 :=
  if flags.crashMode then
    2
  else if flags.fastMode then
    5
  else
    180

/-- `proof_delay`. -/
def proofDelay (flags : RunFlags) : UInt64 :=
  if flags.crashMode then
    100
  else if flags.fastMode then
    200
  else
    500

/-- The heartbeats of an epoch. -/
def hbsPerEpoch (flags : RunFlags) : Nat :=
  24 * flags.hbsPerSubepoch.toNat

end RunFlags

/-- The epoch that a heartbeat ends: it is the last of sub-epoch 23. -/
def boundaryEpoch (flags : RunFlags) (hbCounter : UInt32) : Option UInt64 :=
  if hbCounter % flags.hbsPerSubepoch = 0 then
    let subepochNum := hbCounter / flags.hbsPerSubepoch
    let localSub := (subepochNum - 1) % 24
    let epochId := (subepochNum - 1) / 24
    if localSub = 23 then some epochId.toUInt64 else none
  else
    none

/-- `snap`, the snapshot of a checkpoint. -/
def boundarySnapshot (epochId : UInt64) (hbCounter : UInt32) : CheckpointSnapshot where
  epochId
  imtFrontierRoot := Bytes32.zero
  imtCount := hbCounter.toUInt64
  utxoSetRoot := Bytes32.zero
  nullifierActiveRoot := Bytes32.zero
  nullifierArchivedRoot := Bytes32.zero
  totalSupplySscl := 0

/-- What a tick meets: the clocks, the files, and whether the process is killed. -/
structure TickInput where
  timestamp : UInt32
  nowMs : UInt64
  prepareFault : Option PersistFault
  insertedFault : Option PersistFault
  commitFault : Option PersistFault
  killedAfter : Option Nat

/-- The calls of the log at a boundary, and whether the process survives them. -/
def boundaryCalls
    (flags : RunFlags)
    (epochId : UInt64)
    (hbCounter : UInt32)
    (input : TickInput) : List (WalCall × Option PersistFault) × Bool :=
  let snap := boundarySnapshot epochId hbCounter
  let prepare := (WalCall.prepare epochId snap input.nowMs, input.prepareFault)
  if flags.crashAfterPrepare then
    ([prepare], false)
  else
    match checkedAdd input.nowMs flags.proofDelay with
    | none => ([prepare], false)
    | some laterMs =>
        ([prepare,
          (.inserted epochId Bytes32.zero "" laterMs, input.insertedFault),
          (.commit epochId laterMs, input.commitFault)],
          true)

/-- The calls of the log at a tick, and whether the process survives them. -/
def tickCalls
    (flags : RunFlags)
    (hbCounter : UInt32)
    (input : TickInput) : List (WalCall × Option PersistFault) × Bool :=
  match boundaryEpoch flags hbCounter with
  | none => ([], true)
  | some epochId => boundaryCalls flags epochId hbCounter input

/-- Make calls of the log, whatever they answer. -/
def performCalls
    (codec : EntryCodec)
    (wal : FileCheckpointWal)
    (calls : List (WalCall × Option PersistFault)) : FileCheckpointWal :=
  run (FileCheckpointWal.step codec) wal (calls.map fun call => .phase call.1 call.2)

/-- What a process keeps between ticks. -/
structure CoreNode where
  flags : RunFlags
  stateMachine : NodeStateMachine
  wal : FileCheckpointWal
  hbService : HeartbeatService
  hbCounter : UInt32

/-- A node that is running, or what a process has left on disk. -/
inductive NodeProcess where
  | running (node : CoreNode)
  | stopped (walDir : Directory)

/-- A process is started, which ends the one before it, or the timer ticks. -/
inductive NodeEvent where
  | start (flags : RunFlags) (names : List FileName)
  | tick (input : TickInput)

namespace NodeProcess

/-- The directory of the log. -/
def walDir : NodeProcess → Directory
  | .running node => node.wal.walDir
  | .stopped walDir => walDir

section Loop

variable
  (codec : EntryCodec)
  (blake3 : List UInt8 → Bytes32)
  (fullNodeId nodeKey : Bytes32)

/-- The start of `main`; it panics where the log cannot be opened. -/
def start
    (walDir : Directory)
    (flags : RunFlags)
    (names : List FileName) : NodeProcess :=
  match openWal codec walDir names with
  | .error _ => .stopped walDir
  | .ok wal =>
      .running {
        flags
        stateMachine := .new
        wal
        hbService := .new blake3 fullNodeId nodeKey
        hbCounter := 0
      }

/-- A tick of the loop; it panics where a counter overflows. -/
def tick (node : CoreNode) (input : TickInput) : NodeProcess :=
  match checkedAddU32 node.hbCounter 1 with
  | none => .stopped node.wal.walDir
  | some hbCounter =>
      let stateMachine := node.stateMachine.updateNetworkSensor ⟨true, true⟩
      match node.hbService.produceHeartbeat blake3 input.timestamp with
      | none => .stopped node.wal.walDir
      | some (_, hbService) =>
          let (calls, survives) := tickCalls node.flags hbCounter input
          match input.killedAfter with
          | some count => .stopped (performCalls codec node.wal (calls.take count)).walDir
          | none =>
              let wal := performCalls codec node.wal calls
              if survives then
                .running { node with stateMachine, wal, hbService, hbCounter }
              else
                .stopped wal.walDir

/-- What an event does; without a process nothing ticks. -/
def step (process : NodeProcess) : NodeEvent → NodeProcess × Unit
  | .start flags names =>
      (start codec blake3 fullNodeId nodeKey process.walDir flags names, ())
  | .tick input =>
      match process with
      | .running node => (tick codec blake3 node input, ())
      | .stopped walDir => (.stopped walDir, ())

end Loop

end NodeProcess

/-!
## Boundaries
-/

/-- The sub-epochs of all modes have heartbeats. -/
theorem RunFlags.hbsPerSubepoch_cases (flags : RunFlags) :
    flags.hbsPerSubepoch = 2 ∨ flags.hbsPerSubepoch = 5 ∨ flags.hbsPerSubepoch = 180 := by
  rw [hbsPerSubepoch]
  cases flags.crashMode <;> cases flags.fastMode <;> simp

/-- The last heartbeats of the epochs, in numbers. -/
theorem boundary_arithmetic
    {count perSubepoch epoch : Nat}
    (positive : 0 < perSubepoch) :
    (count % perSubepoch = 0 ∧
        0 < count / perSubepoch ∧
        (count / perSubepoch - 1) % 24 = 23 ∧
        (count / perSubepoch - 1) / 24 = epoch) ↔
      count = 24 * perSubepoch * (epoch + 1) := by
  constructor
  · rintro ⟨whole, started, isLast, inEpoch⟩
    have subepochs : count / perSubepoch = 24 * (epoch + 1) := by omega
    calc count
      _ = perSubepoch * (count / perSubepoch) :=
        (Nat.mul_div_cancel' (Nat.dvd_of_mod_eq_zero whole)).symm
      _ = 24 * perSubepoch * (epoch + 1) := by rw [subepochs]; ring
  · rintro rfl
    have subepochs : 24 * perSubepoch * (epoch + 1) / perSubepoch = 24 * (epoch + 1) := by
      rw [show 24 * perSubepoch * (epoch + 1) = perSubepoch * (24 * (epoch + 1)) by ring]
      exact Nat.mul_div_cancel_left _ positive
    refine ⟨?_, ?_⟩
    · rw [show 24 * perSubepoch * (epoch + 1) = perSubepoch * (24 * (epoch + 1)) by ring]
      exact Nat.mul_mod_right _ _
    · rw [subepochs]
      omega

/-- A heartbeat ends an epoch when it is the last of its heartbeats. -/
theorem boundaryEpoch_eq_some_iff
    {flags : RunFlags}
    {hbCounter : UInt32}
    {epochId : UInt64} :
    boundaryEpoch flags hbCounter = some epochId ↔
      hbCounter.toNat = flags.hbsPerEpoch * (epochId.toNat + 1) := by
  have positive : 0 < flags.hbsPerSubepoch.toNat := by
    rcases flags.hbsPerSubepoch_cases with is | is | is <;> rw [is] <;> decide
  rw [RunFlags.hbsPerEpoch, ← boundary_arithmetic positive, boundaryEpoch]
  have whole :
      hbCounter % flags.hbsPerSubepoch = 0 ↔
        hbCounter.toNat % flags.hbsPerSubepoch.toNat = 0 := by
    rw [← UInt32.toNat_inj, UInt32.toNat_mod]
    rfl
  rw [← whole]
  have divided :
      (hbCounter / flags.hbsPerSubepoch).toNat =
        hbCounter.toNat / flags.hbsPerSubepoch.toNat :=
    UInt32.toNat_div _ _
  generalize hbCounter / flags.hbsPerSubepoch = subepochNum at divided
  rw [← divided]
  by_cases started : 0 < subepochNum.toNat
  · have before : (subepochNum - 1).toNat = subepochNum.toNat - 1 :=
      UInt32.toNat_sub_of_le _ _ (UInt32.le_iff_toNat_le.mpr started)
    have isLast : (subepochNum - 1) % 24 = 23 ↔ (subepochNum.toNat - 1) % 24 = 23 := by
      rw [← UInt32.toNat_inj, UInt32.toNat_mod, before]
      rfl
    have inEpoch :
        ((subepochNum - 1) / 24).toUInt64 = epochId ↔
          (subepochNum.toNat - 1) / 24 = epochId.toNat := by
      rw [← UInt64.toNat_inj, UInt32.toNat_toUInt64, UInt32.toNat_div, before]
      rfl
    simp only [isLast, Option.ite_none_right_eq_some, Option.some_inj, inEpoch, started,
      true_and]
  · have isZero : subepochNum = 0 := UInt32.toNat_inj.mp (Nat.eq_zero_of_not_pos started)
    subst isZero
    have notLast : ((0 : UInt32) - 1) % 24 ≠ 23 := by decide
    refine iff_of_false ?_ fun last => started last.2.1
    dsimp only
    rw [if_neg notLast, ite_self]
    exact nofun

/-- The snapshots of the epochs, in whatever mode they were taken. -/
def IsBoundarySnapshot (epochId : UInt64) (snapshot : CheckpointSnapshot) : Prop :=
  ∃ (flags : RunFlags) (hbCounter : UInt32),
    hbCounter.toNat = flags.hbsPerEpoch * (epochId.toNat + 1) ∧
      snapshot = boundarySnapshot epochId hbCounter

/-- What the calls of a tick bring is the snapshot of its epoch. -/
theorem brings_tickCalls
    (flags : RunFlags)
    (hbCounter : UInt32)
    (input : TickInput) :
    ∀ call ∈ (tickCalls flags hbCounter input).1, Brings IsBoundarySnapshot call.1 := by
  rw [tickCalls]
  cases isBoundary : boundaryEpoch flags hbCounter with
  | none =>
      exact nofun
  | some epochId =>
      have taken :
          IsBoundarySnapshot epochId (boundarySnapshot epochId hbCounter) :=
        ⟨flags, hbCounter, boundaryEpoch_eq_some_iff.mp isBoundary, rfl⟩
      dsimp only [boundaryCalls]
      cases flags.crashAfterPrepare with
      | true =>
          exact List.forall_mem_singleton.mpr taken
      | false =>
          cases checkedAdd input.nowMs flags.proofDelay with
          | none =>
              exact List.forall_mem_singleton.mpr taken
          | some laterMs =>
              dsimp only
              rw [if_neg Bool.false_ne_true, List.forall_mem_cons, List.forall_mem_cons,
                List.forall_mem_singleton]
              exact ⟨taken, trivial, trivial⟩

namespace NodeProcess

variable
  {codec : EntryCodec}
  {blake3 : List UInt8 → Bytes32}
  {fullNodeId nodeKey : Bytes32}

/-!
## Any events
-/

/-- The directory holds checkpoints of epochs, and is not ahead of a running node. -/
def Sound (codec : EntryCodec) : NodeProcess → Prop
  | .running node => Behind codec IsBoundarySnapshot node.wal
  | .stopped walDir => StoresAllowed codec IsBoundarySnapshot walDir

theorem Sound.storesAllowed
    {process : NodeProcess}
    (sound : process.Sound codec) :
    StoresAllowed codec IsBoundarySnapshot process.walDir := by
  cases process with
  | running node =>
      exact Behind.storesAllowed sound
  | stopped walDir =>
      exact sound

/-- A start is given the files of the directory, in some order. -/
def Listed (process : NodeProcess) : NodeEvent → Prop
  | .start _ names => ListsFiles process.walDir names
  | .tick _ => True

/-- A directory of checkpoints opens. -/
theorem start_spec
    (codec : EntryCodec)
    (blake3 : List UInt8 → Bytes32)
    (fullNodeId nodeKey : Bytes32)
    {walDir : Directory}
    (stores : StoresAllowed codec IsBoundarySnapshot walDir)
    {names : List FileName}
    (lists : ListsFiles walDir names)
    (flags : RunFlags) :
    ∃ wal : FileCheckpointWal,
      wal.walDir = walDir ∧
        Synced codec wal ∧
        start codec blake3 fullNodeId nodeKey walDir flags names =
          .running {
            flags
            stateMachine := .new
            wal
            hbService := .new blake3 fullNodeId nodeKey
            hbCounter := 0
          } := by
  obtain ⟨opened, sameDir, isOpened⟩ := openWal_opened stores.wellNamed lists
  exact ⟨opened.wal, sameDir, opened.synced, by rw [start, isOpened]⟩

/-- What an event may do to the directory, and that a start succeeds. -/
structure Recovers
    (codec : EntryCodec)
    (blake3 : List UInt8 → Bytes32)
    (fullNodeId nodeKey : Bytes32)
    (process : NodeProcess)
    (event : NodeEvent) : Prop where
  onward :
    Onward codec process.walDir
      (step codec blake3 fullNodeId nodeKey process event).1.walDir
  stored :
    ∀ checkpointId entry,
      FileCheckpointWal.stored codec
          (step codec blake3 fullNodeId nodeKey process event).1.walDir checkpointId =
        some entry →
      IsBoundarySnapshot checkpointId entry.snapshot
  starts :
    ∀ flags names,
      event = .start flags names →
      ∃ node,
        (step codec blake3 fullNodeId nodeKey process event).1 = .running node ∧
          node.hbCounter = 0 ∧
          Reloads codec node.wal

/-- The calls that are made before a process ends leave its directory sound. -/
theorem sound_performCalls
    {wal : FileCheckpointWal}
    (behind : Behind codec IsBoundarySnapshot wal)
    {calls : List (WalCall × Option PersistFault)}
    (brings : ∀ call ∈ calls, Brings IsBoundarySnapshot call.1) :
    Behind codec IsBoundarySnapshot (performCalls codec wal calls) ∧
      Onward codec wal.walDir (performCalls codec wal calls).walDir :=
  behind.run_phases calls brings

theorem tick_sound
    (blake3 : List UInt8 → Bytes32)
    {node : CoreNode}
    (behind : Behind codec IsBoundarySnapshot node.wal)
    (input : TickInput) :
    (tick codec blake3 node input).Sound codec ∧
      Onward codec node.wal.walDir (tick codec blake3 node input).walDir := by
  have ended :
      (NodeProcess.stopped node.wal.walDir).Sound codec ∧
        Onward codec node.wal.walDir (NodeProcess.stopped node.wal.walDir).walDir :=
    ⟨behind.storesAllowed, .refl _⟩
  rw [tick]
  cases checkedAddU32 node.hbCounter 1 with
  | none =>
      exact ended
  | some hbCounter =>
      dsimp only
      cases node.hbService.produceHeartbeat blake3 input.timestamp with
      | none =>
          exact ended
      | some produced =>
          have brings := brings_tickCalls node.flags hbCounter input
          dsimp only
          cases input.killedAfter with
          | some count =>
              obtain ⟨behind', onward⟩ :=
                sound_performCalls behind fun call isCall =>
                  brings call (List.mem_of_mem_take isCall)
              exact ⟨behind'.storesAllowed, onward⟩
          | none =>
              obtain ⟨behind', onward⟩ := sound_performCalls behind brings
              dsimp only
              cases (tickCalls node.flags hbCounter input).2 with
              | true =>
                  exact ⟨behind', onward⟩
              | false =>
                  exact ⟨behind'.storesAllowed, onward⟩

/-- An event keeps a node sound. -/
theorem step_sound
    {process : NodeProcess}
    (sound : process.Sound codec)
    {event : NodeEvent}
    (listed : process.Listed event) :
    (step codec blake3 fullNodeId nodeKey process event).1.Sound codec ∧
      Recovers codec blake3 fullNodeId nodeKey process event := by
  cases event with
  | start flags names =>
      obtain ⟨wal, sameDir, synced, started⟩ :=
        start_spec codec blake3 fullNodeId nodeKey sound.storesAllowed listed flags
      have stores : StoresAllowed codec IsBoundarySnapshot wal.walDir := by
        rw [sameDir]
        exact sound.storesAllowed
      have behind := synced.behind stores
      have stepped :
          (step codec blake3 fullNodeId nodeKey process (.start flags names)).1 = _ :=
        started
      refine ⟨by rw [stepped]; exact behind, ?_, ?_, ?_⟩
      · rw [stepped]
        change Onward codec process.walDir wal.walDir
        rw [sameDir]
        exact .refl _
      · rw [stepped]
        exact stores.allowed
      · rintro _ _ _
        exact ⟨_, stepped, rfl, synced.reloads⟩
  | tick input =>
      cases process with
      | running node =>
          obtain ⟨sound', onward⟩ := tick_sound blake3 sound input
          exact ⟨sound', onward, sound'.storesAllowed.allowed, nofun⟩
      | stopped walDir =>
          exact ⟨sound, .refl _, StoresAllowed.allowed sound, nofun⟩

/--
Whatever happens to the processes of a node, a stored checkpoint holds the snapshot
of its epoch, only moves on to later phases, and the next process opens it.
-/
theorem node_recovers
    (codec : EntryCodec)
    (blake3 : List UInt8 → Bytes32)
    (fullNodeId nodeKey : Bytes32)
    {walDir : Directory}
    (stores : StoresAllowed codec IsBoundarySnapshot walDir)
    {events : List NodeEvent}
    (listed :
      EveryStep (step codec blake3 fullNodeId nodeKey) Listed (.stopped walDir) events) :
    EveryStep (step codec blake3 fullNodeId nodeKey)
      (Recovers codec blake3 fullNodeId nodeKey) (.stopped walDir) events :=
  listed.of_invariant (fun _ _ sound listed => step_sound sound listed) stores

/-- No files are those of entries. -/
theorem storesAllowed_empty (codec : EntryCodec) :
    StoresAllowed codec IsBoundarySnapshot ∅ where
  wellNamed := (created codec).synced.wellNamed
  allowed checkpointId entry isStored := by
    rw [FileCheckpointWal.stored, Finmap.lookup_empty, Option.bind_none] at isStored
    cases isStored

/-- A process from its start to its last tick. -/
def life
    (flags : RunFlags)
    (names : List FileName)
    (inputs : List TickInput) : List NodeEvent :=
  .start flags names :: inputs.map .tick

/-- Only the start of a process is given files. -/
theorem everyStep_life
    {process : NodeProcess}
    {names : List FileName}
    (lists : ListsFiles process.walDir names)
    (flags : RunFlags)
    (inputs : List TickInput) :
    EveryStep (step codec blake3 fullNodeId nodeKey) Listed process
      (life flags names inputs) := by
  have ticks (process : NodeProcess) :
      EveryStep (step codec blake3 fullNodeId nodeKey) Listed process
        (inputs.map .tick) := by
    induction inputs generalizing process with
    | nil =>
        exact everyStep_nil _ _ _
    | cons input rest inductionHypothesis =>
        exact ⟨trivial, inductionHypothesis _⟩
  exact ⟨lists, ticks _⟩

/-- Two heartbeats in a sub-epoch. -/
def shortMode : RunFlags :=
  ⟨false, true, false⟩

/-- A tick at which nothing fails. -/
def quietTick : TickInput :=
  ⟨0, 1000, none, none, none, none⟩

/-- A tick whose process is killed after two calls of the log. -/
def killedTick : TickInput :=
  ⟨0, 2000, none, none, none, some 2⟩

/--
A first process ends as it has prepared the first checkpoint, the second one before
it commits it, and a third one starts.
-/
def threeLives : List NodeEvent :=
  life { shortMode with crashAfterPrepare := true } [] (List.replicate 48 quietTick) ++
    life shortMode [entryPath 0] (List.replicate 47 quietTick ++ [killedTick]) ++
    life shortMode [entryPath 0] [quietTick]

/-- The checkpoint of the killed processes is kept. -/
theorem node_recovers_killed :
    EveryStep
        (step plainCodec (fun _ => Bytes32.zero) Bytes32.zero Bytes32.zero)
        (Recovers plainCodec (fun _ => Bytes32.zero) Bytes32.zero Bytes32.zero)
        (.stopped ∅) threeLives ∧
      (stored plainCodec
          (run (step plainCodec (fun _ => Bytes32.zero) Bytes32.zero Bytes32.zero)
            (.stopped ∅) threeLives).walDir 0).map CheckpointWalEntry.phase =
        some .inserted := by
  constructor
  · refine
      node_recovers plainCodec (fun _ => Bytes32.zero) Bytes32.zero Bytes32.zero
        (storesAllowed_empty plainCodec) ?_
    rw [threeLives, everyStep_append, everyStep_append]
    refine ⟨⟨?_, ?_⟩, ?_⟩
    · exact everyStep_life (by decide) _ _
    · exact everyStep_life (by decide +kernel) _ _
    · exact everyStep_life (by decide +kernel) _ _
  · decide +kernel

/-!
## Ticks without faults
-/

/-- Nothing fails at a tick, and the clock is not at its end. -/
structure Faultless (flags : RunFlags) (input : TickInput) : Prop where
  prepareFault : input.prepareFault = none
  insertedFault : input.insertedFault = none
  commitFault : input.commitFault = none
  killedAfter : input.killedAfter = none
  clock : input.nowMs.toNat + flags.proofDelay.toNat ≤ maxU64

/-- The state of a node that has been online and synchronised at each tick. -/
def stateAt : Nat → NodeState
  | 0 => .bootstrapping
  | 1 => .syncing
  | _ => .active

/-- An entry of the directory is committed. -/
def CommittedOn (codec : EntryCodec) (walDir : Directory) (epochId : UInt64) : Prop :=
  ∃ entry, stored codec walDir epochId = some entry ∧ entry.phase = .committed

/-- What a node that was started on a directory has reached after ticks. -/
structure Reached
    (codec : EntryCodec)
    (flags : RunFlags)
    (walDir : Directory)
    (ticks : Nat)
    (node : CoreNode) : Prop where
  flags_eq : node.flags = flags
  counted : node.hbCounter.toNat = ticks
  numbered : node.hbService.lastSeqNum = node.hbCounter
  epoch : node.hbService.currentEpoch = epochFromSeqNum node.hbCounter
  state : node.stateMachine.currentState = stateAt ticks
  synced : Synced codec node.wal
  committed :
    ∀ epochId,
      node.wal.isCommitted epochId = true ↔
        CommittedOn codec walDir epochId ∨ flags.hbsPerEpoch * (epochId.toNat + 1) ≤ ticks

/-- A call that can be written leaves the files as the memory. -/
theorem synced_phase
    {wal : FileCheckpointWal}
    (total : ∀ entry, (codec.toAllocvec entry).isSome)
    (synced : Synced codec wal)
    (call : WalCall) :
    Synced codec (wal.step codec (.phase call none)).1 := by
  have persists : Persists codec wal (.phase call none) :=
    fun entry _ => ⟨rfl, total entry⟩
  exact ((durable_iff_persists synced _).mpr persists).synced synced

/-- The calls of a boundary. -/
def commitCalls (epochId : UInt64) (hbCounter : UInt32) (nowMs laterMs : UInt64) : List WalCall :=
  [.prepare epochId (boundarySnapshot epochId hbCounter) nowMs,
    .inserted epochId Bytes32.zero "" laterMs,
    .commit epochId laterMs]

/-- The three calls commit an epoch, whatever was there of it, and no other one. -/
theorem isCommitted_commitCalls
    (inner : CheckpointWal)
    (epochId : UInt64)
    (hbCounter : UInt32)
    (nowMs laterMs : UInt64)
    (other : UInt64) :
    (run CheckpointWal.step inner
          (commitCalls epochId hbCounter nowMs laterMs)).isCommitted other = true ↔
      inner.isCommitted other = true ∨ other = epochId := by
  rw [commitCalls, run_cons, run_cons, run_cons, run_nil]
  by_cases same : other = epochId
  · subst same
    rw [isCommitted_iff, phaseOf_commit, phaseOf_inserted, phaseOf_prepare]
    refine iff_of_true ?_ (Or.inr rfl)
    cases (inner.phaseOf other).getD .preparing <;> rfl
  · rw [or_iff_left same, CheckpointWal.isCommitted, CheckpointWal.isCommitted,
      (lawfulStep _ (.commit epochId laterMs)).frame other same,
      (lawfulStep _ (.inserted epochId Bytes32.zero "" laterMs)).frame other same,
      (lawfulStep _ (.prepare epochId _ nowMs)).frame other same]

theorem inner_performCalls
    (wal : FileCheckpointWal)
    (calls : List (WalCall × Option PersistFault)) :
    (performCalls codec wal calls).inner =
      run CheckpointWal.step wal.inner (calls.map Prod.fst) := by
  induction calls generalizing wal with
  | nil =>
      rfl
  | cons call rest inductionHypothesis =>
      rw [List.map_cons, run_cons, ← inner_step_phase wal call.1 call.2]
      exact inductionHypothesis _

theorem synced_performCalls
    {wal : FileCheckpointWal}
    (total : ∀ entry, (codec.toAllocvec entry).isSome)
    (synced : Synced codec wal)
    {calls : List (WalCall × Option PersistFault)}
    (faultless : ∀ call ∈ calls, call.2 = none) :
    Synced codec (performCalls codec wal calls) := by
  induction calls generalizing wal with
  | nil =>
      exact synced
  | cons call rest inductionHypothesis =>
      rw [List.forall_mem_cons] at faultless
      obtain ⟨call, fault⟩ := call
      obtain rfl : fault = none := faultless.1
      exact inductionHypothesis (synced_phase total synced call) faultless.2

/-- A tick without faults commits the epoch that it ends, if any. -/
theorem tickCalls_faultless
    {flags : RunFlags}
    (goesOn : flags.crashAfterPrepare = false)
    {input : TickInput}
    (faultless : Faultless flags input)
    (hbCounter : UInt32) :
    (tickCalls flags hbCounter input).2 = true ∧
      (∀ call ∈ (tickCalls flags hbCounter input).1, call.2 = none) ∧
      ∀ (inner : CheckpointWal) (epochId : UInt64),
        (run CheckpointWal.step inner
              ((tickCalls flags hbCounter input).1.map Prod.fst)).isCommitted epochId = true ↔
          inner.isCommitted epochId = true ∨ boundaryEpoch flags hbCounter = some epochId := by
  rw [tickCalls]
  cases boundaryEpoch flags hbCounter with
  | none =>
      refine ⟨rfl, nofun, fun inner epochId => ?_⟩
      rw [or_iff_left nofun]
      rfl
  | some ended =>
      have later :
          checkedAdd input.nowMs flags.proofDelay = some (input.nowMs + flags.proofDelay) :=
        if_pos faultless.clock
      dsimp only [boundaryCalls]
      rw [if_neg (by rw [goesOn]; exact Bool.false_ne_true), later]
      refine ⟨rfl, ?_, fun inner epochId => ?_⟩
      · dsimp only
        rw [List.forall_mem_cons, List.forall_mem_cons, List.forall_mem_singleton]
        exact ⟨faultless.prepareFault, faultless.insertedFault, faultless.commitFault⟩
      · rw [Option.some_inj, eq_comm (a := ended)]
        exact isCommitted_commitCalls inner ended hbCounter input.nowMs _ epochId

/-- A heartbeat has the number and the epoch that follow. -/
theorem produceHeartbeat_numbers
    (blake3 : List UInt8 → Bytes32)
    {service : HeartbeatService}
    {seqNum : UInt32}
    (counted : checkedAddU32 service.lastSeqNum 1 = some seqNum)
    (timestamp : UInt32) :
    ∃ hb service',
      service.produceHeartbeat blake3 timestamp = some (hb, service') ∧
        service'.lastSeqNum = seqNum ∧
        service'.currentEpoch = epochFromSeqNum seqNum :=
  ⟨_, _, by rw [HeartbeatService.produceHeartbeat, counted]; rfl, rfl, rfl⟩

/-- Online and synchronised, a node leaves its first two states. -/
theorem stateAt_succ
    {machine : NodeStateMachine}
    {ticks : Nat}
    (state : machine.currentState = stateAt ticks) :
    (machine.updateNetworkSensor ⟨true, true⟩).currentState = stateAt (ticks + 1) := by
  have next := machine.currentState_step NodeStateMachine.good
  rw [state] at next
  refine Eq.trans next ?_
  match ticks with
  | 0 => rfl
  | 1 => rfl
  | _ + 2 => rfl

/-- An epoch has ended when its last heartbeat has been sent. -/
theorem ended_succ_iff
    {flags : RunFlags}
    {ticks : Nat}
    {hbCounter : UInt32}
    (counted : hbCounter.toNat = ticks + 1)
    (epochId : UInt64) :
    flags.hbsPerEpoch * (epochId.toNat + 1) ≤ ticks + 1 ↔
      flags.hbsPerEpoch * (epochId.toNat + 1) ≤ ticks ∨
        boundaryEpoch flags hbCounter = some epochId := by
  rw [boundaryEpoch_eq_some_iff, counted, Nat.le_succ_iff]
  exact or_congr_right eq_comm

/-- A tick without faults. -/
theorem Reached.tick
    {flags : RunFlags}
    {walDir : Directory}
    {ticks : Nat}
    {node : CoreNode}
    (blake3 : List UInt8 → Bytes32)
    (total : ∀ entry, (codec.toAllocvec entry).isSome)
    (goesOn : flags.crashAfterPrepare = false)
    (reached : Reached codec flags walDir ticks node)
    (room : ticks < maxU32)
    {input : TickInput}
    (faultless : Faultless flags input) :
    ∃ node',
      NodeProcess.tick codec blake3 node input = .running node' ∧
        Reached codec flags walDir (ticks + 1) node' := by
  have fits : node.hbCounter.toNat + (1 : UInt32).toNat ≤ maxU32 := by
    rw [reached.counted]
    exact room
  have counted : checkedAddU32 node.hbCounter 1 = some (node.hbCounter + 1) :=
    if_pos fits
  have counter : (node.hbCounter + 1).toNat = ticks + 1 := by
    rw [UInt32.toNat_add, reached.counted]
    exact Nat.mod_eq_of_lt (Nat.succ_lt_succ room)
  obtain ⟨hb, service, produced, numbered, epoch⟩ :=
    produceHeartbeat_numbers blake3 (by rw [reached.numbered, counted]) input.timestamp
  obtain ⟨survives, noFaults, commits⟩ :=
    tickCalls_faultless goesOn faultless (node.hbCounter + 1)
  have ticked :
      NodeProcess.tick codec blake3 node input =
        .running {
          node with
          stateMachine := node.stateMachine.updateNetworkSensor ⟨true, true⟩
          wal :=
            performCalls codec node.wal (tickCalls flags (node.hbCounter + 1) input).1
          hbService := service
          hbCounter := node.hbCounter + 1
        } := by
    rw [NodeProcess.tick, counted]
    dsimp only
    rw [produced]
    dsimp only
    rw [faultless.killedAfter, reached.flags_eq, survives]
    rfl
  refine
    ⟨_, ticked, reached.flags_eq, counter, numbered, epoch, stateAt_succ reached.state,
      synced_performCalls total reached.synced noFaults, fun epochId => ?_⟩
  rw [ended_succ_iff counter, ← or_assoc, ← reached.committed, FileCheckpointWal.isCommitted,
    inner_performCalls, commits]
  rfl

/-- A node that has just started. -/
theorem reached_start
    (blake3 : List UInt8 → Bytes32)
    (fullNodeId nodeKey : Bytes32)
    {walDir : Directory}
    (stores : StoresAllowed codec IsBoundarySnapshot walDir)
    {names : List FileName}
    (lists : ListsFiles walDir names)
    (flags : RunFlags) :
    ∃ node,
      start codec blake3 fullNodeId nodeKey walDir flags names = .running node ∧
        Reached codec flags walDir 0 node := by
  obtain ⟨wal, sameDir, synced, started⟩ :=
    start_spec codec blake3 fullNodeId nodeKey stores lists flags
  refine ⟨_, started, rfl, rfl, rfl, rfl, rfl, synced, fun epochId => ?_⟩
  have positive : 0 < flags.hbsPerEpoch * (epochId.toNat + 1) := by
    rcases flags.hbsPerSubepoch_cases with is | is | is <;>
      rw [RunFlags.hbsPerEpoch, is] <;> exact Nat.mul_pos (by decide) (Nat.succ_pos _)
  rw [or_iff_left (Nat.not_le_of_lt positive), FileCheckpointWal.isCommitted,
    CheckpointWal.isCommitted,
    synced.same, sameDir, CommittedOn]
  cases stored codec walDir epochId with
  | none =>
      simp
  | some entry =>
      simp

/-- Ticks without faults after a start. -/
theorem reached_ticks
    (blake3 : List UInt8 → Bytes32)
    (fullNodeId nodeKey : Bytes32)
    (total : ∀ entry, (codec.toAllocvec entry).isSome)
    {flags : RunFlags}
    (goesOn : flags.crashAfterPrepare = false)
    {walDir : Directory}
    {node : CoreNode}
    (reached : Reached codec flags walDir 0 node)
    {inputs : List TickInput}
    (room : inputs.length ≤ maxU32)
    (faultless : ∀ input ∈ inputs, Faultless flags input) :
    ∃ node',
      run (step codec blake3 fullNodeId nodeKey) (.running node) (inputs.map .tick) =
          .running node' ∧
        Reached codec flags walDir inputs.length node' := by
  induction inputs using List.reverseRecOn with
  | nil =>
      exact ⟨node, rfl, reached⟩
  | append_singleton earlier input inductionHypothesis =>
      rw [List.length_append, List.length_singleton] at room ⊢
      rw [List.forall_mem_append, List.forall_mem_singleton] at faultless
      obtain ⟨before, ran, reachedBefore⟩ :=
        inductionHypothesis (Nat.le_of_succ_le room) faultless.1
      obtain ⟨after, ticked, reachedAfter⟩ :=
        reachedBefore.tick blake3 total goesOn room faultless.2
      refine ⟨after, ?_, reachedAfter⟩
      rw [List.map_append, run_append, ran]
      exact ticked

/-- The two counts of epochs agree at a boundary in the normal mode, and at the first one. -/
theorem epochFromSeqNum_boundary_iff
    {flags : RunFlags}
    {hbCounter : UInt32}
    {epochId : UInt64}
    (isBoundary : boundaryEpoch flags hbCounter = some epochId) :
    epochFromSeqNum hbCounter = epochId ↔
      flags.hbsPerSubepoch = 180 ∨ epochId = 0 := by
  rw [boundaryEpoch_eq_some_iff, RunFlags.hbsPerEpoch] at isBoundary
  have started : 0 < hbCounter.toNat := by
    rcases flags.hbsPerSubepoch_cases with is | is | is <;>
      rw [isBoundary, is] <;> exact Nat.mul_pos (by decide) (Nat.succ_pos _)
  have notZero : hbCounter ≠ 0 := by
    rintro rfl
    exact absurd started (Nat.lt_irrefl 0)
  have inNumbers :
      epochFromSeqNum hbCounter = epochId ↔
        (hbCounter.toNat - 1) / 4320 = epochId.toNat := by
    have oneLe : 1 ≤ hbCounter := UInt32.le_iff_toNat_le.mpr started
    rw [epochFromSeqNum, if_neg notZero, ← UInt64.toNat_inj, UInt32.toNat_toUInt64,
      UInt32.toNat_div, UInt32.toNat_sub_of_le _ _ oneLe]
    rfl
  have isFirst : epochId = 0 ↔ epochId.toNat = 0 := by
    rw [← UInt64.toNat_inj]
    rfl
  rw [inNumbers, isFirst, isBoundary]
  rcases flags.hbsPerSubepoch_cases with is | is | is
  · rw [is]
    refine Iff.trans ?_ (or_iff_right (by decide)).symm
    change (24 * 2 * (epochId.toNat + 1) - 1) / 4320 = epochId.toNat ↔ epochId.toNat = 0
    omega
  · rw [is]
    refine Iff.trans ?_ (or_iff_right (by decide)).symm
    change (24 * 5 * (epochId.toNat + 1) - 1) / 4320 = epochId.toNat ↔ epochId.toNat = 0
    omega
  · rw [is]
    refine iff_of_true ?_ (Or.inl rfl)
    change (24 * 180 * (epochId.toNat + 1) - 1) / 4320 = epochId.toNat
    omega

/-- What is seen of a node after ticks. -/
structure Commits
    (codec : EntryCodec)
    (flags : RunFlags)
    (walDir : Directory)
    (ticks : Nat)
    (node : CoreNode) : Prop where
  counted : node.hbCounter.toNat = ticks
  active : node.stateMachine.currentState = .active ↔ 2 ≤ ticks
  reloads : Reloads codec node.wal
  committed :
    ∀ epochId,
      node.wal.isCommitted epochId = true ↔
        CommittedOn codec walDir epochId ∨ flags.hbsPerEpoch * (epochId.toNat + 1) ≤ ticks
  epochs :
    ∀ epochId,
      boundaryEpoch flags node.hbCounter = some epochId →
      (node.hbService.currentEpoch = epochId ↔
        flags.hbsPerSubepoch = 180 ∨ epochId = 0)

theorem Reached.commits
    {flags : RunFlags}
    {walDir : Directory}
    {ticks : Nat}
    {node : CoreNode}
    (reached : Reached codec flags walDir ticks node) :
    Commits codec flags walDir ticks node where
  counted := reached.counted
  active := by
    rw [reached.state]
    match ticks with
    | 0 => exact iff_of_false nofun nofun
    | 1 => exact iff_of_false nofun (by decide)
    | _ + 2 => exact iff_of_true rfl (Nat.le_add_left 2 _)
  reloads := reached.synced.reloads
  committed := reached.committed
  epochs epochId isBoundary := by
    rw [reached.epoch]
    exact epochFromSeqNum_boundary_iff isBoundary

/-- What the processes of a node have left is sound. -/
theorem sound_run
    (codec : EntryCodec)
    (blake3 : List UInt8 → Bytes32)
    (fullNodeId nodeKey : Bytes32)
    {walDir : Directory}
    (stores : StoresAllowed codec IsBoundarySnapshot walDir)
    {events : List NodeEvent}
    (listed :
      EveryStep (step codec blake3 fullNodeId nodeKey) Listed (.stopped walDir) events) :
    (run (step codec blake3 fullNodeId nodeKey) (.stopped walDir) events).Sound codec :=
  listed.run_invariant (fun _ _ listed sound => (step_sound sound listed).1) stores

/--
After whatever has happened to its processes, a node that is started again and meets
no fault has committed exactly the epochs that were committed and those it has counted
through since; it is active from the second tick on, and reopens as it is.  The epoch
of a checkpoint is that of its heartbeat in the normal mode, and at the first boundary.
-/
theorem node_commits
    (codec : EntryCodec)
    (total : ∀ entry, (codec.toAllocvec entry).isSome)
    (blake3 : List UInt8 → Bytes32)
    (fullNodeId nodeKey : Bytes32)
    {walDir : Directory}
    (stores : StoresAllowed codec IsBoundarySnapshot walDir)
    {events : List NodeEvent}
    (listed :
      EveryStep (step codec blake3 fullNodeId nodeKey) Listed (.stopped walDir) events)
    {left : NodeProcess}
    (isLeft : run (step codec blake3 fullNodeId nodeKey) (.stopped walDir) events = left)
    {flags : RunFlags}
    (goesOn : flags.crashAfterPrepare = false)
    {names : List FileName}
    (lists : ListsFiles left.walDir names)
    {inputs : List TickInput}
    (room : inputs.length ≤ maxU32)
    (faultless : ∀ input ∈ inputs, Faultless flags input) :
    ∃ node,
      run (step codec blake3 fullNodeId nodeKey) left
            (.start flags names :: inputs.map .tick) = .running node ∧
        Commits codec flags left.walDir inputs.length node := by
  have sound : left.Sound codec := by
    rw [← isLeft]
    exact sound_run codec blake3 fullNodeId nodeKey stores listed
  obtain ⟨first, started, reached⟩ :=
    reached_start blake3 fullNodeId nodeKey sound.storesAllowed lists flags
  obtain ⟨last, ran, reachedLast⟩ :=
    reached_ticks blake3 fullNodeId nodeKey total goesOn reached room faultless
  refine ⟨last, ?_, reachedLast.commits⟩
  rw [run_cons, step, started]
  exact ran

/-- A second process counts through two epochs, of which the first is on disk. -/
theorem node_commits_restarted :
    let left :=
      run (step plainCodec (fun _ => Bytes32.zero) Bytes32.zero Bytes32.zero) (.stopped ∅)
        (life shortMode [] (List.replicate 48 quietTick))
    CommittedOn plainCodec left.walDir 0 ∧
      ∃ node,
        run (step plainCodec (fun _ => Bytes32.zero) Bytes32.zero Bytes32.zero) left
              (life shortMode [entryPath 0] (List.replicate 96 quietTick)) =
            .running node ∧
          Commits plainCodec shortMode left.walDir 96 node ∧
          node.wal.isCommitted 1 = true := by
  intro left
  have onDisk :
      (stored plainCodec left.walDir 0).map CheckpointWalEntry.phase = some .committed := by
    decide +kernel
  have lists : ListsFiles left.walDir [entryPath 0] := by
    decide +kernel
  have quiet : ∀ input ∈ List.replicate 96 quietTick, Faultless shortMode input := by
    intro input listed
    rw [List.eq_of_mem_replicate listed]
    exact ⟨rfl, rfl, rfl, rfl, by decide⟩
  obtain ⟨node, ran, commits⟩ :=
    node_commits plainCodec (fun _ => rfl) (fun _ => Bytes32.zero) Bytes32.zero Bytes32.zero
      (storesAllowed_empty plainCodec) (everyStep_life (by decide) _ _)
      rfl rfl lists (by decide) quiet
  exact
    ⟨Option.map_eq_some_iff.mp onDisk, node, ran, commits,
      (commits.committed 1).mpr (.inr (by decide))⟩

end NodeProcess

end ScalarCore
