import ScalarCore.FallibleChecks
import ScalarCore.HeartbeatVerifier

namespace ScalarCore

/-!
# The heartbeats of an honest node

A node produces heartbeats in sessions, each with a service that starts without
a last heartbeat.  A verifier that receives them in order, among the heartbeats
of other nodes, accepts the first of a session as a restart where the session
before it went beyond its first heartbeat.

The hash is a parameter, and the clock of the node may show anything.
-/

open FallibleChecks MachineInt StateMachine

/-- `epoch_from_seq_num`. -/
def epochFromSeqNum (seqNum : UInt32) : UInt64 :=
  if seqNum = 0 then
    0
  else
    ((seqNum - 1) / epochHbCount).toUInt64

section Hashing

variable (blake3 : List UInt8 → Bytes32)

/-- The first four bytes of the hash of a node id. -/
def compressNodeId (fullNodeId : Bytes32) : Bytes4 where
  bytes := (blake3 fullNodeId.bytes).bytes.take 4
  length_eq := by
    rw [List.length_take, (blake3 fullNodeId.bytes).length_eq]
    rfl

/-- The key of a node in an epoch. -/
def deriveNodeKeyEpoch (nodeKey : Bytes32) (epochId : UInt64) : Bytes32 :=
  blake3 (nodeKey.bytes ++ toLeBytes epochId)

end Hashing

/-- What a service needs to produce heartbeats. -/
structure HeartbeatService where
  nodeId : Bytes4
  nodeKey : Bytes32
  currentEpoch : UInt64
  lastSeqNum : UInt32
  lastHbBytes : Option Bytes148
  smtRoot : Bytes32

/-- A call of the service; producing a heartbeat reads the clock. -/
inductive ServiceCall where
  | updateSmtRoot (root : Bytes32)
  | produceHeartbeat (timestamp : UInt32)
  deriving DecidableEq

namespace HeartbeatService

variable (blake3 : List UInt8 → Bytes32)

/-- `new`. -/
def new (fullNodeId nodeKey : Bytes32) : HeartbeatService where
  nodeId := compressNodeId blake3 fullNodeId
  nodeKey
  currentEpoch := 0
  lastSeqNum := 0
  lastHbBytes := none
  smtRoot := Bytes32.zero

/-- `update_smt_root`. -/
def updateSmtRoot
    (service : HeartbeatService)
    (root : Bytes32) : HeartbeatService :=
  { service with smtRoot := root }

/-- `produce_heartbeat`; there is none where the sequence number overflows. -/
def produceHeartbeat
    (service : HeartbeatService)
    (timestamp : UInt32) : Option (HeartbeatUnit × HeartbeatService) := do
  let seqNum ← checkedAddU32 service.lastSeqNum 1
  let currentEpoch := epochFromSeqNum seqNum
  let prevHash :=
    match service.lastHbBytes with
    | some bytes => computePrevHash blake3 (HeartbeatUnit.fromBytes bytes)
    | none => Bytes32.zero
  let nodeKeyEpoch := deriveNodeKeyEpoch blake3 service.nodeKey currentEpoch
  let mac :=
    computeHeartbeatMac blake3 nodeKeyEpoch service.nodeId seqNum timestamp
      service.smtRoot Bytes32.zero 0 prevHash
  let hb : HeartbeatUnit := {
    nodeId := service.nodeId
    seqNum
    timestamp
    smtRoot := service.smtRoot
    imtFrontier := Bytes32.zero
    imtCount := 0
    prevHash
    mac
  }
  some (hb, {
    service with
    currentEpoch
    lastSeqNum := seqNum
    lastHbBytes := some hb.toBytes
  })

/-- The heartbeats that calls of a service produce. -/
def heartbeatsOf
    (service : HeartbeatService) :
    List ServiceCall → Option (List HeartbeatUnit)
  | [] => some []
  | .updateSmtRoot root :: rest =>
      heartbeatsOf (service.updateSmtRoot root) rest
  | .produceHeartbeat timestamp :: rest => do
      let (hb, service) ← service.produceHeartbeat blake3 timestamp
      let later ← heartbeatsOf service rest
      some (hb :: later)

end HeartbeatService

/-- The number of heartbeats that calls ask for. -/
def productions : List ServiceCall → Nat
  | [] => 0
  | .updateSmtRoot _ :: rest => productions rest
  | .produceHeartbeat _ :: rest => productions rest + 1

/-!
## What a service produces
-/

/-- The number of the last heartbeat, zero before the first. -/
def sentCount (last : Option HeartbeatUnit) : Nat :=
  (last.map fun hb => hb.seqNum.toNat).getD 0

/-- A heartbeat that an honest node sends after its last one. -/
structure HonestNext
    (blake3 : List UInt8 → Bytes32)
    (nodeId : Bytes4)
    (nodeKey : Bytes32)
    (last : Option HeartbeatUnit)
    (hb : HeartbeatUnit) : Prop where
  nodeId_eq : hb.nodeId = nodeId
  seqNum_eq : hb.seqNum.toNat = sentCount last + 1
  prevHash_eq :
    hb.prevHash = (last.map (computePrevHash blake3)).getD Bytes32.zero
  mac_eq :
    hb.mac =
      HeartbeatVerifier.expectedMac blake3
        (deriveNodeKeyEpoch blake3 nodeKey (epochFromSeqNum hb.seqNum)) hb

/-- Heartbeats that an honest node sends one after another. -/
def HonestChain
    (blake3 : List UInt8 → Bytes32)
    (nodeId : Bytes4)
    (nodeKey : Bytes32) :
    Option HeartbeatUnit → List HeartbeatUnit → Prop
  | _, [] => True
  | last, hb :: rest =>
      HonestNext blake3 nodeId nodeKey last hb ∧
        HonestChain blake3 nodeId nodeKey (some hb) rest

namespace HeartbeatService

/-- The service knows its last heartbeat. -/
structure Remembers
    (service : HeartbeatService)
    (nodeId : Bytes4)
    (nodeKey : Bytes32)
    (last : Option HeartbeatUnit) : Prop where
  nodeId_eq : service.nodeId = nodeId
  nodeKey_eq : service.nodeKey = nodeKey
  lastSeqNum_eq : service.lastSeqNum.toNat = sentCount last
  lastHbBytes_eq : service.lastHbBytes = last.map HeartbeatUnit.toBytes

variable
  {blake3 : List UInt8 → Bytes32}
  {service : HeartbeatService}
  {nodeId : Bytes4}
  {nodeKey : Bytes32}
  {last : Option HeartbeatUnit}

/-- A new service has sent nothing. -/
theorem remembers_new (fullNodeId nodeKey : Bytes32) :
    (new blake3 fullNodeId nodeKey).Remembers
      (compressNodeId blake3 fullNodeId) nodeKey none where
  nodeId_eq := rfl
  nodeKey_eq := rfl
  lastSeqNum_eq := rfl
  lastHbBytes_eq := rfl

/-- Each heartbeat follows the last one. -/
theorem produceHeartbeat_spec
    (blake3 : List UInt8 → Bytes32)
    (remembers : service.Remembers nodeId nodeKey last)
    (room : sentCount last < maxU32)
    (timestamp : UInt32) :
    ∃ hb service',
      service.produceHeartbeat blake3 timestamp = some (hb, service') ∧
        HonestNext blake3 nodeId nodeKey last hb ∧
        service'.Remembers nodeId nodeKey (some hb) := by
  have numbered : service.lastSeqNum.toNat + 1 ≤ maxU32 := by
    rw [remembers.lastSeqNum_eq]
    exact room
  have counted :
      checkedAddU32 service.lastSeqNum 1 = some (service.lastSeqNum + 1) :=
    if_pos numbered
  have nextNumber :
      (service.lastSeqNum + 1).toNat = sentCount last + 1 := by
    rw [UInt32.toNat_add, ← remembers.lastSeqNum_eq]
    exact Nat.mod_eq_of_lt (Nat.lt_succ_of_le numbered)
  refine ⟨_, _, by rw [produceHeartbeat, counted]; rfl, ?_, ?_⟩
  · refine ⟨remembers.nodeId_eq, nextNumber, ?_, ?_⟩
    · simp only [remembers.lastHbBytes_eq]
      cases last with
      | none =>
          rfl
      | some hb =>
          simp only [Option.map_some, HeartbeatUnit.fromBytes_toBytes,
            Option.getD_some]
    · simp only [remembers.nodeKey_eq]
      rfl
  · exact ⟨remembers.nodeId_eq, remembers.nodeKey_eq, rfl, rfl⟩

/-- The calls of a session produce a chain, unless the numbers run out. -/
theorem heartbeatsOf_spec
    (blake3 : List UInt8 → Bytes32)
    (remembers : service.Remembers nodeId nodeKey last)
    (calls : List ServiceCall)
    (room : sentCount last + productions calls ≤ maxU32) :
    ∃ hbs,
      service.heartbeatsOf blake3 calls = some hbs ∧
        HonestChain blake3 nodeId nodeKey last hbs ∧
        hbs.length = productions calls := by
  induction calls generalizing service last with
  | nil =>
      exact ⟨[], rfl, trivial, rfl⟩
  | cons call rest inductionHypothesis =>
      cases call with
      | updateSmtRoot root =>
          have updated :
              (service.updateSmtRoot root).Remembers nodeId nodeKey last :=
            ⟨remembers.nodeId_eq, remembers.nodeKey_eq,
              remembers.lastSeqNum_eq, remembers.lastHbBytes_eq⟩
          exact inductionHypothesis updated room
      | produceHeartbeat timestamp =>
          rw [productions] at room ⊢
          obtain ⟨hb, service', produced, next, remembers'⟩ :=
            produceHeartbeat_spec blake3 remembers (by omega)
              timestamp
          have counted : sentCount (some hb) = sentCount last + 1 :=
            next.seqNum_eq
          obtain ⟨later, producedLater, chain, length⟩ :=
            inductionHypothesis remembers' (by omega)
          refine ⟨hb :: later, ?_, ⟨next, chain⟩, ?_⟩
          · rw [heartbeatsOf, produced, Option.bind_eq_bind, Option.bind_some]
            dsimp only
            rw [producedLater]
            rfl
          · rw [List.length_cons, length]

end HeartbeatService

namespace HeartbeatVerifier

/-!
## What the verifier sees of one node
-/

variable
  {blake3 : List UInt8 → Bytes32}
  {verifier verifier' : HeartbeatVerifier}
  {call : VerifyCall}

/-- A call is accepted exactly when it passes all checks. -/
theorem verify_ok_iff :
    (verifier.verify blake3 call).2 = .ok () ↔ Passes blake3 verifier call := by
  by_cases passes : Passes blake3 verifier call
  · rw [verify_of_passes passes]
    exact iff_of_true rfl passes
  · by_cases forgets : Forgets blake3 verifier call
    · rw [verify_of_forgets forgets]
      exact iff_of_false nofun passes
    · obtain ⟨failure, refused⟩ := verify_of_refused passes forgets
      rw [refused]
      exact iff_of_false nofun passes

/-- What is kept of one node is not touched by the heartbeats of others. -/
theorem lookup_verify_of_ne
    {nodeId : Bytes4}
    (other : call.hb.nodeId ≠ nodeId) :
    (verifier.verify blake3 call).1.lookup nodeId = verifier.lookup nodeId := by
  by_cases passes : Passes blake3 verifier call
  · rw [verify_of_passes passes]
    exact Finmap.lookup_insert_of_ne _ other.symm
  · by_cases forgets : Forgets blake3 verifier call
    · rw [verify_of_forgets forgets]
      exact Finmap.lookup_erase_ne other.symm
    · obtain ⟨failure, refused⟩ := verify_of_refused passes forgets
      rw [refused]

/-- A call is judged by what is kept of its node. -/
theorem verify_congr
    (same :
      verifier.lookup call.hb.nodeId = verifier'.lookup call.hb.nodeId) :
    (Passes blake3 verifier call ↔ Passes blake3 verifier' call) ∧
      (verifier.verify blake3 call).1.lookup call.hb.nodeId =
        (verifier'.verify blake3 call).1.lookup call.hb.nodeId := by
  have sameNumber :
      verifier.lastSeqNum call.hb.nodeId =
        verifier'.lastSeqNum call.hb.nodeId := by
    rw [lastSeqNum, lastSeqNum, same]
  have sameRestarts :
      Restarts verifier call.hb ↔ Restarts verifier' call.hb := by
    rw [Restarts, Restarts, sameNumber]
  have samePasses :
      Passes blake3 verifier call ↔ Passes blake3 verifier' call := by
    rw [Passes, Passes, sameRestarts, Continues, Continues, sameNumber, same]
  have sameForgets :
      Forgets blake3 verifier call ↔ Forgets blake3 verifier' call := by
    rw [Forgets, Forgets, sameRestarts]
  refine ⟨samePasses, ?_⟩
  by_cases passes : Passes blake3 verifier call
  · rw [verify_of_passes passes, verify_of_passes (samePasses.mp passes),
      Finmap.lookup_insert, Finmap.lookup_insert]
  · have notPasses := samePasses.not.mp passes
    by_cases forgets : Forgets blake3 verifier call
    · rw [verify_of_forgets forgets,
        verify_of_forgets (sameForgets.mp forgets), Finmap.lookup_erase,
        Finmap.lookup_erase]
    · obtain ⟨_, refused⟩ := verify_of_refused passes forgets
      obtain ⟨_, refused'⟩ :=
        verify_of_refused notPasses (sameForgets.not.mp forgets)
      rw [refused, refused', same]

variable
  {nodeId : Bytes4}
  {nodeKey : Bytes32}
  {last prior : Option HeartbeatUnit}

/-- A heartbeat is delivered in time and checked with the key of its epoch. -/
structure HonestCall
    (blake3 : List UInt8 → Bytes32)
    (nodeKey : Bytes32)
    (call : VerifyCall) : Prop where
  inWindow : InWindow call
  nodeKeyEpoch_eq :
    call.nodeKeyEpoch =
      deriveNodeKeyEpoch blake3 nodeKey (epochFromSeqNum call.hb.seqNum)

/-- The number that the verifier knows is that of the kept heartbeat. -/
theorem toNat_lastSeqNum
    (kept : verifier.lookup nodeId = last.map stateOf) :
    (verifier.lastSeqNum nodeId).toNat = sentCount last := by
  rw [lastSeqNum, kept]
  cases last with
  | none =>
      rfl
  | some hb =>
      rfl

/-- The code of an honest heartbeat is right. -/
theorem macValid_of_honestNext
    (honest : HonestCall blake3 nodeKey call)
    (next : HonestNext blake3 nodeId nodeKey last call.hb) :
    MacValid blake3 call := by
  rw [MacValid, honest.nodeKeyEpoch_eq]
  exact next.mac_eq

/-- The next heartbeat of a session is accepted. -/
theorem passes_of_honestNext
    (honest : HonestCall blake3 nodeKey call)
    (next : HonestNext blake3 nodeId nodeKey last call.hb)
    (kept : verifier.lookup nodeId = last.map stateOf) :
    Passes blake3 verifier call := by
  have sameNode := next.nodeId_eq
  refine
    ⟨honest.inWindow, macValid_of_honestNext honest next, Or.inr ⟨?_, ?_⟩⟩
  · rw [UInt32.lt_iff_toNat_lt, sameNode, toNat_lastSeqNum kept,
      next.seqNum_eq]
    exact Nat.lt_succ_self _
  · intro state found
    rw [sameNode, kept] at found
    obtain ⟨hb, isLast, rfl⟩ := Option.map_eq_some_iff.mp found
    rw [next.prevHash_eq, isLast, Option.map_some, Option.getD_some, stateOf,
      HeartbeatUnit.fromBytes_toBytes]

/-- The first heartbeat of a session is accepted unless exactly one came before it. -/
theorem passes_of_first
    (honest : HonestCall blake3 nodeKey call)
    (first : HonestNext blake3 nodeId nodeKey none call.hb)
    (kept : verifier.lookup nodeId = prior.map stateOf)
    (fresh : prior = none ∨ 1 < sentCount prior) :
    Passes blake3 verifier call := by
  rcases fresh with isNone | beyondFirst
  · rw [isNone] at kept
    exact passes_of_honestNext honest first kept
  · refine
      ⟨honest.inWindow, macValid_of_honestNext honest first, Or.inl ⟨?_, ?_⟩⟩
    · exact UInt32.toNat_inj.mp first.seqNum_eq
    · rw [UInt32.lt_iff_toNat_lt, first.nodeId_eq, toNat_lastSeqNum kept]
      exact beyondFirst

/-- After a session of one heartbeat the first of the next session is refused. -/
theorem not_passes_of_first
    (first : HonestNext blake3 nodeId nodeKey none call.hb)
    (kept : verifier.lookup nodeId = prior.map stateOf)
    (single : sentCount prior = 1) :
    ¬Passes blake3 verifier call := by
  have known : (verifier.lastSeqNum call.hb.nodeId).toNat = 1 := by
    rw [first.nodeId_eq, toNat_lastSeqNum kept, single]
  have firstNumber : call.hb.seqNum.toNat = 1 := first.seqNum_eq
  rintro ⟨_, _, restarts | continues⟩
  · have passed := UInt32.lt_iff_toNat_lt.mp restarts.2
    rw [known] at passed
    exact absurd passed (Nat.lt_irrefl 1)
  · have higher := UInt32.lt_iff_toNat_lt.mp continues.1
    rw [known, firstNumber] at higher
    exact absurd higher (Nat.lt_irrefl 1)

/-- An accepted heartbeat is the one that is kept. -/
theorem lookup_verify_of_passes
    (passes : Passes blake3 verifier call)
    (sameNode : call.hb.nodeId = nodeId) :
    (verifier.verify blake3 call).1.lookup nodeId =
      (some call.hb).map stateOf := by
  rw [verify_of_passes passes, ← sameNode]
  exact Finmap.lookup_insert _

/-!
## Sessions
-/

/-- The rest of a session is accepted, and its last heartbeat is kept. -/
theorem everyStep_chain
    {calls : List VerifyCall}
    (honest : ∀ call ∈ calls, HonestCall blake3 nodeKey call)
    (chain :
      HonestChain blake3 nodeId nodeKey last (calls.map VerifyCall.hb))
    (kept : verifier.lookup nodeId = last.map stateOf) :
    EveryStep (verify blake3) (Passes blake3) verifier calls ∧
      ∃ last',
        (run (verify blake3) verifier calls).lookup nodeId =
            last'.map stateOf ∧
          sentCount last' = sentCount last + calls.length := by
  induction calls generalizing verifier last with
  | nil =>
      exact ⟨trivial, last, kept, rfl⟩
  | cons call rest inductionHypothesis =>
      obtain ⟨next, restChain⟩ := chain
      have passes :=
        passes_of_honestNext (honest call List.mem_cons_self) next kept
      have kept' := lookup_verify_of_passes passes next.nodeId_eq
      obtain ⟨restAccepted, last', keptLast, count⟩ :=
        inductionHypothesis
          (fun other listed => honest other (List.mem_cons_of_mem call listed))
          restChain kept'
      refine ⟨⟨passes, restAccepted⟩, last', keptLast, ?_⟩
      have counted : sentCount (some call.hb) = sentCount last + 1 :=
        next.seqNum_eq
      rw [count, counted, List.length_cons]
      omega

/-- A whole session is accepted unless exactly one heartbeat came before it. -/
theorem everyStep_session
    {calls : List VerifyCall}
    (nonempty : calls ≠ [])
    (honest : ∀ call ∈ calls, HonestCall blake3 nodeKey call)
    (chain :
      HonestChain blake3 nodeId nodeKey none (calls.map VerifyCall.hb))
    (kept : verifier.lookup nodeId = prior.map stateOf)
    (fresh : prior = none ∨ 1 < sentCount prior) :
    EveryStep (verify blake3) (Passes blake3) verifier calls ∧
      ∃ last,
        (run (verify blake3) verifier calls).lookup nodeId =
            last.map stateOf ∧
          sentCount last = calls.length := by
  cases calls with
  | nil =>
      exact absurd rfl nonempty
  | cons call rest =>
      obtain ⟨first, restChain⟩ := chain
      have passes :=
        passes_of_first (honest call List.mem_cons_self) first kept fresh
      obtain ⟨restAccepted, last, keptLast, count⟩ :=
        everyStep_chain
          (fun other listed => honest other (List.mem_cons_of_mem call listed))
          restChain (lookup_verify_of_passes passes first.nodeId_eq)
      refine ⟨⟨passes, restAccepted⟩, last, keptLast, ?_⟩
      have counted : sentCount (some call.hb) = 1 := first.seqNum_eq
      rw [count, counted, List.length_cons, Nat.add_comm]

/--
Sessions one after another are accepted exactly when each that another follows
has more than one heartbeat.  The induction carries what came before.
-/
theorem everyStep_sessions_iff
    {sessions : List (List HeartbeatUnit)}
    {calls : List VerifyCall}
    (inOrder : calls.map VerifyCall.hb = sessions.flatten)
    (honest : ∀ call ∈ calls, HonestCall blake3 nodeKey call)
    (chains :
      ∀ session ∈ sessions,
        session ≠ [] ∧ HonestChain blake3 nodeId nodeKey none session)
    (kept : verifier.lookup nodeId = prior.map stateOf)
    (known : prior = none ∨ 0 < sentCount prior) :
    EveryStep (verify blake3) (Passes blake3) verifier calls ↔
      (sessions ≠ [] → sentCount prior ≠ 1) ∧
        ∀ session ∈ sessions.dropLast, 2 ≤ session.length := by
  induction sessions generalizing verifier prior calls with
  | nil =>
      rw [List.flatten_nil, List.map_eq_nil_iff] at inOrder
      subst inOrder
      simp
  | cons session rest inductionHypothesis =>
      rw [List.flatten_cons, List.map_eq_append_iff] at inOrder
      obtain ⟨now, later, rfl, nowIs, laterIs⟩ := inOrder
      obtain ⟨nonempty, chain⟩ := chains session List.mem_cons_self
      subst nowIs
      have nowNonempty : now ≠ [] :=
        fun isEmpty => nonempty (by rw [isEmpty, List.map_nil])
      have nowHonest : ∀ call ∈ now, HonestCall blake3 nodeKey call :=
        fun call listed => honest call (List.mem_append_left later listed)
      -- A single earlier heartbeat hides the first one of this session.
      by_cases single : sentCount prior = 1
      · refine iff_of_false (fun accepted => ?_) fun conditions =>
          conditions.1 (List.cons_ne_nil _ _) single
        cases now with
        | nil =>
            exact nowNonempty rfl
        | cons call more =>
            exact not_passes_of_first chain.1 kept single accepted.1
      · have fresh : prior = none ∨ 1 < sentCount prior := by
          rcases known with isNone | positive
          · exact Or.inl isNone
          · exact Or.inr (by omega)
        obtain ⟨nowAccepted, last, keptLast, count⟩ :=
          everyStep_session nowNonempty nowHonest chain kept fresh
        have positive : 0 < sentCount last := by
          rw [count]
          exact List.length_pos_iff.mpr nowNonempty
        rw [everyStep_append, and_iff_right nowAccepted,
          inductionHypothesis laterIs
            (fun call listed => honest call (List.mem_append_right now listed))
            (fun other listed =>
              chains other (List.mem_cons_of_mem _ listed))
            keptLast (Or.inr positive)]
        cases rest with
        | nil =>
            simp [single]
        | cons next more =>
            rw [List.dropLast_cons_cons, List.forall_mem_cons,
              List.length_map, ← count]
            have notSingle : sentCount last ≠ 1 ↔ 2 ≤ sentCount last := by
              omega
            simp [single, notSingle]

/-- The heartbeats of one session, from a new service. -/
def sessionHeartbeats
    (blake3 : List UInt8 → Bytes32)
    (fullNodeId nodeKey : Bytes32)
    (session : List ServiceCall) : Option (List HeartbeatUnit) :=
  (HeartbeatService.new blake3 fullNodeId nodeKey).heartbeatsOf blake3 session

/-- The number of heartbeats of a session fits a sequence number. -/
def InRange (session : List ServiceCall) : Prop :=
  1 ≤ productions session ∧ productions session < 2 ^ 32

/-- Every session in range has its heartbeats, one for each call of the clock. -/
theorem exists_produced
    (blake3 : List UInt8 → Bytes32)
    (fullNodeId nodeKey : Bytes32)
    {sessions : List (List ServiceCall)}
    (inRange : ∀ session ∈ sessions, InRange session) :
    ∃ produced,
      sessions.mapM (sessionHeartbeats blake3 fullNodeId nodeKey) =
          some produced ∧
        (∀ hbs ∈ produced,
          hbs ≠ [] ∧
            HonestChain blake3 (compressNodeId blake3 fullNodeId) nodeKey none
              hbs) ∧
        produced.map List.length = sessions.map productions := by
  induction sessions with
  | nil =>
      exact ⟨[], rfl, fun _ listed => absurd listed List.not_mem_nil, rfl⟩
  | cons session rest inductionHypothesis =>
      obtain ⟨atLeastOne, fits⟩ := inRange session List.mem_cons_self
      obtain ⟨hbs, produced, chain, length⟩ :=
        HeartbeatService.heartbeatsOf_spec blake3
          (HeartbeatService.remembers_new fullNodeId nodeKey) session
          (by
            have nothingSent : sentCount none = 0 := rfl
            rw [nothingSent, Nat.zero_add]
            exact Nat.le_of_lt_succ fits)
      obtain ⟨later, producedLater, chains, lengths⟩ :=
        inductionHypothesis fun other listed =>
          inRange other (List.mem_cons_of_mem session listed)
      refine ⟨hbs :: later, ?_, ?_, ?_⟩
      · rw [List.mapM_cons, sessionHeartbeats, produced, producedLater]
        rfl
      · rw [List.forall_mem_cons]
        refine ⟨⟨List.length_pos_iff.mp ?_, chain⟩, chains⟩
        rw [length]
        exact atLeastOne
      · rw [List.map_cons, List.map_cons, length, lengths]

/--
Calls that deliver heartbeats of a node in their order, among any calls for
other nodes.
-/
structure Delivers
    (blake3 : List UInt8 → Bytes32)
    (nodeId : Bytes4)
    (nodeKey : Bytes32)
    (produced : List HeartbeatUnit)
    (calls : List VerifyCall) : Prop where
  inOrder :
    (calls.filter fun call => decide (call.hb.nodeId = nodeId)).map
        VerifyCall.hb =
      produced
  honest :
    ∀ call ∈ calls,
      call.hb.nodeId = nodeId → HonestCall blake3 nodeKey call

/-- Every heartbeat of a node is accepted by a verifier that starts empty. -/
def AcceptsAll
    (blake3 : List UInt8 → Bytes32)
    (nodeId : Bytes4)
    (calls : List VerifyCall) : Prop :=
  EveryStep (verify blake3)
    (fun verifier call =>
      call.hb.nodeId = nodeId → (verify blake3 verifier call).2 = .ok ())
    ∅ calls

/-- Only the calls for the node matter. -/
theorem acceptsAll_iff_filter
    {calls : List VerifyCall} :
    AcceptsAll blake3 nodeId calls ↔
      EveryStep (verify blake3) (Passes blake3) ∅
        (calls.filter fun call => decide (call.hb.nodeId = nodeId)) := by
  have asRelevant (verifier : HeartbeatVerifier) (call : VerifyCall) :
      (call.hb.nodeId = nodeId → (verify blake3 verifier call).2 = .ok ()) ↔
        (decide (call.hb.nodeId = nodeId) = true →
          Passes blake3 verifier call) := by
    rw [decide_eq_true_iff, verify_ok_iff]
  rw [AcceptsAll, everyStep_iff asRelevant]
  refine
    everyStep_filter_iff
      (fun verifier : HeartbeatVerifier => verifier.lookup nodeId) ?_ ?_ rfl
  · intro verifier call other
    exact lookup_verify_of_ne (of_decide_eq_false other)
  · intro verifier verifier' call mine same
    have sameNode := of_decide_eq_true mine
    subst sameNode
    exact verify_congr same

/-- Delivered sessions are accepted when each but the last has two heartbeats. -/
theorem acceptsAll_iff
    {produced : List (List HeartbeatUnit)}
    (chains :
      ∀ hbs ∈ produced,
        hbs ≠ [] ∧ HonestChain blake3 nodeId nodeKey none hbs)
    {calls : List VerifyCall}
    (delivers : Delivers blake3 nodeId nodeKey produced.flatten calls) :
    AcceptsAll blake3 nodeId calls ↔
      ∀ hbs ∈ produced.dropLast, 2 ≤ hbs.length := by
  have honest :
      ∀ call ∈ calls.filter fun call => decide (call.hb.nodeId = nodeId),
        HonestCall blake3 nodeKey call := by
    intro call listed
    obtain ⟨isCall, mine⟩ := List.mem_filter.mp listed
    exact delivers.honest call isCall (of_decide_eq_true mine)
  have unknown :
      (∅ : HeartbeatVerifier).lookup nodeId =
        (none : Option HeartbeatUnit).map stateOf :=
    Finmap.lookup_empty nodeId
  have nothingSent : sentCount none ≠ 1 :=
    Nat.zero_ne_one
  rw [acceptsAll_iff_filter,
    everyStep_sessions_iff delivers.inOrder honest chains unknown
      (Or.inl rfl)]
  exact and_iff_right fun _ => nothingSent

/-- The lengths of what is produced are what the sessions ask for. -/
theorem forall_dropLast_iff
    {sessions : List (List ServiceCall)}
    {produced : List (List HeartbeatUnit)}
    (lengths : produced.map List.length = sessions.map productions) :
    (∀ hbs ∈ produced.dropLast, 2 ≤ hbs.length) ↔
      ∀ session ∈ sessions.dropLast, 2 ≤ productions session := by
  have sameLengths :
      produced.dropLast.map List.length =
        sessions.dropLast.map productions := by
    rw [List.map_dropLast, List.map_dropLast, lengths]
  rw [← List.forall_mem_map (P := fun count => 2 ≤ count), sameLengths,
    List.forall_mem_map]

/-- The calls that deliver heartbeats at the moment they are sent. -/
def promptCall
    (blake3 : List UInt8 → Bytes32)
    (nodeKey : Bytes32)
    (hb : HeartbeatUnit) : VerifyCall where
  hb
  nmt := hb.timestamp
  nodeKeyEpoch := deriveNodeKeyEpoch blake3 nodeKey (epochFromSeqNum hb.seqNum)
  epochId := epochFromSeqNum hb.seqNum

theorem honestCall_promptCall (hb : HeartbeatUnit) :
    HonestCall blake3 nodeKey (promptCall blake3 nodeKey hb) where
  inWindow :=
    inWindow_iff.mpr ⟨Nat.le_add_right _ _, Nat.le_add_right _ _⟩
  nodeKeyEpoch_eq := rfl

/-- The heartbeats of a chain are those of the node. -/
theorem nodeId_of_honestChain
    {hbs : List HeartbeatUnit}
    (chain : HonestChain blake3 nodeId nodeKey last hbs) :
    ∀ hb ∈ hbs, hb.nodeId = nodeId := by
  induction hbs generalizing last with
  | nil =>
      exact fun _ listed => absurd listed List.not_mem_nil
  | cons hb rest inductionHypothesis =>
      rw [List.forall_mem_cons]
      exact ⟨chain.1.nodeId_eq, inductionHypothesis chain.2⟩

/-- So are those of several sessions. -/
theorem nodeId_of_chains
    {produced : List (List HeartbeatUnit)}
    (chains :
      ∀ hbs ∈ produced,
        hbs ≠ [] ∧ HonestChain blake3 nodeId nodeKey none hbs) :
    ∀ hb ∈ produced.flatten, hb.nodeId = nodeId := by
  intro hb listed
  obtain ⟨hbs, isSession, inSession⟩ := List.mem_flatten.mp listed
  exact nodeId_of_honestChain (chains hbs isSession).2 hb inSession

/-- Prompt calls deliver. -/
theorem delivers_promptCalls
    (blake3 : List UInt8 → Bytes32)
    (nodeKey : Bytes32)
    {hbs : List HeartbeatUnit}
    (ofNode : ∀ hb ∈ hbs, hb.nodeId = nodeId) :
    Delivers blake3 nodeId nodeKey hbs
      (hbs.map (promptCall blake3 nodeKey)) where
  inOrder := by
    have allMine :
        (hbs.map (promptCall blake3 nodeKey)).filter
            (fun call => decide (call.hb.nodeId = nodeId)) =
          hbs.map (promptCall blake3 nodeKey) := by
      rw [List.filter_eq_self, List.forall_mem_map]
      exact fun hb listed => decide_eq_true (ofNode hb listed)
    rw [allMine, List.map_map]
    exact List.map_id hbs
  honest := by
    rw [List.forall_mem_map]
    exact fun hb _ _ => honestCall_promptCall hb

/--
All heartbeats of the sessions of an honest node are accepted, in any delivery
in their order, exactly when each session but the last has at least two.
-/
theorem honest_heartbeats_accepted_iff
    (blake3 : List UInt8 → Bytes32)
    (fullNodeId nodeKey : Bytes32)
    {sessions : List (List ServiceCall)}
    (inRange : ∀ session ∈ sessions, InRange session) :
    ∃ produced,
      sessions.mapM (sessionHeartbeats blake3 fullNodeId nodeKey) =
          some produced ∧
        ∀ calls,
          Delivers blake3 (compressNodeId blake3 fullNodeId) nodeKey
            produced.flatten calls →
          (AcceptsAll blake3 (compressNodeId blake3 fullNodeId) calls ↔
            ∀ session ∈ sessions.dropLast, 2 ≤ productions session) := by
  obtain ⟨produced, isProduced, chains, lengths⟩ :=
    exists_produced blake3 fullNodeId nodeKey inRange
  exact
    ⟨produced, isProduced, fun calls delivers =>
      (acceptsAll_iff chains delivers).trans (forall_dropLast_iff lengths)⟩

/-- A node that restarts after two heartbeats is accepted. -/
theorem honest_heartbeats_accepted_afterTwo :
    ∃ produced,
      [[.produceHeartbeat 0, .produceHeartbeat 600], [.produceHeartbeat 1200]].mapM
          (sessionHeartbeats checksum Bytes32.zero Bytes32.zero) =
        some produced ∧
        AcceptsAll checksum (compressNodeId checksum Bytes32.zero)
          (produced.flatten.map (promptCall checksum Bytes32.zero)) := by
  have inRange :
      ∀ session ∈
          [[.produceHeartbeat 0, .produceHeartbeat 600],
            [.produceHeartbeat 1200]],
        InRange session := by
    unfold InRange
    decide
  obtain ⟨produced, isProduced, accepted⟩ :=
    honest_heartbeats_accepted_iff checksum Bytes32.zero Bytes32.zero inRange
  obtain ⟨produced', isProduced', chains, _⟩ :=
    exists_produced checksum Bytes32.zero Bytes32.zero inRange
  cases Option.some_inj.mp (isProduced.symm.trans isProduced')
  exact
    ⟨produced, isProduced,
      (accepted _
          (delivers_promptCalls checksum Bytes32.zero
            (nodeId_of_chains chains))).mpr
        (by decide)⟩

/-- The second session of a node that restarts after one heartbeat is refused. -/
theorem honest_heartbeats_refused :
    ¬∃ blake3,
        ∀ (fullNodeId nodeKey : Bytes32)
          (sessions : List (List ServiceCall))
          (produced : List (List HeartbeatUnit))
          (calls : List VerifyCall),
          (∀ session ∈ sessions, InRange session) →
          sessions.mapM (sessionHeartbeats blake3 fullNodeId nodeKey) =
            some produced →
          Delivers blake3 (compressNodeId blake3 fullNodeId) nodeKey
            produced.flatten calls →
          AcceptsAll blake3 (compressNodeId blake3 fullNodeId) calls := by
  rintro ⟨blake3, always⟩
  have inRange :
      ∀ session ∈ [[.produceHeartbeat 0], [.produceHeartbeat 600]],
        InRange session := by
    unfold InRange
    decide
  obtain ⟨produced, isProduced, chains, lengths⟩ :=
    exists_produced blake3 Bytes32.zero Bytes32.zero inRange
  have delivers :=
    delivers_promptCalls blake3 Bytes32.zero (nodeId_of_chains chains)
  have accepted := always _ _ _ _ _ inRange isProduced delivers
  rw [acceptsAll_iff chains delivers, forall_dropLast_iff lengths] at accepted
  exact absurd accepted (by decide)

end HeartbeatVerifier

end ScalarCore
