import ScalarCore.Bytes
import ScalarCore.KeyedSort

namespace ScalarCore

/-!
# The two-phase genesis ceremony

The parameters are committed to first, the participants register under that
commitment, and the genesis object holds both with the keys of the participants.
Four checks verify a finished ceremony against the genesis hash of the binary.

BLAKE3 is a parameter.
-/

open KeyedSort

/-- `DOMAIN_GENESIS_BOOTSTRAP`. -/
def domainGenesisBootstrap : List UInt8 :=
  asciiBytes "scalar_genesis_bootstrap"

@[simp] theorem length_domainGenesisBootstrap :
    domainGenesisBootstrap.length = 24 := by
  decide

/-- The parameters of phase 0. -/
structure GenesisParams where
  sMaxSscl : UInt64
  sESscl : UInt64
  sRSscl : UInt64
  friBlowup : UInt8
  friQueries : UInt8
  friGrinding : UInt8
  cryptoVersion : UInt8
  genesisTimestamp : UInt64
  genesisVersion : Bytes32
  deriving DecidableEq

namespace GenesisParams

/-- `b"scalar-genesis-1.0"`, padded with zeros. -/
def canonicalVersion : Bytes32 where
  bytes := asciiBytes "scalar-genesis-1.0" ++ List.replicate 14 0
  length_eq := by decide

/-- `GenesisParams::canonical`. -/
def canonical (genesisTimestamp : UInt64) : GenesisParams where
  sMaxSscl := 2100000000000000
  sESscl := 1890000000000000
  sRSscl := 210000000000000
  friBlowup := 8
  friQueries := 108
  friGrinding := 0
  cryptoVersion := 0x01
  genesisTimestamp := genesisTimestamp
  genesisVersion := canonicalVersion

/-- `GenesisParams::serialize`; the last four bytes are reserved. -/
def serialize (params : GenesisParams) : List UInt8 :=
  toLeBytes params.sMaxSscl ++ toLeBytes params.sESscl ++
    toLeBytes params.sRSscl ++
    [params.friBlowup, params.friQueries, params.friGrinding,
      params.cryptoVersion] ++
    toLeBytes params.genesisTimestamp ++ params.genesisVersion.bytes ++
    List.replicate 4 0

/-- The parameters can be read back from their bytes. -/
theorem serialize_injective : Function.Injective serialize := by
  intro left right same
  simp only [serialize, List.append_assoc] at same
  obtain ⟨sameMax, same⟩ := List.append_inj same (by simp)
  obtain ⟨sameE, same⟩ := List.append_inj same (by simp)
  obtain ⟨sameR, same⟩ := List.append_inj same (by simp)
  obtain ⟨sameSuite, same⟩ := List.append_inj same (by simp)
  obtain ⟨sameTimestamp, same⟩ := List.append_inj same (by simp)
  obtain ⟨sameVersion, -⟩ :=
    List.append_inj same (by simp [Bytes32.length_eq])
  simp only [List.cons.injEq, and_true] at sameSuite
  cases left
  cases right
  simp only [GenesisParams.mk.injEq]
  exact
    ⟨toLeBytes_injective sameMax, toLeBytes_injective sameE,
      toLeBytes_injective sameR, sameSuite.1, sameSuite.2.1, sameSuite.2.2.1,
      sameSuite.2.2.2, toLeBytes_injective sameTimestamp,
      Bytes32.ext sameVersion⟩

end GenesisParams

/-- What a participant registers in phase 1. -/
structure RegistrationCommitment where
  pubkey : Bytes32
  commitment : Bytes32
  deriving DecidableEq

namespace RegistrationCommitment

/-- The bytes of one registration in the aggregate. -/
def bytes (registration : RegistrationCommitment) : List UInt8 :=
  registration.pubkey.bytes ++ registration.commitment.bytes

/-- The registrations can be read back from their bytes. -/
theorem flatMap_bytes_injective :
    Function.Injective fun registrations : List RegistrationCommitment =>
      registrations.flatMap bytes := by
  apply flatMap_injective (show 0 < 64 by decide)
  · intro registration
    rw [bytes, List.length_append, Bytes32.length_eq, Bytes32.length_eq]
  · intro left right same
    obtain ⟨samePubkey, sameCommitment⟩ :=
      List.append_inj same
        (left.pubkey.length_eq.trans right.pubkey.length_eq.symm)
    cases left
    cases right
    rw [RegistrationCommitment.mk.injEq]
    exact ⟨Bytes32.ext samePubkey, Bytes32.ext sameCommitment⟩

end RegistrationCommitment

/-- The object of phase 2. -/
structure GenesisObject where
  genesisParamsHash : Bytes32
  genesisCommitmentRoot : Bytes32
  participantPubkeys : List Bytes32
  initialUtxoSetRoot : Bytes32
  timestamp : UInt64
  deriving DecidableEq

namespace GenesisObject

/-- `GenesisObject::serialize`. -/
def serialize (object : GenesisObject) : List UInt8 :=
  object.genesisParamsHash.bytes ++ object.genesisCommitmentRoot.bytes ++
    toLeBytes (UInt64.ofNat object.participantPubkeys.length) ++
    object.participantPubkeys.flatMap Bytes32.bytes ++
    object.initialUtxoSetRoot.bytes ++ toLeBytes object.timestamp

/-- The object can be read back from its bytes. -/
theorem serialize_injective : Function.Injective serialize := by
  intro left right same
  obtain ⟨same, sameTimestamp⟩ := List.append_inj' same (by simp)
  obtain ⟨same, sameUtxoRoot⟩ :=
    List.append_inj' same (by simp [Bytes32.length_eq])
  simp only [List.append_assoc] at same
  obtain ⟨sameHash, same⟩ := List.append_inj same (by simp [Bytes32.length_eq])
  obtain ⟨sameRoot, same⟩ := List.append_inj same (by simp [Bytes32.length_eq])
  obtain ⟨-, samePubkeys⟩ := List.append_inj same (by simp)
  cases left
  cases right
  rw [GenesisObject.mk.injEq]
  exact
    ⟨Bytes32.ext sameHash, Bytes32.ext sameRoot,
      Bytes32.flatMap_bytes_injective samePubkeys, Bytes32.ext sameUtxoRoot,
      toLeBytes_injective sameTimestamp⟩

end GenesisObject

/-- The answer of a verification point. -/
inductive GvpResult where
  | pass
  | fail (reason : String)
  deriving DecidableEq

/-- The debug format of an array. -/
def Bytes32.debug (value : Bytes32) : String :=
  "[" ++ ", ".intercalate (value.bytes.map toString) ++ "]"

section Ceremony

variable (blake3 : List UInt8 → Bytes32)

/-- The bytes that `compute_genesis_params_hash` hashes. -/
def paramsMessage (params : GenesisParams) : List UInt8 :=
  domainGenesisBootstrap ++ params.serialize

/-- `compute_genesis_params_hash`. -/
def computeGenesisParamsHash (params : GenesisParams) : Bytes32 :=
  blake3 (paramsMessage params)

/-- The bytes that `compute_genesis_commitment_root` hashes. -/
def commitmentMessage
    (genesisParamsHash : Bytes32)
    (registrations : List RegistrationCommitment) : List UInt8 :=
  domainGenesisBootstrap ++ genesisParamsHash.bytes ++
    (sortByKey RegistrationCommitment.pubkey registrations).flatMap
      RegistrationCommitment.bytes

/-- `compute_genesis_commitment_root`. -/
def computeGenesisCommitmentRoot
    (genesisParamsHash : Bytes32)
    (registrations : List RegistrationCommitment) : Bytes32 :=
  blake3 (commitmentMessage genesisParamsHash registrations)

/-- The bytes that `finalize_genesis` hashes. -/
def objectMessage (object : GenesisObject) : List UInt8 :=
  domainGenesisBootstrap ++ object.serialize

/-- `finalize_genesis`. -/
def finalizeGenesis (object : GenesisObject) : Bytes32 :=
  blake3 (objectMessage object)

/-- `gvp1_params_hash`. -/
def gvp1ParamsHash
    (genesisParamsHash : Bytes32)
    (params : GenesisParams) : GvpResult :=
  let computed := computeGenesisParamsHash blake3 params
  if computed = genesisParamsHash then
    .pass
  else
    .fail
      ("GVP-1: params_hash mismatch: expected " ++ genesisParamsHash.debug ++
        " got " ++ computed.debug)

/-- `gvp2_commitment_root`. -/
def gvp2CommitmentRoot
    (genesisCommitmentRoot genesisParamsHash : Bytes32)
    (registrations : List RegistrationCommitment) : GvpResult :=
  let computed :=
    computeGenesisCommitmentRoot blake3 genesisParamsHash registrations
  if computed = genesisCommitmentRoot then
    .pass
  else
    .fail
      ("GVP-2: commitment_root mismatch: expected " ++
        genesisCommitmentRoot.debug ++ " got " ++ computed.debug)

/-- `gvp3_object_consistency`. -/
def gvp3ObjectConsistency (object : GenesisObject) : GvpResult :=
  if object.participantPubkeys.isEmpty then
    .fail "GVP-3: no participant pubkeys in genesis object"
  else if object.timestamp = 0 then
    .fail "GVP-3: genesis timestamp is zero"
  else if object.participantPubkeys.mergeSort ≠ object.participantPubkeys then
    .fail "GVP-3: participant_pubkeys not sorted ascending"
  else
    .pass

/-- `gvp4_genesis_hash`. -/
def gvp4GenesisHash
    (expectedGenesisHash : Bytes32)
    (object : GenesisObject) : GvpResult :=
  let computed := finalizeGenesis blake3 object
  if computed = expectedGenesisHash then
    .pass
  else
    .fail
      ("GVP-4: genesis_hash mismatch: expected " ++ expectedGenesisHash.debug ++
        " got " ++ computed.debug)

/-- `run_all_gvp`: the first check that does not pass. -/
def runAllGvp
    (genesisParamsHash : Bytes32)
    (params : GenesisParams)
    (genesisCommitmentRoot : Bytes32)
    (registrations : List RegistrationCommitment)
    (expectedGenesisHash : Bytes32)
    (object : GenesisObject) : GvpResult :=
  let checks :=
    [ gvp1ParamsHash blake3 genesisParamsHash params,
      gvp2CommitmentRoot blake3 genesisCommitmentRoot genesisParamsHash
        registrations,
      gvp3ObjectConsistency object,
      gvp4GenesisHash blake3 expectedGenesisHash object ]
  (checks.find? fun check => check ≠ .pass).getD .pass

end Ceremony

/-!
## The lengths of what is hashed
-/

theorem length_paramsMessage (params : GenesisParams) :
    (paramsMessage params).length = 96 := by
  simp [paramsMessage, GenesisParams.serialize, Bytes32.length_eq]

theorem length_commitmentMessage
    (genesisParamsHash : Bytes32)
    (registrations : List RegistrationCommitment) :
    (commitmentMessage genesisParamsHash registrations).length =
      56 + registrations.length * 64 := by
  have sameLength :=
    (sortByKey_perm RegistrationCommitment.pubkey registrations).length_eq
  simp [commitmentMessage, List.length_flatMap, RegistrationCommitment.bytes,
    Bytes32.length_eq, sameLength]
  omega

theorem length_objectMessage (object : GenesisObject) :
    (objectMessage object).length =
      136 + object.participantPubkeys.length * 32 := by
  simp [objectMessage, GenesisObject.serialize, List.length_flatMap,
    Bytes32.length_eq]
  omega

variable {blake3 : List UInt8 → Bytes32}

/-!
## What each verification point accepts
-/

theorem gvp1ParamsHash_eq_pass_iff
    {genesisParamsHash : Bytes32}
    {params : GenesisParams} :
    gvp1ParamsHash blake3 genesisParamsHash params = .pass ↔
      computeGenesisParamsHash blake3 params = genesisParamsHash := by
  simp [gvp1ParamsHash]

theorem gvp2CommitmentRoot_eq_pass_iff
    {genesisCommitmentRoot genesisParamsHash : Bytes32}
    {registrations : List RegistrationCommitment} :
    gvp2CommitmentRoot blake3 genesisCommitmentRoot genesisParamsHash
          registrations = .pass ↔
      computeGenesisCommitmentRoot blake3 genesisParamsHash registrations =
        genesisCommitmentRoot := by
  simp [gvp2CommitmentRoot]

/-- The object names participants in ascending order, and a time. -/
structure GenesisObject.Consistent (object : GenesisObject) : Prop where
  participants : object.participantPubkeys ≠ []
  timestamp : object.timestamp ≠ 0
  ascending : object.participantPubkeys.Pairwise (· ≤ ·)

theorem gvp3ObjectConsistency_eq_pass_iff
    {object : GenesisObject} :
    gvp3ObjectConsistency object = .pass ↔ object.Consistent := by
  have sorted_iff :
      object.participantPubkeys.mergeSort = object.participantPubkeys ↔
        object.participantPubkeys.Pairwise (· ≤ ·) := by
    constructor
    · intro same
      rw [← same]
      exact List.pairwise_mergeSort' (· ≤ ·) object.participantPubkeys
    · intro ascending
      exact List.mergeSort_of_pairwise (by simpa using ascending)
  constructor
  · intro passed
    rw [gvp3ObjectConsistency] at passed
    split at passed
    · cases passed
    case isFalse participants =>
      split at passed
      · cases passed
      case isFalse timestamp =>
        split at passed
        · cases passed
        case isFalse ascending =>
          exact {
            participants := by simpa using participants
            timestamp := timestamp
            ascending := sorted_iff.mp (not_not.mp ascending)
          }
  · intro consistent
    rw [gvp3ObjectConsistency, if_neg (by simpa using consistent.participants),
      if_neg consistent.timestamp,
      if_neg (not_not.mpr (sorted_iff.mpr consistent.ascending))]

theorem gvp4GenesisHash_eq_pass_iff
    {expectedGenesisHash : Bytes32}
    {object : GenesisObject} :
    gvp4GenesisHash blake3 expectedGenesisHash object = .pass ↔
      finalizeGenesis blake3 object = expectedGenesisHash := by
  simp [gvp4GenesisHash]

/-- The first check that does not pass is absent when all pass. -/
theorem find?_ne_pass_eq_pass_iff
    {checks : List GvpResult} :
    (checks.find? fun check => check ≠ .pass).getD .pass = .pass ↔
      ∀ check ∈ checks, check = .pass := by
  cases found : checks.find? fun check => check ≠ .pass with
  | none =>
      simpa using found
  | some check =>
      have differs : check ≠ .pass := by
        simpa using List.find?_some found
      have listed := List.mem_of_find?_eq_some found
      exact
        iff_of_false differs fun allPass => differs (allPass check listed)

/-- The arguments of `run_all_gvp` but for the expected hash. -/
structure GenesisArguments where
  genesisParamsHash : Bytes32
  params : GenesisParams
  genesisCommitmentRoot : Bytes32
  registrations : List RegistrationCommitment
  object : GenesisObject

namespace GenesisArguments

/-- The ceremony passes all verification points for an expected hash. -/
def Passes
    (blake3 : List UInt8 → Bytes32)
    (ceremony : GenesisArguments)
    (expectedGenesisHash : Bytes32) : Prop :=
  runAllGvp blake3 ceremony.genesisParamsHash ceremony.params
      ceremony.genesisCommitmentRoot ceremony.registrations
      expectedGenesisHash ceremony.object = .pass

/-- What the four verification points establish. -/
structure Verified
    (blake3 : List UInt8 → Bytes32)
    (ceremony : GenesisArguments)
    (expectedGenesisHash : Bytes32) : Prop where
  paramsHash :
    computeGenesisParamsHash blake3 ceremony.params = ceremony.genesisParamsHash
  commitmentRoot :
    computeGenesisCommitmentRoot blake3 ceremony.genesisParamsHash
        ceremony.registrations =
      ceremony.genesisCommitmentRoot
  consistent : ceremony.object.Consistent
  genesisHash : finalizeGenesis blake3 ceremony.object = expectedGenesisHash

theorem passes_iff_verified
    {ceremony : GenesisArguments}
    {expectedGenesisHash : Bytes32} :
    ceremony.Passes blake3 expectedGenesisHash ↔
      ceremony.Verified blake3 expectedGenesisHash := by
  rw [Passes, runAllGvp, find?_ne_pass_eq_pass_iff]
  simp only [List.forall_mem_cons, List.not_mem_nil, false_implies,
    implies_true, and_true, gvp1ParamsHash_eq_pass_iff,
    gvp2CommitmentRoot_eq_pass_iff, gvp3ObjectConsistency_eq_pass_iff,
    gvp4GenesisHash_eq_pass_iff]
  constructor
  · rintro ⟨paramsHash, commitmentRoot, consistent, genesisHash⟩
    exact ⟨paramsHash, commitmentRoot, consistent, genesisHash⟩
  · rintro ⟨paramsHash, commitmentRoot, consistent, genesisHash⟩
    exact ⟨paramsHash, commitmentRoot, consistent, genesisHash⟩

/-!
## What the genesis hash binds
-/

/-- The messages that a run of the verification points hashes. -/
def messages (ceremony : GenesisArguments) : List (List UInt8) :=
  [ paramsMessage ceremony.params,
    commitmentMessage ceremony.genesisParamsHash ceremony.registrations,
    objectMessage ceremony.object ]

/-- The keys that were registered, in ascending order. -/
def sortedPubkeys (ceremony : GenesisArguments) : List Bytes32 :=
  (sortByKey RegistrationCommitment.pubkey ceremony.registrations).map
    RegistrationCommitment.pubkey

/-- The object carries the two commitments and the registered keys. -/
structure Carries (ceremony : GenesisArguments) : Prop where
  paramsHash :
    ceremony.object.genesisParamsHash = ceremony.genesisParamsHash
  commitmentRoot :
    ceremony.object.genesisCommitmentRoot = ceremony.genesisCommitmentRoot
  pubkeys : ceremony.object.participantPubkeys = ceremony.sortedPubkeys

/-- Two ceremonies are one up to the order of the registrations. -/
structure SameCeremony (ceremony ceremony' : GenesisArguments) : Prop where
  params : ceremony.params = ceremony'.params
  object : ceremony.object = ceremony'.object
  registrations : ceremony.registrations.Perm ceremony'.registrations

/-- The object itself passes the first two points, and names the registered keys. -/
structure ObjectVerified
    (blake3 : List UInt8 → Bytes32)
    (ceremony : GenesisArguments) : Prop where
  paramsHash :
    gvp1ParamsHash blake3 ceremony.object.genesisParamsHash ceremony.params =
      .pass
  commitmentRoot :
    gvp2CommitmentRoot blake3 ceremony.object.genesisCommitmentRoot
        ceremony.object.genesisParamsHash ceremony.registrations =
      .pass
  pubkeys :
    (ceremony.registrations.map RegistrationCommitment.pubkey).Perm
      ceremony.object.participantPubkeys

/-- Ascending keys are the registered ones when they are so in some order. -/
theorem perm_iff_eq_sortedPubkeys
    {ceremony : GenesisArguments}
    (ascending : ceremony.object.participantPubkeys.Pairwise (· ≤ ·)) :
    (ceremony.registrations.map RegistrationCommitment.pubkey).Perm
        ceremony.object.participantPubkeys ↔
      ceremony.object.participantPubkeys = ceremony.sortedPubkeys := by
  have reordered :
      ceremony.sortedPubkeys.Perm
        (ceremony.registrations.map RegistrationCommitment.pubkey) :=
    (sortByKey_perm _ _).map _
  constructor
  · intro same
    exact
      (reordered.trans same).symm.eq_of_pairwise (fun _ _ _ _ => le_antisymm)
        ascending
        (List.pairwise_map.mpr
          (pairwise_sortByKey RegistrationCommitment.pubkey _))
  · intro same
    rw [same]
    exact reordered.symm

/-- The object of a verified ceremony carries it exactly when it is verified itself. -/
theorem Verified.carries_iff
    {ceremony : GenesisArguments}
    {expectedGenesisHash : Bytes32}
    (verified : ceremony.Verified blake3 expectedGenesisHash) :
    ceremony.Carries ↔ ceremony.ObjectVerified blake3 := by
  have pubkeys_iff := perm_iff_eq_sortedPubkeys verified.consistent.ascending
  constructor
  · intro carries
    refine ⟨?_, ?_, pubkeys_iff.mpr carries.pubkeys⟩
    · rw [gvp1ParamsHash_eq_pass_iff, carries.paramsHash]
      exact verified.paramsHash
    · rw [gvp2CommitmentRoot_eq_pass_iff, carries.paramsHash,
        carries.commitmentRoot]
      exact verified.commitmentRoot
  · rintro ⟨paramsHash, commitmentRoot, pubkeys⟩
    rw [gvp1ParamsHash_eq_pass_iff, verified.paramsHash] at paramsHash
    rw [gvp2CommitmentRoot_eq_pass_iff, ← paramsHash,
      verified.commitmentRoot] at commitmentRoot
    exact ⟨paramsHash.symm, commitmentRoot.symm, pubkeys_iff.mp pubkeys⟩

/-- The arguments of a run for parameters and registrations, with some object. -/
def forObject
    (blake3 : List UInt8 → Bytes32)
    (params : GenesisParams)
    (registrations : List RegistrationCommitment)
    (object : GenesisObject) : GenesisArguments where
  genesisParamsHash := computeGenesisParamsHash blake3 params
  params := params
  genesisCommitmentRoot :=
    computeGenesisCommitmentRoot blake3
      (computeGenesisParamsHash blake3 params) registrations
  registrations := registrations
  object := object

/-- Any consistent object passes along with any parameters and registrations. -/
theorem passes_forObject
    {params : GenesisParams}
    {registrations : List RegistrationCommitment}
    {object : GenesisObject}
    (consistent : object.Consistent) :
    (forObject blake3 params registrations object).Passes blake3
      (finalizeGenesis blake3 object) :=
  passes_iff_verified.mpr ⟨rfl, rfl, consistent, rfl⟩

/-- The arguments of a ceremony that was carried out. -/
def carriedOut
    (blake3 : List UInt8 → Bytes32)
    (params : GenesisParams)
    (registrations : List RegistrationCommitment)
    (initialUtxoSetRoot : Bytes32)
    (timestamp : UInt64) : GenesisArguments :=
  let paramsHash := computeGenesisParamsHash blake3 params
  forObject blake3 params registrations {
    genesisParamsHash := paramsHash
    genesisCommitmentRoot :=
      computeGenesisCommitmentRoot blake3 paramsHash registrations
    participantPubkeys :=
      (sortByKey RegistrationCommitment.pubkey registrations).map
        RegistrationCommitment.pubkey
    initialUtxoSetRoot := initialUtxoSetRoot
    timestamp := timestamp
  }

/-- A ceremony with participants and a time passes, and its object carries it. -/
theorem passes_and_carries_carriedOut
    {params : GenesisParams}
    {registrations : List RegistrationCommitment}
    {initialUtxoSetRoot : Bytes32}
    {timestamp : UInt64}
    (participants : registrations ≠ [])
    (timed : timestamp ≠ 0) :
    let ceremony :=
      carriedOut blake3 params registrations initialUtxoSetRoot timestamp
    ceremony.Passes blake3 (finalizeGenesis blake3 ceremony.object) ∧
      ceremony.Carries := by
  refine ⟨passes_forObject ⟨?_, timed, ?_⟩, rfl, rfl, rfl⟩
  · intro none
    apply participants
    have sortedNone := List.map_eq_nil_iff.mp none
    have reordered := sortByKey_perm RegistrationCommitment.pubkey registrations
    rw [sortedNone] at reordered
    exact List.nil_perm.mp reordered
  · exact
      List.pairwise_map.mpr
        (pairwise_sortByKey RegistrationCommitment.pubkey registrations)

/-- BLAKE3 does not collide on these messages. -/
def CollisionFree
    (blake3 : List UInt8 → Bytes32)
    (messages : List (List UInt8)) : Prop :=
  ∀ message ∈ messages, ∀ message' ∈ messages,
    blake3 message = blake3 message' → message = message'

/-- Messages do not collide when they are among messages whose hashes all differ. -/
theorem collisionFree_of_nodup
    {messages : List (List UInt8)}
    (allMessages : List (List UInt8))
    (among : ∀ message ∈ messages, message ∈ allMessages)
    (distinct : (allMessages.map blake3).Nodup) :
    CollisionFree blake3 messages := by
  intro message listed message' listed' same
  exact
    List.inj_on_of_nodup_map distinct (among message listed)
      (among message' listed') same

section Binding

variable
  {ceremony ceremony' : GenesisArguments}
  {expectedGenesisHash : Bytes32}
  (collisionFree :
    CollisionFree blake3 (ceremony.messages ++ ceremony'.messages))
  (verified : ceremony.Verified blake3 expectedGenesisHash)
  (verified' : ceremony'.Verified blake3 expectedGenesisHash)

include collisionFree verified verified'

/-- The genesis hash binds the object. -/
theorem object_eq : ceremony.object = ceremony'.object := by
  have sameMessage :
      objectMessage ceremony.object = objectMessage ceremony'.object := by
    apply collisionFree _ (by simp [messages]) _ (by simp [messages])
    exact verified.genesisHash.trans verified'.genesisHash.symm
  exact GenesisObject.serialize_injective (List.append_cancel_left sameMessage)

/-- One hash of the parameters binds them. -/
theorem params_eq
    (sameHash : ceremony.genesisParamsHash = ceremony'.genesisParamsHash) :
    ceremony.params = ceremony'.params := by
  have sameMessage :
      paramsMessage ceremony.params = paramsMessage ceremony'.params := by
    apply collisionFree _ (by simp [messages]) _ (by simp [messages])
    exact verified.paramsHash.trans (sameHash.trans verified'.paramsHash.symm)
  exact GenesisParams.serialize_injective (List.append_cancel_left sameMessage)

/-- One commitment root binds the registrations up to their order. -/
theorem registrations_perm
    (sameHash : ceremony.genesisParamsHash = ceremony'.genesisParamsHash)
    (sameRoot :
      ceremony.genesisCommitmentRoot = ceremony'.genesisCommitmentRoot) :
    ceremony.registrations.Perm ceremony'.registrations := by
  have sameMessage :
      commitmentMessage ceremony.genesisParamsHash ceremony.registrations =
        commitmentMessage ceremony'.genesisParamsHash
          ceremony'.registrations := by
    apply collisionFree _ (by simp [messages]) _ (by simp [messages])
    exact
      verified.commitmentRoot.trans
        (sameRoot.trans verified'.commitmentRoot.symm)
  rw [commitmentMessage, commitmentMessage, sameHash] at sameMessage
  have sameSorted :=
    RegistrationCommitment.flatMap_bytes_injective
      (List.append_cancel_left sameMessage)
  exact
    (sortByKey_perm _ _).symm.trans
      ((List.Perm.of_eq sameSorted).trans (sortByKey_perm _ _))

end Binding

/--
Two ceremonies that pass for one genesis hash are the same, and their objects
carry them, exactly when both objects pass the first two points themselves and
name the registered keys.
-/
theorem runAllGvp_binds_iff
    {ceremony ceremony' : GenesisArguments}
    {expectedGenesisHash : Bytes32}
    (collisionFree :
      CollisionFree blake3 (ceremony.messages ++ ceremony'.messages))
    (passes : ceremony.Passes blake3 expectedGenesisHash)
    (passes' : ceremony'.Passes blake3 expectedGenesisHash) :
    (SameCeremony ceremony ceremony' ∧ ceremony.Carries ∧ ceremony'.Carries) ↔
      ceremony.ObjectVerified blake3 ∧ ceremony'.ObjectVerified blake3 := by
  have verified := passes_iff_verified.mp passes
  have verified' := passes_iff_verified.mp passes'
  rw [← verified.carries_iff, ← verified'.carries_iff]
  constructor
  · rintro ⟨-, carries, carries'⟩
    exact ⟨carries, carries'⟩
  · rintro ⟨carries, carries'⟩
    -- The object is one, so the commitments that it carries are.
    have sameObject := object_eq collisionFree verified verified'
    have sameHash : ceremony.genesisParamsHash = ceremony'.genesisParamsHash := by
      rw [← carries.paramsHash, ← carries'.paramsHash, sameObject]
    have sameRoot :
        ceremony.genesisCommitmentRoot = ceremony'.genesisCommitmentRoot := by
      rw [← carries.commitmentRoot, ← carries'.commitmentRoot, sameObject]
    exact
      ⟨{ params := params_eq collisionFree verified verified' sameHash
         object := sameObject
         registrations :=
           registrations_perm collisionFree verified verified' sameHash
             sameRoot },
        carries, carries'⟩

/-- A hash that tells messages of different lengths apart. -/
def lengthHash (message : List UInt8) : Bytes32 :=
  Bytes32.endingIn (UInt8.ofNat message.length)

/-- Two participants. -/
def twoRegistrations : List RegistrationCommitment :=
  [⟨Bytes32.endingIn 1, Bytes32.zero⟩, ⟨Bytes32.endingIn 2, Bytes32.zero⟩]

/-- A ceremony of two participants, listed in one order and in the other. -/
theorem runAllGvp_binds_iff_two :
    let ceremony :=
      carriedOut lengthHash (.canonical 1700000000) twoRegistrations
        Bytes32.zero 1700000000
    let ceremony' :=
      carriedOut lengthHash (.canonical 1700000000) twoRegistrations.reverse
        Bytes32.zero 1700000000
    SameCeremony ceremony ceremony' ∧ ceremony.Carries ∧ ceremony'.Carries := by
  intro ceremony ceremony'
  have sameSorted :
      sortByKey RegistrationCommitment.pubkey twoRegistrations.reverse =
        sortByKey RegistrationCommitment.pubkey twoRegistrations :=
    sortByKey_eq_of_perm (by decide) (List.reverse_perm twoRegistrations)
  have sameObject : ceremony'.object = ceremony.object := by
    simp only [ceremony, ceremony', carriedOut, forObject,
      computeGenesisCommitmentRoot, commitmentMessage, sameSorted]
  have sameMessages : ceremony'.messages = ceremony.messages := by
    rw [messages, messages, sameObject]
    simp only [ceremony, ceremony', carriedOut, forObject, commitmentMessage,
      sameSorted]
  have hashes :
      ceremony.messages.map lengthHash =
        [.endingIn 96, .endingIn 184, .endingIn 200] := by
    simp [messages, lengthHash, length_paramsMessage, length_commitmentMessage,
      length_objectMessage, ceremony, carriedOut, forObject, twoRegistrations,
      (sortByKey_perm _ _).length_eq]
  have collisionFree :
      CollisionFree lengthHash (ceremony.messages ++ ceremony'.messages) := by
    apply collisionFree_of_nodup ceremony.messages
    · simp [sameMessages]
    · rw [hashes]
      decide
  have passed :
      ceremony.Passes lengthHash (finalizeGenesis lengthHash ceremony.object) ∧
        ceremony.Carries :=
    passes_and_carries_carriedOut (by decide) (by decide)
  have passed' :
      ceremony'.Passes lengthHash (finalizeGenesis lengthHash ceremony'.object) ∧
        ceremony'.Carries :=
    passes_and_carries_carriedOut (by decide) (by decide)
  rw [sameObject] at passed'
  exact
    (runAllGvp_binds_iff collisionFree passed.1 passed'.1).mpr
      ⟨(passes_iff_verified.mp passed.1).carries_iff.mp passed.2,
        (passes_iff_verified.mp passed'.1).carries_iff.mp passed'.2⟩

/-- An array that holds a length, and one byte from index 28 on. -/
def lengthAndByte (length : Nat) (byte : UInt8) : Bytes32 where
  bytes := List.replicate 28 (UInt8.ofNat length) ++ List.replicate 4 byte
  length_eq := by
    simp

/-- A hash that reads the length, and the byte where the timestamp of the parameters is. -/
def timestampHash (message : List UInt8) : Bytes32 :=
  lengthAndByte message.length (message.getD 52 0)

/-- An object that names neither commitment nor the participant. -/
def strayObject : GenesisObject where
  genesisParamsHash := Bytes32.zero
  genesisCommitmentRoot := Bytes32.zero
  participantPubkeys := [Bytes32.endingIn 7]
  initialUtxoSetRoot := Bytes32.zero
  timestamp := 1

/-- A run for parameters of some time, with one participant and the stray object. -/
def strayCeremony (genesisTimestamp : UInt64) : GenesisArguments :=
  forObject timestampHash (.canonical genesisTimestamp)
    [⟨Bytes32.endingIn 1, Bytes32.zero⟩] strayObject

/-- One object passes for parameters of two times, and carries neither. -/
theorem runAllGvp_not_binding :
    ¬∀ (ceremony ceremony' : GenesisArguments) (expectedGenesisHash : Bytes32),
      CollisionFree timestampHash (ceremony.messages ++ ceremony'.messages) →
      (ceremony.registrations.map RegistrationCommitment.pubkey).Nodup →
      (ceremony'.registrations.map RegistrationCommitment.pubkey).Nodup →
      ceremony.Passes timestampHash expectedGenesisHash →
      ceremony'.Passes timestampHash expectedGenesisHash →
        SameCeremony ceremony ceremony' ∧ ceremony.Carries ∧
          ceremony'.Carries := by
  intro binding
  have consistent : strayObject.Consistent := by
    refine ⟨by decide, by decide, List.pairwise_singleton _ _⟩
  have collisionFree :
      CollisionFree timestampHash
        ((strayCeremony 1).messages ++ (strayCeremony 2).messages) := by
    apply collisionFree_of_nodup
      ((strayCeremony 1).messages ++ (strayCeremony 2).messages.take 2)
    · simp [messages, strayCeremony, forObject]
    · have hashes :
          ((strayCeremony 1).messages ++ (strayCeremony 2).messages.take 2).map
              timestampHash =
            [ lengthAndByte 96 1, lengthAndByte 120 1, lengthAndByte 168 0,
              lengthAndByte 96 2, lengthAndByte 120 2 ] := by
        simp only [messages, strayCeremony, forObject, List.take,
          List.cons_append, List.nil_append, List.map_cons, List.map_nil,
          computeGenesisParamsHash, timestampHash, length_paramsMessage,
          length_commitmentMessage, length_objectMessage]
        rfl
      rw [hashes]
      decide
  have bound :=
    binding (strayCeremony 1) (strayCeremony 2)
      (finalizeGenesis timestampHash strayObject) collisionFree (by decide)
      (by decide) (passes_forObject consistent) (passes_forObject consistent)
  exact absurd bound.1.params (by decide)

end GenesisArguments

end ScalarCore
