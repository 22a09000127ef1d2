import Mathlib.Data.List.Induction
import Mathlib.Data.List.Nodup
import ScalarCore.MachineInt
import ScalarCore.StateMachine

namespace ScalarCore

/-!
# The suites of cryptographic algorithms

A node registers suites with growing versions and forgets none.  Two nodes use the
greatest version that both have registered.
-/

open StateMachine

/-- `HashFunction`. -/
inductive HashFunction where
  | poseidon2Goldilocks
  deriving Repr, DecidableEq

/-- `SignatureScheme`. -/
inductive SignatureScheme where
  | slhDsa
  deriving Repr, DecidableEq

/-- `ProofSystem`. -/
inductive ProofSystem where
  | plonky3Fri
  deriving Repr, DecidableEq

/-- `P2pKeyExchange`. -/
inductive P2pKeyExchange where
  | hybridX25519MlKem768
  deriving Repr, DecidableEq

/-- `CryptoSuiteDescriptor`. -/
structure CryptoSuiteDescriptor where
  version : UInt8
  hashFunction : HashFunction
  signatureScheme : SignatureScheme
  proofSystem : ProofSystem
  p2pKeyExchange : P2pKeyExchange
  label : String
  deriving DecidableEq

/-- `SUITE_V1`. -/
def suiteV1 : UInt8 :=
  1

/-- `v1`. -/
def CryptoSuiteDescriptor.v1 : CryptoSuiteDescriptor where
  version := suiteV1
  hashFunction := .poseidon2Goldilocks
  signatureScheme := .slhDsa
  proofSystem := .plonky3Fri
  p2pKeyExchange := .hybridX25519MlKem768
  label := "CRYPTO_SUITE_V1 (GENESIS)"

/-- `RegistryError`. -/
inductive RegistryError where
  | downgradeForbidden (new current : UInt8)
  | cannotRemoveV1
  | notFound (version : UInt8)
  | empty
  deriving Repr, DecidableEq

/-- `CryptoSuiteRegistry`. -/
structure CryptoSuiteRegistry where
  suites : List CryptoSuiteDescriptor

namespace CryptoSuiteRegistry

/-- The versions, in the order of registration. -/
def versions (registry : CryptoSuiteRegistry) : List UInt8 :=
  registry.suites.map CryptoSuiteDescriptor.version

/-- `new`. -/
def new : CryptoSuiteRegistry where
  suites := [.v1]

/-- `append`. -/
def append
    (registry : CryptoSuiteRegistry)
    (suite : CryptoSuiteDescriptor) : CryptoSuiteRegistry × Except RegistryError Unit :=
  let maxVersion := registry.versions.max?.getD 0
  if suite.version ≤ maxVersion then
    (registry, .error (.downgradeForbidden suite.version maxVersion))
  else
    ({ suites := registry.suites ++ [suite] }, .ok ())

/-- `get`. -/
def get (registry : CryptoSuiteRegistry) (version : UInt8) : Option CryptoSuiteDescriptor :=
  registry.suites.find? fun suite => suite.version = version

/-- `active_version`. -/
def activeVersion (registry : CryptoSuiteRegistry) : UInt8 :=
  registry.versions.max?.getD suiteV1

/-- `all_versions`. -/
def allVersions (registry : CryptoSuiteRegistry) : List UInt8 :=
  registry.versions.mergeSort (· ≤ ·)

/-- `has_v1`. -/
def hasV1 (registry : CryptoSuiteRegistry) : Bool :=
  registry.suites.any fun suite => suite.version = suiteV1

end CryptoSuiteRegistry

/-- `negotiate_version`. -/
def negotiateVersion (localVersions remoteVersions : List UInt8) : Option UInt8 :=
  (localVersions.filter fun version => remoteVersions.contains version).max?

/-- The maximum of two versions is the greater one. -/
instance lawfulOrderMaxUInt8 : Std.LawfulOrderMax UInt8 where
  max_eq_or left right := by
    change (if left ≤ right then right else left) = _ ∨ (if left ≤ right then right else left) = _
    split
    · exact Or.inr rfl
    · exact Or.inl rfl
  max_le_iff left right bound := by
    change (if left ≤ right then right else left) ≤ bound ↔ _
    simp only [UInt8.le_iff_toNat_le]
    split
    · omega
    · omega

namespace CryptoSuiteRegistry

/-!
## The registry of a node
-/

/-- The suites are those of growing versions, from the first one on. -/
structure Ordered (registry : CryptoSuiteRegistry) : Prop where
  first : registry.suites.head? = some .v1
  growing : registry.suites.Pairwise fun earlier later => earlier.version < later.version

theorem ordered_new : new.Ordered where
  first := rfl
  growing := List.pairwise_singleton _ _

/-- The greatest version is the last one. -/
theorem Ordered.max?_versions
    {registry : CryptoSuiteRegistry}
    (ordered : registry.Ordered) :
    registry.versions.max? = registry.versions.getLast? := by
  have growing : registry.versions.Pairwise (· < ·) := by
    rw [versions, List.pairwise_map]
    exact ordered.growing
  cases same : registry.versions using List.reverseRecOn with
  | nil =>
      rfl
  | append_singleton earlier last =>
      rw [same, List.pairwise_append] at growing
      rw [List.getLast?_concat, List.max?_eq_some_iff]
      refine ⟨List.mem_append_right _ (List.mem_singleton_self last), fun version listed => ?_⟩
      rcases List.mem_append.mp listed with isEarlier | isLast
      · exact UInt8.le_of_lt (growing.2.2 version isEarlier last (List.mem_singleton_self last))
      · rw [List.mem_singleton.mp isLast]
        exact UInt8.le_refl _

/-- No version is greater than the active one, which is registered. -/
theorem Ordered.activeVersion_spec
    {registry : CryptoSuiteRegistry}
    (ordered : registry.Ordered) :
    registry.versions.max? = some registry.activeVersion ∧
      registry.activeVersion ∈ registry.versions ∧
      ∀ version ∈ registry.versions, version ≤ registry.activeVersion := by
  have isMax : registry.versions.max? = some registry.activeVersion := by
    rw [activeVersion]
    cases none : registry.versions.max? with
    | some greatest =>
        rfl
    | none =>
        rw [List.max?_eq_none_iff, versions, List.map_eq_nil_iff] at none
        have first := ordered.first
        rw [none] at first
        cases first
  exact ⟨isMax, List.max?_eq_some_iff.mp isMax⟩

/-- What an append does. -/
inductive AppendKind
    (registry : CryptoSuiteRegistry)
    (suite : CryptoSuiteDescriptor) : Prop where
  | appended
      (newer : registry.activeVersion < suite.version)
      (result : registry.append suite = ({ suites := registry.suites ++ [suite] }, .ok ()))
  | refused
      (notNewer : suite.version ≤ registry.activeVersion)
      (result :
        registry.append suite =
          (registry, .error (.downgradeForbidden suite.version registry.activeVersion)))

theorem Ordered.append_kind
    {registry : CryptoSuiteRegistry}
    (ordered : registry.Ordered)
    (suite : CryptoSuiteDescriptor) : AppendKind registry suite := by
  have isMax := ordered.activeVersion_spec.1
  by_cases notNewer : suite.version ≤ registry.activeVersion
  · exact
      .refused notNewer
        (by rw [append, isMax, Option.getD_some]; exact if_pos notNewer)
  · exact
      .appended (UInt8.not_le.mp notNewer)
        (by rw [append, isMax, Option.getD_some]; exact if_neg notNewer)

/-- A new suite has a greater version than all others. -/
theorem Ordered.append
    {registry : CryptoSuiteRegistry}
    (ordered : registry.Ordered)
    (suite : CryptoSuiteDescriptor) : (registry.append suite).1.Ordered := by
  cases ordered.append_kind suite with
  | refused notNewer result =>
      rwa [result]
  | appended newer result =>
      rw [result]
      constructor
      · have first := ordered.first
        cases same : registry.suites with
        | nil =>
            rw [same] at first
            cases first
        | cons genesis rest =>
            rw [same] at first
            exact first
      · rw [List.pairwise_append]
        refine ⟨ordered.growing, List.pairwise_singleton _ _, fun earlier listed later isLast => ?_⟩
        rw [List.mem_singleton.mp isLast]
        have bound :=
          ordered.activeVersion_spec.2.2 earlier.version (List.mem_map_of_mem listed)
        rw [UInt8.le_iff_toNat_le] at bound
        rw [UInt8.lt_iff_toNat_lt] at newer ⊢
        omega

/-- The registry of a node after appends. -/
def afterAppends (suites : List CryptoSuiteDescriptor) : CryptoSuiteRegistry :=
  run append new suites

theorem ordered_afterAppends (suites : List CryptoSuiteDescriptor) :
    (afterAppends suites).Ordered := by
  have kept (registry : CryptoSuiteRegistry) (suite : CryptoSuiteDescriptor)
      (ordered : registry.Ordered) : (registry.append suite).1.Ordered :=
    ordered.append suite
  exact run_invariant kept ordered_new suites

/-- A suite is found under its version, and under no other one. -/
theorem Ordered.get_eq_some_iff
    {registry : CryptoSuiteRegistry}
    (ordered : registry.Ordered)
    {version : UInt8}
    {suite : CryptoSuiteDescriptor} :
    registry.get version = some suite ↔ suite ∈ registry.suites ∧ suite.version = version := by
  rw [get]
  constructor
  · intro found
    have named := List.find?_some found
    rw [decide_eq_true_iff] at named
    exact ⟨List.mem_of_find?_eq_some found, named⟩
  · rintro ⟨listed, rfl⟩
    have exists_found :
        (registry.suites.find? fun other => decide (other.version = suite.version)).isSome :=
      List.find?_isSome.mpr ⟨suite, listed, decide_eq_true rfl⟩
    obtain ⟨found, isFound⟩ := Option.isSome_iff_exists.mp exists_found
    have named := List.find?_some isFound
    rw [decide_eq_true_iff] at named
    rw [isFound, Option.some_inj]
    have distinct : (registry.suites.map CryptoSuiteDescriptor.version).Nodup := by
      rw [List.Nodup, List.pairwise_map]
      exact ordered.growing.imp UInt8.ne_of_lt
    exact
      List.inj_on_of_nodup_map distinct (List.mem_of_find?_eq_some isFound) listed named

/-- The versions are sorted as they are. -/
theorem Ordered.allVersions_eq
    {registry : CryptoSuiteRegistry}
    (ordered : registry.Ordered) : registry.allVersions = registry.versions := by
  apply List.mergeSort_of_pairwise
  rw [versions, List.pairwise_map]
  exact ordered.growing.imp fun newer => decide_eq_true (UInt8.le_of_lt newer)

theorem Ordered.v1_mem
    {registry : CryptoSuiteRegistry}
    (ordered : registry.Ordered) : CryptoSuiteDescriptor.v1 ∈ registry.suites :=
  List.mem_of_head? ordered.first

/-- The suites are those that were there, followed by the accepted ones. -/
theorem suites_run
    (registry : CryptoSuiteRegistry)
    (suites : List CryptoSuiteDescriptor) :
    (run append registry suites).suites =
      registry.suites ++ accepted Except.isOk append registry suites := by
  induction suites generalizing registry with
  | nil =>
      rw [run_nil, accepted_nil, List.append_nil]
  | cons suite rest inductionHypothesis =>
      rw [run_cons, inductionHypothesis]
      by_cases notNewer : suite.version ≤ registry.versions.max?.getD 0
      · have refused :
            registry.append suite =
              (registry,
                .error (.downgradeForbidden suite.version (registry.versions.max?.getD 0))) :=
          if_pos notNewer
        rw [accepted_cons_of_refused (by rw [refused]; rfl), refused]
      · have appended :
            registry.append suite = ({ suites := registry.suites ++ [suite] }, .ok ()) :=
          if_neg notNewer
        rw [accepted_cons_of_ok (by rw [appended]; rfl), appended, List.append_assoc,
          List.singleton_append]

/-- What the registry of a node holds after appends. -/
structure Registers
    (suites : List CryptoSuiteDescriptor)
    (registry : CryptoSuiteRegistry) : Prop where
  suites : registry.suites = .v1 :: accepted Except.isOk append new suites
  growing : registry.suites.Pairwise fun earlier later => earlier.version < later.version
  found :
    ∀ version suite,
      registry.get version = some suite ↔ suite ∈ registry.suites ∧ suite.version = version
  genesis : registry.hasV1 = true ∧ registry.get suiteV1 = some .v1
  active : registry.versions.getLast? = some registry.activeVersion
  sorted : registry.allVersions = registry.versions
  next : ∀ suite, AppendKind registry suite

/--
After any appends the registry holds the first suite and the accepted ones, in order
and with growing versions.  Each is found under its version, the active one is the
last, and a further append is accepted exactly when its version is greater.
-/
theorem registers (suites : List CryptoSuiteDescriptor) :
    Registers suites (afterAppends suites) := by
  have ordered := ordered_afterAppends suites
  refine
    ⟨suites_run new suites, ordered.growing, fun _ _ => ordered.get_eq_some_iff, ?_, ?_,
      ordered.allVersions_eq, ordered.append_kind⟩
  · exact
      ⟨List.any_eq_true.mpr ⟨.v1, ordered.v1_mem, decide_eq_true rfl⟩,
        ordered.get_eq_some_iff.mpr ⟨ordered.v1_mem, rfl⟩⟩
  · rw [← ordered.max?_versions]
    exact ordered.activeVersion_spec.1

end CryptoSuiteRegistry

/-!
## The version of two nodes
-/

open CryptoSuiteRegistry

/-- The negotiated version is the greatest common one. -/
theorem negotiateVersion_eq_some_iff
    {localVersions remoteVersions : List UInt8}
    {version : UInt8} :
    negotiateVersion localVersions remoteVersions = some version ↔
      (version ∈ localVersions ∧ version ∈ remoteVersions) ∧
        ∀ other ∈ localVersions, other ∈ remoteVersions → other ≤ version := by
  rw [negotiateVersion, List.max?_eq_some_iff]
  simp only [List.mem_filter, List.contains_iff_mem, and_imp]

/-- The version that two nodes negotiate, asked from both sides. -/
structure Agree
    (mine theirs : CryptoSuiteRegistry)
    (version : UInt8) : Prop where
  asked : negotiateVersion mine.allVersions theirs.allVersions = some version
  answered : negotiateVersion theirs.allVersions mine.allVersions = some version
  registered : version ∈ mine.versions ∧ version ∈ theirs.versions
  greatest :
    ∀ suite ∈ mine.suites, ∀ suite' ∈ theirs.suites,
      suite.version = suite'.version → suite.version ≤ version

/-- Two registries of growing versions agree, since both hold the first one. -/
theorem exists_agree
    {mine theirs : CryptoSuiteRegistry}
    (ordered : mine.Ordered)
    (ordered' : theirs.Ordered) : ∃ version, Agree mine theirs version := by
  have first : suiteV1 ∈ mine.versions := List.mem_map_of_mem ordered.v1_mem
  have first' : suiteV1 ∈ theirs.versions := List.mem_map_of_mem ordered'.v1_mem
  cases negotiated : negotiateVersion mine.versions theirs.versions with
  | none =>
      rw [negotiateVersion, List.max?_eq_none_iff, List.filter_eq_nil_iff] at negotiated
      exact absurd (List.contains_iff_mem.mpr first') (negotiated suiteV1 first)
  | some version =>
      obtain ⟨registered, greatest⟩ := negotiateVersion_eq_some_iff.mp negotiated
      refine ⟨version, ?_, ?_, registered, ?_⟩
      · rw [ordered.allVersions_eq, ordered'.allVersions_eq, negotiated]
      · rw [ordered.allVersions_eq, ordered'.allVersions_eq]
        exact
          negotiateVersion_eq_some_iff.mpr
            ⟨registered.symm, fun other isTheirs isMine => greatest other isMine isTheirs⟩
      · intro suite isMine suite' isTheirs same
        refine greatest _ (List.mem_map_of_mem isMine) ?_
        rw [same]
        exact List.mem_map_of_mem isTheirs

/-- What was registered stays so. -/
theorem mem_versions_append
    {suites more : List CryptoSuiteDescriptor}
    {version : UInt8}
    (registered : version ∈ (afterAppends suites).versions) :
    version ∈ (afterAppends (suites ++ more)).versions := by
  rw [afterAppends, run_append, versions, suites_run, List.map_append]
  exact List.mem_append_left _ registered

/--
Two nodes negotiate the same version, whatever they have appended and whichever asks:
the greatest that both have registered.  It never falls when they append more.
-/
theorem nodes_agree (mine theirs : List CryptoSuiteDescriptor) :
    ∃ version,
      Agree (afterAppends mine) (afterAppends theirs) version ∧
        ∀ more more',
          ∃ version',
            Agree (afterAppends (mine ++ more)) (afterAppends (theirs ++ more')) version' ∧
              version ≤ version' := by
  obtain ⟨version, agree⟩ :=
    exists_agree (ordered_afterAppends mine) (ordered_afterAppends theirs)
  refine ⟨version, agree, fun more more' => ?_⟩
  have ordered := ordered_afterAppends (mine ++ more)
  have ordered' := ordered_afterAppends (theirs ++ more')
  obtain ⟨version', agree'⟩ := exists_agree ordered ordered'
  have negotiated := agree'.asked
  rw [ordered.allVersions_eq, ordered'.allVersions_eq, negotiateVersion_eq_some_iff]
    at negotiated
  exact
    ⟨version', agree',
      negotiated.2 version (mem_versions_append agree.registered.1)
        (mem_versions_append agree.registered.2)⟩

/-!
## The window of two versions
-/

/-- `DUAL_VERSION_WINDOW_EPOCHS`. -/
def dualVersionWindowEpochs : UInt64 :=
  12

/-- `DualVersionWindow`. -/
structure DualVersionWindow where
  oldVersion : UInt8
  newVersion : UInt8
  transitionStartedEpoch : UInt64
  deriving DecidableEq

namespace DualVersionWindow

open MachineInt

/-- `new`. -/
def new
    (oldVersion newVersion : UInt8)
    (currentEpoch : UInt64) : Except RegistryError DualVersionWindow :=
  if newVersion ≤ oldVersion then
    .error (.downgradeForbidden newVersion oldVersion)
  else
    .ok { oldVersion, newVersion, transitionStartedEpoch := currentEpoch }

/-- `is_version_valid`. -/
def isVersionValid (window : DualVersionWindow) (version : UInt8) (currentEpoch : UInt64) : Bool :=
  if version = window.newVersion then
    true
  else if version = window.oldVersion then
    let elapsed := saturatingSub currentEpoch window.transitionStartedEpoch
    elapsed < dualVersionWindowEpochs
  else
    false

/-- `epochs_remaining`. -/
def epochsRemaining (window : DualVersionWindow) (currentEpoch : UInt64) : UInt64 :=
  let elapsed := saturatingSub currentEpoch window.transitionStartedEpoch
  saturatingSub dualVersionWindowEpochs elapsed

/-- `is_expired`. -/
def isExpired (window : DualVersionWindow) (currentEpoch : UInt64) : Bool :=
  window.epochsRemaining currentEpoch = 0

theorem isExpired_iff (window : DualVersionWindow) (currentEpoch : UInt64) :
    window.isExpired currentEpoch = true ↔
      window.transitionStartedEpoch.toNat + 12 ≤ currentEpoch.toNat := by
  have twelve : dualVersionWindowEpochs.toNat = 12 := rfl
  have zero : (0 : UInt64).toNat = 0 := rfl
  rw [isExpired, decide_eq_true_iff, epochsRemaining, ← UInt64.toNat_inj, toNat_saturatingSub,
    toNat_saturatingSub, twelve, zero]
  omega

/-- Of a window for different versions, the old one is valid until the window has expired. -/
theorem isVersionValid_iff
    {oldVersion newVersion : UInt8}
    {startedEpoch : UInt64}
    {window : DualVersionWindow}
    (isNew : new oldVersion newVersion startedEpoch = .ok window)
    (version : UInt8)
    (currentEpoch : UInt64) :
    window.isVersionValid version currentEpoch = true ↔
      version = newVersion ∨ version = oldVersion ∧ window.isExpired currentEpoch = false := by
  rw [new] at isNew
  split at isNew
  · cases isNew
  · rename_i notOlder
    cases isNew
    have different : newVersion ≠ oldVersion := by
      rintro rfl
      exact notOlder (UInt8.le_refl _)
    have twelve : dualVersionWindowEpochs.toNat = 12 := rfl
    rw [isVersionValid, ← Bool.not_eq_true, isExpired_iff]
    by_cases isNewer : version = newVersion
    · rw [if_pos isNewer]
      exact iff_of_true rfl (Or.inl isNewer)
    · rw [if_neg isNewer, or_iff_right isNewer]
      by_cases isOlder : version = oldVersion
      · rw [if_pos isOlder, and_iff_right isOlder, decide_eq_true_iff, UInt64.lt_iff_toNat_lt,
          toNat_saturatingSub, twelve]
        dsimp only
        omega
      · rw [if_neg isOlder]
        exact iff_of_false Bool.false_ne_true fun old => isOlder old.1

end DualVersionWindow

end ScalarCore
