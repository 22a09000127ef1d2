import ScalarCore.Bytes
import ScalarCore.CollisionFree
import ScalarCore.KeyedWrites
import ScalarCore.Smt
import ScalarCore.StateMachine

namespace ScalarCore

/-!
# The bindings of governance keys

A node registers its governance key once, and may only replace it by binding again.
The root of a manifest commits to all bindings in the order of the node ids.
-/

open CollisionFree KeyedWrites StateMachine

/-- `GovernanceBinding`. -/
structure GovernanceBinding where
  governanceIdPub : Bytes32
  deriving DecidableEq

/-- `GovernanceBindingError`. -/
inductive GovernanceBindingError where
  | alreadyBound
  | notFound
  deriving Repr, DecidableEq

/-- `GovernanceBindingStore`. -/
structure GovernanceBindingStore where
  bindings : Finmap fun _ : Bytes32 => GovernanceBinding

/-- A call of the store. -/
inductive BindingCall where
  | register (nodeIdFull governanceIdPub : Bytes32)
  | rebind (nodeIdFull governanceIdPub : Bytes32)
  deriving DecidableEq

namespace GovernanceBindingStore

/-- `new`. -/
def new : GovernanceBindingStore where
  bindings := ∅

/-- `get`. -/
def get (store : GovernanceBindingStore) (nodeIdFull : Bytes32) : Option GovernanceBinding :=
  store.bindings.lookup nodeIdFull

/-- `is_bound`. -/
def isBound (store : GovernanceBindingStore) (nodeIdFull : Bytes32) : Bool :=
  (store.get nodeIdFull).isSome

/-- `register`. -/
def register
    (store : GovernanceBindingStore)
    (nodeIdFull governanceIdPub : Bytes32) :
    GovernanceBindingStore × Except GovernanceBindingError Unit :=
  if store.isBound nodeIdFull then
    (store, .error .alreadyBound)
  else
    ({ bindings := store.bindings.insert nodeIdFull { governanceIdPub } }, .ok ())

/-- `rebind`. -/
def rebind
    (store : GovernanceBindingStore)
    (nodeIdFull governanceIdPubNew : Bytes32) :
    GovernanceBindingStore × Except GovernanceBindingError Unit :=
  match store.get nodeIdFull with
  | none => (store, .error .notFound)
  | some entry =>
      ({ bindings :=
          store.bindings.insert nodeIdFull
            { entry with governanceIdPub := governanceIdPubNew } },
        .ok ())

/-- Perform a call. -/
def step (store : GovernanceBindingStore) :
    BindingCall → GovernanceBindingStore × Except GovernanceBindingError Unit
  | .register nodeIdFull governanceIdPub => store.register nodeIdFull governanceIdPub
  | .rebind nodeIdFull governanceIdPub => store.rebind nodeIdFull governanceIdPub

/-- `iter_sorted`. -/
def iterSorted (store : GovernanceBindingStore) : List (Bytes32 × GovernanceBinding) :=
  itemsAt store.bindings (IterationOrder.ascending.list store.bindings.keys)

/-- `DOMAIN_GOV_BINDING`. -/
def domainGovBinding : List UInt8 :=
  asciiBytes "scalar_gov_binding"

/-- The preimage of a leaf. -/
def leafPreimage (item : Bytes32 × GovernanceBinding) : List UInt8 :=
  domainGovBinding ++ item.1.bytes ++ item.2.governanceIdPub.bytes

/-- The preimage of the root. -/
def rootPreimage (blake3 : List UInt8 → Bytes32) (store : GovernanceBindingStore) : List UInt8 :=
  domainGovBinding ++
    (store.iterSorted.map fun item => blake3 (leafPreimage item)).flatMap Bytes32.bytes

/-- `merkle_root`. -/
def merkleRoot (blake3 : List UInt8 → Bytes32) (store : GovernanceBindingStore) : Bytes32 :=
  if store.iterSorted.isEmpty then
    Bytes32.zero
  else
    blake3 (rootPreimage blake3 store)

/-- The messages that are hashed for a root. -/
def messages
    (blake3 : List UInt8 → Bytes32)
    (store : GovernanceBindingStore) : List (List UInt8) :=
  rootPreimage blake3 store :: store.iterSorted.map leafPreimage

/-!
## Sequences of calls
-/

variable {store : GovernanceBindingStore} {nodeIdFull other governanceIdPub : Bytes32}

/-- The calls before which a node is bound. -/
def Registered (past : List BindingCall) (nodeIdFull : Bytes32) : Prop :=
  ∃ governanceIdPub, .register nodeIdFull governanceIdPub ∈ past

/-- No call binds a node again. -/
def NotRebound (calls : List BindingCall) (nodeIdFull : Bytes32) : Prop :=
  ∀ governanceIdPub, .rebind nodeIdFull governanceIdPub ∉ calls

theorem isBound_iff : store.isBound nodeIdFull = true ↔ store.get nodeIdFull ≠ none := by
  rw [isBound, Option.isSome_iff_ne_none]

/-- What is stored of a node after a call. -/
theorem get_step (call : BindingCall) :
    (store.step call).1.get other =
      match call with
      | .register nodeIdFull governanceIdPub =>
          if other = nodeIdFull then
            (store.get other).or (some { governanceIdPub })
          else
            store.get other
      | .rebind nodeIdFull governanceIdPub =>
          if other = nodeIdFull then
            (store.get other).map fun _ => { governanceIdPub }
          else
            store.get other := by
  cases call with
  | register nodeIdFull governanceIdPub =>
      dsimp only [step, register]
      by_cases same : other = nodeIdFull
      · subst same
        rw [if_pos rfl]
        cases present : store.get other with
        | none =>
            rw [if_neg (by rw [isBound, present]; exact Bool.false_ne_true)]
            exact Finmap.lookup_insert _
        | some binding =>
            rw [if_pos (by rw [isBound, present]; rfl)]
            exact present
      · rw [if_neg same]
        split
        · rfl
        · exact Finmap.lookup_insert_of_ne _ same
  | rebind nodeIdFull governanceIdPub =>
      dsimp only [step, rebind]
      by_cases same : other = nodeIdFull
      · subst same
        rw [if_pos rfl]
        cases present : store.get other with
        | none =>
            exact present
        | some binding =>
            exact Finmap.lookup_insert _
      · rw [if_neg same]
        cases store.get nodeIdFull with
        | none =>
            rfl
        | some binding =>
            exact Finmap.lookup_insert_of_ne _ same

/-- The store after calls. -/
def afterCalls (calls : List BindingCall) : GovernanceBindingStore :=
  run step new calls

theorem afterCalls_append (first later : List BindingCall) :
    afterCalls (first ++ later) = run step (afterCalls first) later :=
  run_append step new first later

/-- A node is bound once it has been registered. -/
theorem isBound_afterCalls (calls : List BindingCall) :
    (afterCalls calls).isBound nodeIdFull = true ↔ Registered calls nodeIdFull := by
  rw [isBound_iff]
  induction calls using List.reverseRecOn with
  | nil =>
      refine iff_of_false (not_not_intro (Finmap.lookup_empty nodeIdFull)) ?_
      rintro ⟨_, listed⟩
      cases listed
  | append_singleton earlier call inductionHypothesis =>
      have extended :
          Registered (earlier ++ [call]) nodeIdFull ↔
            Registered earlier nodeIdFull ∨
              ∃ governanceIdPub, call = .register nodeIdFull governanceIdPub := by
        simp only [Registered, List.mem_append, List.mem_singleton, exists_or, eq_comm]
      rw [extended, ← inductionHypothesis, afterCalls_append, run_cons, run_nil, get_step]
      cases call with
      | register called governanceIdPub =>
          by_cases same : nodeIdFull = called
          · subst same
            refine iff_of_true ?_ (Or.inr ⟨governanceIdPub, rfl⟩)
            simp
          · simp [same, Ne.symm same]
      | rebind called governanceIdPub =>
          by_cases same : nodeIdFull = called
          · simp [same]
          · simp [same]

/-- Calls that do not bind a node again leave its binding as it is. -/
theorem get_run_of_notRebound
    {binding : GovernanceBinding}
    (bound : store.get nodeIdFull = some binding)
    {calls : List BindingCall}
    (notRebound : NotRebound calls nodeIdFull) :
    (run step store calls).get nodeIdFull = some binding := by
  induction calls generalizing store with
  | nil =>
      exact bound
  | cons call rest inductionHypothesis =>
      rw [run_cons]
      refine inductionHypothesis ?_ fun governanceIdPub listed =>
        notRebound governanceIdPub (List.mem_cons_of_mem _ listed)
      rw [get_step]
      cases call with
      | register called governanceIdPub =>
          simp [bound]
      | rebind called governanceIdPub =>
          have different : nodeIdFull ≠ called := by
            rintro rfl
            exact notRebound governanceIdPub List.mem_cons_self
          simp [different, bound]

/-- How calls are answered and what they leave bound. -/
structure Binds (calls : List BindingCall) : Prop where
  answersRegister :
    ∀ earlier nodeIdFull governanceIdPub later,
      calls = earlier ++ .register nodeIdFull governanceIdPub :: later →
      ((afterCalls earlier).step (.register nodeIdFull governanceIdPub)).2 =
          (if (afterCalls earlier).isBound nodeIdFull then
            .error .alreadyBound
          else
            .ok ()) ∧
        ((afterCalls earlier).isBound nodeIdFull = true ↔ Registered earlier nodeIdFull)
  answersRebind :
    ∀ earlier nodeIdFull governanceIdPub later,
      calls = earlier ++ .rebind nodeIdFull governanceIdPub :: later →
      ((afterCalls earlier).step (.rebind nodeIdFull governanceIdPub)).2 =
        (if (afterCalls earlier).isBound nodeIdFull then
          .ok ()
        else
          .error .notFound)
  unbound :
    ∀ nodeIdFull,
      ¬Registered calls nodeIdFull → (afterCalls calls).get nodeIdFull = none
  first :
    ∀ earlier nodeIdFull governanceIdPub later,
      calls = earlier ++ .register nodeIdFull governanceIdPub :: later →
      ¬Registered earlier nodeIdFull →
      NotRebound later nodeIdFull →
      (afterCalls calls).get nodeIdFull = some { governanceIdPub }
  last :
    ∀ earlier nodeIdFull governanceIdPub later,
      calls = earlier ++ .rebind nodeIdFull governanceIdPub :: later →
      Registered earlier nodeIdFull →
      NotRebound later nodeIdFull →
      (afterCalls calls).get nodeIdFull = some { governanceIdPub }

/--
A node is bound by its first registration, and every later one is refused.  Its key
is the one of that registration, or that of the last call that bound it again.
-/
theorem binds (calls : List BindingCall) : Binds calls where
  answersRegister earlier nodeIdFull governanceIdPub later _ := by
    refine ⟨?_, isBound_afterCalls earlier⟩
    rw [step, register]
    split <;> rfl
  answersRebind earlier nodeIdFull governanceIdPub later _ := by
    rw [step, rebind, isBound]
    cases (afterCalls earlier).get nodeIdFull <;> rfl
  unbound nodeIdFull notRegistered := by
    rw [← isBound_afterCalls, isBound_iff, not_not] at notRegistered
    exact notRegistered
  first earlier nodeIdFull governanceIdPub later split notRegistered notRebound := by
    rw [← isBound_afterCalls, isBound_iff, not_not] at notRegistered
    rw [split, afterCalls_append, run_cons]
    refine get_run_of_notRebound ?_ notRebound
    rw [get_step]
    simp [notRegistered]
  last earlier nodeIdFull governanceIdPub later split registered notRebound := by
    rw [← isBound_afterCalls, isBound_iff] at registered
    obtain ⟨binding, bound⟩ := Option.ne_none_iff_exists'.mp registered
    rw [split, afterCalls_append, run_cons]
    refine get_run_of_notRebound ?_ notRebound
    rw [get_step]
    simp [bound]

/-!
## The root over the bindings
-/

variable {blake3 : List UInt8 → Bytes32}

/-- A leaf is hashed from what is bound. -/
theorem leafPreimage_injective : Function.Injective leafPreimage := by
  rintro ⟨nodeIdFull, binding⟩ ⟨nodeIdFull', binding'⟩ same
  have sameLength :
      (domainGovBinding ++ nodeIdFull.bytes).length =
        (domainGovBinding ++ nodeIdFull'.bytes).length := by
    rw [List.length_append, List.length_append, nodeIdFull.length_eq, nodeIdFull'.length_eq]
  obtain ⟨sameId, sameKey⟩ := List.append_inj same sameLength
  cases Bytes32.ext (List.append_cancel_left sameId)
  cases binding
  cases binding'
  cases Bytes32.ext sameKey
  rfl

/-- What is bound is listed, in the order of the node ids. -/
theorem mem_iterSorted
    {binding : GovernanceBinding} :
    (nodeIdFull, binding) ∈ store.iterSorted ↔ store.get nodeIdFull = some binding := by
  rw [iterSorted, mem_itemsAt, IterationOrder.ascending.mem_list, Finmap.mem_keys, get,
    and_iff_right_iff_imp]
  exact Finmap.mem_of_lookup_eq_some

/-- The list of the bindings says what is bound. -/
theorem iterSorted_eq_iff
    {store' : GovernanceBindingStore} :
    store.iterSorted = store'.iterSorted ↔
      ∀ nodeIdFull, store.get nodeIdFull = store'.get nodeIdFull := by
  constructor
  · intro same nodeIdFull
    apply Option.ext
    intro binding
    rw [← mem_iterSorted, ← mem_iterSorted, same]
  · intro same
    rw [iterSorted, iterSorted, Finmap.ext_lookup same]

/--
Two stores have the same root exactly when they bind the same keys, as long as no
two messages that are hashed for the roots collide and none is hashed to the root of
the empty store.
-/
theorem merkleRoot_eq_iff
    (store store' : GovernanceBindingStore)
    (collisionFree :
      Set.InjOn blake3
        {message | message ∈ messages blake3 store ∨ message ∈ messages blake3 store'})
    (nonzero : blake3 (rootPreimage blake3 store) ≠ Bytes32.zero)
    (nonzero' : blake3 (rootPreimage blake3 store') ≠ Bytes32.zero) :
    store.merkleRoot blake3 = store'.merkleRoot blake3 ↔
      ∀ nodeIdFull, store.get nodeIdFull = store'.get nodeIdFull := by
  rw [← iterSorted_eq_iff, merkleRoot, merkleRoot]
  cases first : store.iterSorted with
  | nil =>
      cases second : store'.iterSorted with
      | nil =>
          exact iff_of_true rfl rfl
      | cons item' rest' =>
          exact iff_of_false (Ne.symm nonzero') (List.cons_ne_nil _ _).symm
  | cons item rest =>
      cases second : store'.iterSorted with
      | nil =>
          exact iff_of_false nonzero (List.cons_ne_nil _ _)
      | cons item' rest' =>
          rw [← first, ← second]
          constructor
          · intro same
            rw [first, second] at same
            have samePreimage :=
              collisionFree (Or.inl List.mem_cons_self) (Or.inr List.mem_cons_self) same
            have sameLeaves :=
              Bytes32.flatMap_bytes_injective (List.append_cancel_left samePreimage)
            apply List.map_injective_iff.mpr leafPreimage_injective
            refine
              eq_of_map collisionFree
                (fun message listed => Or.inl (List.mem_cons_of_mem _ listed))
                (fun message listed => Or.inr (List.mem_cons_of_mem _ listed)) ?_
            rw [List.map_map, List.map_map]
            exact sameLeaves
          · intro same
            rw [rootPreimage, rootPreimage, same]

/-- A store with one binding lists it. -/
theorem iterSorted_singleton (binding : GovernanceBinding) :
    iterSorted { bindings := Finmap.insert nodeIdFull binding ∅ } =
      [(nodeIdFull, binding)] := by
  have listed : IterationOrder.ascending.list {nodeIdFull} = [nodeIdFull] :=
    Finset.sort_singleton _ nodeIdFull
  rw [iterSorted, keys_insert, Finmap.keys_empty, insert_empty_eq, listed, itemsAt]
  simp

/-- A hash that tells messages apart by their length and last byte. -/
def lastAndLength (message : List UInt8) : Bytes32 :=
  .endingIn (message.getLast?.getD 0 + UInt8.ofNat message.length)

/-- Replacing a key changes the root. -/
theorem merkleRoot_rebind :
    ¬merkleRoot lastAndLength
          { bindings := Finmap.insert .zero { governanceIdPub := .replicate 1 } ∅ } =
        merkleRoot lastAndLength
          { bindings := Finmap.insert .zero { governanceIdPub := .replicate 2 } ∅ } := by
  have distinct :
      ((messages lastAndLength
            { bindings := Finmap.insert .zero { governanceIdPub := .replicate 1 } ∅ } ++
          messages lastAndLength
            { bindings := Finmap.insert .zero { governanceIdPub := .replicate 2 } ∅ }).map
        lastAndLength).Nodup := by
    rw [messages, messages, rootPreimage, rootPreimage, iterSorted_singleton,
      iterSorted_singleton]
    decide +kernel
  have nonzero (binding : GovernanceBinding) (short : binding ∈ [
      ({ governanceIdPub := .replicate 1 } : GovernanceBinding),
      { governanceIdPub := .replicate 2 }]) :
      lastAndLength
          (rootPreimage lastAndLength { bindings := Finmap.insert .zero binding ∅ }) ≠
        Bytes32.zero := by
    rw [rootPreimage, iterSorted_singleton]
    revert binding
    decide +kernel
  rw [merkleRoot_eq_iff _ _ ?_ (nonzero _ (by simp)) (nonzero _ (by simp))]
  · intro same
    have sameKey := same .zero
    rw [get, get, Finmap.lookup_insert, Finmap.lookup_insert] at sameKey
    revert sameKey
    decide +kernel
  · intro message hashed message' hashed' same
    rw [Set.mem_ofPred_eq, ← List.mem_append] at hashed hashed'
    exact List.inj_on_of_nodup_map distinct hashed hashed' same

end GovernanceBindingStore

end ScalarCore
