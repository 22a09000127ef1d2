import ScalarCore.SubEpoch

namespace ScalarCore

/-!
# Finality of sub-epochs

A commitment with a quorum is meant to be final, and a quorum to be five
validators.  The chain replaces what it stores under an id by whatever passes
the checks, and counts the entries of a signature list without looking at
their node ids.  A run keeps both promises exactly when no call does either.
-/

/-- The node ids of a signature list. -/
def SubEpochCommitment.signers (commitment : SubEpochCommitment) :
    Finset Bytes32 :=
  (commitment.validatorSigs.map Prod.fst).toFinset

/-- Signatures entered one by one come from different nodes. -/
theorem SubEpochCommitment.nodup_addValidatorSig
    {commitment : SubEpochCommitment}
    (distinct : (commitment.validatorSigs.map Prod.fst).Nodup)
    (nodeId : Bytes32)
    (sig : List UInt8) :
    ((commitment.addValidatorSig nodeId sig).1.validatorSigs.map
      Prod.fst).Nodup := by
  unfold addValidatorSig
  by_cases known :
      (commitment.validatorSigs.any fun entry => entry.1 == nodeId) = true
  · simpa only [if_pos known] using distinct
  · have unknown : nodeId ∉ commitment.validatorSigs.map Prod.fst := by
      intro listed
      obtain ⟨entry, isEntry, sameId⟩ := List.mem_map.mp listed
      exact
        known
          (List.any_eq_true.mpr
            ⟨entry, isEntry, beq_iff_eq.mpr sameId⟩)
    simp only [if_neg known, List.map_append, List.map_cons, List.map_nil]
    exact
      List.Nodup.append distinct (List.nodup_singleton _)
        (List.disjoint_singleton.mpr unknown)

/-- A quorum of different nodes has five signers. -/
theorem SubEpochCommitment.threshold_le_card_signers
    {commitment : SubEpochCommitment}
    (distinct : (commitment.validatorSigs.map Prod.fst).Nodup)
    (quorum : commitment.hasQuorum = true) :
    subepochQuorumThreshold ≤ commitment.signers.card := by
  rw [signers, List.toFinset_card_of_nodup distinct, List.length_map]
  exact of_decide_eq_true quorum

namespace SubEpochChain

/-- A commitment with a quorum has five signers. -/
def QuorumIsFive (c : SubEpochCommitment) : Prop :=
  c.hasQuorum = true →
    subepochQuorumThreshold ≤ c.signers.card

/-- A frontier root is only given out with five signers behind it. -/
def FrontierSigned (chain : SubEpochChain) : Prop :=
  ∀ id root,
    chain.getImtFrontierRoot id = some root →
    ∃ c,
      chain.get id = some c ∧
        c.imtFrontierRoot = root ∧
          subepochQuorumThreshold ≤ c.signers.card

/-- What is read at an id is the same in two states. -/
structure SameAt
    (id : UInt32)
    (chain later : SubEpochChain) : Prop where
  get : later.get id = chain.get id
  frontier : later.getImtFrontierRoot id = chain.getImtFrontierRoot id
  quorum : later.hasQuorum id = chain.hasQuorum id

/--
A commitment that passes the checks, and either replaces another one that has
a quorum or claims a quorum with fewer than five signers.
-/
structure BreaksFinality
    (blake3 : List UInt8 → Bytes32)
    (chain : SubEpochChain)
    (c : SubEpochCommitment) : Prop where
  wellFormed : chain.WellFormed blake3 c
  breaks :
    (∃ final,
        chain.get c.subepochId = some final ∧
          final.hasQuorum = true ∧ final ≠ c) ∨
      ¬ QuorumIsFive c

variable {blake3 : List UInt8 → Bytes32} {chain : SubEpochChain}
  {c : SubEpochCommitment}

/-- The frontier root and the quorum are read from the stored commitment. -/
theorem sameAt_of_get
    {id : UInt32}
    {later : SubEpochChain}
    (same : later.get id = chain.get id) :
    SameAt id chain later where
  get := same
  frontier := by rw [getImtFrontierRoot, getImtFrontierRoot, same]
  quorum := by rw [hasQuorum, hasQuorum, same]

/-- An id has a quorum when its stored commitment has one. -/
theorem hasQuorum_eq_true_iff
    {id : UInt32} :
    chain.hasQuorum id = true ↔
      ∃ c, chain.get id = some c ∧ c.hasQuorum = true := by
  unfold hasQuorum
  cases chain.get id with
  | none =>
      simp
  | some stored =>
      simp

/-- A frontier root comes from a stored commitment with a quorum. -/
theorem getImtFrontierRoot_eq_some_iff
    {id : UInt32}
    {root : Bytes32} :
    chain.getImtFrontierRoot id = some root ↔
      ∃ c,
        chain.get id = some c ∧
          c.hasQuorum = true ∧ c.imtFrontierRoot = root := by
  unfold getImtFrontierRoot
  cases chain.get id with
  | none =>
      simp
  | some stored =>
      simp only [Option.some.injEq, exists_eq_left', Option.map_eq_some_iff,
        Option.filter_eq_some_iff]
      constructor
      · rintro ⟨_, ⟨rfl, quorum⟩, isRoot⟩
        exact ⟨quorum, isRoot⟩
      · rintro ⟨quorum, isRoot⟩
        exact ⟨stored, ⟨rfl, quorum⟩, isRoot⟩

/-- A call that breaks nothing leaves the ids with a quorum as they were. -/
theorem get_addCommitment_of_quorum
    (breaksNothing : ¬ chain.BreaksFinality blake3 c)
    {id : UInt32}
    (final : chain.hasQuorum id = true) :
    (chain.addCommitment blake3 c).1.get id = chain.get id := by
  rcases addCommitment_cases blake3 chain c with
    ⟨wellFormed, stored⟩ | ⟨_, _, refused⟩
  · rw [stored]
    obtain ⟨finalCommitment, isStored, quorum⟩ :=
      hasQuorum_eq_true_iff.mp final
    by_cases isTarget : id = c.subepochId
    · subst isTarget
      by_contra changed
      apply breaksNothing
      refine
        ⟨wellFormed, .inl ⟨finalCommitment, isStored, quorum, ?_⟩⟩
      rintro rfl
      exact changed (by rw [get_store_self, isStored])
    · exact get_store_of_ne _ isTarget
  · rw [refused]

/-- A call that breaks nothing keeps five signers behind each root. -/
theorem frontierSigned_addCommitment
    (signed : chain.FrontierSigned)
    (breaksNothing : ¬ chain.BreaksFinality blake3 c) :
    (chain.addCommitment blake3 c).1.FrontierSigned := by
  rcases addCommitment_cases blake3 chain c with
    ⟨wellFormed, stored⟩ | ⟨_, _, refused⟩
  · rw [stored]
    intro id root given
    obtain ⟨source, isStored, quorum, isRoot⟩ :=
      getImtFrontierRoot_eq_some_iff.mp given
    by_cases isTarget : id = c.subepochId
    · subst isTarget
      rw [get_store_self, Option.some.injEq] at isStored
      subst isStored
      refine ⟨c, get_store_self chain c, isRoot, ?_⟩
      by_contra tooFew
      exact
        breaksNothing
          ⟨wellFormed, .inr fun isFive => tooFew (isFive quorum)⟩
    · rw [get_store_of_ne _ isTarget] at isStored
      obtain ⟨source', isStored', isRoot', enough⟩ :=
        signed id root
          (getImtFrontierRoot_eq_some_iff.mpr
            ⟨source, isStored, quorum, isRoot⟩)
      refine ⟨source', ?_, isRoot', enough⟩
      rw [get_store_of_ne _ isTarget, isStored']
  · rw [refused]
    exact signed

/-- After a call that breaks finality one of the two promises is broken. -/
theorem breaksFinality_visible
    (breaks : chain.BreaksFinality blake3 c)
    (kept :
      ∀ id,
        chain.hasQuorum id = true →
        SameAt id chain (chain.addCommitment blake3 c).1)
    (signed : (chain.addCommitment blake3 c).1.FrontierSigned) :
    False := by
  rw [addCommitment_of_wellFormed breaks.wellFormed] at kept signed
  rcases breaks.breaks with ⟨final, isStored, quorum, other⟩ | notFive
  · have same :=
      (kept c.subepochId
        (hasQuorum_eq_true_iff.mpr ⟨final, isStored, quorum⟩)).get
    rw [get_store_self, isStored, Option.some.injEq] at same
    exact other same.symm
  · apply notFive
    intro quorum
    have given :
        (chain.store c).getImtFrontierRoot c.subepochId =
          some c.imtFrontierRoot :=
      getImtFrontierRoot_eq_some_iff.mpr
        ⟨c, get_store_self chain c, quorum, rfl⟩
    obtain ⟨source, isStored, _, enough⟩ := signed _ _ given
    rw [get_store_self, Option.some.injEq] at isStored
    rwa [← isStored] at enough

/-- Along calls that break nothing an id with a quorum stays as it is. -/
theorem get_run_of_quorum
    {start : SubEpochChain}
    {calls : List SubEpochCommitment}
    (breaksNothing :
      ∀ past c later,
        calls = past ++ c :: later →
        ¬ (StateMachine.run (addCommitment blake3) start
            past).BreaksFinality blake3 c)
    {id : UInt32}
    (final : start.hasQuorum id = true) :
    (StateMachine.run (addCommitment blake3) start calls).get id =
      start.get id := by
  induction calls generalizing start with
  | nil =>
      rfl
  | cons c rest inductionHypothesis =>
      have oneCall :
          (start.addCommitment blake3 c).1.get id = start.get id :=
        get_addCommitment_of_quorum (breaksNothing [] c rest rfl) final
      have stillFinal :
          (start.addCommitment blake3 c).1.hasQuorum id = true := by
        rw [(sameAt_of_get oneCall).quorum, final]
      rw [StateMachine.run_cons, ← oneCall]
      apply inductionHypothesis _ stillFinal
      rintro past c' later split
      exact breaksNothing (c :: past) c' later (by rw [split]; rfl)

/--
In every run, an id with a quorum is never changed again and each frontier
root has five signers behind it, exactly when no call of the run replaces
another commitment that has a quorum or stores a quorum of fewer than five
nodes.
-/
theorem finality_iff
    (blake3 : List UInt8 → Bytes32)
    (epochId : UInt64)
    (calls : List SubEpochCommitment) :
    ((∀ past between later,
          calls = past ++ (between ++ later) →
          ∀ id,
            (afterCalls blake3 epochId past).hasQuorum id = true →
            SameAt id (afterCalls blake3 epochId past)
              (afterCalls blake3 epochId (past ++ between))) ∧
        ∀ past later,
          calls = past ++ later →
          (afterCalls blake3 epochId past).FrontierSigned) ↔
      ∀ past c later,
        calls = past ++ c :: later →
        ¬ (afterCalls blake3 epochId past).BreaksFinality blake3 c := by
  have oneMore (past : List SubEpochCommitment) (c : SubEpochCommitment) :
      afterCalls blake3 epochId (past ++ [c]) =
        ((afterCalls blake3 epochId past).addCommitment blake3 c).1 :=
    StateMachine.run_append _ _ past [c]
  constructor
  · rintro ⟨kept, signed⟩ past c later split breaks
    have keptHere := kept past [c] later split
    have signedHere := signed (past ++ [c]) later (by simp [split])
    rw [oneMore] at keptHere signedHere
    exact breaksFinality_visible breaks keptHere signedHere
  · intro breaksNothing
    constructor
    · rintro past between later rfl id final
      apply sameAt_of_get
      rw [afterCalls, StateMachine.run_append]
      apply get_run_of_quorum _ final
      rintro past' c later' rfl
      have here :=
        breaksNothing (past ++ past') c (later' ++ later) (by simp)
      rwa [afterCalls, StateMachine.run_append] at here
    · intro past
      induction past using List.reverseRecOn with
      | nil =>
          intro _ _ id root given
          cases given
      | append_singleton past c inductionHypothesis =>
          rintro later rfl
          have splitAt :
              past ++ [c] ++ later = past ++ c :: later := by
            simp
          rw [oneMore]
          exact
            frontierSigned_addCommitment
              (inductionHypothesis (c :: later) splitAt)
              (breaksNothing past c later splitAt)

/-- The first commitment of epoch 7, signed by given nodes. -/
def signedFirst
    (timestamp : UInt64)
    (nodes : List Bytes32) : SubEpochCommitment :=
  { bareCommitment 0 .zero timestamp with
    validatorSigs := nodes.map fun node => (node, []) }

/-- A quorum of five nodes, a fallback, and one node signing five times. -/
def contestedCalls : List SubEpochCommitment :=
  [signedFirst 1 ([1, 2, 3, 4, 5].map Bytes32.endingIn),
    signedFirst 2 [],
    signedFirst 3 (List.replicate 5 .zero)]

/--
The fallback replaces the commitment with a quorum, and one signer is enough
for a frontier root.
-/
theorem finality_broken :
    (¬ ∀ past between later,
        contestedCalls = past ++ (between ++ later) →
        ∀ id,
          (afterCalls timestampDigest 7 past).hasQuorum id = true →
          SameAt id (afterCalls timestampDigest 7 past)
            (afterCalls timestampDigest 7 (past ++ between))) ∧
      ¬ ∀ past later,
        contestedCalls = past ++ later →
        (afterCalls timestampDigest 7 past).FrontierSigned := by
  constructor
  · intro kept
    have same :=
      (kept (contestedCalls.take 1) ((contestedCalls.drop 1).take 1)
        (contestedCalls.drop 2) rfl 0 (by decide +kernel)).quorum
    revert same
    decide +kernel
  · intro signed
    have atEnd := signed contestedCalls [] (List.append_nil _).symm
    have given :
        (afterCalls timestampDigest 7 contestedCalls).getImtFrontierRoot 0 =
          some .zero := by
      decide +kernel
    obtain ⟨source, isStored, _, enough⟩ := atEnd 0 .zero given
    have lastStored :
        (afterCalls timestampDigest 7 contestedCalls).get 0 =
          some (signedFirst 3 (List.replicate 5 .zero)) := by
      decide +kernel
    rw [isStored, Option.some.injEq] at lastStored
    subst lastStored
    revert enough
    decide +kernel

end SubEpochChain

end ScalarCore
