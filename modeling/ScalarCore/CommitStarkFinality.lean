import ScalarCore.CommitStark
import ScalarCore.Poseidon2Verifier

namespace ScalarCore.CommitStark

/-!
# What Level 2 makes final

The check before the writes looks at the nullifiers used before, not at the
batch itself, and compares bytes, while the circuits and the hash of the
nullifiers see field elements.  So a batch may name a nullifier twice, and a
nullifier may be final under two encodings.  Nothing else goes wrong: the
nullifiers of different batches are different as bytes.
-/

open BatchTransfer FallibleChecks OwnershipAir StateMachine

variable {Digest : Type} [DecidableEq Digest] {hash : SmtHash Digest}
  {perm : T8Permutation}
  {verify :
    BatchTransferProof → TransferPublicClaims →
      Except BatchTransferError Unit}

section Runs

variable (perm : T8Permutation)
  (verify :
    BatchTransferProof → TransferPublicClaims →
      Except BatchTransferError Unit)

/-- The batches accepted along a run of commits. -/
def acceptedBatches
    (state : CommitStark hash)
    (calls : List BatchCommit) : List BatchCommit :=
  accepted Except.isOk (commitBatchTransfer perm verify) state calls

/-- The nullifiers at all positions of all accepted batches. -/
def finalisedNullifiers
    (state : CommitStark hash)
    (calls : List BatchCommit) : List Bytes32 :=
  (acceptedBatches perm verify state calls).flatMap (·.nullifiers)

/-- A refused batch changes nothing. -/
def ErrorKeepsState
    (state : CommitStark hash)
    (call : BatchCommit) : Prop :=
  ∀ error,
    (state.commitBatchTransfer perm verify call).2 = .error error →
      (state.commitBatchTransfer perm verify call).1 = state

/-- A batch that passes the checks and names a nullifier twice. -/
structure RepeatsNullifier
    (state : CommitStark hash)
    (call : BatchCommit) : Prop where
  admissible : state.Admissible perm verify call
  repeats : ¬ call.nullifiers.Nodup

/-- Two batches without nullifiers that agree in the field. -/
def DifferentFieldNullifiers (batch later : BatchCommit) : Prop :=
  ∀ nullifier ∈ batch.nullifiers, ∀ nullifier' ∈ later.nullifiers,
    ¬ AgreeModP 4 nullifier nullifier'

/--
A batch that passes the checks and names a nullifier that agrees in the field
with one that is spent.
-/
structure NamesAlias
    (state : CommitStark hash)
    (call : BatchCommit) : Prop where
  admissible : state.Admissible perm verify call
  aliased :
    ∃ spent nullifier,
      state.nullifierSet.isSpent spent = true ∧
        nullifier ∈ call.nullifiers ∧
          AgreeModP 4 spent nullifier

end Runs

variable {state : CommitStark hash} {call : BatchCommit}

/-- The state after an admissible batch. -/
theorem isSpent_commitBatchTransfer
    (admissible : state.Admissible perm verify call)
    (nullifier : Bytes32) :
    (state.commitBatchTransfer perm verify call).1.nullifierSet.isSpent
        nullifier =
      (state.nullifierSet.isSpent nullifier ||
        decide (nullifier ∈ call.nullifiers)) := by
  rw [commitBatchTransfer_of_admissible admissible]
  exact isSpent_insertAll _ _ _ _

/-- An admissible batch is accepted before the rest of the run. -/
theorem acceptedBatches_of_admissible
    (admissible : state.Admissible perm verify call)
    (rest : List BatchCommit) :
    acceptedBatches perm verify state (call :: rest) =
      call ::
        acceptedBatches perm verify
          (state.commitBatchTransfer perm verify call).1 rest := by
  apply accepted_cons_of_ok
  rw [commitBatchTransfer_of_admissible admissible]
  rfl

/-- Any other batch leaves the run as if it had not been there. -/
theorem acceptedBatches_of_not_admissible
    (inadmissible : ¬ state.Admissible perm verify call)
    (rest : List BatchCommit) :
    acceptedBatches perm verify state (call :: rest) =
      acceptedBatches perm verify state rest := by
  obtain ⟨error, refused⟩ := commitBatchTransfer_of_not_admissible inadmissible
  unfold acceptedBatches
  rw [accepted_cons_of_refused (by rw [refused]; rfl), refused]

/-- Accepted batches name no nullifier that was spent before the run. -/
theorem isSpent_of_mem_acceptedBatches
    {calls : List BatchCommit}
    {batch : BatchCommit}
    (listed : batch ∈ acceptedBatches perm verify state calls)
    {nullifier : Bytes32}
    (named : nullifier ∈ batch.nullifiers) :
    state.nullifierSet.isSpent nullifier = false := by
  induction calls generalizing state with
  | nil =>
      exact absurd listed List.not_mem_nil
  | cons call rest inductionHypothesis =>
      by_cases admissible : state.Admissible perm verify call
      · rw [acceptedBatches_of_admissible admissible] at listed
        rcases List.mem_cons.mp listed with rfl | later
        · exact admissible.unspent nullifier named
        · have unspent := inductionHypothesis later
          rw [isSpent_commitBatchTransfer admissible, Bool.or_eq_false_iff]
            at unspent
          exact unspent.1
      · rw [acceptedBatches_of_not_admissible admissible] at listed
        exact inductionHypothesis listed

/-- No refused batch changes the state. -/
theorem errorKeepsState
    (perm : T8Permutation)
    (verify :
      BatchTransferProof → TransferPublicClaims →
        Except BatchTransferError Unit)
    (state : CommitStark hash)
    (call : BatchCommit) :
    ErrorKeepsState perm verify state call := by
  intro error refused
  by_cases admissible : state.Admissible perm verify call
  · rw [commitBatchTransfer_of_admissible admissible] at refused
    cases refused
  · obtain ⟨_, unchanged⟩ := commitBatchTransfer_of_not_admissible admissible
    rw [unchanged]

/-- The nullifiers of an accepted batch are not among those after it. -/
theorem disjoint_finalisedNullifiers
    (admissible : state.Admissible perm verify call)
    (rest : List BatchCommit) :
    List.Disjoint call.nullifiers
      (finalisedNullifiers perm verify
        (state.commitBatchTransfer perm verify call).1 rest) := by
  intro nullifier named finalised
  obtain ⟨batch, listed, namedLater⟩ := List.mem_flatMap.mp finalised
  have unspent := isSpent_of_mem_acceptedBatches listed namedLater
  rw [isSpent_commitBatchTransfer admissible, Bool.or_eq_false_iff] at unspent
  exact of_decide_eq_false unspent.2 named

/-- From any state the nullifiers are different unless a batch repeats one. -/
theorem nodup_finalisedNullifiers_iff
    {calls : List BatchCommit} :
    (finalisedNullifiers perm verify state calls).Nodup ↔
      EveryStep (commitBatchTransfer perm verify)
        (fun state call => ¬ RepeatsNullifier perm verify state call) state
        calls := by
  induction calls generalizing state with
  | nil =>
      exact iff_of_true List.nodup_nil trivial
  | cons call rest inductionHypothesis =>
      rw [everyStep_cons, ← inductionHypothesis]
      by_cases admissible : state.Admissible perm verify call
      · have repeats_iff :
            ¬ RepeatsNullifier perm verify state call ↔
              call.nullifiers.Nodup := by
          constructor
          · intro different
            by_contra repeats
            exact different ⟨admissible, repeats⟩
          · intro distinct repeated
            exact repeated.repeats distinct
        rw [repeats_iff, finalisedNullifiers,
          acceptedBatches_of_admissible admissible, List.flatMap_cons,
          List.nodup_append']
        constructor
        · rintro ⟨distinct, restDistinct, _⟩
          exact ⟨distinct, restDistinct⟩
        · rintro ⟨distinct, restDistinct⟩
          exact ⟨distinct, restDistinct,
            disjoint_finalisedNullifiers admissible rest⟩
      · obtain ⟨_, unchanged⟩ :=
          commitBatchTransfer_of_not_admissible admissible
        have noRepeat : ¬ RepeatsNullifier perm verify state call :=
          fun repeated => admissible repeated.admissible
        rw [and_iff_right noRepeat, finalisedNullifiers,
          acceptedBatches_of_not_admissible admissible, unchanged]
        rfl

/--
Along every run each nullifier is final once, and refused batches change
nothing, exactly when no batch of the run passes the checks with a nullifier
named twice.
-/
theorem no_double_spend_iff
    (perm : T8Permutation)
    (verify :
      BatchTransferProof → TransferPublicClaims →
        Except BatchTransferError Unit)
    (calls : List BatchCommit) :
    ((finalisedNullifiers perm verify (new hash) calls).Nodup ∧
        EveryStep (commitBatchTransfer perm verify)
          (ErrorKeepsState perm verify) (new hash) calls) ↔
      EveryStep (commitBatchTransfer perm verify)
        (fun state call => ¬ RepeatsNullifier perm verify state call)
        (new hash) calls := by
  rw [← nodup_finalisedNullifiers_iff]
  exact
    and_iff_left (everyStep_of_forall (errorKeepsState perm verify) _ _)

/--
From any state the accepted batches have different field nullifiers, and none
of a spent one, unless a batch names an alias.
-/
theorem pairwise_acceptedBatches_iff
    {calls : List BatchCommit} :
    ((acceptedBatches perm verify state calls).Pairwise
          DifferentFieldNullifiers ∧
        ∀ batch ∈ acceptedBatches perm verify state calls,
          ∀ nullifier ∈ batch.nullifiers,
            ∀ spent, state.nullifierSet.isSpent spent = true →
              ¬ AgreeModP 4 spent nullifier) ↔
      EveryStep (commitBatchTransfer perm verify)
        (fun state call => ¬ NamesAlias perm verify state call) state
        calls := by
  induction calls generalizing state with
  | nil =>
      simp [acceptedBatches]
  | cons call rest inductionHypothesis =>
      rw [everyStep_cons, ← inductionHypothesis]
      by_cases admissible : state.Admissible perm verify call
      · have alias_iff :
            ¬ NamesAlias perm verify state call ↔
              ∀ nullifier ∈ call.nullifiers,
                ∀ spent, state.nullifierSet.isSpent spent = true →
                  ¬ AgreeModP 4 spent nullifier := by
          constructor
          · intro noAlias nullifier named spent isSpent same
            exact noAlias
              ⟨admissible, spent, nullifier, isSpent, named, same⟩
          · rintro different ⟨_, spent, nullifier, isSpent, named, same⟩
            exact different nullifier named spent isSpent same
        rw [alias_iff, acceptedBatches_of_admissible admissible,
          List.pairwise_cons, List.forall_mem_cons]
        simp only [isSpent_commitBatchTransfer admissible, Bool.or_eq_true,
          decide_eq_true_eq]
        constructor
        · rintro ⟨⟨fromFirst, pairwise⟩, first, others⟩
          refine ⟨first, pairwise, ?_⟩
          rintro batch listed nullifier named spent (before | inCall)
          · exact others batch listed nullifier named spent before
          · exact fromFirst batch listed spent inCall nullifier named
        · rintro ⟨first, pairwise, others⟩
          refine ⟨⟨?_, pairwise⟩, first, ?_⟩
          · intro batch listed spent inCall nullifier named
            exact others batch listed nullifier named spent (.inr inCall)
          · intro batch listed nullifier named spent before
            exact others batch listed nullifier named spent (.inl before)
      · obtain ⟨_, unchanged⟩ :=
          commitBatchTransfer_of_not_admissible admissible
        have noAlias : ¬ NamesAlias perm verify state call :=
          fun names => admissible names.admissible
        rw [and_iff_right noAlias,
          acceptedBatches_of_not_admissible admissible, unchanged]

/--
Along every run different batches have different field nullifiers exactly when
no batch passes the checks with a nullifier that is spent under another
encoding.
-/
theorem one_encoding_iff
    (perm : T8Permutation)
    (verify :
      BatchTransferProof → TransferPublicClaims →
        Except BatchTransferError Unit)
    (calls : List BatchCommit) :
    (acceptedBatches perm verify (new hash) calls).Pairwise
        DifferentFieldNullifiers ↔
      EveryStep (commitBatchTransfer perm verify)
        (fun state call => ¬ NamesAlias perm verify state call) (new hash)
        calls := by
  rw [← pairwise_acceptedBatches_iff]
  symm
  apply and_iff_left
  intro _ _ _ _ spent isSpent
  rw [new, NullifierSet.isSpent_newWithWal] at isSpent
  exact absurd isSpent Bool.false_ne_true

/-- Canonical nullifiers of one field nullifier are one nullifier. -/
theorem not_namesAlias_of_canonical
    (canonical :
      ∀ nullifier, state.nullifierSet.isSpent nullifier = true →
        ∀ index, nullifier.limb index < goldilocksPrime)
    (callCanonical :
      ∀ nullifier ∈ call.nullifiers,
        ∀ index, nullifier.limb index < goldilocksPrime) :
    ¬ NamesAlias perm verify state call := by
  rintro ⟨admissible, spent, nullifier, isSpent, named, agree⟩
  have same : spent = nullifier :=
    eq_of_agreeModP agree (canonical spent isSpent)
      (callCanonical nullifier named)
  have unspent := admissible.unspent nullifier named
  rw [← same, isSpent] at unspent
  exact absurd unspent Bool.true_eq_false.mp

/-- Claims that differ in the encoding of nullifiers only. -/
structure SameElements (claims claims' : TransferPublicClaims) : Prop where
  pi : claims.pi = claims'.pi
  ownership :
    List.Forall₂
      (fun claim claim' : OwnershipPublicClaim =>
        AgreeModP 4 (nullifierToBytes claim.expectedNullifier)
            (nullifierToBytes claim'.expectedNullifier) ∧
          claim.expectedCommitment = claim'.expectedCommitment)
      claims.ownershipClaims claims'.ownershipClaims
  membership : claims.membershipClaim = claims'.membershipClaim
  nonmembership :
    AgreeModP 4 claims.nonmembershipClaim.nullifier
      claims'.nonmembershipClaim.nullifier
  activeRoot :
    claims.nonmembershipClaim.activeRoot =
      claims'.nonmembershipClaim.activeRoot
  archivedRoot :
    claims.nonmembershipClaim.archivedRoot =
      claims'.nonmembershipClaim.archivedRoot

/-- A verifier that sees the nullifiers as field elements. -/
def SeesElements
    (verify :
      BatchTransferProof → TransferPublicClaims →
        Except BatchTransferError Unit) : Prop :=
  ∀ proof claims claims',
    SameElements claims claims' → verify proof claims = verify proof claims'

/--
Such a verifier cannot tell an alias: what it accepted it accepts again under
any other encoding of the nullifiers that is not spent yet.
-/
theorem admissible_alias
    (seesElements : SeesElements verify)
    (admissible : state.Admissible perm verify call)
    {later : CommitStark hash}
    {again : BatchCommit}
    (sameProof : again.proof = call.proof)
    (sameElements : SameElements call.claims again.claims)
    (claimed :
      again.nullifiers =
        again.claims.ownershipClaims.map fun claim =>
          nullifierToBytes claim.expectedNullifier)
    (unspent :
      ∀ nullifier ∈ again.nullifiers,
        later.nullifierSet.isSpent nullifier = false) :
    later.Admissible perm verify again := by
  have agree :
      List.Forall₂ (AgreeModP 4) call.nullifiers again.nullifiers := by
    rw [admissible.claimed, claimed, List.forall₂_map_left_iff,
      List.forall₂_map_right_iff]
    exact sameElements.ownership.imp fun _ _ same => same.1
  constructor
  · exact claimed
  · rw [← computeNullifierHash_congr agree, admissible.bound, sameElements.pi]
  · rw [sameProof, ← seesElements _ _ _ sameElements, admissible.verified]
  · exact unspent

/-- A verifier that accepts every proof. -/
def acceptEvery :
    BatchTransferProof → TransferPublicClaims →
      Except BatchTransferError Unit :=
  fun _ _ => .ok ()

/-- A batch that spends given nullifiers, and its claims. -/
def sampleCommit (perm : T8Permutation) (words : List Digest4) :
    BatchCommit where
  subepochId := 1
  epochId := 0
  proof := { caProof := [], cbProof := [], ccProof := [], cdcecgProof := [] }
  claims := {
    pi := {
      feeTotalSscl := 40
      sumInputsSscl := 1000000040
      sumOutputsSscl := 1000000000
      cryptoVersion := 1
      currentSubepochId := 1000
      targetSubepochId := 1000
      utxoSetRoot := Bytes32.replicate 0x42
      cbMembershipVerified := true
      nullifierActiveRoot := Bytes32.replicate 0xAA
      nullifierArchivedRoot := Bytes32.replicate 0xBB
      ccNonmembershipVerified := true
      outputNonzero := true
      singleUtxoSource := true
      commitmentHash := 0
      nullifierHash := computeNullifierHash perm (words.map nullifierToBytes) }
    ownershipClaims :=
      words.map fun word =>
        { expectedNullifier := word, expectedCommitment := 0 }
    membershipClaim := {
      expectedRoot := 0
      leafCommitments := []
      leafIndices := [] }
    nonmembershipClaim := {
      nullifier := Bytes32.zero
      activeRoot := Bytes32.replicate 0xAA
      archivedRoot := Bytes32.replicate 0xBB } }
  nullifiers := words.map nullifierToBytes

/-- It is accepted while its nullifiers are unspent. -/
theorem admissible_sampleCommit
    {words : List Digest4}
    (unspent :
      ∀ word ∈ words,
        state.nullifierSet.isSpent (nullifierToBytes word) = false) :
    state.Admissible perm acceptEvery (sampleCommit perm words) where
  claimed := by
    rw [sampleCommit, List.map_map]
    rfl
  bound := rfl
  verified := rfl
  unspent := by
    intro nullifier listed
    obtain ⟨word, named, rfl⟩ := List.mem_map.mp listed
    exact unspent word named

/-- One batch that names the zero nullifier twice makes it final twice. -/
theorem no_double_spend_broken :
    ¬ (finalisedNullifiers VerifierPy.t8Permutation acceptEvery
        (new symbolicSmtHash)
        [sampleCommit VerifierPy.t8Permutation [0, 0]]).Nodup := by
  rw [nodup_finalisedNullifiers_iff]
  intro everyStep
  apply everyStep.1
  refine ⟨admissible_sampleCommit fun _ _ => ?_, by decide⟩
  exact NullifierSet.isSpent_newWithWal _ _

/-- Four words that are zero in the field. -/
def primeWords : Digest4 :=
  fun _ => goldilocksPrime

/-- The zero nullifier is final again as four words of the prime. -/
theorem one_encoding_broken :
    SeesElements acceptEvery ∧
      ¬ (acceptedBatches VerifierPy.t8Permutation acceptEvery
          (new symbolicSmtHash)
          [sampleCommit VerifierPy.t8Permutation [0],
            sampleCommit VerifierPy.t8Permutation [primeWords]]).Pairwise
        DifferentFieldNullifiers := by
  refine ⟨fun _ _ _ _ => rfl, ?_⟩
  rw [one_encoding_iff]
  intro everyStep
  have first :
      (new symbolicSmtHash).Admissible VerifierPy.t8Permutation acceptEvery
        (sampleCommit VerifierPy.t8Permutation [0]) :=
    admissible_sampleCommit fun _ _ => NullifierSet.isSpent_newWithWal _ _
  apply everyStep.2.1
  constructor
  · apply admissible_sampleCommit
    intro word named
    rw [isSpent_commitBatchTransfer first, new,
      NullifierSet.isSpent_newWithWal, List.mem_singleton.mp named]
    decide
  · refine
      ⟨nullifierToBytes 0, nullifierToBytes primeWords, ?_,
        List.mem_cons_self, ?_⟩
    · rw [isSpent_commitBatchTransfer first, Bool.or_eq_true]
      exact .inr (by decide)
    · intro index _
      rw [nullifierToBytes, nullifierToBytes, Bytes32.limb_ofLimbs,
        Bytes32.limb_ofLimbs]
      exact (fieldReduce_eq_iff 0 goldilocksPrime).mp rfl

end ScalarCore.CommitStark
