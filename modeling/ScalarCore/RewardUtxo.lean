import ScalarCore.MintNullifier
import Mathlib.Data.Set.Function

namespace ScalarCore

/-!
# Coins made of rewards

A reward is paid out as a coin, once for a node and an epoch as far as the nullifier of
the claim tells them apart.  A request that is refused, because it is for nothing or
because the reward was paid before, leaves no trace.  The commitment of a coin binds its
value, its owner and its secret, but neither the node nor the epoch: requests that agree in
the three have one commitment.
-/

open MintNullifierSet PairHash StateMachine

/-- `DOMAIN_COMMITMENT_V2`, the value of `DOMAIN_UTXO_SMT`. -/
def domainCommitmentV2 : List UInt8 :=
  asciiBytes "scalar_utxo_set"

/-- `DOMAIN_SALT_V1`. -/
def domainSaltV1 : List UInt8 :=
  asciiBytes "scalar_salt_v1"

/-- `RewardUtxo`. -/
structure RewardUtxo where
  commitment : Bytes32
  valueSscl : UInt64
  epochId : UInt64
  nodeIdFull : Bytes32
  mintNullifier : UInt64
  deriving DecidableEq

/-- The variants of `EmissionError` that a request is refused with. -/
inductive RewardError where
  | zeroTotalWeight
  | alreadyClaimed (epochId : UInt64)
  deriving DecidableEq

/-- The arguments of `build_reward_utxo` but the set. -/
structure RewardRequest where
  nodeIdFull : Bytes32
  epochId : UInt64
  rewardAmountSscl : UInt64
  ownerPubkey : Bytes32
  spendingSecret : Bytes32
  deriving DecidableEq

/-- `derive_utxo_salt`. -/
def deriveUtxoSalt (blake3 : List UInt8 → Bytes32) (secret : Bytes32) : Bytes32 :=
  blake3 (domainSaltV1 ++ secret.bytes)

/-- What `compute_utxo_commitment` hashes. -/
def utxoMessage
    (valueSscl : UInt64)
    (ownerPubkey secret salt : Bytes32) : List UInt8 :=
  domainCommitmentV2 ++ toLeBytes valueSscl ++ ownerPubkey.bytes ++ secret.bytes ++ salt.bytes

/-- `compute_utxo_commitment`. -/
def computeUtxoCommitment
    (blake3 : List UInt8 → Bytes32)
    (valueSscl : UInt64)
    (ownerPubkey secret salt : Bytes32) : Bytes32 :=
  blake3 (utxoMessage valueSscl ownerPubkey secret salt)

namespace RewardRequest

variable (hash : PairHash) (blake3 : List UInt8 → Bytes32)

/-- The claim that a request records. -/
def claim (request : RewardRequest) : MintClaim where
  nodeId := request.nodeIdFull
  epochId := request.epochId

/-- `build_reward_utxo`. -/
def buildRewardUtxo
    (nullifierSet : MintNullifierSet)
    (request : RewardRequest) : MintNullifierSet × Except RewardError RewardUtxo :=
  if request.rewardAmountSscl = 0 then
    (nullifierSet, .error .zeroTotalWeight)
  else
    match nullifierSet.recordClaim hash request.claim with
    | (nullifierSet, .error (.alreadyClaimed epochId)) =>
        (nullifierSet, .error (.alreadyClaimed epochId))
    | (nullifierSet, .ok mintNullifier) =>
        let salt := deriveUtxoSalt blake3 request.spendingSecret
        let commitment :=
          computeUtxoCommitment blake3 request.rewardAmountSscl request.ownerPubkey
            request.spendingSecret salt
        (nullifierSet,
          .ok {
            commitment
            valueSscl := request.rewardAmountSscl
            epochId := request.epochId
            nodeIdFull := request.nodeIdFull
            mintNullifier })

/-- The message behind the commitment of a request. -/
def message (request : RewardRequest) : List UInt8 :=
  utxoMessage request.rewardAmountSscl request.ownerPubkey request.spendingSecret
    (deriveUtxoSalt blake3 request.spendingSecret)

/-- The coin that a request asks for. -/
def utxo (request : RewardRequest) : RewardUtxo where
  commitment := blake3 (request.message blake3)
  valueSscl := request.rewardAmountSscl
  epochId := request.epochId
  nodeIdFull := request.nodeIdFull
  mintNullifier := nullifierOf hash request.claim

/-- The requests agree in what a commitment is made of. -/
def SameCoin (request other : RewardRequest) : Prop :=
  request.rewardAmountSscl = other.rewardAmountSscl ∧
    request.ownerPubkey = other.ownerPubkey ∧
      request.spendingSecret = other.spendingSecret

/-- An earlier request for something claims the same reward. -/
def PaidBefore (past : List RewardRequest) (request : RewardRequest) : Prop :=
  ∃ earlier ∈ past,
    earlier.rewardAmountSscl ≠ 0 ∧ SameFieldWords earlier.claim request.claim

/-- The claims that requests record or are refused for. -/
def claimsOf (requests : List RewardRequest) : List MintClaim :=
  (requests.filter fun request => request.rewardAmountSscl ≠ 0).map claim

/-- The coins among the answers to requests. -/
def utxosOf (answers : List (Except RewardError RewardUtxo)) : List RewardUtxo :=
  answers.filterMap Except.toOption

/-- A request is refused and leaves the set alone, or its coin is made. -/
theorem buildRewardUtxo_cases (nullifierSet : MintNullifierSet) (request : RewardRequest) :
    (request.rewardAmountSscl = 0 ∧
        buildRewardUtxo hash blake3 nullifierSet request =
          (nullifierSet, .error .zeroTotalWeight)) ∨
      (request.rewardAmountSscl ≠ 0 ∧
        nullifierOf hash request.claim ∈ nullifierSet.spent ∧
          buildRewardUtxo hash blake3 nullifierSet request =
            (nullifierSet, .error (.alreadyClaimed request.epochId))) ∨
        (request.rewardAmountSscl ≠ 0 ∧
          nullifierOf hash request.claim ∉ nullifierSet.spent ∧
            buildRewardUtxo hash blake3 nullifierSet request =
              ((nullifierSet.recordClaim hash request.claim).1,
                .ok (request.utxo hash blake3))) := by
  by_cases isZero : request.rewardAmountSscl = 0
  · exact Or.inl ⟨isZero, if_pos isZero⟩
  · refine Or.inr ?_
    rw [buildRewardUtxo, if_neg isZero, recordClaim]
    by_cases spent : nullifierOf hash request.claim ∈ nullifierSet.spent
    · refine Or.inl ⟨isZero, spent, ?_⟩
      rw [if_pos (show computeNullifier hash request.claim.nodeId request.claim.epochId ∈ _
        from spent)]
      rfl
    · refine Or.inr ⟨isZero, spent, ?_⟩
      rw [if_neg (show computeNullifier hash request.claim.nodeId request.claim.epochId ∉ _
        from spent)]
      rfl

variable {hash blake3}

/-- The set after a request is that after its claim, when it has one. -/
theorem fst_buildRewardUtxo (nullifierSet : MintNullifierSet) (request : RewardRequest) :
    (buildRewardUtxo hash blake3 nullifierSet request).1 =
      run (recordClaim hash) nullifierSet (claimsOf [request]) := by
  rcases buildRewardUtxo_cases hash blake3 nullifierSet request with
    ⟨isZero, refused⟩ | ⟨isPositive, spent, refused⟩ | ⟨isPositive, -, made⟩
  · rw [refused, claimsOf, List.filter_cons_of_neg (by simpa using isZero)]
    rfl
  · rw [refused, claimsOf, List.filter_cons_of_pos (by simpa using isPositive)]
    refine (congrArg MintNullifierSet.mk ?_).symm
    exact (spent_recordClaim nullifierSet).trans (Finset.insert_eq_of_mem spent)
  · rw [made, claimsOf, List.filter_cons_of_pos (by simpa using isPositive)]
    rfl

/-- The set after requests is that after their claims. -/
theorem run_buildRewardUtxo (nullifierSet : MintNullifierSet) (requests : List RewardRequest) :
    run (buildRewardUtxo hash blake3) nullifierSet requests =
      run (recordClaim hash) nullifierSet (claimsOf requests) := by
  induction requests generalizing nullifierSet with
  | nil =>
      rfl
  | cons request rest inductionHypothesis =>
      have split : claimsOf (request :: rest) = claimsOf [request] ++ claimsOf rest := by
        rw [claimsOf, claimsOf, claimsOf, ← List.map_append, ← List.filter_append]
        rfl
      rw [run_cons, inductionHypothesis, fst_buildRewardUtxo, split, run_append]

/-- No coin of a run has the nullifier of another or one spent before. -/
theorem nodup_utxosOf (nullifierSet : MintNullifierSet) (requests : List RewardRequest) :
    ((utxosOf (outputs (buildRewardUtxo hash blake3) nullifierSet requests)).map
        RewardUtxo.mintNullifier).Nodup ∧
      ∀ utxo ∈ utxosOf (outputs (buildRewardUtxo hash blake3) nullifierSet requests),
        utxo.mintNullifier ∉ nullifierSet.spent := by
  induction requests generalizing nullifierSet with
  | nil =>
      exact ⟨List.nodup_nil, List.forall_mem_nil _⟩
  | cons request rest inductionHypothesis =>
      rw [outputs_cons]
      rcases buildRewardUtxo_cases hash blake3 nullifierSet request with
        ⟨-, refused⟩ | ⟨-, -, refused⟩ | ⟨-, isNew, made⟩
      · rw [refused]
        exact inductionHypothesis nullifierSet
      · rw [refused]
        exact inductionHypothesis nullifierSet
      · obtain ⟨nodup, unspent⟩ :=
          inductionHypothesis (nullifierSet.recordClaim hash request.claim).1
        simp only [spent_recordClaim, Finset.mem_insert, not_or] at unspent
        rw [made]
        constructor
        · refine List.nodup_cons.mpr ⟨fun again => ?_, nodup⟩
          obtain ⟨utxo, later, same⟩ := List.mem_map.mp again
          exact (unspent utxo later).1 same
        · rintro utxo (_ | ⟨_, later⟩)
          · exact isNew
          · exact (unspent utxo later).2

/-- Messages are equal exactly when the requests ask for the same coin. -/
theorem message_inj {request other : RewardRequest} :
    request.message blake3 = other.message blake3 ↔ request.SameCoin other := by
  constructor
  · intro same
    rw [message, message, utxoMessage, utxoMessage] at same
    have parts := List.append_inj' same (by rw [Bytes32.length_eq, Bytes32.length_eq])
    have secrets :=
      List.append_inj' parts.1 (by rw [Bytes32.length_eq, Bytes32.length_eq])
    have owners :=
      List.append_inj' secrets.1 (by rw [Bytes32.length_eq, Bytes32.length_eq])
    have values := List.append_inj' owners.1 (by rw [length_toLeBytes, length_toLeBytes])
    exact ⟨toLeBytes_injective values.2, Bytes32.ext owners.2, Bytes32.ext secrets.2⟩
  · rintro ⟨value, owner, secret⟩
    rw [message, message, value, owner, secret]

variable (hash blake3) in
/-- Each reward is paid once, and each coin is bound. -/
structure PaysOnce (requests : List RewardRequest) : Prop where
  pays :
    ∀ past request later,
      requests = past ++ request :: later →
      request.rewardAmountSscl ≠ 0 →
      ¬PaidBefore past request →
      (buildRewardUtxo hash blake3 (run (buildRewardUtxo hash blake3) new past) request).2 =
        .ok (request.utxo hash blake3)
  refuses :
    ∀ past request later,
      requests = past ++ request :: later →
      request.rewardAmountSscl = 0 ∨ PaidBefore past request →
      ∃ error,
        buildRewardUtxo hash blake3 (run (buildRewardUtxo hash blake3) new past) request =
          (run (buildRewardUtxo hash blake3) new past, .error error)
  once :
    ((utxosOf (outputs (buildRewardUtxo hash blake3) new requests)).map
      RewardUtxo.mintNullifier).Nodup
  binds :
    ∀ request ∈ requests, ∀ other ∈ requests,
      (request.utxo hash blake3).commitment = (other.utxo hash blake3).commitment ↔
        request.SameCoin other

/-- What is spent after requests, where no two hashed pairs collide. -/
theorem mem_spent_iff
    {past later : List RewardRequest}
    {request : RewardRequest}
    (collisionFree :
      hash.InjectiveOn (hashedPairs hash (claimsOf (past ++ request :: later))))
    (isPositive : request.rewardAmountSscl ≠ 0) :
    nullifierOf hash request.claim ∈ (run (buildRewardUtxo hash blake3) new past).spent ↔
      PaidBefore past request := by
  have listed {listed : RewardRequest}
      (isListed : listed ∈ past ++ request :: later)
      (positive : listed.rewardAmountSscl ≠ 0) :
      listed.claim ∈ claimsOf (past ++ request :: later) :=
    List.mem_map_of_mem (List.mem_filter.mpr ⟨isListed, decide_eq_true positive⟩)
  have isListed := listed (List.mem_append_right past List.mem_cons_self) isPositive
  rw [run_buildRewardUtxo, remembers_run, PaidBefore]
  constructor
  · rintro ⟨_, recorded, same⟩
    obtain ⟨earlier, kept, rfl⟩ := List.mem_map.mp recorded
    obtain ⟨isEarlier, positive⟩ := List.mem_filter.mp kept
    have positive := of_decide_eq_true positive
    exact ⟨earlier, isEarlier, positive,
      (nullifierOf_eq_iff collisionFree
        (listed (List.mem_append_left _ isEarlier) positive) isListed).mp same⟩
  · rintro ⟨earlier, isEarlier, positive, same⟩
    exact ⟨earlier.claim,
      List.mem_map_of_mem (List.mem_filter.mpr ⟨isEarlier, decide_eq_true positive⟩),
      nullifierOf_congr same⟩

/--
Where the hashes do not collide, a request is paid exactly when it is for something and
its reward was not paid before; otherwise nothing changes.  No nullifier is used for two
coins, and coins of one commitment have the same value, owner and secret.
-/
theorem rewards_paid_once
    (requests : List RewardRequest)
    (collisionFree : hash.InjectiveOn (hashedPairs hash (claimsOf requests)))
    (binding :
      Set.InjOn blake3
        {message | ∃ request ∈ requests, request.message blake3 = message}) :
    PaysOnce hash blake3 requests := by
  refine
    { pays := ?_
      refuses := ?_
      once := (nodup_utxosOf new requests).1
      binds := ?_ }
  · rintro past request later rfl isPositive notBefore
    rcases buildRewardUtxo_cases hash blake3
        (run (buildRewardUtxo hash blake3) new past) request with
      ⟨isZero, -⟩ | ⟨-, spent, -⟩ | ⟨-, -, made⟩
    · exact absurd isZero isPositive
    · exact absurd ((mem_spent_iff collisionFree isPositive).mp spent) notBefore
    · rw [made]
  · rintro past request later rfl nothingOrBefore
    rcases buildRewardUtxo_cases hash blake3
        (run (buildRewardUtxo hash blake3) new past) request with
      ⟨-, refused⟩ | ⟨-, -, refused⟩ | ⟨isPositive, isNew, -⟩
    · exact ⟨_, refused⟩
    · exact ⟨_, refused⟩
    · have before := nothingOrBefore.resolve_left isPositive
      exact absurd ((mem_spent_iff collisionFree isPositive).mpr before) isNew
  · intro request listed other alsoListed
    rw [← message_inj]
    exact ⟨binding ⟨request, listed, rfl⟩ ⟨other, alsoListed, rfl⟩, congrArg blake3⟩

/-- A request of node 7, always for the same coin. -/
def sampleRequest (epochId : UInt64) : RewardRequest where
  nodeIdFull := Bytes32.endingIn 7
  epochId
  rewardAmountSscl := 1000
  ownerPubkey := Bytes32.endingIn 1
  spendingSecret := Bytes32.endingIn 2

/-- The rewards of two epochs, the second claimed twice, are paid with one commitment. -/
theorem rewards_paid_once_epochs :
    PaysOnce sampleHash (fun message => Bytes32.endingIn (UInt8.ofNat message.length))
      [sampleRequest 5, sampleRequest 6, sampleRequest 6] := by
  refine rewards_paid_once _ (by decide +kernel) ?_
  rintro _ ⟨request, listed, rfl⟩ _ ⟨other, alsoListed, rfl⟩ -
  have sameMessage (listed : RewardRequest)
      (isListed : listed ∈ [sampleRequest 5, sampleRequest 6, sampleRequest 6]) :
      listed.SameCoin (sampleRequest 5) := by
    fin_cases isListed <;> exact ⟨rfl, rfl, rfl⟩
  rw [message_inj.mpr (sameMessage request listed),
    message_inj.mpr (sameMessage other alsoListed)]

end RewardRequest

end ScalarCore
