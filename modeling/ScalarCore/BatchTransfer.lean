import ScalarCore.MembershipAir
import ScalarCore.NonMembershipAir
import ScalarCore.OwnershipAir
import ScalarCore.TransferAir

namespace ScalarCore.BatchTransfer

/-!
# Batch transfers

A transfer is proved by four circuits, each against claims of its own: who owns
the inputs, that they are members, that their nullifiers are absent, and that
the values add up.  `derivePublicClaims` builds the four groups of claims from
the private witnesses, `verifyBatchTransfer` checks the four proofs.
-/

open FallibleChecks MachineInt
open OwnershipAir MembershipAir NonMembershipAir TransferAirP3

/-- Where the inputs come from. -/
inductive UTXOSource where
  | subEpochIMT
  | epochSMT
  deriving DecidableEq

/-- The private data of a transfer, one entry of each list for each input. -/
structure TransferWitnesses where
  ownership : List InputWitness
  membership : List MembershipWitness
  nonmembershipActive : List NonMembershipWitness
  nonmembershipArchived : List NonMembershipWitness

/-- The claims of the four circuits. -/
structure TransferPublicClaims where
  pi : TransferPublicInputsP3
  ownershipClaims : List OwnershipPublicClaim
  membershipClaim : MembershipPublicClaim
  nonmembershipClaim : NonMembershipPublicClaim

/-- The serialised proofs of the four circuits. -/
structure BatchTransferProof where
  caProof : List UInt8
  cbProof : List UInt8
  ccProof : List UInt8
  cdcecgProof : List UInt8

/-- Errors of deriving claims, proving and verifying. -/
inductive BatchTransferError where
  | ownershipFailed (error : OwnershipP3Error)
  | membershipFailed (error : MembershipP3Error)
  | nonMembershipFailed (error : NonMembershipP3Error)
  | transferFailed (error : TransferP3Error)
  | witnessCountMismatch (ownership membership active archived : Nat)
  | emptyWitnesses
  | missingIMTPath (inputIndex : Nat)
  | epochSmtNotImplemented
  | conservationViolated (witnessSum claimedSum : UInt64)
  | other (text : String)
  | witnessTreeMismatch (index : Nat) (expected got : String)

/-- The error of lists whose lengths differ. -/
def TransferWitnesses.countMismatch
    (w : TransferWitnesses) :
    BatchTransferError :=
  .witnessCountMismatch w.ownership.length w.membership.length
    w.nonmembershipActive.length w.nonmembershipArchived.length

/-- Check counts and tree labels, and return the number of inputs. -/
def validateWitnesses
    (w : TransferWitnesses) :
    Except BatchTransferError Nat :=
  let n := w.ownership.length
  if n = 0 then
    .error .emptyWitnesses
  else if w.membership.length ≠ n ∨ w.nonmembershipActive.length ≠ n ∨
      w.nonmembershipArchived.length ≠ n then
    .error w.countMismatch
  else
    match w.nonmembershipActive.findIdx? fun aw =>
        decide (aw.tree ≠ .active) with
    | some index =>
        .error (.witnessTreeMismatch index "Active" "Archived")
    | none =>
        match w.nonmembershipArchived.findIdx? fun arw =>
            decide (arw.tree ≠ .archived) with
        | some index =>
            .error (.witnessTreeMismatch index "Archived" "Active")
        | none =>
            .ok n

/-- Whether a path has zero siblings only. -/
def allZero (m : MembershipWitness) : Bool :=
  (List.finRange imtDepth).all fun level => decide (m.siblings level = 0)

/-- `derive_utxo_source`: every input needs a path. -/
def deriveUtxoSource
    (witnesses : TransferWitnesses) :
    Except BatchTransferError UTXOSource :=
  match witnesses.membership.findIdx? allZero with
  | some inputIndex => .error (.missingIMTPath inputIndex)
  | none => .ok .subEpochIMT

/-- The hashes of an input. -/
def ownershipClaim
    (perm : T8Permutation)
    (w : InputWitness) :
    OwnershipPublicClaim where
  expectedNullifier := computeExpectedNullifier perm w
  expectedCommitment := computeExpectedCommitment perm w

/-- The bytes of a claimed commitment. -/
def commitmentBytes (claim : OwnershipPublicClaim) : Bytes32 :=
  Bytes32.ofLimbs claim.expectedCommitment

/-- The bytes of a claimed nullifier. -/
def nullifierBytes (claim : OwnershipPublicClaim) : Bytes32 :=
  Bytes32.ofLimbs claim.expectedNullifier

/--
The claims that `derive_public_claims` returns once its checks have passed.
The circuits get their claims from different witnesses; the public inputs keep
the values of the caller except for the input sum, the source flag and the two
hashes.
-/
def publicClaims
    (perm : T8Permutation)
    (witnesses : TransferWitnesses)
    (pi : TransferPublicInputsP3)
    (imtRoot : Digest4)
    (witnessSumInputs : UInt64)
    (utxoSource : UTXOSource) :
    TransferPublicClaims :=
  let ownershipClaims := witnesses.ownership.map (ownershipClaim perm)
  {
    pi := { pi with
      sumInputsSscl := witnessSumInputs
      singleUtxoSource := decide (utxoSource = .subEpochIMT)
      commitmentHash :=
        computeCommitmentHash perm (ownershipClaims.map commitmentBytes)
      nullifierHash :=
        computeNullifierHash perm (ownershipClaims.map nullifierBytes) }
    ownershipClaims
    membershipClaim := {
      expectedRoot := imtRoot
      leafCommitments := witnesses.membership.map (·.commitment)
      leafIndices := witnesses.membership.map (·.leafIndex) }
    nonmembershipClaim := {
      -- The source reads index 0, which is there once the counts agree.
      nullifier :=
        (witnesses.nonmembershipActive.head?.map (·.nullifier)).getD .zero
      activeRoot := pi.nullifierActiveRoot
      archivedRoot := pi.nullifierArchivedRoot }
  }

/-- `derive_public_claims`. -/
def derivePublicClaims
    (perm : T8Permutation)
    (witnesses : TransferWitnesses)
    (pi : TransferPublicInputsP3)
    (imtRoot : Digest4) :
    Except BatchTransferError TransferPublicClaims :=
  match validateWitnesses witnesses with
  | .error error => .error error
  | .ok _ =>
      match deriveUtxoSource witnesses with
      | .error error => .error error
      | .ok utxoSource =>
          if utxoSource = .epochSMT then
            .error .epochSmtNotImplemented
          else
            match (witnesses.ownership.map (·.value)).foldlM checkedAdd 0 with
            | none => .error witnesses.countMismatch
            | some witnessSumInputs =>
                let claimedSum :=
                  saturatingAdd pi.sumOutputsSscl pi.feeTotalSscl
                if witnessSumInputs ≠ claimedSum then
                  .error (.conservationViolated witnessSumInputs claimedSum)
                else
                  .ok (publicClaims perm witnesses pi imtRoot witnessSumInputs
                    utxoSource)

/-- The verifiers of the four circuits. -/
structure SubVerifiers where
  verifyOwnershipP3 :
    List UInt8 → List OwnershipPublicClaim → Except OwnershipP3Error Unit
  verifyMembershipP3 :
    List UInt8 → MembershipPublicClaim → Except MembershipP3Error Unit
  verifyNonmembershipP3 :
    List UInt8 → NonMembershipPublicClaim → Except NonMembershipP3Error Unit
  verifyTransferP3 :
    List UInt8 → TransferPublicInputsP3 → Except TransferP3Error Unit

/-- `verify_batch_transfer`: each proof against its own group of claims. -/
def verifyBatchTransfer
    (verifiers : SubVerifiers)
    (proof : BatchTransferProof)
    (claims : TransferPublicClaims) :
    Except BatchTransferError Unit := do
  (verifiers.verifyOwnershipP3 proof.caProof
    claims.ownershipClaims).mapError .ownershipFailed
  (verifiers.verifyMembershipP3 proof.cbProof
    claims.membershipClaim).mapError .membershipFailed
  (verifiers.verifyNonmembershipP3 proof.ccProof
    claims.nonmembershipClaim).mapError .nonMembershipFailed
  (verifiers.verifyTransferP3 proof.cdcecgProof
    claims.pi).mapError .transferFailed

/-- A batch is accepted when each of its proofs is. -/
theorem verifyBatchTransfer_ok_iff
    {verifiers : SubVerifiers}
    {proof : BatchTransferProof}
    {claims : TransferPublicClaims} :
    verifyBatchTransfer verifiers proof claims = .ok () ↔
      verifiers.verifyOwnershipP3 proof.caProof claims.ownershipClaims =
          .ok () ∧
        verifiers.verifyMembershipP3 proof.cbProof claims.membershipClaim =
            .ok () ∧
          verifiers.verifyNonmembershipP3 proof.ccProof
              claims.nonmembershipClaim =
              .ok () ∧
            verifiers.verifyTransferP3 proof.cdcecgProof claims.pi =
              .ok () := by
  simp only [verifyBatchTransfer, unit_bind_eq_ok_iff, mapError_eq_ok_iff]

end ScalarCore.BatchTransfer
