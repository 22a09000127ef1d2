import ScalarCore.BatchTransfer
import ScalarCore.Poseidon2Verifier

namespace ScalarCore.BatchTransfer

/-!
# What binds the four groups of claims

A transfer is safe when the four circuits speak of the same inputs.  Neither
side checks this: the groups are derived from witnesses that are not compared
with each other, and the verifier takes all four groups as they come.
-/

open MachineInt OwnershipAir MembershipAir NonMembershipAir Poseidon2Air

/-- Validation returns the number of inputs. -/
theorem validateWitnesses_eq_length
    {w : TransferWitnesses}
    {n : Nat}
    (valid : validateWitnesses w = .ok n) :
    n = w.ownership.length := by
  unfold validateWitnesses at valid
  dsimp only at valid
  split_ifs at valid
  split at valid
  · cases valid
  · split at valid
    · cases valid
    · exact (Except.ok.inj valid).symm

/-- The only source that is derived is the tree of the current epoch. -/
theorem deriveUtxoSource_eq
    {witnesses : TransferWitnesses}
    {utxoSource : UTXOSource}
    (derived : deriveUtxoSource witnesses = .ok utxoSource) :
    utxoSource = .subEpochIMT := by
  unfold deriveUtxoSource at derived
  split at derived
  · cases derived
  · exact (Except.ok.inj derived).symm

/-- When claims are derived, and which. -/
theorem derivePublicClaims_ok_iff
    {perm : T8Permutation}
    {witnesses : TransferWitnesses}
    {pi : TransferPublicInputsP3}
    {imtRoot : Digest4}
    {claims : TransferPublicClaims} :
    derivePublicClaims perm witnesses pi imtRoot = .ok claims ↔
      validateWitnesses witnesses = .ok witnesses.ownership.length ∧
        deriveUtxoSource witnesses = .ok .subEpochIMT ∧
          ∃ witnessSumInputs : UInt64,
            witnessSumInputs.toNat =
                (witnesses.ownership.map fun w => w.value.toNat).sum ∧
              witnessSumInputs =
                  saturatingAdd pi.sumOutputsSscl pi.feeTotalSscl ∧
                claims =
                  publicClaims perm witnesses pi imtRoot witnessSumInputs
                    .subEpochIMT := by
  have exactSum (witnessSumInputs : UInt64) :
      (witnesses.ownership.map (·.value)).foldlM checkedAdd 0 =
          some witnessSumInputs ↔
        witnessSumInputs.toNat =
          (witnesses.ownership.map fun w => w.value.toNat).sum := by
    rw [foldlM_checkedAdd_eq_some_iff, List.map_map, UInt64.toNat_zero,
      zero_add]
    rfl
  unfold derivePublicClaims
  constructor
  · intro derived
    split at derived
    · cases derived
    · next n valid =>
        obtain rfl := validateWitnesses_eq_length valid
        split at derived
        · cases derived
        · next utxoSource source =>
            obtain rfl := deriveUtxoSource_eq source
            rw [if_neg (by decide)] at derived
            split at derived
            · cases derived
            · next witnessSumInputs summed =>
                dsimp only at derived
                split_ifs at derived with differs
                exact ⟨valid, source, witnessSumInputs,
                  (exactSum _).mp summed, not_not.mp differs,
                  (Except.ok.inj derived).symm⟩
  · rintro ⟨valid, source, witnessSumInputs, summed, conserved, rfl⟩
    rw [valid, source]
    simp only [(exactSum _).mpr summed]
    rw [if_neg (by decide), if_neg (not_not.mpr conserved)]

section Derivation

/-- The derived claims speak of the same inputs. -/
structure Bound
    (witnesses : TransferWitnesses)
    (claims : TransferPublicClaims) : Prop where
  commitments :
    claims.ownershipClaims.map commitmentBytes =
      claims.membershipClaim.leafCommitments
  activeNullifiers :
    claims.ownershipClaims.map nullifierBytes =
      witnesses.nonmembershipActive.map (·.nullifier)
  archivedNullifiers :
    claims.ownershipClaims.map nullifierBytes =
      witnesses.nonmembershipArchived.map (·.nullifier)
  distinct : (claims.ownershipClaims.map nullifierBytes).Nodup
  inputSum :
    claims.pi.sumInputsSscl.toNat =
      (witnesses.ownership.map fun w => w.value.toNat).sum
  conservation :
    (witnesses.ownership.map fun w => w.value.toNat).sum =
      claims.pi.sumOutputsSscl.toNat + claims.pi.feeTotalSscl.toNat

/-- The commitment of an owned input. -/
def ownedCommitment (perm : T8Permutation) (w : InputWitness) : Bytes32 :=
  Bytes32.ofLimbs (computeExpectedCommitment perm w)

/-- The nullifier of an owned input. -/
def ownedNullifier (perm : T8Permutation) (w : InputWitness) : Bytes32 :=
  Bytes32.ofLimbs (computeExpectedNullifier perm w)

/--
The witnesses are of the same inputs: the paths lead from the owned
commitments, the absences are of their nullifiers, no input occurs twice, and
the outputs and the fee fit a word.
-/
structure Aligned
    (perm : T8Permutation)
    (witnesses : TransferWitnesses)
    (pi : TransferPublicInputsP3) : Prop where
  commitments :
    witnesses.ownership.map (ownedCommitment perm) =
      witnesses.membership.map (·.commitment)
  activeNullifiers :
    witnesses.ownership.map (ownedNullifier perm) =
      witnesses.nonmembershipActive.map (·.nullifier)
  archivedNullifiers :
    witnesses.ownership.map (ownedNullifier perm) =
      witnesses.nonmembershipArchived.map (·.nullifier)
  distinct : (witnesses.ownership.map (ownedNullifier perm)).Nodup
  outputsFit :
    pi.sumOutputsSscl.toNat + pi.feeTotalSscl.toNat ≤ maxU64

/-- Claims are derived from witnesses of different inputs as from aligned ones. -/
theorem derived_bound_iff
    (perm : T8Permutation)
    (witnesses : TransferWitnesses)
    (pi : TransferPublicInputsP3)
    (imtRoot : Digest4)
    (claims : TransferPublicClaims)
    (derived : derivePublicClaims perm witnesses pi imtRoot = .ok claims) :
    Bound witnesses claims ↔ Aligned perm witnesses pi := by
  obtain ⟨_, _, witnessSumInputs, exactSum, conserved, rfl⟩ :=
    derivePublicClaims_ok_iff.mp derived
  have sumBound := witnessSumInputs.toNat_lt
  have saturated := congrArg UInt64.toNat conserved
  rw [toNat_saturatingAdd] at saturated
  have commitments :
      (witnesses.ownership.map (ownershipClaim perm)).map commitmentBytes =
        witnesses.ownership.map (ownedCommitment perm) :=
    List.map_map
  have nullifiers :
      (witnesses.ownership.map (ownershipClaim perm)).map nullifierBytes =
        witnesses.ownership.map (ownedNullifier perm) :=
    List.map_map
  constructor
  · rintro ⟨sameCommitments, sameActive, sameArchived, distinct, _, conservation⟩
    refine ⟨commitments.symm.trans sameCommitments,
      nullifiers.symm.trans sameActive, nullifiers.symm.trans sameArchived,
      nullifiers ▸ distinct, ?_⟩
    have fits :
        (witnesses.ownership.map fun w => w.value.toNat).sum =
          pi.sumOutputsSscl.toNat + pi.feeTotalSscl.toNat :=
      conservation
    unfold maxU64
    omega
  · rintro ⟨sameCommitments, sameActive, sameArchived, distinct, outputsFit⟩
    refine ⟨commitments.trans sameCommitments, nullifiers.trans sameActive,
      nullifiers.trans sameArchived, nullifiers.symm ▸ distinct, exactSum, ?_⟩
    show (witnesses.ownership.map fun w => w.value.toNat).sum =
      pi.sumOutputsSscl.toNat + pi.feeTotalSscl.toNat
    omega

/-- Public inputs that conserve the value of the sample input. -/
def samplePi : TransferPublicInputsP3 where
  feeTotalSscl := 40
  sumInputsSscl := 0
  sumOutputsSscl := 499999960
  cryptoVersion := 1
  currentSubepochId := 1000
  targetSubepochId := 1000
  utxoSetRoot := Bytes32.replicate 0x42
  cbMembershipVerified := true
  nullifierActiveRoot := Bytes32.zero
  nullifierArchivedRoot := Bytes32.zero
  ccNonmembershipVerified := true
  outputNonzero := true
  singleUtxoSource := true
  commitmentHash := 0
  nullifierHash := 0

/-- The sample input with the paths of a commitment and a nullifier. -/
def singleInput (commitment nullifier : Bytes32) : TransferWitnesses where
  ownership := [sampleWitness]
  membership := [{ commitment, leafIndex := 0, siblings := fun _ => 1 }]
  nonmembershipActive :=
    [{ nullifier, siblings := fun _ => 0, tree := .active }]
  nonmembershipArchived :=
    [{ nullifier, siblings := fun _ => 0, tree := .archived }]

/-- Its claims are derived, whatever commitment and nullifier the paths have. -/
theorem derived_singleInput
    (perm : T8Permutation)
    (commitment nullifier : Bytes32) :
    derivePublicClaims perm (singleInput commitment nullifier) samplePi 0 =
      .ok (publicClaims perm (singleInput commitment nullifier) samplePi 0
        500000000 .subEpochIMT) :=
  derivePublicClaims_ok_iff.mpr ⟨rfl, rfl, 500000000, rfl, rfl, rfl⟩

/-- The sample input with its own paths. -/
def alignedWitnesses : TransferWitnesses :=
  singleInput (ownedCommitment VerifierPy.t8Permutation sampleWitness)
    (ownedNullifier VerifierPy.t8Permutation sampleWitness)

/-- The claims of the sample input are bound to it. -/
theorem derived_bound_alignedWitnesses :
    Bound alignedWitnesses
      (publicClaims VerifierPy.t8Permutation alignedWitnesses samplePi 0
        500000000 .subEpochIMT) :=
  (derived_bound_iff VerifierPy.t8Permutation alignedWitnesses samplePi 0 _
    (derived_singleInput _ _ _)).mpr
      ⟨rfl, rfl, rfl, List.nodup_singleton _, by decide⟩

/-- Claims are derived for an owned input and the path of another one. -/
theorem not_derived_bound_otherPath :
    ¬∀ claims,
      derivePublicClaims VerifierPy.t8Permutation
          (singleInput (Bytes32.replicate 0xFF) Bytes32.zero) samplePi 0 =
          .ok claims →
        Bound (singleInput (Bytes32.replicate 0xFF) Bytes32.zero) claims := by
  intro allBound
  have bound := allBound _ (derived_singleInput _ _ _)
  have same :
      Bytes32.ofLimbs
          (computeExpectedCommitment VerifierPy.t8Permutation sampleWitness) =
        Bytes32.replicate 0xFF :=
    List.singleton_inj.mp bound.commitments
  have words :
      computeExpectedCommitment VerifierPy.t8Permutation sampleWitness =
        unreachedWords := by
    funext index
    rw [← limb_replicate_ones, ← same, Bytes32.limb_ofLimbs]
  exact poseidon2Hash_ne_unreachedWords _ _ words

end Derivation

section Verification

/-- The four groups of claims speak of the same inputs and roots. -/
structure Consistent
    (perm : T8Permutation)
    (claims : TransferPublicClaims) : Prop where
  ownedCommitments :
    claims.pi.commitmentHash =
      computeCommitmentHash perm (claims.ownershipClaims.map commitmentBytes)
  memberCommitments :
    claims.pi.commitmentHash =
      computeCommitmentHash perm claims.membershipClaim.leafCommitments
  ownedNullifiers :
    claims.pi.nullifierHash =
      computeNullifierHash perm (claims.ownershipClaims.map nullifierBytes)
  absentNullifiers :
    ∀ claim ∈ claims.ownershipClaims,
      nullifierBytes claim = claims.nonmembershipClaim.nullifier
  activeRoot :
    claims.nonmembershipClaim.activeRoot = claims.pi.nullifierActiveRoot
  archivedRoot :
    claims.nonmembershipClaim.archivedRoot = claims.pi.nullifierArchivedRoot

/-- Each group of claims has a proof that its verifier accepts. -/
structure Provable
    (verifiers : SubVerifiers)
    (claims : TransferPublicClaims) : Prop where
  ownership :
    ∃ proof, verifiers.verifyOwnershipP3 proof claims.ownershipClaims = .ok ()
  membership :
    ∃ proof, verifiers.verifyMembershipP3 proof claims.membershipClaim = .ok ()
  nonmembership :
    ∃ proof,
      verifiers.verifyNonmembershipP3 proof claims.nonmembershipClaim = .ok ()
  transfer : ∃ proof, verifiers.verifyTransferP3 proof claims.pi = .ok ()

/-- Claims have an accepted batch exactly when each group has a proof. -/
theorem exists_accepted_iff
    {verifiers : SubVerifiers}
    {claims : TransferPublicClaims} :
    (∃ proof, verifyBatchTransfer verifiers proof claims = .ok ()) ↔
      Provable verifiers claims := by
  constructor
  · rintro ⟨proof, accepted⟩
    obtain ⟨ownership, membership, nonmembership, transfer⟩ :=
      verifyBatchTransfer_ok_iff.mp accepted
    exact ⟨⟨_, ownership⟩, ⟨_, membership⟩, ⟨_, nonmembership⟩, ⟨_, transfer⟩⟩
  · rintro ⟨⟨caProof, ownership⟩, ⟨cbProof, membership⟩,
      ⟨ccProof, nonmembership⟩, ⟨cdcecgProof, transfer⟩⟩
    exact ⟨{ caProof, cbProof, ccProof, cdcecgProof },
      verifyBatchTransfer_ok_iff.mpr
        ⟨ownership, membership, nonmembership, transfer⟩⟩

/--
Acceptance shows nothing about how the groups fit together: accepted claims are
consistent only when they were to begin with, or when some group has no proof.
-/
theorem accepted_consistent_iff
    (perm : T8Permutation)
    (verifiers : SubVerifiers)
    (claims : TransferPublicClaims) :
    (∀ proof, verifyBatchTransfer verifiers proof claims = .ok () →
        Consistent perm claims) ↔
      Consistent perm claims ∨ ¬Provable verifiers claims := by
  rw [← imp_iff_or_not, ← exists_accepted_iff, forall_exists_index]

/-- Verifiers that accept every proof. -/
def acceptingVerifiers : SubVerifiers where
  verifyOwnershipP3 _ _ := .ok ()
  verifyMembershipP3 _ _ := .ok ()
  verifyNonmembershipP3 _ _ := .ok ()
  verifyTransferP3 _ _ := .ok ()

/-- Claims that spend one nullifier and show the absence of another. -/
def unrelatedClaims : TransferPublicClaims where
  pi := samplePi
  ownershipClaims :=
    [{ expectedNullifier := unreachedWords
       expectedCommitment := unreachedWords }]
  membershipClaim := {
    expectedRoot := 0
    leafCommitments := [Bytes32.zero]
    leafIndices := [0] }
  nonmembershipClaim := {
    nullifier := Bytes32.zero
    activeRoot := Bytes32.zero
    archivedRoot := Bytes32.zero }

/-- They are accepted when each proof is. -/
theorem not_accepted_consistent_unrelatedClaims :
    ¬∀ proof,
      verifyBatchTransfer acceptingVerifiers proof unrelatedClaims = .ok () →
        Consistent VerifierPy.t8Permutation unrelatedClaims := by
  intro consistent
  have accepted :=
    consistent
      { caProof := [], cbProof := [], ccProof := [], cdcecgProof := [] } rfl
  have covered := accepted.absentNullifiers _ List.mem_cons_self
  exact absurd covered (by decide)

end Verification

end ScalarCore.BatchTransfer
