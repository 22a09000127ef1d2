import ScalarCore.Bytes

namespace ScalarCore

/-!
# KYC credentials

The issuer signs a hash of the holder's commitment, the expiry epoch and the list of
properties.  A property begins with a tag that fixes how many bytes follow, so the
properties are a prefix code and the signed bytes determine the credential.
-/

/-- `ComplianceProperty`. -/
inductive ComplianceProperty where
  | notSanctioned
  | approvedJurisdiction (jurisdictionId : UInt32)
  | amlScreeningPassed
  | ageVerified (minAge : UInt8)
  deriving DecidableEq

/-- `encode_property`. -/
def encodeProperty : ComplianceProperty → List UInt8
  | .notSanctioned => [0x01]
  | .approvedJurisdiction jurisdictionId => 0x02 :: toLeBytesU32 jurisdictionId
  | .amlScreeningPassed => [0x03]
  | .ageVerified minAge => [0x04, minAge]

/-- The fields of a credential that the issuer signs. -/
structure SignedFields where
  holderIdCommitment : Bytes32
  expiryEpoch : UInt64
  properties : List ComplianceProperty
  deriving DecidableEq

/-- The bytes that `credential_signing_bytes` hashes. -/
def signingMessage (fields : SignedFields) : List UInt8 :=
  asciiBytes "scalar_kyc_sig" ++ fields.holderIdCommitment.bytes ++
    toLeBytes fields.expiryEpoch ++ fields.properties.flatMap encodeProperty

/-- `credential_signing_bytes`. -/
def credentialSigningBytes
    (blake3 : List UInt8 → Bytes32)
    (fields : SignedFields) :
    Bytes32 :=
  blake3 (signingMessage fields)

theorem toLeBytesU32_injective : Function.Injective toLeBytesU32 := by
  intro left right same
  rw [← fromLeBytesU32_toLeBytesU32 left, same, fromLeBytesU32_toLeBytesU32]

/-- The tag of a property fixes how many bytes follow it. -/
theorem prefixCode_encodeProperty : PrefixCode encodeProperty where
  nonempty property := by
    cases property <;> exact List.cons_ne_nil _ _
  splits := by
    intro property property' rest rest' same
    cases property <;> cases property' <;>
      simp only [encodeProperty, List.cons_append, List.nil_append, List.cons.injEq] at same
    case notSanctioned.notSanctioned =>
      rfl
    case amlScreeningPassed.amlScreeningPassed =>
      rfl
    case approvedJurisdiction.approvedJurisdiction jurisdictionId jurisdictionId' =>
      have sameLength :
          (toLeBytesU32 jurisdictionId).length = (toLeBytesU32 jurisdictionId').length := by
        rw [length_toLeBytesU32, length_toLeBytesU32]
      rw [toLeBytesU32_injective (List.append_inj_left same.2 sameLength)]
    case ageVerified.ageVerified minAge minAge' =>
      rw [same.2.1]
    -- Different tags.
    all_goals exact absurd same.1 (by decide)

/-- The properties in a row determine the list. -/
theorem flatMap_encodeProperty_injective :
    Function.Injective fun properties : List ComplianceProperty =>
      properties.flatMap encodeProperty :=
  prefixCode_encodeProperty.flatMap_injective

/-- The signed bytes determine the holder, the expiry and the properties. -/
theorem signingMessage_injective : Function.Injective signingMessage := by
  intro fields fields' same
  have holderLength :
      fields.holderIdCommitment.bytes.length = fields'.holderIdCommitment.bytes.length := by
    rw [fields.holderIdCommitment.length_eq, fields'.holderIdCommitment.length_eq]
  have epochLength :
      (toLeBytes fields.expiryEpoch).length = (toLeBytes fields'.expiryEpoch).length := by
    rw [length_toLeBytes, length_toLeBytes]
  simp only [signingMessage, List.append_assoc, List.append_cancel_left_eq] at same
  obtain ⟨holder, afterHolder⟩ := List.append_inj same holderLength
  obtain ⟨epoch, properties⟩ := List.append_inj afterHolder epochLength
  cases fields
  cases fields'
  rw [SignedFields.mk.injEq]
  exact
    ⟨Bytes32.ext holder, toLeBytes_injective epoch,
      flatMap_encodeProperty_injective properties⟩

/--
Two credentials that differ in a signed field are signed over different bytes, and
the encoded properties alone determine their list.
-/
theorem kyc_signature_covers_one_credential :
    (∀ fields fields' : SignedFields,
      fields ≠ fields' → signingMessage fields ≠ signingMessage fields') ∧
      ∀ properties properties' : List ComplianceProperty,
        properties.flatMap encodeProperty = properties'.flatMap encodeProperty →
          properties = properties' :=
  ⟨fun _ _ different same => different (signingMessage_injective same),
    fun _ _ same => flatMap_encodeProperty_injective same⟩

/-- Two credentials with the same signing bytes are a collision of the hash. -/
theorem collision_of_credentialSigningBytes_eq
    {blake3 : List UInt8 → Bytes32}
    {fields fields' : SignedFields}
    (different : fields ≠ fields')
    (same : credentialSigningBytes blake3 fields = credentialSigningBytes blake3 fields') :
    ∃ message message' : List UInt8, message ≠ message' ∧ blake3 message = blake3 message' :=
  ⟨_, _, signingMessage_injective.ne different, same⟩

end ScalarCore
