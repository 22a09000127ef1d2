import ScalarCore.Bytes

namespace ScalarCore

/-!
# The messages hashed by the nullifier trees

Internal nodes, leaves and archive steps are hashed by one BLAKE3, told apart
by a domain separator and by their layout.  No byte string is the message of
two of them, so a collision among them is a collision of BLAKE3.
-/

/-- Domain separator of the active tree. -/
def domainSmtActive : List UInt8 :=
  asciiBytes "scalar_smt_active"

/-- Domain separator of the archive. -/
def domainSmtArchived : List UInt8 :=
  asciiBytes "scalar_smt_archived"

/-- What the trees hash. -/
inductive SmtMessage where
  | internal (left right : Bytes32)
  | leaf (nullifier : Bytes32) (epochId : UInt64)
  | archived (prevArchivedRoot : Bytes32) (sorted : List Bytes32)
  deriving DecidableEq

/-- The bytes that are hashed. -/
def SmtMessage.toBytes : SmtMessage → List UInt8
  | .internal left right =>
      domainSmtActive ++ (left.bytes ++ right.bytes)
  | .leaf nullifier epochId =>
      domainSmtActive ++ (asciiBytes "leaf" ++ (nullifier.bytes ++
        toLeBytes epochId))
  | .archived prevArchivedRoot sorted =>
      domainSmtArchived ++ (prevArchivedRoot.bytes ++
        sorted.flatMap Bytes32.bytes)

/-- Arrays read from the front of equal byte strings are equal. -/
theorem Bytes32.append_inj
    {first second : Bytes32}
    {rest rest' : List UInt8}
    (same : first.bytes ++ rest = second.bytes ++ rest') :
    first = second ∧ rest = rest' := by
  have sameLength : first.bytes.length = second.bytes.length := by
    rw [first.length_eq, second.length_eq]
  obtain ⟨sameBytes, sameRest⟩ := List.append_inj same sameLength
  exact ⟨Bytes32.ext sameBytes, sameRest⟩

namespace SmtMessage

/-- The active tree hashes no message of the archive. -/
theorem active_ne_archived
    (active archived : List UInt8) :
    domainSmtActive ++ active ≠ domainSmtArchived ++ archived := by
  intro same
  have prefixes := congrArg (List.take 17) same
  rw [List.take_append_of_le_length (by decide),
    List.take_append_of_le_length (by decide)] at prefixes
  revert prefixes
  decide

/-- Internal nodes and leaves have messages of different lengths. -/
theorem internal_ne_leaf
    (left right nullifier : Bytes32)
    (epochId : UInt64) :
    (internal left right).toBytes ≠ (leaf nullifier epochId).toBytes := by
  intro same
  have lengths := congrArg List.length same
  have marker : (asciiBytes "leaf").length = 4 := by
    decide
  simp only [toBytes, List.length_append, left.length_eq, right.length_eq,
    nullifier.length_eq, length_toLeBytes, marker] at lengths
  omega

/-- Different messages are different byte strings. -/
theorem toBytes_injective : Function.Injective toBytes := by
  intro first second same
  cases first with
  | internal left right =>
      cases second with
      | internal left' right' =>
          obtain ⟨rfl, sameRest⟩ :=
            Bytes32.append_inj (List.append_cancel_left same)
          rw [Bytes32.ext sameRest]
      | leaf nullifier epochId =>
          exact absurd same (internal_ne_leaf _ _ _ _)
      | archived prevArchivedRoot sorted =>
          exact absurd same (active_ne_archived _ _)
  | leaf nullifier epochId =>
      cases second with
      | internal left right =>
          exact absurd same.symm (internal_ne_leaf _ _ _ _)
      | leaf nullifier' epochId' =>
          obtain ⟨rfl, sameRest⟩ :=
            Bytes32.append_inj
              (List.append_cancel_left (List.append_cancel_left same))
          rw [toLeBytes_injective sameRest]
      | archived prevArchivedRoot sorted =>
          exact absurd same (active_ne_archived _ _)
  | archived prevArchivedRoot sorted =>
      cases second with
      | internal left right =>
          exact absurd same.symm (active_ne_archived _ _)
      | leaf nullifier epochId =>
          exact absurd same.symm (active_ne_archived _ _)
      | archived prevArchivedRoot' sorted' =>
          obtain ⟨rfl, sameRest⟩ :=
            Bytes32.append_inj (List.append_cancel_left same)
          rw [Bytes32.flatMap_bytes_injective sameRest]

end SmtMessage

end ScalarCore
