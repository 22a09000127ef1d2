import ScalarCore.Bytes

namespace ScalarCore

/-!
# The wire format of epoch anchors

An anchor is sent as fields of fixed width, the length of its signature and the
signature.  The decoder asks for at least as many bytes as the length field
announces and does not look at what follows the signature, so a longer string
is decoded to the same anchor.
-/

/-- `length` bytes from an offset on. -/
def byteSlice (bytes : List UInt8) (offset length : Nat) : List UInt8 :=
  (bytes.drop offset).take length

/-- A slice within a string has its length. -/
theorem length_byteSlice
    {bytes : List UInt8}
    {offset length : Nat}
    (within : offset + length ≤ bytes.length) :
    (byteSlice bytes offset length).length = length := by
  rw [byteSlice, List.length_take, List.length_drop]
  omega

/-- What follows an offset begins with a slice. -/
theorem byteSlice_append_drop
    (bytes : List UInt8)
    (offset length : Nat) :
    byteSlice bytes offset length ++ bytes.drop (offset + length) =
      bytes.drop offset := by
  rw [byteSlice, ← List.drop_drop, List.take_append_drop]

/-- An anchor of a node's heartbeats of an epoch. -/
@[ext] structure EpochAnchor where
  nodeId : Bytes4
  epochId : UInt64
  hbCount : UInt32
  chainHead : Bytes32
  pubkey : Bytes32
  sig : List UInt8
  deriving DecidableEq

namespace EpochAnchor

/-- `canonical_bytes_to_sign`. -/
def canonicalBytesToSign (anchor : EpochAnchor) : List UInt8 :=
  anchor.nodeId.bytes ++ toLeBytes anchor.epochId ++ toLeBytesU32 anchor.hbCount ++
    anchor.chainHead.bytes ++ anchor.pubkey.bytes

/-- The bytes to sign have a fixed number. -/
@[simp] theorem length_canonicalBytesToSign (anchor : EpochAnchor) :
    anchor.canonicalBytesToSign.length = 80 := by
  simp [canonicalBytesToSign, anchor.nodeId.length_eq, anchor.chainHead.length_eq,
    anchor.pubkey.length_eq]

end EpochAnchor

/-- `serialize_epoch_anchor`; the length of the signature is cut to 32 bits. -/
def serializeEpochAnchor (anchor : EpochAnchor) : List UInt8 :=
  anchor.nodeId.bytes ++ toLeBytes anchor.epochId ++ toLeBytesU32 anchor.hbCount ++
    anchor.chainHead.bytes ++ anchor.pubkey.bytes ++
    toLeBytesU32 (UInt32.ofNat anchor.sig.length) ++ anchor.sig

/-- The length of the signature that a string announces. -/
def sigLenOf (bytes : List UInt8) : Nat :=
  (fromLeBytesU32 (byteSlice bytes 80 4)).toNat

/-- `deserialize_epoch_anchor`. -/
def deserializeEpochAnchor (bytes : List UInt8) : Option EpochAnchor :=
  if short : bytes.length < 84 then
    none
  else
    have long : 84 ≤ bytes.length := not_lt.mp short
    if bytes.length < 84 + sigLenOf bytes then
      none
    else
      some
        { nodeId := ⟨byteSlice bytes 0 4, length_byteSlice (by omega)⟩
          epochId := fromLeBytes (byteSlice bytes 4 8)
          hbCount := fromLeBytesU32 (byteSlice bytes 12 4)
          chainHead := ⟨byteSlice bytes 16 32, length_byteSlice (by omega)⟩
          pubkey := ⟨byteSlice bytes 48 32, length_byteSlice (by omega)⟩
          sig := byteSlice bytes 84 (sigLenOf bytes) }

/-- A string goes on after the signature that it announces. -/
def Overlong (bytes : List UInt8) : Prop :=
  84 ≤ bytes.length ∧ 84 + sigLenOf bytes < bytes.length

instance (bytes : List UInt8) : Decidable (Overlong bytes) :=
  inferInstanceAs (Decidable (_ ∧ _))

/-- What is sent begins with what is signed. -/
theorem serializeEpochAnchor_eq (anchor : EpochAnchor) :
    serializeEpochAnchor anchor =
      anchor.canonicalBytesToSign ++
        (toLeBytesU32 (UInt32.ofNat anchor.sig.length) ++ anchor.sig) :=
  List.append_assoc _ _ _

/-- The length of what is sent. -/
@[simp] theorem length_serializeEpochAnchor (anchor : EpochAnchor) :
    (serializeEpochAnchor anchor).length = 84 + anchor.sig.length := by
  rw [serializeEpochAnchor_eq, List.length_append, List.length_append,
    anchor.length_canonicalBytesToSign, length_toLeBytesU32]
  omega

/-- Where the fields of an anchor stand in a string. -/
structure AnchorLayout (bytes : List UInt8) (anchor : EpochAnchor) : Prop where
  nodeId : byteSlice bytes 0 4 = anchor.nodeId.bytes
  epochId : byteSlice bytes 4 8 = toLeBytes anchor.epochId
  hbCount : byteSlice bytes 12 4 = toLeBytesU32 anchor.hbCount
  chainHead : byteSlice bytes 16 32 = anchor.chainHead.bytes
  pubkey : byteSlice bytes 48 32 = anchor.pubkey.bytes
  sigLen : byteSlice bytes 80 4 = toLeBytesU32 (UInt32.ofNat anchor.sig.length)
  sig : byteSlice bytes 84 anchor.sig.length = anchor.sig

/-- Every field is written where it is read, whatever follows. -/
theorem anchorLayout_append
    (anchor : EpochAnchor)
    (rest : List UInt8) :
    AnchorLayout (serializeEpochAnchor anchor ++ rest) anchor := by
  have skipped
      {field : List UInt8}
      {offset : Nat}
      (short : field.length ≤ offset) :
      field.drop offset = [] :=
    List.drop_eq_nil_of_le short
  constructor <;>
    simp [byteSlice, serializeEpochAnchor, List.drop_append, skipped, anchor.nodeId.length_eq,
      anchor.chainHead.length_eq, anchor.pubkey.length_eq]

/-- A string with the fields of an anchor begins with what is sent for it. -/
theorem AnchorLayout.exists_append
    {bytes : List UInt8}
    {anchor : EpochAnchor}
    (layout : AnchorLayout bytes anchor) :
    bytes = serializeEpochAnchor anchor ++ bytes.drop (84 + anchor.sig.length) := by
  have split := byteSlice_append_drop bytes
  calc
    bytes = byteSlice bytes 0 4 ++ (byteSlice bytes 4 8 ++ (byteSlice bytes 12 4 ++
        (byteSlice bytes 16 32 ++ (byteSlice bytes 48 32 ++ (byteSlice bytes 80 4 ++
        (byteSlice bytes 84 anchor.sig.length ++
          bytes.drop (84 + anchor.sig.length))))))) := by
      rw [split 84, split 80 4, split 48 32, split 16 32, split 12 4, split 4 8, split 0 4,
        List.drop_zero]
    _ = serializeEpochAnchor anchor ++ bytes.drop (84 + anchor.sig.length) := by
      rw [layout.nodeId, layout.epochId, layout.hbCount, layout.chainHead, layout.pubkey,
        layout.sigLen, layout.sig]
      simp only [serializeEpochAnchor, List.append_assoc]

/-- The announced length is that of the signature when it fits the field. -/
theorem AnchorLayout.sigLenOf_eq
    {bytes : List UInt8}
    {anchor : EpochAnchor}
    (layout : AnchorLayout bytes anchor)
    (fits : anchor.sig.length < 2 ^ 32) :
    sigLenOf bytes = anchor.sig.length := by
  rw [sigLenOf, layout.sigLen, fromLeBytesU32_toLeBytesU32, UInt32.toNat_ofNat']
  exact Nat.mod_eq_of_lt fits

/-- What the decoder returns stands in the string. -/
theorem anchorLayout_of_deserialize
    {bytes : List UInt8}
    {anchor : EpochAnchor}
    (decoded : deserializeEpochAnchor bytes = some anchor) :
    AnchorLayout bytes anchor ∧ anchor.sig.length < 2 ^ 32 := by
  unfold deserializeEpochAnchor at decoded
  split at decoded
  · cases decoded
  · rename_i long
    rw [not_lt] at long
    simp only at decoded
    split at decoded
    · cases decoded
    · rename_i complete
      rw [not_lt] at complete
      cases decoded
      have sigLength : (byteSlice bytes 84 (sigLenOf bytes)).length = sigLenOf bytes :=
        length_byteSlice complete
      refine ⟨⟨rfl, ?_, ?_, rfl, rfl, ?_, ?_⟩, ?_⟩
      · exact (toLeBytes_fromLeBytes (length_byteSlice (by omega))).symm
      · exact (toLeBytesU32_fromLeBytesU32 (length_byteSlice (by omega))).symm
      · rw [sigLength, sigLenOf, UInt32.ofNat_toNat]
        exact (toLeBytesU32_fromLeBytesU32 (length_byteSlice (by omega))).symm
      · rw [sigLength]
      · rw [sigLength]
        exact UInt32.toNat_lt _

/--
A string is decoded to an anchor when it begins with what is sent for it; what
follows makes no difference.
-/
theorem deserializeEpochAnchor_eq_some_iff
    {bytes : List UInt8}
    {anchor : EpochAnchor} :
    deserializeEpochAnchor bytes = some anchor ↔
      anchor.sig.length < 2 ^ 32 ∧
        ∃ rest, bytes = serializeEpochAnchor anchor ++ rest := by
  constructor
  · intro decoded
    obtain ⟨layout, fits⟩ := anchorLayout_of_deserialize decoded
    exact ⟨fits, _, layout.exists_append⟩
  · rintro ⟨fits, rest, rfl⟩
    have layout := anchorLayout_append anchor rest
    have announced := layout.sigLenOf_eq fits
    have long : 84 ≤ (serializeEpochAnchor anchor ++ rest).length := by
      rw [List.length_append, length_serializeEpochAnchor]
      omega
    have complete : 84 + sigLenOf (serializeEpochAnchor anchor ++ rest) ≤
        (serializeEpochAnchor anchor ++ rest).length := by
      rw [announced, List.length_append, length_serializeEpochAnchor]
      omega
    unfold deserializeEpochAnchor
    rw [dif_neg (not_lt.mpr long)]
    simp only
    rw [if_neg (not_lt.mpr complete), Option.some_inj]
    apply EpochAnchor.ext
    · exact Bytes4.ext layout.nodeId
    · change fromLeBytes (byteSlice _ 4 8) = anchor.epochId
      rw [layout.epochId, fromLeBytes_toLeBytes]
    · change fromLeBytesU32 (byteSlice _ 12 4) = anchor.hbCount
      rw [layout.hbCount, fromLeBytesU32_toLeBytesU32]
    · exact Bytes32.ext layout.chainHead
    · exact Bytes32.ext layout.pubkey
    · change byteSlice _ 84 (sigLenOf _) = anchor.sig
      rw [announced, layout.sig]

/-- Decoding gives back every anchor that was sent. -/
theorem deserialize_serializeEpochAnchor
    {anchor : EpochAnchor}
    (fits : anchor.sig.length < 2 ^ 32) :
    deserializeEpochAnchor (serializeEpochAnchor anchor) = some anchor :=
  deserializeEpochAnchor_eq_some_iff.mpr ⟨fits, [], (List.append_nil _).symm⟩

/-- A decoded string is what is sent for its anchor unless it is overlong. -/
theorem serialize_eq_iff_of_deserialize
    {bytes : List UInt8}
    {anchor : EpochAnchor}
    (decoded : deserializeEpochAnchor bytes = some anchor) :
    serializeEpochAnchor anchor = bytes ↔ ¬Overlong bytes := by
  obtain ⟨layout, fits⟩ := anchorLayout_of_deserialize decoded
  obtain ⟨-, rest, shape⟩ := deserializeEpochAnchor_eq_some_iff.mp decoded
  have lengths : bytes.length = 84 + anchor.sig.length + rest.length := by
    rw [shape, List.length_append, length_serializeEpochAnchor]
  have overlong : Overlong bytes ↔ rest ≠ [] := by
    unfold Overlong
    rw [layout.sigLenOf_eq fits, lengths, ← List.length_pos_iff]
    omega
  rw [overlong, not_not]
  constructor
  · intro same
    exact List.self_eq_append_right.mp (same.trans shape)
  · rintro rfl
    rw [shape, List.append_nil]

/-- An overlong string is decoded. -/
theorem Overlong.exists_deserialize
    {bytes : List UInt8}
    (overlong : Overlong bytes) :
    ∃ anchor, deserializeEpochAnchor bytes = some anchor := by
  unfold deserializeEpochAnchor
  rw [dif_neg (not_lt.mpr overlong.1)]
  simp only
  rw [if_neg (not_lt.mpr overlong.2.le)]
  exact ⟨_, rfl⟩

/-- An overlong string and its beginning are decoded alike. -/
theorem Overlong.exists_shorter
    {bytes : List UInt8}
    (overlong : Overlong bytes) :
    ∃ anchor other, ¬Overlong other ∧ deserializeEpochAnchor bytes = some anchor ∧
      deserializeEpochAnchor other = some anchor ∧ other ≠ bytes := by
  obtain ⟨anchor, decoded⟩ := overlong.exists_deserialize
  have fits := (deserializeEpochAnchor_eq_some_iff.mp decoded).1
  have again := deserialize_serializeEpochAnchor fits
  have differ : serializeEpochAnchor anchor ≠ bytes := fun same =>
    (serialize_eq_iff_of_deserialize decoded).mp same overlong
  exact ⟨anchor, serializeEpochAnchor anchor,
    (serialize_eq_iff_of_deserialize again).mp rfl, decoded, again, differ⟩

/--
Every anchor is given back by the decoder.  A string is what is sent for the
anchor that it is decoded to, and the only such string among those that are not
overlong, exactly when it is not overlong itself.
-/
theorem epochAnchor_wireFormat_iff (bytes : List UInt8) :
    (∀ anchor : EpochAnchor, anchor.sig.length < 2 ^ 32 →
        deserializeEpochAnchor (serializeEpochAnchor anchor) = some anchor) ∧
      ((∀ anchor, deserializeEpochAnchor bytes = some anchor →
          serializeEpochAnchor anchor = bytes) ↔ ¬Overlong bytes) ∧
      ((∀ anchor other, ¬Overlong other → deserializeEpochAnchor bytes = some anchor →
          deserializeEpochAnchor other = some anchor → other = bytes) ↔
        ¬Overlong bytes) := by
  refine ⟨fun _ => deserialize_serializeEpochAnchor, ⟨?_, ?_⟩, ⟨?_, ?_⟩⟩
  · intro canonical overlong
    obtain ⟨anchor, decoded⟩ := overlong.exists_deserialize
    exact (serialize_eq_iff_of_deserialize decoded).mp (canonical anchor decoded) overlong
  · intro complete anchor decoded
    exact (serialize_eq_iff_of_deserialize decoded).mpr complete
  · intro unique overlong
    obtain ⟨anchor, other, complete, decoded, sameAnchor, differ⟩ := overlong.exists_shorter
    exact differ (unique anchor other complete decoded sameAnchor)
  · intro complete anchor other otherComplete decoded sameAnchor
    rw [← (serialize_eq_iff_of_deserialize decoded).mpr complete]
    exact ((serialize_eq_iff_of_deserialize sameAnchor).mpr otherComplete).symm

/-- An anchor with a signature of one byte. -/
def shortAnchor : EpochAnchor where
  nodeId := Bytes4.replicate 1
  epochId := 7
  hbCount := 4320
  chainHead := Bytes32.replicate 2
  pubkey := Bytes32.replicate 3
  sig := [4]

/-- The decoder takes a string with a byte after the signature. -/
theorem shortAnchor_trailing_byte :
    deserializeEpochAnchor (serializeEpochAnchor shortAnchor ++ [0]) = some shortAnchor ∧
      serializeEpochAnchor shortAnchor ≠ serializeEpochAnchor shortAnchor ++ [0] := by
  constructor
  · exact deserializeEpochAnchor_eq_some_iff.mpr ⟨by decide, [0], rfl⟩
  · intro same
    exact absurd (List.self_eq_append_right.mp same) (by decide)

end ScalarCore
