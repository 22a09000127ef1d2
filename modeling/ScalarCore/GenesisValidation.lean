import ScalarCore.Bytes

namespace ScalarCore

/-!
# Checking the genesis object

The ceremony validates the bytes of the genesis object and names their hash; a
node that joins verifies the bytes it was given against a hash it carries.  The
two checks have their own size limits, and the node hashes with a stub.

BLAKE3 is a parameter, which only the ceremony uses.
-/

/-- `GENESIS_MAX_BYTES`, of both crates. -/
def genesisMaxBytes : Nat :=
  1024

/-- A node of the genesis object. -/
structure GenesisNodeEntry where
  nodeId : Bytes4
  nodeKeyEpoch0Pubkey : Bytes32
  nodeKeyEpoch0MacKey : Bytes32
  deriving DecidableEq

/-- The answer of the ceremony. -/
inductive GenesisValidationResult where
  | valid (nodeCount : UInt32) (genesisHash : Bytes32)
  | tooLarge (size max : Nat)
  | noNodes
  | invalidNodeEntry (nodeId : Bytes4)
  deriving DecidableEq

/-- The answer of a node that joins. -/
inductive GenesisVerifyResult where
  | valid
  | invalidHash (expected got : Bytes32)
  | tooLarge (size : Nat)
  deriving DecidableEq

section Ceremony

variable (blake3 : List UInt8 → Bytes32)

/-- `compute_genesis_prev_hash`; the size that it asserts was checked before. -/
def computeGenesisPrevHash (genesisObjectBytes : List UInt8) : Bytes32 :=
  blake3 genesisObjectBytes

/-- `validate_genesis`. -/
def validateGenesis
    (genesisBytes : List UInt8)
    (nodeEntries : List GenesisNodeEntry) : GenesisValidationResult :=
  if genesisBytes.length ≥ genesisMaxBytes then
    .tooLarge genesisBytes.length genesisMaxBytes
  else if nodeEntries.isEmpty then
    .noNodes
  else
    .valid (UInt32.ofNat nodeEntries.length)
      (computeGenesisPrevHash blake3 genesisBytes)

end Ceremony

namespace Sync

/-- `result[index] ^= byte`. -/
def xorAt (result : Bytes32) (index : Nat) (byte : UInt8) : Bytes32 where
  bytes := result.bytes.modify index (· ^^^ byte)
  length_eq := by
    rw [List.length_modify, result.length_eq]

/-- One byte of the stub: the word and the array so far. -/
def hashStep (state : UInt64 × Bytes32) (indexed : UInt8 × Nat) :
    UInt64 × Bytes32 :=
  let h := (state.1 ^^^ indexed.1.toUInt64) * 1099511628211
  (h, xorAt state.2 (indexed.2 % 32) (h &&& 0xff).toUInt8)

/-- `blake3_hash`, the stub that stands in for BLAKE3. -/
def blake3Hash (data : List UInt8) : Bytes32 :=
  (data.zipIdx.foldl hashStep (14695981039346656037, Bytes32.zero)).2

/-- `verify_genesis`. -/
def verifyGenesis
    (genesisBytes : List UInt8)
    (hardcodedCanonicalHash : Bytes32) : GenesisVerifyResult :=
  if genesisBytes.length > genesisMaxBytes then
    .tooLarge genesisBytes.length
  else
    let computed := blake3Hash genesisBytes
    if computed = hardcodedCanonicalHash then
      .valid
    else
      .invalidHash hardcodedCanonicalHash computed

end Sync

open Sync

variable {blake3 : List UInt8 → Bytes32} {genesisBytes : List UInt8}
  {nodeEntries : List GenesisNodeEntry}

/-- The node accepts what the ceremony found valid, and nothing else. -/
structure Agrees
    (blake3 : List UInt8 → Bytes32)
    (genesisBytes : List UInt8)
    (nodeEntries : List GenesisNodeEntry) : Prop where
  accepts :
    ∀ nodeCount genesisHash,
      validateGenesis blake3 genesisBytes nodeEntries =
          .valid nodeCount genesisHash →
        verifyGenesis genesisBytes genesisHash = .valid ∧
          ∀ otherBytes,
            blake3 otherBytes ≠ genesisHash →
            verifyGenesis otherBytes genesisHash ≠ .valid
  tooLarge :
    ∀ size max,
      validateGenesis blake3 genesisBytes nodeEntries = .tooLarge size max →
      ∀ genesisHash,
        verifyGenesis genesisBytes genesisHash = .tooLarge genesisBytes.length

/-- The stub does on the bytes of a genesis object what BLAKE3 would do. -/
structure StubAgrees
    (blake3 : List UInt8 → Bytes32)
    (genesisBytes : List UInt8) : Prop where
  sameHash : blake3Hash genesisBytes = blake3 genesisBytes
  noCollision :
    ∀ otherBytes : List UInt8,
      otherBytes.length ≤ genesisMaxBytes →
      blake3Hash otherBytes = blake3Hash genesisBytes →
      blake3 otherBytes = blake3 genesisBytes

theorem verifyGenesis_eq_valid_iff
    {genesisHash : Bytes32} :
    verifyGenesis genesisBytes genesisHash = .valid ↔
      genesisBytes.length ≤ genesisMaxBytes ∧
        blake3Hash genesisBytes = genesisHash := by
  rw [verifyGenesis]
  split
  · next large =>
      exact iff_of_false (by simp) fun fits => absurd fits.1 (Nat.not_le.mpr large)
  · next fits =>
      rw [and_iff_right (Nat.not_lt.mp fits)]
      dsimp only
      split
      · next same =>
          exact iff_of_true rfl same
      · next different =>
          exact iff_of_false (by simp) different

theorem verifyGenesis_eq_tooLarge_iff
    {genesisHash : Bytes32} :
    verifyGenesis genesisBytes genesisHash = .tooLarge genesisBytes.length ↔
      genesisMaxBytes < genesisBytes.length := by
  rw [verifyGenesis]
  split
  · next large =>
      exact iff_of_true rfl large
  · next fits =>
      refine iff_of_false ?_ fits
      dsimp only
      split
      · simp
      · simp

/-- The ceremony finds shorter objects valid and the others too large. -/
theorem validateGenesis_cases
    (blake3 : List UInt8 → Bytes32)
    (genesisBytes : List UInt8)
    (hasNodes : nodeEntries ≠ []) :
    (genesisBytes.length < genesisMaxBytes ∧
        validateGenesis blake3 genesisBytes nodeEntries =
          .valid (UInt32.ofNat nodeEntries.length) (blake3 genesisBytes)) ∨
      (genesisMaxBytes ≤ genesisBytes.length ∧
        validateGenesis blake3 genesisBytes nodeEntries =
          .tooLarge genesisBytes.length genesisMaxBytes) := by
  rw [validateGenesis]
  split
  · next large =>
      exact .inr ⟨large, rfl⟩
  · next fits =>
      rw [if_neg (by rwa [List.isEmpty_iff])]
      exact .inl ⟨Nat.lt_of_not_le fits, rfl⟩

/--
The ceremony and the node agree on an object exactly when its length is not the
limit and, below the limit, the stub of the node does what BLAKE3 would do.
-/
theorem agrees_iff_stubAgrees
    (hasNodes : nodeEntries ≠ []) :
    Agrees blake3 genesisBytes nodeEntries ↔
      genesisBytes.length ≠ genesisMaxBytes ∧
        (genesisBytes.length < genesisMaxBytes →
          StubAgrees blake3 genesisBytes) := by
  rcases validateGenesis_cases blake3 genesisBytes hasNodes with ⟨small, isValid⟩ | ⟨large, isTooLarge⟩
  · rw [and_iff_right small.ne, forall_prop_of_true small]
    constructor
    · intro agrees
      obtain ⟨accepted, rejected⟩ := agrees.accepts _ _ isValid
      have sameHash := (verifyGenesis_eq_valid_iff.mp accepted).2
      refine ⟨sameHash, fun otherBytes fits sameStub => ?_⟩
      by_contra different
      exact
        rejected otherBytes different
          (verifyGenesis_eq_valid_iff.mpr ⟨fits, sameStub.trans sameHash⟩)
    · intro stub
      constructor
      · intro nodeCount genesisHash validated
        cases isValid.symm.trans validated
        refine ⟨verifyGenesis_eq_valid_iff.mpr ⟨small.le, stub.sameHash⟩, ?_⟩
        intro otherBytes different accepted
        obtain ⟨fits, sameStub⟩ := verifyGenesis_eq_valid_iff.mp accepted
        exact
          different
            (stub.noCollision otherBytes fits (sameStub.trans stub.sameHash.symm))
      · intro size max tooLarge
        cases isValid.symm.trans tooLarge
  · constructor
    · intro agrees
      have beyond :=
        verifyGenesis_eq_tooLarge_iff.mp
          (agrees.tooLarge _ _ isTooLarge Bytes32.zero)
      exact ⟨beyond.ne', fun small => absurd small (Nat.not_lt.mpr large)⟩
    · rintro ⟨notLimit, _⟩
      constructor
      · intro nodeCount genesisHash validated
        cases isTooLarge.symm.trans validated
      · intro size max _ genesisHash
        exact
          verifyGenesis_eq_tooLarge_iff.mpr (lt_of_le_of_ne large notLimit.symm)

/-- A byte of zeros leaves an array as it is. -/
theorem xorAt_zero (result : Bytes32) (index : Nat) : xorAt result index 0 = result := by
  apply Bytes32.ext
  have unchanged : (fun byte : UInt8 => byte ^^^ 0) = id :=
    funext fun _ => UInt8.xor_zero
  change result.bytes.modify index (fun byte => byte ^^^ 0) = result.bytes
  rw [unchanged, List.modify_id]

/--
The stub gives the same value to a byte string and to one that is a byte longer:
the byte that clears the low byte of the word before it is multiplied.
-/
theorem exists_blake3Hash_concat (data : List UInt8) :
    ∃ byte, blake3Hash (data ++ [byte]) = blake3Hash data := by
  let state := data.zipIdx.foldl hashStep (14695981039346656037, Bytes32.zero)
  refine ⟨state.1.toUInt8, ?_⟩
  have lowByte :
      (((state.1 ^^^ state.1.toUInt8.toUInt64) * 1099511628211) &&& 0xff).toUInt8 =
        0 := by
    rw [UInt64.toUInt8_and, UInt64.toUInt8_mul, UInt64.toUInt8_xor,
      UInt8.toUInt8_toUInt64, UInt8.xor_self, UInt8.zero_mul, UInt8.zero_and]
  rw [blake3Hash, List.zipIdx_append, List.foldl_append]
  change (hashStep state (state.1.toUInt8, _)).2 = state.2
  rw [hashStep]
  dsimp only
  rw [lowByte, xorAt_zero]

/-- A stub that does below the limit what BLAKE3 would do makes BLAKE3 collide. -/
theorem StubAgrees.exists_collision
    (stub : StubAgrees blake3 genesisBytes)
    (small : genesisBytes.length < genesisMaxBytes) :
    ∃ byte, blake3 (genesisBytes ++ [byte]) = blake3 genesisBytes := by
  obtain ⟨byte, sameStub⟩ := exists_blake3Hash_concat genesisBytes
  refine ⟨byte, stub.noCollision _ ?_ sameStub⟩
  rw [List.length_append, List.length_singleton]
  exact small

/--
The ceremony and the node agree on an object exactly when it is longer than the
limit and both refuse it.  Below the limit the node would have to tell a string
from one that is a byte longer, as BLAKE3 does and its stub does not.
-/
theorem genesis_agrees_iff
    (hasNodes : nodeEntries ≠ [])
    (separates :
      genesisBytes.length < genesisMaxBytes →
      ∀ byte, blake3 (genesisBytes ++ [byte]) ≠ blake3 genesisBytes) :
    Agrees blake3 genesisBytes nodeEntries ↔
      genesisMaxBytes < genesisBytes.length := by
  rw [agrees_iff_stubAgrees hasNodes]
  constructor
  · rintro ⟨notLimit, stub⟩
    have notSmall : ¬genesisBytes.length < genesisMaxBytes := by
      intro small
      obtain ⟨byte, collides⟩ := (stub small).exists_collision small
      exact separates small byte collides
    exact lt_of_le_of_ne (not_lt.mp notSmall) notLimit.symm
  · intro large
    exact ⟨large.ne', fun small => absurd small (not_lt.mpr large.le)⟩

/-- A hash that tells byte strings of neighbouring lengths apart. -/
def lengthByteHash (bytes : List UInt8) : Bytes32 :=
  .endingIn (UInt8.ofNat bytes.length)

/-- The two agree on an object of 1025 bytes, and on no short one that they accept. -/
theorem genesis_agrees_iff_lengths :
    Agrees lengthByteHash (List.replicate 1025 0)
        [⟨Bytes4.replicate 1, Bytes32.zero, Bytes32.zero⟩] ∧
      ¬Agrees lengthByteHash (asciiBytes "scalar_genesis_v1_data")
        [⟨Bytes4.replicate 1, Bytes32.zero, Bytes32.zero⟩] := by
  have large : genesisMaxBytes < (List.replicate 1025 (0 : UInt8)).length := by
    rw [List.length_replicate]
    decide
  have short : (asciiBytes "scalar_genesis_v1_data").length = 22 := by
    decide
  constructor
  · exact
      (genesis_agrees_iff (List.cons_ne_nil _ _) fun small =>
        absurd small (not_lt.mpr large.le)).mpr large
  · refine
      (genesis_agrees_iff (List.cons_ne_nil _ _) fun _ byte collides => ?_).not.mpr ?_
    · rw [lengthByteHash, lengthByteHash, List.length_append,
        List.length_singleton, short] at collides
      exact absurd collides (by decide)
    · rw [short]
      decide

/-- Whatever BLAKE3 is, an object of 1024 bytes is too large for the ceremony only. -/
theorem genesis_not_agrees :
    ¬∃ blake3 : List UInt8 → Bytes32,
      ∀ genesisBytes nodeEntries,
        nodeEntries ≠ [] →
        Agrees blake3 genesisBytes nodeEntries := by
  rintro ⟨blake3, agrees⟩
  have atLimit :=
    agrees (List.replicate 1024 0)
      [⟨Bytes4.replicate 1, Bytes32.zero, Bytes32.zero⟩] (List.cons_ne_nil _ _)
  have length_eq : (List.replicate 1024 (0 : UInt8)).length = genesisMaxBytes :=
    List.length_replicate
  have tooLarge :=
    atLimit.tooLarge _ _ (if_pos (by rw [length_eq])) Bytes32.zero
  rw [verifyGenesis_eq_tooLarge_iff, length_eq] at tooLarge
  exact absurd tooLarge (lt_irrefl _)

end ScalarCore
