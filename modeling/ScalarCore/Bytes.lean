import Mathlib.Data.List.Lex
import Mathlib.Data.List.Sort
import Mathlib.Data.Nat.Digits.Lemmas
import Mathlib.Tactic.Common
import Mathlib.Tactic.FinCases
import ScalarCore.PrefixCode

namespace ScalarCore

/-!
# Byte strings of the wire and hash formats

`Bytes32` is the `[u8; 32]` of the source: commitments, nullifiers, node ids
and digests.  The length is part of the type, and the order is the
lexicographic order in which the source sorts such arrays.  Words are written
as the little-endian bytes of their numbers.
-/

/-- The little-endian bytes of a number. -/
def byteDigits (count value : Nat) : List Nat :=
  (List.range count).map fun index => value / 256 ^ index % 256

/-- The bytes of a number stand for it, less what they have no room for. -/
theorem ofDigits_byteDigits (count value : Nat) :
    Nat.ofDigits 256 (byteDigits count value) = value % 256 ^ count := by
  rw [byteDigits]
  induction count with
  | zero =>
      simp [Nat.mod_one]
  | succ count inductionHypothesis =>
      rw [List.range_succ, List.map_append, Nat.ofDigits_append,
        inductionHypothesis, List.length_map, List.length_range,
        List.map_singleton, Nat.ofDigits_singleton, Nat.mod_pow_succ]

/-- Bytes are the bytes of the number that they stand for. -/
theorem byteDigits_ofDigits
    {digits : List Nat}
    (below : ∀ digit ∈ digits, digit < 256) :
    byteDigits digits.length (Nat.ofDigits 256 digits) = digits := by
  induction digits with
  | nil =>
      rfl
  | cons digit rest inductionHypothesis =>
      have isByte := below digit List.mem_cons_self
      have restAre := inductionHypothesis fun other listed =>
        below other (List.mem_cons_of_mem digit listed)
      have shifted : (digit + 256 * Nat.ofDigits 256 rest) / 256 =
          Nat.ofDigits 256 rest := by
        omega
      rw [byteDigits] at restAre ⊢
      rw [List.length_cons, List.range_succ_eq_map, List.map_cons,
        List.map_map, Nat.ofDigits_cons, pow_zero, Nat.div_one,
        Nat.add_mul_mod_self_left, Nat.mod_eq_of_lt isByte]
      refine congrArg (digit :: ·) (Eq.trans ?_ restAre)
      apply List.map_congr_left
      intro index _
      rw [Function.comp_apply, Nat.pow_succ', ← Nat.div_div_eq_div_mul, shifted]

/-- Bytes are determined by their numbers. -/
theorem eq_of_map_toNat_eq
    {bytes bytes' : List UInt8}
    (same : bytes.map UInt8.toNat = bytes'.map UInt8.toNat) :
    bytes = bytes' :=
  List.map_injective_iff.mpr (fun _ _ => UInt8.toNat_inj.mp) same

theorem lt_of_mem_map_toNat
    {bytes : List UInt8} :
    ∀ digit ∈ bytes.map UInt8.toNat, digit < 256 := by
  intro digit listed
  obtain ⟨byte, -, rfl⟩ := List.mem_map.mp listed
  exact byte.toNat_lt

theorem byteDigits_map_toNat (bytes : List UInt8) :
    byteDigits bytes.length (Nat.ofDigits 256 (bytes.map UInt8.toNat)) =
      bytes.map UInt8.toNat := by
  rw [← List.length_map (f := UInt8.toNat)]
  exact byteDigits_ofDigits lt_of_mem_map_toNat

/-- Bytes stand for a number that has no more of them. -/
theorem ofDigits_lt_of_length_le
    {bytes : List UInt8}
    {n : Nat}
    (atMost : bytes.length ≤ n) :
    Nat.ofDigits 256 (bytes.map UInt8.toNat) < 256 ^ n := by
  have below : Nat.ofDigits 256 (bytes.map UInt8.toNat) < 256 ^ bytes.length := by
    simpa using Nat.ofDigits_lt_base_pow_length (by decide) lt_of_mem_map_toNat
  exact below.trans_le (Nat.pow_le_pow_right (by decide) atMost)

/-- A `[u8; 32]`. -/
structure Bytes32 where
  bytes : List UInt8
  length_eq : bytes.length = 32
  deriving DecidableEq

namespace Bytes32

@[ext] theorem ext
    {left right : Bytes32}
    (same : left.bytes = right.bytes) :
    left = right := by
  cases left
  cases right
  simpa using same

/-- The bytes as numbers, the key of the lexicographic order. -/
def toNats (value : Bytes32) : List Nat :=
  value.bytes.map UInt8.toNat

theorem toNats_injective : Function.Injective toNats := by
  intro left right same
  exact ext (eq_of_map_toNat_eq same)

/-- Arrays are compared byte by byte from index 0. -/
instance : LinearOrder Bytes32 :=
  LinearOrder.lift' toNats toNats_injective

/-- The array filled with one byte. -/
def replicate (byte : UInt8) : Bytes32 where
  bytes := List.replicate 32 byte
  length_eq := List.length_replicate

/-- `[0u8; 32]`. -/
def zero : Bytes32 :=
  replicate 0

/-- The array of zero bytes up to the last byte. -/
def endingIn (byte : UInt8) : Bytes32 where
  bytes := List.replicate 31 0 ++ [byte]
  length_eq := rfl

/-- The byte at an index; the source only reads indices below 32. -/
def byteAt (value : Bytes32) (index : Nat) : UInt8 :=
  value.bytes.getD index 0

end Bytes32

/-- A `[u8; 4]`: the short id of a node. -/
structure Bytes4 where
  bytes : List UInt8
  length_eq : bytes.length = 4
  deriving DecidableEq

namespace Bytes4

@[ext] theorem ext
    {left right : Bytes4}
    (same : left.bytes = right.bytes) :
    left = right := by
  cases left
  cases right
  simpa using same

/-- The array filled with one byte. -/
def replicate (byte : UInt8) : Bytes4 where
  bytes := List.replicate 4 byte
  length_eq := List.length_replicate

end Bytes4

/-- Sorting forgets the order in which the items came. -/
theorem mergeSort_eq_of_perm
    {Item : Type*}
    [LinearOrder Item]
    {items items' : List Item}
    (same : items.Perm items') :
    items.mergeSort = items'.mergeSort :=
  ((List.mergeSort_perm items _).trans
      (same.trans (List.mergeSort_perm items' _).symm)).eq_of_pairwise'
    (List.pairwise_mergeSort' (· ≤ ·) items)
    (List.pairwise_mergeSort' (· ≤ ·) items')

/-- The bytes of an ASCII string. -/
def asciiBytes (text : String) : List UInt8 :=
  text.toList.map fun character => UInt8.ofNat character.toNat

/-- `u64::to_le_bytes`. -/
def toLeBytes (value : UInt64) : List UInt8 :=
  (List.range 8).map fun index =>
    UInt8.ofNat (value.toNat / 256 ^ index)

/-- `u32::to_le_bytes`. -/
def toLeBytesU32 (value : UInt32) : List UInt8 :=
  (List.range 4).map fun index =>
    UInt8.ofNat (value.toNat / 256 ^ index)

/-- `u64::from_le_bytes`. -/
def fromLeBytes (bytes : List UInt8) : UInt64 :=
  UInt64.ofNat (Nat.ofDigits 256 (bytes.map UInt8.toNat))

/-- `u32::from_le_bytes`. -/
def fromLeBytesU32 (bytes : List UInt8) : UInt32 :=
  UInt32.ofNat (Nat.ofDigits 256 (bytes.map UInt8.toNat))

@[simp] theorem length_toLeBytes
    (value : UInt64) :
    (toLeBytes value).length = 8 := by
  simp [toLeBytes]

@[simp] theorem map_toNat_toLeBytes
    (value : UInt64) :
    (toLeBytes value).map UInt8.toNat = byteDigits 8 value.toNat := by
  simp [toLeBytes, byteDigits]

/-- Eight bytes or fewer fit a word. -/
theorem toNat_fromLeBytes
    {bytes : List UInt8}
    (atMostEight : bytes.length ≤ 8) :
    (fromLeBytes bytes).toNat = Nat.ofDigits 256 (bytes.map UInt8.toNat) := by
  rw [fromLeBytes, UInt64.toNat_ofNat']
  exact Nat.mod_eq_of_lt (ofDigits_lt_of_length_le (n := 8) atMostEight)

/-- Decoding the little-endian bytes of a word gives the word back. -/
@[simp] theorem fromLeBytes_toLeBytes
    (value : UInt64) :
    fromLeBytes (toLeBytes value) = value := by
  rw [← UInt64.toNat_inj, toNat_fromLeBytes (length_toLeBytes value).le,
    map_toNat_toLeBytes, ofDigits_byteDigits]
  exact Nat.mod_eq_of_lt value.toNat_lt

@[simp] theorem length_toLeBytesU32
    (value : UInt32) :
    (toLeBytesU32 value).length = 4 := by
  simp [toLeBytesU32]

@[simp] theorem map_toNat_toLeBytesU32
    (value : UInt32) :
    (toLeBytesU32 value).map UInt8.toNat = byteDigits 4 value.toNat := by
  simp [toLeBytesU32, byteDigits]

/-- Four bytes or fewer fit a half word. -/
theorem toNat_fromLeBytesU32
    {bytes : List UInt8}
    (atMostFour : bytes.length ≤ 4) :
    (fromLeBytesU32 bytes).toNat =
      Nat.ofDigits 256 (bytes.map UInt8.toNat) := by
  rw [fromLeBytesU32, UInt32.toNat_ofNat']
  exact Nat.mod_eq_of_lt (ofDigits_lt_of_length_le (n := 4) atMostFour)

/-- Decoding the little-endian bytes of a half word gives it back. -/
@[simp] theorem fromLeBytesU32_toLeBytesU32
    (value : UInt32) :
    fromLeBytesU32 (toLeBytesU32 value) = value := by
  rw [← UInt32.toNat_inj,
    toNat_fromLeBytesU32 (length_toLeBytesU32 value).le,
    map_toNat_toLeBytesU32, ofDigits_byteDigits]
  exact Nat.mod_eq_of_lt value.toNat_lt

/-- Encoding the word read from eight bytes gives the bytes back. -/
theorem toLeBytes_fromLeBytes
    {bytes : List UInt8}
    (eightBytes : bytes.length = 8) :
    toLeBytes (fromLeBytes bytes) = bytes := by
  apply eq_of_map_toNat_eq
  rw [map_toNat_toLeBytes, toNat_fromLeBytes eightBytes.le, ← eightBytes]
  exact byteDigits_map_toNat bytes

/-- Encoding the half word read from four bytes gives the bytes back. -/
theorem toLeBytesU32_fromLeBytesU32
    {bytes : List UInt8}
    (fourBytes : bytes.length = 4) :
    toLeBytesU32 (fromLeBytesU32 bytes) = bytes := by
  apply eq_of_map_toNat_eq
  rw [map_toNat_toLeBytesU32, toNat_fromLeBytesU32 fourBytes.le, ← fourBytes]
  exact byteDigits_map_toNat bytes

/-- The little-endian encoding of a word is injective. -/
theorem toLeBytes_injective : Function.Injective toLeBytes := by
  intro left right same
  rw [← fromLeBytes_toLeBytes left, same, fromLeBytes_toLeBytes]

/-- A list can be read back when its items are encoded by blocks of one size. -/
theorem flatMap_injective
    {Item Byte : Type*}
    {encode : Item → List Byte}
    {size : Nat}
    (positive : 0 < size)
    (length_eq : ∀ item, (encode item).length = size)
    (injective : Function.Injective encode) :
    Function.Injective fun list : List Item => list.flatMap encode :=
  (PrefixCode.of_length positive length_eq injective).flatMap_injective

/-- Consecutive blocks of a list make up its beginning. -/
theorem flatMap_blocks
    {Byte : Type*}
    (bytes : List Byte)
    (size count : Nat) :
    ((List.range count).flatMap fun index =>
        (bytes.drop (index * size)).take size) =
      bytes.take (count * size) := by
  induction count with
  | zero =>
      simp
  | succ count inductionHypothesis =>
      rw [List.range_succ, List.flatMap_append, inductionHypothesis,
        List.flatMap_singleton, Nat.succ_mul, List.take_add]

namespace Bytes32

/-- A list of arrays can be read back from its bytes. -/
theorem flatMap_bytes_injective :
    Function.Injective fun list : List Bytes32 => list.flatMap bytes :=
  flatMap_injective (by decide) length_eq fun _ _ => ext

/-- Word indices are written as literals below 4. -/
instance : NeZero 4 :=
  ⟨by decide⟩

/-- The `u64` read from `bytes[index * 8..(index + 1) * 8]`. -/
def limb (value : Bytes32) (index : Fin 4) : UInt64 :=
  fromLeBytes ((value.bytes.drop (index * 8)).take 8)

/-- The array holding four words in little-endian order. -/
def ofLimbs (limbs : Fin 4 → UInt64) : Bytes32 where
  bytes :=
    toLeBytes (limbs 0) ++ toLeBytes (limbs 1) ++
      toLeBytes (limbs 2) ++ toLeBytes (limbs 3)
  length_eq := by simp

@[simp] theorem limb_ofLimbs
    (limbs : Fin 4 → UInt64)
    (index : Fin 4) :
    (ofLimbs limbs).limb index = limbs index := by
  rw [limb, ofLimbs]
  have dropped (word : UInt64) (past : Nat) (beyond : 8 ≤ past) :
      (toLeBytes word).drop past = [] :=
    List.drop_eq_nil_of_le (by simpa using beyond)
  have taken (word : UInt64) :
      (toLeBytes word).take 8 = toLeBytes word :=
    List.take_of_length_le (by simp)
  fin_cases index <;>
    simp [List.drop_append, dropped, taken]

/-- An array is determined by its four words. -/
theorem ofLimbs_limb (value : Bytes32) :
    ofLimbs value.limb = value := by
  have chunk (index : Fin 4) :
      toLeBytes (value.limb index) =
        (value.bytes.drop (index * 8)).take 8 := by
    apply toLeBytes_fromLeBytes
    have := value.length_eq
    have := index.isLt
    simp
    omega
  have split (offset : Nat) :
      (value.bytes.drop offset).take 8 ++ value.bytes.drop (offset + 8) =
        value.bytes.drop offset := by
    rw [← List.drop_drop, List.take_append_drop]
  have allRead : value.bytes.drop 32 = [] :=
    List.drop_eq_nil_of_le (by simp [value.length_eq])
  apply ext
  calc (ofLimbs value.limb).bytes
      = (value.bytes.drop 0).take 8 ++ ((value.bytes.drop 8).take 8 ++
          ((value.bytes.drop 16).take 8 ++
            ((value.bytes.drop 24).take 8 ++ value.bytes.drop 32))) := by
        simp only [ofLimbs, chunk, allRead, List.append_assoc, List.append_nil]
        rfl
    _ = value.bytes.drop 0 := by
        rw [split 24, split 16, split 8, split 0]
    _ = value.bytes := List.drop_zero

theorem limb_injective : Function.Injective limb := by
  intro left right same
  rw [← ofLimbs_limb left, same, ofLimbs_limb]

end Bytes32

end ScalarCore
