import Mathlib.Data.List.DropRight
import ScalarCore.Bytes

namespace ScalarCore

/-!
# The identity that a mnemonic restores

A mnemonic is validated word by word, between any whitespace.  The node id, the node
key and the wallet's master key are hashes of its characters as they were typed, so
the same words restore the same identity only when they are spaced alike.
-/

/-- A `&str`, by its characters. -/
abbrev Text :=
  List Char

/-- `char::is_whitespace`: the characters with the Unicode property `White_Space`. -/
def isWhitespace (character : Char) : Bool :=
  let code := character.toNat
  (9 ≤ code && code ≤ 13) || code = 0x20 || code = 0x85 || code = 0xA0 || code = 0x1680 ||
    (0x2000 ≤ code && code ≤ 0x200A) || code = 0x2028 || code = 0x2029 || code = 0x202F ||
    code = 0x205F || code = 0x3000

/-- `split_whitespace`. -/
def splitWhitespace (text : Text) : List Text :=
  (text.splitOnP isWhitespace).filter fun word => !word.isEmpty

/-- `trim`. -/
def trim (text : Text) : Text :=
  (text.dropWhile isWhitespace).rdropWhile isWhitespace

/-- `as_bytes`. -/
def utf8Bytes (text : Text) : List UInt8 :=
  text.flatMap String.utf8EncodeChar

/-- `KeystoreError`, as far as it is answered here. -/
inductive KeystoreError where
  | invalidMnemonic (message : String)
  deriving DecidableEq

/-- `MNEMONIC_FIRST_WORD`. -/
def mnemonicFirstWord : Text :=
  ['s', 'c', 'a', 'l', 'a', 'r']

/-- `validate_mnemonic` of the keystore, over the word list. -/
def validateMnemonic
    (wordList : List Text)
    (mnemonic : Text) :
    Except KeystoreError Unit :=
  let words := splitWhitespace mnemonic
  if words.length ≠ 24 then
    .error (.invalidMnemonic ("Must be 24 words, got " ++ toString words.length))
  else if words.head? ≠ some mnemonicFirstWord then
    .error (.invalidMnemonic "First word must be 'scalar'")
  else
    match words.tail.zipIdx.find? fun entry => !wordList.contains entry.1 with
    | some (word, i) =>
        .error
          (.invalidMnemonic
            ("Word #" ++ toString (i + 2) ++ " '" ++ String.ofList word ++
              "' not found in BIP-39 wordlist"))
    | none => .ok ()

/-- The parameters of Argon2id. -/
structure Argon2Params where
  memoryKib : UInt32
  time : UInt32
  parallelism : UInt32
  outputLen : Nat
  deriving DecidableEq

/-- The hash functions of the derivations, and the bytes of what they answer. -/
structure KeyHashes (Digest Seed : Type) where
  blake3 : List UInt8 → Digest
  argon2id : Argon2Params → List UInt8 → List UInt8 → Seed
  digestBytes : Digest → List UInt8
  seedBytes : Seed → List UInt8

/-- No two messages, and no two passwords for one salt, are hashed alike. -/
structure KeyHashes.Injective {Digest Seed : Type} (hashes : KeyHashes Digest Seed) : Prop where
  blake3 : Function.Injective hashes.blake3
  argon2id :
    ∀ params salt, Function.Injective fun password => hashes.argon2id params password salt
  digestBytes : Function.Injective hashes.digestBytes
  seedBytes : Function.Injective hashes.seedBytes

variable {Digest Seed : Type}

/-- `derive_node_id`. -/
def deriveNodeId
    (hashes : KeyHashes Digest Seed)
    (mnemonic : Text)
    (genesisHash : Bytes32) :
    Digest :=
  hashes.blake3 (asciiBytes "scalar_nodeid" ++ utf8Bytes mnemonic ++ genesisHash.bytes)

/-- The wallet's parameters: `WALLET_MEMORY_KIB` and so on. -/
def walletParams : Argon2Params where
  memoryKib := 64 * 1024
  time := 3
  parallelism := 1
  outputLen := 64

/-- `DOMAIN_SEED_KDF || genesis_hash`. -/
def walletSalt (genesisHash : Bytes32) : List UInt8 :=
  asciiBytes "scalar_wallet_kdf" ++ genesisHash.bytes

/-- `derive_node_key`. -/
def deriveNodeKey
    (hashes : KeyHashes Digest Seed)
    (mnemonic : List UInt8)
    (genesisHash : Bytes32) :
    Digest :=
  let seed := hashes.argon2id walletParams mnemonic (walletSalt genesisHash)
  let masterKey := hashes.blake3 (hashes.seedBytes seed ++ asciiBytes "scalar_master")
  let accountKey :=
    hashes.blake3 (hashes.digestBytes masterKey ++ asciiBytes "account" ++ toLeBytes 0)
  hashes.blake3 (hashes.digestBytes accountKey ++ asciiBytes "node")

/-- `SeedError`, as far as it is answered here. -/
inductive SeedError where
  | invalidMnemonicFirstWord
  | emptyMnemonic
  deriving DecidableEq

/-- `SeedMaterial`. -/
structure SeedMaterial (Digest Seed : Type) where
  seed : Seed
  masterKey : Digest

/-- `validate_mnemonic` of the wallet: only the first word is looked at. -/
def validateFirstWord (mnemonic : Text) : Except SeedError Unit :=
  match (splitWhitespace mnemonic).head? with
  | none => .error .emptyMnemonic
  | some firstWord =>
      if firstWord ≠ mnemonicFirstWord then
        .error .invalidMnemonicFirstWord
      else
        .ok ()

/-- The wallet's `SEED_ARGON2_*` parameters. -/
def seedParams : Argon2Params where
  memoryKib := 65536
  time := 3
  parallelism := 1
  outputLen := 64

/-- `derive_seed`. -/
def deriveSeed
    (hashes : KeyHashes Digest Seed)
    (mnemonic : Text)
    (genesisHash : Bytes32) :
    Except SeedError (SeedMaterial Digest Seed) := do
  validateFirstWord mnemonic
  let salt := asciiBytes "scalar_wallet_kdf" ++ genesisHash.bytes
  let seed := hashes.argon2id seedParams (utf8Bytes mnemonic) salt
  let masterKey := hashes.blake3 (hashes.seedBytes seed ++ asciiBytes "scalar_master")
  .ok { seed, masterKey }

/-!
## Words
-/

/-- Whitespace in front belongs to no word. -/
theorem splitWhitespace_cons
    {character : Char}
    (isSpace : isWhitespace character = true)
    (text : Text) :
    splitWhitespace (character :: text) = splitWhitespace text := by
  rw [splitWhitespace, List.splitOnP_cons_eq_if_modifyHead, if_pos isSpace, List.filter_cons]
  rfl

/-- Whitespace at the end belongs to no word. -/
theorem splitWhitespace_concat
    {character : Char}
    (isSpace : isWhitespace character = true)
    (text : Text) :
    splitWhitespace (text ++ [character]) = splitWhitespace text := by
  rw [splitWhitespace, List.splitOnP_append_cons text [] isSpace, List.splitOnP_nil,
    List.filter_append]
  exact List.append_nil _

/-- Trimming keeps the words. -/
theorem splitWhitespace_trim (text : Text) :
    splitWhitespace (trim text) = splitWhitespace text := by
  have front : splitWhitespace (text.dropWhile isWhitespace) = splitWhitespace text := by
    induction text with
    | nil =>
        rfl
    | cons character rest inductionHypothesis =>
        by_cases isSpace : isWhitespace character = true
        · rw [List.dropWhile_cons_of_pos isSpace, inductionHypothesis,
            splitWhitespace_cons isSpace]
        · rw [List.dropWhile_cons_of_neg isSpace]
  rw [← front, trim]
  generalize text.dropWhile isWhitespace = started
  induction started using List.reverseRecOn with
  | nil =>
      rfl
  | append_singleton started character inductionHypothesis =>
      by_cases isSpace : isWhitespace character = true
      · rw [List.rdropWhile_concat_pos _ _ _ isSpace, inductionHypothesis,
          splitWhitespace_concat isSpace]
      · rw [List.rdropWhile_concat_neg _ _ _ isSpace]

/-- An accepted mnemonic has 24 words, begins with the first word and uses the list. -/
theorem validateMnemonic_eq_ok_iff
    {wordList : List Text}
    {mnemonic : Text} :
    validateMnemonic wordList mnemonic = .ok () ↔
      (splitWhitespace mnemonic).length = 24 ∧
        (splitWhitespace mnemonic).head? = some mnemonicFirstWord ∧
        ∀ word ∈ (splitWhitespace mnemonic).tail, word ∈ wordList := by
  have known :
      (splitWhitespace mnemonic).tail.zipIdx.find? (fun entry => !wordList.contains entry.1) =
          none ↔
        ∀ word ∈ (splitWhitespace mnemonic).tail, word ∈ wordList := by
    rw [List.find?_eq_none]
    simp only [Bool.not_eq_true', Bool.not_eq_false, List.elem_eq_mem, decide_eq_true_eq]
    constructor
    · intro entries word listed
      rw [← List.zipIdx_map_fst 0 (splitWhitespace mnemonic).tail] at listed
      obtain ⟨entry, inEntries, rfl⟩ := List.mem_map.mp listed
      exact entries entry inEntries
    · intro words entry listed
      exact words entry.1 (List.fst_mem_of_mem_zipIdx listed)
  rw [← known, validateMnemonic]
  split
  · next other =>
      exact iff_of_false nofun fun right => other right.1
  · next count =>
      split
      · next other =>
          exact iff_of_false nofun fun right => other right.2.1
      · next first =>
          rw [and_iff_right (not_not.mp count), and_iff_right (not_not.mp first)]
          cases (splitWhitespace mnemonic).tail.zipIdx.find?
              fun entry => !wordList.contains entry.1 with
          | none =>
              exact iff_of_true rfl rfl
          | some entry =>
              exact iff_of_false nofun (Option.some_ne_none entry)

/-- Trimming does not change what is accepted. -/
theorem validateMnemonic_trim (wordList : List Text) (mnemonic : Text) :
    validateMnemonic wordList (trim mnemonic) = validateMnemonic wordList mnemonic := by
  rw [validateMnemonic, validateMnemonic, splitWhitespace_trim]

/-- What the keystore accepts is accepted by the wallet. -/
theorem validateFirstWord_of_validateMnemonic
    {wordList : List Text}
    {mnemonic : Text}
    (accepted : validateMnemonic wordList mnemonic = .ok ()) :
    validateFirstWord mnemonic = .ok () := by
  obtain ⟨-, first, -⟩ := validateMnemonic_eq_ok_iff.mp accepted
  rw [validateFirstWord, first]
  exact if_neg (not_not.mpr rfl)

/-!
## Derivations
-/

/-- Texts are told apart by their bytes. -/
theorem utf8Bytes_injective : Function.Injective utf8Bytes := by
  intro text text' same
  apply String.ofList_injective
  rw [← String.toByteArray_inj, String.toByteArray_ofList, String.toByteArray_ofList]
  exact congrArg List.toByteArray same

variable {hashes : KeyHashes Digest Seed}

/-- A node id is that of one spelling. -/
theorem deriveNodeId_eq_iff
    (injective : hashes.Injective)
    (mnemonic mnemonic' : Text)
    (genesisHash : Bytes32) :
    deriveNodeId hashes mnemonic genesisHash = deriveNodeId hashes mnemonic' genesisHash ↔
      mnemonic = mnemonic' := by
  rw [deriveNodeId, deriveNodeId, injective.blake3.eq_iff, List.append_left_inj,
    List.append_right_inj, utf8Bytes_injective.eq_iff]

/-- The master key of a password. -/
def masterKeyOf
    (hashes : KeyHashes Digest Seed)
    (mnemonic : List UInt8)
    (genesisHash : Bytes32) :
    Digest :=
  hashes.blake3
    (hashes.seedBytes (hashes.argon2id walletParams mnemonic (walletSalt genesisHash)) ++
      asciiBytes "scalar_master")

theorem masterKeyOf_eq_iff
    (injective : hashes.Injective)
    (mnemonic mnemonic' : List UInt8)
    (genesisHash : Bytes32) :
    masterKeyOf hashes mnemonic genesisHash = masterKeyOf hashes mnemonic' genesisHash ↔
      mnemonic = mnemonic' := by
  rw [masterKeyOf, masterKeyOf, injective.blake3.eq_iff, List.append_left_inj,
    injective.seedBytes.eq_iff]
  exact (injective.argon2id walletParams (walletSalt genesisHash)).eq_iff

/-- A node key is that of one spelling. -/
theorem deriveNodeKey_eq_iff
    (injective : hashes.Injective)
    (mnemonic mnemonic' : List UInt8)
    (genesisHash : Bytes32) :
    deriveNodeKey hashes mnemonic genesisHash = deriveNodeKey hashes mnemonic' genesisHash ↔
      mnemonic = mnemonic' := by
  simp only [deriveNodeKey, injective.blake3.eq_iff, List.append_left_inj,
    injective.digestBytes.eq_iff, injective.seedBytes.eq_iff]
  exact (injective.argon2id walletParams (walletSalt genesisHash)).eq_iff

/-- The wallet derives the master key of the node's chain. -/
theorem deriveSeed_of_validateFirstWord
    {mnemonic : Text}
    (accepted : validateFirstWord mnemonic = .ok ())
    (genesisHash : Bytes32) :
    (deriveSeed hashes mnemonic genesisHash).map SeedMaterial.masterKey =
      .ok (masterKeyOf hashes (utf8Bytes mnemonic) genesisHash) := by
  rw [deriveSeed, accepted]
  rfl

/-- The master key of accepted mnemonics is that of one spelling. -/
theorem masterKey_eq_iff
    (injective : hashes.Injective)
    {wordList : List Text}
    {mnemonic mnemonic' : Text}
    (accepted : validateMnemonic wordList mnemonic = .ok ())
    (accepted' : validateMnemonic wordList mnemonic' = .ok ())
    (genesisHash : Bytes32) :
    (deriveSeed hashes mnemonic genesisHash).map SeedMaterial.masterKey =
        (deriveSeed hashes mnemonic' genesisHash).map SeedMaterial.masterKey ↔
      mnemonic = mnemonic' := by
  rw [deriveSeed_of_validateFirstWord (validateFirstWord_of_validateMnemonic accepted),
    deriveSeed_of_validateFirstWord (validateFirstWord_of_validateMnemonic accepted'),
    Except.ok.injEq, masterKeyOf_eq_iff injective, utf8Bytes_injective.eq_iff]

/-- Node id, node key and master key are the same for every genesis hash. -/
structure SameIdentity
    (hashes : KeyHashes Digest Seed)
    (mnemonic mnemonic' : Text) :
    Prop where
  nodeId :
    ∀ genesisHash,
      deriveNodeId hashes mnemonic genesisHash = deriveNodeId hashes mnemonic' genesisHash
  nodeKey :
    ∀ genesisHash,
      deriveNodeKey hashes (utf8Bytes mnemonic) genesisHash =
        deriveNodeKey hashes (utf8Bytes mnemonic') genesisHash
  masterKey :
    ∀ genesisHash,
      (deriveSeed hashes mnemonic genesisHash).map SeedMaterial.masterKey =
        (deriveSeed hashes mnemonic' genesisHash).map SeedMaterial.masterKey

/-- No part of the identity is the same for any genesis hash. -/
structure OtherIdentity
    (hashes : KeyHashes Digest Seed)
    (mnemonic mnemonic' : Text) :
    Prop where
  nodeId :
    ∀ genesisHash,
      deriveNodeId hashes mnemonic genesisHash ≠ deriveNodeId hashes mnemonic' genesisHash
  nodeKey :
    ∀ genesisHash,
      deriveNodeKey hashes (utf8Bytes mnemonic) genesisHash ≠
        deriveNodeKey hashes (utf8Bytes mnemonic') genesisHash
  masterKey :
    ∀ genesisHash,
      (deriveSeed hashes mnemonic genesisHash).map SeedMaterial.masterKey ≠
        (deriveSeed hashes mnemonic' genesisHash).map SeedMaterial.masterKey

/-- A spelling has its own identity. -/
theorem otherIdentity_of_ne
    (injective : hashes.Injective)
    {wordList : List Text}
    {mnemonic mnemonic' : Text}
    (accepted : validateMnemonic wordList mnemonic = .ok ())
    (accepted' : validateMnemonic wordList mnemonic' = .ok ())
    (different : mnemonic ≠ mnemonic') :
    OtherIdentity hashes mnemonic mnemonic' where
  nodeId genesisHash := mt (deriveNodeId_eq_iff injective _ _ genesisHash).mp different
  nodeKey genesisHash :=
    mt (deriveNodeKey_eq_iff injective _ _ genesisHash).mp (utf8Bytes_injective.ne different)
  masterKey genesisHash :=
    mt (masterKey_eq_iff injective accepted accepted' genesisHash).mp different

theorem sameIdentity_iff
    (injective : hashes.Injective)
    (mnemonic mnemonic' : Text) :
    SameIdentity hashes mnemonic mnemonic' ↔ mnemonic = mnemonic' := by
  constructor
  · intro same
    exact (deriveNodeId_eq_iff injective mnemonic mnemonic' .zero).mp (same.nodeId .zero)
  · rintro rfl
    exact ⟨fun _ => rfl, fun _ => rfl, fun _ => rfl⟩

/-- Hash functions that keep what they are given. -/
def plainHashes : KeyHashes (List UInt8) (List UInt8) where
  blake3 message := message
  argon2id _ password salt := password ++ salt
  digestBytes digest := digest
  seedBytes seed := seed

theorem injective_plainHashes : plainHashes.Injective where
  blake3 _ _ same := same
  argon2id _ salt _ _ same := (List.append_left_inj salt).mp same
  digestBytes _ _ same := same
  seedBytes _ _ same := same

/-- The word `abandon` of the list. -/
def abandon : Text :=
  ['a', 'b', 'a', 'n', 'd', 'o', 'n']

/-- A phrase of 24 words with this whitespace between the first two. -/
def phraseSpaced (gap : Text) : Text :=
  mnemonicFirstWord ++ gap ++ abandon ++
    (List.replicate 22 (' ' :: abandon)).flatten

/-- The same words with one space and with two have different identities. -/
theorem doubleSpace_other_identity :
    ¬ ∀ (Digest Seed : Type) (hashes : KeyHashes Digest Seed) (wordList : List Text)
        (mnemonic mnemonic' : Text),
      hashes.Injective →
        validateMnemonic wordList (trim mnemonic) = .ok () →
          validateMnemonic wordList (trim mnemonic') = .ok () →
            splitWhitespace mnemonic = splitWhitespace mnemonic' →
              SameIdentity hashes (trim mnemonic) (trim mnemonic') := by
  intro always
  have accepted :
      validateMnemonic [abandon] (trim (phraseSpaced [' '])) = .ok () := by
    decide +kernel
  have accepted' :
      validateMnemonic [abandon] (trim (phraseSpaced [' ', ' '])) = .ok () := by
    decide +kernel
  have sameWords :
      splitWhitespace (phraseSpaced [' ']) = splitWhitespace (phraseSpaced [' ', ' ']) := by
    decide +kernel
  have different : trim (phraseSpaced [' ']) ≠ trim (phraseSpaced [' ', ' ']) := by
    decide +kernel
  have same :=
    always _ _ plainHashes [abandon] _ _ injective_plainHashes accepted accepted' sameWords
  exact different ((sameIdentity_iff injective_plainHashes _ _).mp same)

/--
Two mnemonics restore one identity exactly when they are the same string, after
trimming where the node trims them; any two other accepted spellings share no part of
it.
-/
theorem same_words_restore_iff
    (injective : hashes.Injective)
    {wordList : List Text}
    {mnemonic mnemonic' : Text}
    (accepted : validateMnemonic wordList (trim mnemonic) = .ok ())
    (accepted' : validateMnemonic wordList (trim mnemonic') = .ok ()) :
    (SameIdentity hashes (trim mnemonic) (trim mnemonic') ↔ trim mnemonic = trim mnemonic') ∧
      (SameIdentity hashes mnemonic mnemonic' ↔ mnemonic = mnemonic') ∧
      (trim mnemonic ≠ trim mnemonic' →
        OtherIdentity hashes (trim mnemonic) (trim mnemonic')) :=
  ⟨sameIdentity_iff injective _ _, sameIdentity_iff injective _ _,
    otherIdentity_of_ne injective accepted accepted'⟩

/-- A phrase with a space behind it restores the identity of the phrase. -/
theorem same_words_restore_trailingSpace :
    validateMnemonic [abandon] (trim (phraseSpaced [' '])) = .ok () ∧
      validateMnemonic [abandon] (trim (phraseSpaced [' '] ++ [' '])) = .ok () ∧
      SameIdentity plainHashes (trim (phraseSpaced [' ']))
        (trim (phraseSpaced [' '] ++ [' '])) := by
  have accepted :
      validateMnemonic [abandon] (trim (phraseSpaced [' '])) = .ok () := by
    decide +kernel
  have accepted' :
      validateMnemonic [abandon] (trim (phraseSpaced [' '] ++ [' '])) = .ok () := by
    decide +kernel
  have trimmed : trim (phraseSpaced [' ']) = trim (phraseSpaced [' '] ++ [' ']) := by
    decide +kernel
  exact
    ⟨accepted, accepted',
      (same_words_restore_iff injective_plainHashes accepted accepted').1.mpr trimmed⟩

end ScalarCore
