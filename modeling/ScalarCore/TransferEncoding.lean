import ScalarCore.TransferAirSoundness

namespace ScalarCore.TransferPublicInputsP3

/-!
# Reading back the public inputs of a transfer

The layout holds words as field elements, so it holds them modulo the prime.
Halves of the roots and flags fit; a word of 64 bits is read back exactly when it
is canonical.  Words below `2^32 - 1` have a second word in the same element.
-/

/-- The words that the layout reduces. -/
def words (pi : TransferPublicInputsP3) : List UInt64 :=
  [pi.feeTotalSscl, pi.sumInputsSscl, pi.sumOutputsSscl, pi.cryptoVersion,
      pi.currentSubepochId] ++
    List.ofFn pi.commitmentHash ++ List.ofFn pi.nullifierHash

/-- The record with these words changed. -/
def mapWords (change : UInt64 → UInt64) (pi : TransferPublicInputsP3) :
    TransferPublicInputsP3 :=
  { pi with
    feeTotalSscl := change pi.feeTotalSscl
    sumInputsSscl := change pi.sumInputsSscl
    sumOutputsSscl := change pi.sumOutputsSscl
    cryptoVersion := change pi.cryptoVersion
    currentSubepochId := change pi.currentSubepochId
    commitmentHash := change ∘ pi.commitmentHash
    nullifierHash := change ∘ pi.nullifierHash }

/-- The record without its private target. -/
def published (pi : TransferPublicInputsP3) : TransferPublicInputsP3 :=
  { pi with targetSubepochId := 0 }

/-- Every word is below the prime. -/
def Canonical (pi : TransferPublicInputsP3) : Prop :=
  ∀ word ∈ pi.words, word < goldilocksPrime

variable {pi pi' : TransferPublicInputsP3}

/-- What the layout gives back: the published record, its words reduced. -/
theorem fromGoldilocks_toGoldilocks (pi : TransferPublicInputsP3) :
    fromGoldilocks pi.toGoldilocks =
      some (pi.published.mapWords fieldReduce) := by
  have reduced :
      (fun word => Goldilocks.asCanonicalU64 (Goldilocks.new word)) =
        fieldReduce :=
    funext Goldilocks.asCanonicalU64_new
  have flag (b : Bool) :
      (Goldilocks.asCanonicalU64 (Goldilocks.new b.toUInt64) != 0) = b := by
    cases b <;> decide
  have hash (words : Digest4) :
      ![Goldilocks.asCanonicalU64 (Goldilocks.new (words 0)),
          Goldilocks.asCanonicalU64 (Goldilocks.new (words 1)),
          Goldilocks.asCanonicalU64 (Goldilocks.new (words 2)),
          Goldilocks.asCanonicalU64 (Goldilocks.new (words 3))] =
        (fun word => Goldilocks.asCanonicalU64 (Goldilocks.new word)) ∘
          words := by
    funext index
    fin_cases index <;> rfl
  have longEnough : ¬ pi.toGoldilocks.length < transferPiLen := by
    rw [length_toGoldilocks]
    exact Nat.lt_irrefl _
  rw [← reduced, fromGoldilocks, if_neg longEnough, Option.some_inj, mapWords]
  apply (mk.injEq ..).mpr
  exact ⟨rfl, rfl, rfl, rfl, rfl, rfl,
    readBytes32_pushBytes32 pi.utxoSetRoot,
    flag pi.cbMembershipVerified,
    readBytes32_pushBytes32 pi.nullifierActiveRoot,
    readBytes32_pushBytes32 pi.nullifierArchivedRoot,
    flag pi.ccNonmembershipVerified, flag pi.outputNonzero,
    flag pi.singleUtxoSource,
    hash pi.commitmentHash, hash pi.nullifierHash⟩

/-- A change of words leaves a record alone when it leaves its words alone. -/
theorem mapWords_eq_self_iff {change : UInt64 → UInt64} :
    pi.mapWords change = pi ↔ ∀ word ∈ pi.words, change word = word := by
  have hash (words : Digest4) :
      change ∘ words = words ↔
        ∀ word ∈ List.ofFn words, change word = word := by
    rw [funext_iff, List.forall_mem_ofFn_iff]
    exact Iff.rfl
  have record :
      pi.mapWords change = pi ↔
        change pi.feeTotalSscl = pi.feeTotalSscl ∧
        change pi.sumInputsSscl = pi.sumInputsSscl ∧
        change pi.sumOutputsSscl = pi.sumOutputsSscl ∧
        change pi.cryptoVersion = pi.cryptoVersion ∧
        change pi.currentSubepochId = pi.currentSubepochId ∧
        change ∘ pi.commitmentHash = pi.commitmentHash ∧
        change ∘ pi.nullifierHash = pi.nullifierHash := by
    obtain ⟨⟩ := pi
    simp only [mapWords, mk.injEq, true_and]
  rw [record, hash, hash]
  simp only [words, List.forall_mem_append, List.forall_mem_cons,
    List.not_mem_nil, false_implies, implies_true, and_true, and_assoc]

/-- The words of a changed record are the changed words. -/
theorem words_mapWords (change : UInt64 → UInt64) :
    (pi.mapWords change).words = pi.words.map change := by
  simp only [words, mapWords, List.map_append, List.map_cons, List.map_nil,
    List.map_ofFn]

/-- Changes within the classes of the prime do not reach the layout. -/
theorem toGoldilocks_mapWords
    {change : UInt64 → UInt64}
    (sameClass : ∀ word, fieldReduce (change word) = fieldReduce word) :
    (pi.mapWords change).toGoldilocks = pi.toGoldilocks :=
  toGoldilocks_eq_iff.mpr
    ⟨sameClass _, sameClass _, sameClass _, sameClass _, sameClass _,
      rfl, rfl, rfl, rfl, rfl, rfl, rfl,
      fun index => sameClass (pi.commitmentHash index),
      fun index => sameClass (pi.nullifierHash index)⟩

/-- Canonical records lose nothing, and only they do. -/
theorem fromGoldilocks_toGoldilocks_iff :
    fromGoldilocks pi.toGoldilocks = some pi.published ↔ Canonical pi := by
  have fixed :
      pi.published.mapWords fieldReduce = pi.published ↔ Canonical pi :=
    mapWords_eq_self_iff.trans
      (forall₂_congr fun _ _ => fieldReduce_eq_self_iff)
  rw [fromGoldilocks_toGoldilocks, Option.some_inj]
  exact fixed

/-- Equal layouts say that the published records agree modulo the prime. -/
theorem toGoldilocks_eq_iff_mapWords :
    pi.toGoldilocks = pi'.toGoldilocks ↔
      pi.published.mapWords fieldReduce =
        pi'.published.mapWords fieldReduce := by
  have back (pi : TransferPublicInputsP3) :
      (pi.published.mapWords fieldReduce).toGoldilocks = pi.toGoldilocks :=
    toGoldilocks_mapWords fieldReduce_idem
  constructor
  · intro same
    have read := congrArg fromGoldilocks same
    rwa [fromGoldilocks_toGoldilocks, fromGoldilocks_toGoldilocks,
      Option.some_inj] at read
  · intro same
    rw [← back pi, same, back pi']

/-- A record shares its layout with no other when no word has a second one. -/
theorem toGoldilocks_determines_iff :
    (∀ pi' : TransferPublicInputsP3, pi.toGoldilocks = pi'.toGoldilocks →
        pi.published = pi'.published) ↔
      ∀ word ∈ pi.words, 0xFFFFFFFF ≤ word ∧ word < goldilocksPrime := by
  constructor
  · intro determines
    have other :
        pi.published = pi.published.mapWords otherWord :=
      determines (pi.mapWords otherWord)
        (toGoldilocks_mapWords fieldReduce_otherWord).symm
    have fixed := mapWords_eq_self_iff.mp other.symm
    intro word listed
    exact otherWord_eq_self_iff.mp (fixed word listed)
  · intro alone pi' same
    have canonical : Canonical pi := fun word listed => (alone word listed).2
    have read :
        pi'.published.mapWords fieldReduce = pi.published := by
      rw [← toGoldilocks_eq_iff_mapWords.mp same]
      exact mapWords_eq_self_iff.mpr fun word listed =>
        fieldReduce_of_lt (canonical word listed)
    have fixed : pi'.published.mapWords fieldReduce = pi'.published := by
      apply mapWords_eq_self_iff.mpr
      intro word listed
      have known : fieldReduce word ∈ pi.words := by
        have mapped : fieldReduce word ∈ pi'.words.map fieldReduce :=
          List.mem_map_of_mem listed
        rw [← words_mapWords] at mapped
        exact congrArg words read ▸ mapped
      exact fieldReduce_eq_self_of_le (alone _ known).1
    exact read.symm.trans fixed

/--
Reading a layout back gives the published record exactly when every word is
below the prime, and canonical records with one layout are one published record.
-/
theorem toGoldilocks_lossless_iff (pi : TransferPublicInputsP3) :
    (fromGoldilocks pi.toGoldilocks = some pi.published ↔ Canonical pi) ∧
      (Canonical pi →
        ∀ pi' : TransferPublicInputsP3,
          Canonical pi' → pi.toGoldilocks = pi'.toGoldilocks →
            pi.published = pi'.published) ∧
      ((∀ pi' : TransferPublicInputsP3, pi.toGoldilocks = pi'.toGoldilocks →
          pi.published = pi'.published) ↔
        ∀ word ∈ pi.words, 0xFFFFFFFF ≤ word ∧ word < goldilocksPrime) := by
  refine ⟨fromGoldilocks_toGoldilocks_iff, ?_, toGoldilocks_determines_iff⟩
  intro canonical pi' canonical' same
  have read := fromGoldilocks_toGoldilocks_iff.mpr canonical
  have read' := fromGoldilocks_toGoldilocks_iff.mpr canonical'
  rw [same] at read
  exact Option.some_inj.mp (read.symm.trans read')

/--
A fee that is the prime above the fee of the plain transfer has its layout, and
is read back as the fee of the plain transfer.
-/
theorem toGoldilocks_wrappedFee :
    let wrappedFee : TransferPublicInputsP3 :=
      { TransferAirP3.plainTransfer with
        feeTotalSscl := goldilocksPrime + 40 }
    fromGoldilocks wrappedFee.toGoldilocks ≠ some wrappedFee.published ∧
      wrappedFee.toGoldilocks = TransferAirP3.plainTransfer.toGoldilocks ∧
      wrappedFee.feeTotalSscl ≠ TransferAirP3.plainTransfer.feeTotalSscl := by
  intro wrappedFee
  refine ⟨?_, ?_, by decide⟩
  · rw [Ne, fromGoldilocks_toGoldilocks_iff]
    intro canonical
    have below : wrappedFee.feeTotalSscl < goldilocksPrime :=
      canonical _ (.head _)
    exact absurd below (by decide)
  · have fee :
        fieldReduce (goldilocksPrime + 40) =
          fieldReduce TransferAirP3.plainTransfer.feeTotalSscl := by
      decide
    exact toGoldilocks_eq_iff.mpr
      ⟨fee, rfl, rfl, rfl, rfl, rfl, rfl, rfl, rfl, rfl, rfl, rfl,
        fun _ => rfl, fun _ => rfl⟩

end ScalarCore.TransferPublicInputsP3
