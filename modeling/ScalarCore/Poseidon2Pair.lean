import ScalarCore.Poseidon2T8

namespace ScalarCore

/-!
# The hash of two words

Two words are reduced into the field and put through the width-4 permutation;
the first word of the result is the hash.  The permutation is a parameter that
answers canonical words.  No function from pairs of words to words is injective
on all pairs, so what is assumed of it is assumed of the pairs that are hashed.
-/

/-- The first word of `poseidon2_permutation` on `[0, left, right, 0]`. -/
structure PairHash where
  compress : UInt64 → UInt64 → UInt64
  /-- The field operations answer representatives below the prime. -/
  canonical : ∀ left right, compress left right < goldilocksPrime

namespace PairHash

variable (hash : PairHash)

/-- `hash_2_to_1`. -/
def hash2To1 (left right : UInt64) : UInt64 :=
  hash.compress (fieldReduce left) (fieldReduce right)

/-- No two of the pairs collide. -/
def InjectiveOn (pairs : List (UInt64 × UInt64)) : Prop :=
  ∀ pair ∈ pairs, ∀ other ∈ pairs,
    hash.compress pair.1 pair.2 = hash.compress other.1 other.2 →
    pair = other

instance (pairs : List (UInt64 × UInt64)) :
    Decidable (hash.InjectiveOn pairs) :=
  @List.decidableBAll _ _
    (fun _ => @List.decidableBAll _ _ (fun _ => inferInstance) pairs) pairs

/-- The pair that `hash_2_to_1` feeds to the permutation. -/
def hashedPair (left right : UInt64) : UInt64 × UInt64 :=
  (fieldReduce left, fieldReduce right)

variable {hash} {pairs : List (UInt64 × UInt64)}

/-- Where no two pairs collide, equal hashes are hashes of one pair. -/
theorem InjectiveOn.hash2To1_eq_iff
    (injective : hash.InjectiveOn pairs)
    {left right left' right' : UInt64}
    (listed : hashedPair left right ∈ pairs)
    (listed' : hashedPair left' right' ∈ pairs) :
    hash.hash2To1 left right = hash.hash2To1 left' right' ↔
      fieldReduce left = fieldReduce left' ∧
        fieldReduce right = fieldReduce right' := by
  constructor
  · intro same
    exact Prod.ext_iff.mp (injective _ listed _ listed' same)
  · rintro ⟨sameLeft, sameRight⟩
    rw [hash2To1, hash2To1, sameLeft, sameRight]

/-- A hash is its own reduction. -/
@[simp] theorem fieldReduce_hash2To1 (left right : UInt64) :
    fieldReduce (hash.hash2To1 left right) = hash.hash2To1 left right :=
  fieldReduce_of_lt (hash.canonical _ _)

/-- A linear hash, to compute with. -/
def sampleHash : PairHash where
  compress left right := fieldReduce (31 * left + right)
  canonical _ _ := fieldReduce_lt _

end PairHash

end ScalarCore
