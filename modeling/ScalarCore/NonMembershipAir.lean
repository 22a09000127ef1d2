import ScalarCore.FallibleChecks
import ScalarCore.FieldConstraints
import ScalarCore.Poseidon2Air
import ScalarCore.Poseidon2Verifier
import ScalarCore.Smt

namespace ScalarCore.NonMembershipAir

/-!
# The non-membership circuit

A path from an empty leaf to the root, one row for each level.  The bits of the
nullifier choose the sides, least significant bit of byte 0 first, and every
level is hashed, also where both children are empty.

The constraints ask that a row's bit is a bit.  The hashes, the chaining of the
rows and the public values are not constrained.
-/

open FallibleChecks FieldConstraints Poseidon2Air

/-- Number of columns of the trace. -/
def nonmembTraceWidth : Nat :=
  14

def colCurHash : Nat := 0
def colSibling : Nat := 4
def colNextHash : Nat := 8
def colBit : Nat := 12
def colLevel : Nat := 13

/-- `DOMAIN_SMT_ACTIVE_LO`. -/
def domainSmtActiveLo : UInt64 :=
  fromLeBytes (asciiBytes "scalar_s")

/-- `DOMAIN_SMT_ACTIVE_HI`. -/
def domainSmtActiveHi : UInt64 :=
  fromLeBytes (asciiBytes "mt_activ")

/-- `DOMAIN_SMT_ARCHIVED_LO`. -/
def domainSmtArchivedLo : UInt64 :=
  fromLeBytes (asciiBytes "scalar_s")

/-- `DOMAIN_SMT_ARCHIVED_HI`. -/
def domainSmtArchivedHi : UInt64 :=
  fromLeBytes (asciiBytes "mt_archi")

/-- The two trees of nullifiers. -/
inductive SparseTree where
  | active
  | archived
  deriving DecidableEq

/-- The path of a nullifier in one tree, siblings from the leaf to the root. -/
structure NonMembershipWitness where
  nullifier : Bytes32
  siblings : Fin smtDepth → Digest4
  tree : SparseTree

/-- The nullifier claimed absent and the roots of the trees. -/
structure NonMembershipPublicClaim where
  nullifier : Bytes32
  activeRoot : Bytes32
  archivedRoot : Bytes32

/-- Errors of the proof functions. -/
inductive NonMembershipP3Error where
  | rootMismatch (tree : String) (got expected : Digest4)
  | serialise (text : String)
  | deserialise (text : String)
  | verifyFailed (text : String)

section Reconstruction

variable {Digest : Type}

/-- The leaf and node hashes of a path. -/
structure PathHash (Digest : Type) where
  /-- `zero_leaf`. -/
  zeroLeaf : Digest
  /-- `smt_node_hash`. -/
  nodeHash : Digest → Digest → Digest

/-- Bit of a nullifier at a level, least significant bit of byte 0 first. -/
def nullifierBit (nullifier : Bytes32) (level : Nat) : UInt64 :=
  let byteIdx := level / 8
  let bitIdx := level % 8
  ((nullifier.byteAt byteIdx >>> UInt8.ofNat bitIdx) &&& 1).toUInt64

/-- One level of the path: the current digest and the digests so far. -/
def levelStep
    (hash : PathHash Digest)
    (nullifier : Bytes32)
    (siblings : Fin smtDepth → Digest)
    (state : Digest × List Digest)
    (level : Fin smtDepth) :
    Digest × List Digest :=
  let (current, hashes) := state
  let sibling := siblings level
  let next :=
    if nullifierBit nullifier level = 0 then
      hash.nodeHash current sibling
    else
      hash.nodeHash sibling current
  (next, hashes ++ [next])

/-- The root a path leads to and the digests of its levels. -/
def reconstructRoot
    (hash : PathHash Digest)
    (nullifier : Bytes32)
    (siblings : Fin smtDepth → Digest) :
    Digest × List Digest :=
  (List.finRange smtDepth).foldl (levelStep hash nullifier siblings)
    (hash.zeroLeaf, [hash.zeroLeaf])

/-- A path has a last level. -/
theorem finRange_smtDepth_ne_nil : List.finRange smtDepth ≠ [] := by
  simp [smtDepth]

/-- Each level of a path is a node hash. -/
theorem exists_levelStep_children
    (hash : PathHash Digest)
    (nullifier : Bytes32)
    (siblings : Fin smtDepth → Digest)
    (state : Digest × List Digest)
    (level : Fin smtDepth) :
    ∃ left right,
      (levelStep hash nullifier siblings state level).1 =
        hash.nodeHash left right := by
  unfold levelStep
  by_cases isLeft : nullifierBit nullifier level = 0
  · exact ⟨_, _, if_pos isLeft⟩
  · exact ⟨_, _, if_neg isLeft⟩

/-- A path ends in a node hash, also over an empty tree. -/
theorem exists_root_children
    (hash : PathHash Digest)
    (nullifier : Bytes32)
    (siblings : Fin smtDepth → Digest) :
    ∃ left right,
      (reconstructRoot hash nullifier siblings).1 =
        hash.nodeHash left right := by
  rw [reconstructRoot,
    ← List.dropLast_append_getLast finRange_smtDepth_ne_nil,
    List.foldl_append, List.foldl_cons, List.foldl_nil]
  exact exists_levelStep_children hash nullifier siblings _ _

end Reconstruction

/-- The domain words of a tree. -/
def treeDomain : SparseTree → UInt64 × UInt64
  | .active => (domainSmtActiveLo, domainSmtActiveHi)
  | .archived => (domainSmtArchivedLo, domainSmtArchivedHi)

/-- The permutation input of a node: half of the right child is dropped. -/
def smtNodeInput
    (domainLo domainHi : UInt64)
    (left right : Digest4) :
    FieldState :=
  ![Goldilocks.new domainLo, Goldilocks.new domainHi,
    Goldilocks.new (fieldReduce (left 0)),
    Goldilocks.new (fieldReduce (left 1)),
    Goldilocks.new (fieldReduce (left 2)),
    Goldilocks.new (fieldReduce (left 3)),
    Goldilocks.new (fieldReduce (right 0)),
    Goldilocks.new (fieldReduce (right 1))]

/-- The hashes of a tree. -/
def poseidonPathHash
    (perm : T8Permutation)
    (tree : SparseTree) :
    PathHash Digest4 where
  zeroLeaf := fun _ => 0
  nodeHash left right :=
    poseidon2Hash perm
      (smtNodeInput (treeDomain tree).1 (treeDomain tree).2 left right)

/-- The root a witness leads to and the digests of its levels. -/
def NonMembershipWitness.reconstructRoot
    (perm : T8Permutation)
    (witness : NonMembershipWitness) :
    Digest4 × List Digest4 :=
  NonMembershipAir.reconstructRoot (poseidonPathHash perm witness.tree)
    witness.nullifier witness.siblings

/-- Four reduced words as elements. -/
def digestElements (words : Digest4) : List Goldilocks :=
  (List.ofFn words).map (Goldilocks.new ∘ fieldReduce)

/-- One row: a digest, its sibling, their parent, the bit and the level. -/
def proofRow
    (current sibling next : Digest4)
    (bit : UInt64)
    (level : Nat) :
    Row :=
  let elements :=
    digestElements current ++ digestElements sibling ++
      digestElements next ++
        [Goldilocks.new bit, Goldilocks.new (UInt64.ofNat level)]
  fun column => elements.getD column 0

/-- The rows of one path. -/
def buildOneProofRows
    (perm : T8Permutation)
    (witness : NonMembershipWitness) :
    List Row :=
  let hashes := (witness.reconstructRoot perm).2
  (List.finRange smtDepth).map fun (level : Fin smtDepth) =>
    proofRow (hashes.getD level.val 0) (witness.siblings level)
      (hashes.getD (level.val + 1) 0)
      (nullifierBit witness.nullifier level.val) level.val

/-- The rows of all paths, padded with zero rows. -/
def buildNonmembershipTrace
    (perm : T8Permutation)
    (witnesses : List NonMembershipWitness) :
    List Row :=
  let rows := witnesses.flatMap (buildOneProofRows perm)
  let padded := max (CircuitTrace.nextPowerOfTwo rows.length) 2
  rows ++ List.replicate (padded - rows.length) 0

/-- The two roots and the nullifier. -/
def buildNonmembershipPublicValues
    (claim : NonMembershipPublicClaim) :
    List Goldilocks :=
  digestElements claim.activeRoot.limb ++
    digestElements claim.archivedRoot.limb ++
      digestElements claim.nullifier.limb

/-- `eval`: the bit column is boolean.  The public values are not read. -/
def constraints
    (_publicValues : List Goldilocks) :
    CircuitTrace.RowConstraints Row where
  everyRow row := Vanish [row colBit * (1 - row colBit)]
  firstRow _ := True
  lastRow _ := True

/-- A trace the circuit accepts for a claim. -/
def Satisfies
    (claim : NonMembershipPublicClaim)
    (trace : List Row) : Prop :=
  CircuitTrace.Satisfies
    (constraints (buildNonmembershipPublicValues claim)) trace

/-- The claimed root of a tree, and its name in errors. -/
def NonMembershipPublicClaim.rootOf
    (claim : NonMembershipPublicClaim) :
    SparseTree → Bytes32 × String
  | .active => (claim.activeRoot, "active")
  | .archived => (claim.archivedRoot, "archived")

/-- The prover's check of a witness against the claim. -/
def preflightCheck
    (perm : T8Permutation)
    (witness : NonMembershipWitness)
    (claim : NonMembershipPublicClaim) :
    Except NonMembershipP3Error Unit :=
  let reconstructed := (witness.reconstructRoot perm).1
  let (expectedBytes, treeName) := claim.rootOf witness.tree
  let expected := expectedBytes.limb
  if reconstructed ≠ expected then
    .error (.rootMismatch treeName reconstructed expected)
  else
    .ok ()

/--
The check of `prove_nonmembership_p3` before it proves: in each tree some
witness for the nullifier passes it.
-/
def PassesPreflight
    (perm : T8Permutation)
    (claim : NonMembershipPublicClaim) : Prop :=
  ∀ tree : SparseTree, ∃ siblings : Fin smtDepth → Digest4,
    preflightCheck perm { nullifier := claim.nullifier, siblings, tree } claim =
      .ok ()

/-- Some path of the nullifier leads to the claimed root of a tree. -/
def Reconstructs
    (perm : T8Permutation)
    (claim : NonMembershipPublicClaim)
    (tree : SparseTree) : Prop :=
  ∃ siblings : Fin smtDepth → Digest4,
    (NonMembershipWitness.reconstructRoot perm
      { nullifier := claim.nullifier, siblings, tree }).1 =
      (claim.rootOf tree).1.limb

/-- An accepted trace of a given height shows a path in each tree. -/
def Sound
    (perm : T8Permutation)
    (claim : NonMembershipPublicClaim)
    (height : Nat) : Prop :=
  ∀ trace : List Row,
    trace.length = height →
      Satisfies claim trace →
        Reconstructs perm claim .active ∧ Reconstructs perm claim .archived

/-- Which traces are accepted does not depend on the claim. -/
theorem satisfies_iff
    {claim : NonMembershipPublicClaim}
    {trace : List Row} :
    Satisfies claim trace ↔
      ∀ row ∈ trace, row colBit = 0 ∨ row colBit = 1 := by
  have bitRow (row : Row) :
      Vanish [row colBit * (1 - row colBit)] ↔
        row colBit = 0 ∨ row colBit = 1 := by
    rw [vanish_cons, mul_eq_zero, sub_eq_zero]
    simp only [vanish_nil, and_true, eq_comm]
  constructor
  · intro satisfied row listed
    exact (bitRow row).mp (satisfied.every row listed)
  · intro bits
    exact ⟨fun row listed => (bitRow row).mpr (bits row listed),
      fun _ _ => trivial, fun _ _ => trivial⟩

theorem nullifierBit_cases (nullifier : Bytes32) (level : Nat) :
    nullifierBit nullifier level = 0 ∨ nullifierBit nullifier level = 1 := by
  rw [← UInt64.toNat_inj, ← UInt64.toNat_inj, nullifierBit,
    UInt8.toNat_toUInt64, UInt8.toNat_and]
  simp only [UInt8.toNat_one, Nat.and_one_is_mod, UInt64.toNat_zero,
    UInt64.toNat_one]
  omega

/-- The prover's trace is accepted, whatever its paths lead to. -/
theorem satisfies_buildNonmembershipTrace
    (perm : T8Permutation)
    (witnesses : List NonMembershipWitness)
    (claim : NonMembershipPublicClaim) :
    Satisfies claim (buildNonmembershipTrace perm witnesses) := by
  rw [satisfies_iff]
  intro row listed
  rcases List.mem_append.mp listed with proved | padding
  · obtain ⟨witness, _, ofWitness⟩ := List.mem_flatMap.mp proved
    obtain ⟨level, _, rfl⟩ := List.mem_map.mp ofWitness
    rcases nullifierBit_cases witness.nullifier level with zero | one
    · left
      simp only [zero]
      exact Nat.cast_zero
    · right
      simp only [one]
      exact Nat.cast_one
  · left
    rw [List.eq_of_mem_replicate padding]
    rfl

/-- Zero rows are accepted for every claim. -/
theorem satisfies_zeroRows
    (claim : NonMembershipPublicClaim)
    (height : Nat) :
    Satisfies claim (List.replicate height 0) := by
  rw [satisfies_iff]
  intro row listed
  rw [List.eq_of_mem_replicate listed]
  exact Or.inl rfl

theorem preflightCheck_eq_ok_iff
    {perm : T8Permutation}
    {witness : NonMembershipWitness}
    {claim : NonMembershipPublicClaim} :
    preflightCheck perm witness claim = .ok () ↔
      (witness.reconstructRoot perm).1 =
        (claim.rootOf witness.tree).1.limb := by
  rw [preflightCheck, ite_error_eq_ok_iff, not_not, and_iff_left rfl]

/-- The prover can pass its check when the nullifier has a path in each tree. -/
theorem passesPreflight_iff
    {perm : T8Permutation}
    {claim : NonMembershipPublicClaim} :
    PassesPreflight perm claim ↔
      Reconstructs perm claim .active ∧ Reconstructs perm claim .archived := by
  have each (tree : SparseTree) :
      (∃ siblings : Fin smtDepth → Digest4,
        preflightCheck perm { nullifier := claim.nullifier, siblings, tree }
          claim = .ok ()) ↔
        Reconstructs perm claim tree :=
    exists_congr fun _ => preflightCheck_eq_ok_iff
  constructor
  · intro passes
    exact ⟨(each .active).mp (passes .active),
      (each .archived).mp (passes .archived)⟩
  · intro reconstructs tree
    cases tree with
    | active =>
        exact (each .active).mpr reconstructs.1
    | archived =>
        exact (each .archived).mpr reconstructs.2

/--
The only check of a path is the prover's own: accepted traces of any height show
two paths exactly for the claims with which a prover passes its check, because
the circuit accepts a trace for every claim.
-/
theorem nonmembership_sound_iff
    (perm : T8Permutation)
    (claim : NonMembershipPublicClaim)
    (height : Nat) :
    Sound perm claim height ↔ PassesPreflight perm claim := by
  rw [passesPreflight_iff]
  constructor
  · intro sound
    exact sound _ List.length_replicate (satisfies_zeroRows claim height)
  · intro reconstructs _ _ _
    exact reconstructs

/-- A nullifier claimed absent under roots that no path can end in. -/
def unreachableRoots : NonMembershipPublicClaim where
  nullifier := Bytes32.zero
  activeRoot := Bytes32.replicate 0xFF
  archivedRoot := Bytes32.replicate 0xFF

/-- The circuit accepts a root that is not the root of any tree. -/
theorem not_sound_unreachableRoots :
    ¬Sound VerifierPy.t8Permutation unreachableRoots 64 := by
  intro sound
  obtain ⟨⟨siblings, reached⟩, _⟩ :=
    sound _ List.length_replicate (satisfies_zeroRows unreachableRoots 64)
  obtain ⟨left, right, hashed⟩ := exists_root_children _ _ _
  exact poseidon2Hash_ne_unreachedWords _ _
    (hashed.symm.trans (reached.trans limb_replicate_ones))

end ScalarCore.NonMembershipAir
