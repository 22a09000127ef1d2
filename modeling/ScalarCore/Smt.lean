import Mathlib.Data.Finmap
import Mathlib.Data.Finset.Sort
import ScalarCore.MachineInt
import ScalarCore.SmtMessages
import ScalarCore.SparseTree
import ScalarCore.StateMachine

namespace ScalarCore

/-!
# The sparse Merkle tree of active nullifiers

The tree of depth 32 over the active nullifiers and their epochs.  A nullifier
has 256 bits and its path is the first 32 of them.  The root is folded from all
entries, sorted by key, after each change.

The source keeps the entries in a hash map.  Its iteration order is unspecified
and enters where the result depends on it, in `nullifiersOlderThan` only.
-/

open MachineInt

/-- Depth of the tree. -/
def smtDepth : Nat :=
  32

/-- Largest number of nullifiers archived by one checkpoint. -/
def maxNullifiersPerCheckpoint : Nat :=
  200000

/-- The hash functions of the active tree and of the archive. -/
structure SmtHash (Digest : Type) where
  /-- `hash_internal`. -/
  hashInternal : Digest → Digest → Digest
  /-- `hash_leaf`. -/
  hashLeaf : Bytes32 → UInt64 → Digest
  /-- `EMPTY_ROOT`, also the archived root before the first checkpoint. -/
  emptyRoot : Digest
  /-- The hash at the end of `compute_archived_root`. -/
  hashArchived : Digest → List Bytes32 → Digest

/-- The hashes of the source, over a given BLAKE3. -/
def blake3SmtHash (blake3 : List UInt8 → Bytes32) : SmtHash Bytes32 where
  hashInternal left right :=
    blake3 (SmtMessage.internal left right).toBytes
  hashLeaf nullifier epochId :=
    blake3 (SmtMessage.leaf nullifier epochId).toBytes
  emptyRoot := Bytes32.zero
  hashArchived prevArchivedRoot sorted :=
    blake3 (SmtMessage.archived prevArchivedRoot sorted).toBytes

/-- Digests as the terms that were hashed. -/
inductive SymbolicDigest where
  | empty
  | leaf (nullifier : Bytes32) (epochId : UInt64)
  | node (left right : SymbolicDigest)
  | archived (prevArchivedRoot : SymbolicDigest) (sorted : List Bytes32)
  deriving DecidableEq

/-- The hashes without any collision. -/
def symbolicSmtHash : SmtHash SymbolicDigest where
  hashInternal := .node
  hashLeaf := .leaf
  emptyRoot := .empty
  hashArchived := .archived

/-- Bit of a key at a depth, most significant bit of byte 0 first. -/
def bitAt (key : Bytes32) (depth : Nat) : Bool :=
  let byteIdx := depth / 8
  let bitIdx := 7 - depth % 8
  (key.byteAt byteIdx >>> UInt8.ofNat bitIdx) &&& 1 == 1

/-- The entries of a tree, by nullifier. -/
abbrev SmtLeaves :=
  Finmap fun _ : Bytes32 => UInt64

/--
An order in which a hash map lists its keys.  Each key is listed once; nothing
else is known of the order, which differs between nodes and between runs.
-/
structure IterationOrder where
  list : Finset Bytes32 → List Bytes32
  nodup : ∀ keys, (list keys).Nodup
  mem_list : ∀ keys key, key ∈ list keys ↔ key ∈ keys

/-- The ascending order, one of the possible iteration orders. -/
def IterationOrder.ascending : IterationOrder where
  list keys := keys.sort
  nodup keys := keys.sort_nodup _
  mem_list _ _ := Finset.mem_sort _

/-- The descending order, another one. -/
def IterationOrder.descending : IterationOrder where
  list keys := keys.sort.reverse
  nodup keys := List.nodup_reverse.mpr (keys.sort_nodup _)
  mem_list _ _ := List.mem_reverse.trans (Finset.mem_sort _)

/-- The entries at given nullifiers, in their order. -/
def SmtLeaves.entriesOf
    (leaves : SmtLeaves)
    (nullifiers : List Bytes32) : List (Bytes32 × UInt64) :=
  nullifiers.filterMap fun nullifier =>
    (leaves.lookup nullifier).map fun epoch => (nullifier, epoch)

/-- All entries, ascending by nullifier. -/
def SmtLeaves.entriesSorted (leaves : SmtLeaves) : List (Bytes32 × UInt64) :=
  leaves.entriesOf leaves.keys.sort

namespace SmtLeaves

@[simp] theorem mem_entriesOf
    {leaves : SmtLeaves}
    {nullifiers : List Bytes32}
    {entry : Bytes32 × UInt64} :
    entry ∈ leaves.entriesOf nullifiers ↔
      entry.1 ∈ nullifiers ∧ leaves.lookup entry.1 = some entry.2 := by
  rcases entry with ⟨key, epoch⟩
  simp only [entriesOf, List.mem_filterMap, Option.map_eq_some_iff,
    Prod.mk.injEq]
  constructor
  · rintro ⟨nullifier, listed, found, stored, rfl, rfl⟩
    exact ⟨listed, stored⟩
  · rintro ⟨listed, stored⟩
    exact ⟨key, listed, epoch, stored, rfl, rfl⟩

/-- The sorted entries are the entries of the map. -/
theorem mem_entriesSorted
    {leaves : SmtLeaves}
    {entry : Bytes32 × UInt64} :
    entry ∈ leaves.entriesSorted ↔
      leaves.lookup entry.1 = some entry.2 := by
  rw [entriesSorted, mem_entriesOf, Finset.mem_sort, Finmap.mem_keys]
  exact
    and_iff_right_of_imp fun stored => Finmap.mem_of_lookup_eq_some stored

/-- Listing keys in an ascending order lists the entries in that order. -/
theorem pairwise_entriesOf
    {leaves : SmtLeaves}
    {related : Bytes32 → Bytes32 → Prop}
    {nullifiers : List Bytes32}
    (ordered : nullifiers.Pairwise related) :
    (leaves.entriesOf nullifiers).Pairwise
      fun earlier later => related earlier.1 later.1 := by
  apply ordered.filterMap
  rintro earlier later relatedKeys ⟨key, epoch⟩ found ⟨key', epoch'⟩ found'
  simp only [Option.map_eq_some_iff, Prod.mk.injEq] at found found'
  rcases found with ⟨_, _, rfl, _⟩
  rcases found' with ⟨_, _, rfl, _⟩
  exact relatedKeys

theorem pairwise_entriesSorted
    (leaves : SmtLeaves) :
    leaves.entriesSorted.Pairwise
      fun earlier later => earlier.1 < later.1 :=
  pairwise_entriesOf leaves.keys.sortedLT_sort.pairwise

/-- Whatever order a hash map lists its keys in, sorting gives one list. -/
theorem mergeSort_entriesOf
    (leaves : SmtLeaves)
    (order : IterationOrder) :
    (leaves.entriesOf (order.list leaves.keys)).mergeSort
        (fun earlier later => decide (earlier.1 ≤ later.1)) =
      leaves.entriesSorted := by
  have listed : (order.list leaves.keys).Perm leaves.keys.sort := by
    rw [List.perm_ext_iff_of_nodup (order.nodup _) (Finset.sort_nodup _ _)]
    intro key
    rw [order.mem_list, Finset.mem_sort]
  have sameEntries :
      ((leaves.entriesOf (order.list leaves.keys)).mergeSort
        fun earlier later => decide (earlier.1 ≤ later.1)).Perm
        leaves.entriesSorted :=
    (List.mergeSort_perm _ _).trans (listed.filterMap _)
  have sortedByKey :
      ((leaves.entriesOf (order.list leaves.keys)).mergeSort
        fun earlier later => decide (earlier.1 ≤ later.1)).Pairwise
          fun earlier later => decide (earlier.1 ≤ later.1) = true := by
    apply List.pairwise_mergeSort
    · intro first second third
      simpa using le_trans
    · intro first second
      simpa using le_total first.1 second.1
  refine
    List.Perm.eq_of_pairwise ?_ (sortedByKey.imp of_decide_eq_true)
      (leaves.pairwise_entriesSorted.imp le_of_lt) sameEntries
  rintro ⟨key, epoch⟩ ⟨key', epoch'⟩ listedFirst listedSecond below above
  obtain rfl : key = key' := le_antisymm below above
  have storedFirst := mem_entriesSorted.mp (sameEntries.mem_iff.mp listedFirst)
  have storedSecond := mem_entriesSorted.mp listedSecond
  simp only [storedFirst, Option.some.injEq] at storedSecond
  rw [storedSecond]

end SmtLeaves

section Hashing

variable {Digest : Type} [DecidableEq Digest] (hash : SmtHash Digest)

/--
Root of the subtree that starts `remaining` levels above the leaves, at
`startDepth`.  The leaf level hashes the first leaf; the assertion that there
is no other one is not part of release builds.
-/
def subtreeRoot :
    Nat → List (Bytes32 × UInt64) → Nat → Digest
  | _, [], _ => hash.emptyRoot
  | 0, leaf :: _, _ => hash.hashLeaf leaf.1 leaf.2
  | remaining + 1, leaf :: rest, startDepth =>
      let leftLeaves :=
        (leaf :: rest).filter fun entry => !bitAt entry.1 startDepth
      let rightLeaves :=
        (leaf :: rest).filter fun entry => bitAt entry.1 startDepth
      let leftRoot := subtreeRoot remaining leftLeaves (startDepth + 1)
      let rightRoot := subtreeRoot remaining rightLeaves (startDepth + 1)
      if leftRoot = hash.emptyRoot ∧ rightRoot = hash.emptyRoot then
        hash.emptyRoot
      else
        hash.hashInternal leftRoot rightRoot

/-- Root of the whole tree over given entries. -/
def recomputeRoot (leaves : SmtLeaves) : Digest :=
  if leaves.keys = ∅ then
    hash.emptyRoot
  else
    subtreeRoot hash smtDepth leaves.entriesSorted 0

/-- Whether two keys agree in their first `depth` bits. -/
def prefixMatchesExcept (key target : Bytes32) (depth : Nat) : Bool :=
  (List.range depth).all fun d => bitAt key d == bitAt target d

/-- A membership or non-membership proof, siblings from the root to the leaf. -/
structure SmtProof (Digest : Type) where
  siblings : List Digest
  isMember : Bool
  key : Bytes32

/-- One level of `SmtProof::verify`, from the child to its parent. -/
def SmtProof.parent
    (proof : SmtProof Digest)
    (depth : Nat)
    (current : Digest) : Digest :=
  let sibling := proof.siblings.getD depth hash.emptyRoot
  if current = hash.emptyRoot ∧ sibling = hash.emptyRoot then
    hash.emptyRoot
  else if bitAt proof.key depth then
    hash.hashInternal sibling current
  else
    hash.hashInternal current sibling

/-- Whether the siblings of a proof lead from the empty leaf to a root. -/
def SmtProof.verify (proof : SmtProof Digest) (root : Digest) : Bool :=
  if proof.siblings.length ≠ smtDepth then
    false
  else
    (List.range smtDepth).foldr (proof.parent hash) hash.emptyRoot == root

/-- Whether a proof shows the absence of its key. -/
def SmtProof.verifyNonMembership
    (proof : SmtProof Digest)
    (root : Digest) : Bool :=
  if proof.siblings.length ≠ smtDepth then
    false
  else if proof.isMember then
    false
  else
    proof.verify hash root

/--
The tree.  The root is kept beside the entries and always is theirs: `insert`
and `remove` recompute it and nothing else writes it.
-/
structure SparseMerkleTree where
  root : Digest
  leaves : SmtLeaves
  root_eq : root = recomputeRoot hash leaves

namespace SparseMerkleTree

/-- The empty tree. -/
def new : SparseMerkleTree hash where
  root := hash.emptyRoot
  leaves := ∅
  root_eq := by simp [recomputeRoot]

variable {hash}

/-- Enter a nullifier, replacing the epoch of an earlier entry. -/
def insert
    (tree : SparseMerkleTree hash)
    (nullifier : Bytes32)
    (epochId : UInt64) :
    SparseMerkleTree hash where
  root := recomputeRoot hash (tree.leaves.insert nullifier epochId)
  leaves := tree.leaves.insert nullifier epochId
  root_eq := rfl

/-- Remove a nullifier. -/
def remove
    (tree : SparseMerkleTree hash)
    (nullifier : Bytes32) :
    SparseMerkleTree hash where
  root := recomputeRoot hash (tree.leaves.erase nullifier)
  leaves := tree.leaves.erase nullifier
  root_eq := rfl

/-- Whether a nullifier is present. -/
def contains (tree : SparseMerkleTree hash) (nullifier : Bytes32) : Bool :=
  decide (nullifier ∈ tree.leaves)

/-- Number of nullifiers. -/
def len (tree : SparseMerkleTree hash) : Nat :=
  tree.leaves.keys.card

/-- Epoch at which a nullifier was entered. -/
def epochOf (tree : SparseMerkleTree hash) (nullifier : Bytes32) :
    Option UInt64 :=
  tree.leaves.lookup nullifier

/-- Nullifiers more than `maxEpochs` old, in the order of the hash map. -/
def nullifiersOlderThan
    (tree : SparseMerkleTree hash)
    (order : IterationOrder)
    (currentEpoch maxEpochs : UInt64) : List Bytes32 :=
  (order.list tree.leaves.keys).filter fun nullifier =>
    (tree.epochOf nullifier).any fun epoch =>
      decide (maxEpochs < saturatingSub currentEpoch epoch)

/-- The siblings along the path of a key. -/
def computeSiblings
    (tree : SparseMerkleTree hash)
    (target : Bytes32) : List Digest :=
  (List.range smtDepth).map fun depth =>
    let siblingBit := !bitAt target depth
    let siblingLeaves :=
      (tree.leaves.entriesSorted.filter fun entry =>
          prefixMatchesExcept entry.1 target depth).filter
        fun entry => bitAt entry.1 depth == siblingBit
    subtreeRoot hash (smtDepth - (depth + 1)) siblingLeaves (depth + 1)

/-- The proof for a key. -/
def generateProof
    (tree : SparseMerkleTree hash)
    (nullifier : Bytes32) : SmtProof Digest where
  siblings := tree.computeSiblings nullifier
  isMember := tree.contains nullifier
  key := nullifier

/-- Whether the tree's own proof shows the absence of a nullifier. -/
def verifyNonMembership
    (tree : SparseMerkleTree hash)
    (nullifier : Bytes32) : Bool :=
  if tree.contains nullifier then
    false
  else
    (tree.generateProof nullifier).verifyNonMembership hash tree.root

@[simp] theorem leaves_new : (new hash).leaves = ∅ :=
  rfl

@[simp] theorem leaves_insert
    (tree : SparseMerkleTree hash)
    (nullifier : Bytes32)
    (epochId : UInt64) :
    (tree.insert nullifier epochId).leaves =
      tree.leaves.insert nullifier epochId :=
  rfl

@[simp] theorem leaves_remove
    (tree : SparseMerkleTree hash)
    (nullifier : Bytes32) :
    (tree.remove nullifier).leaves = tree.leaves.erase nullifier :=
  rfl

@[simp] theorem contains_iff
    {tree : SparseMerkleTree hash}
    {nullifier : Bytes32} :
    tree.contains nullifier = true ↔ nullifier ∈ tree.leaves :=
  decide_eq_true_iff

@[simp] theorem contains_eq_false_iff
    {tree : SparseMerkleTree hash}
    {nullifier : Bytes32} :
    tree.contains nullifier = false ↔ nullifier ∉ tree.leaves :=
  decide_eq_false_iff_not

/-- A nullifier is stored with an epoch that has a property. -/
theorem mem_and_any_epochOf_iff
    {tree : SparseMerkleTree hash}
    {nullifier : Bytes32}
    {selected : UInt64 → Prop}
    [DecidablePred selected] :
    nullifier ∈ tree.leaves ∧
        ((tree.epochOf nullifier).any fun epoch =>
          decide (selected epoch)) = true ↔
      ∃ epoch,
        tree.leaves.lookup nullifier = some epoch ∧ selected epoch := by
  rw [epochOf, Option.any_eq_true]
  constructor
  · rintro ⟨_, epoch, stored, isSelected⟩
    exact ⟨epoch, stored, of_decide_eq_true isSelected⟩
  · rintro ⟨epoch, stored, isSelected⟩
    exact
      ⟨Finmap.mem_of_lookup_eq_some stored, epoch, stored,
        decide_eq_true isSelected⟩

/-- The nullifiers selected by age, whatever the order of the hash map. -/
theorem mem_nullifiersOlderThan
    {tree : SparseMerkleTree hash}
    {order : IterationOrder}
    {currentEpoch maxEpochs : UInt64}
    {nullifier : Bytes32} :
    nullifier ∈ tree.nullifiersOlderThan order currentEpoch maxEpochs ↔
      ∃ epoch,
        tree.leaves.lookup nullifier = some epoch ∧
          maxEpochs < saturatingSub currentEpoch epoch := by
  rw [nullifiersOlderThan, List.mem_filter, order.mem_list,
    Finmap.mem_keys]
  exact mem_and_any_epochOf_iff

theorem nodup_nullifiersOlderThan
    (tree : SparseMerkleTree hash)
    (order : IterationOrder)
    (currentEpoch maxEpochs : UInt64) :
    (tree.nullifiersOlderThan order currentEpoch maxEpochs).Nodup :=
  (order.nodup _).filter _

/-- Changes of a tree. -/
inductive Change where
  | insert (nullifier : Bytes32) (epochId : UInt64)
  | remove (nullifier : Bytes32)
  deriving DecidableEq

/-- Perform one change. -/
def change (tree : SparseMerkleTree hash) : Change → SparseMerkleTree hash
  | .insert nullifier epochId => tree.insert nullifier epochId
  | .remove nullifier => tree.remove nullifier

variable (hash) in
/-- The tree reached from the empty one by a sequence of changes. -/
def afterChanges (changes : List Change) : SparseMerkleTree hash :=
  changes.foldl change (new hash)

end SparseMerkleTree

/-- The archived root after a batch of nullifiers. -/
def computeArchivedRoot
    (prevArchivedRoot : Digest)
    (newNullifiers : List Bytes32) : Digest :=
  hash.hashArchived prevArchivedRoot newNullifiers.mergeSort

omit [DecidableEq Digest] in
/-- The archived root does not depend on the order within a batch. -/
theorem computeArchivedRoot_perm
    (prevArchivedRoot : Digest)
    {batch batch' : List Bytes32}
    (same : batch.Perm batch') :
    computeArchivedRoot hash prevArchivedRoot batch =
      computeArchivedRoot hash prevArchivedRoot batch' := by
  rw [computeArchivedRoot, computeArchivedRoot, mergeSort_eq_of_perm same]

end Hashing

end ScalarCore
