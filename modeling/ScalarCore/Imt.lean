import ScalarCore.Poseidon2T8

namespace ScalarCore

/-!
# The incremental Merkle tree

The append-only tree of depth 32 over the commitments of one epoch.  The tree
stores its leaf hashes; roots and sibling lists are folded from all of them,
level by level, with the root of an empty subtree in place of an absent right
child.

The leaf hash, the node hash and the digest type are parameters.  The hashes of
the source, one Poseidon2 permutation each, are `poseidonImtHash`.
-/

/-- Depth of the tree. -/
def imtDepth : Nat :=
  32

/-- The hash functions of a tree. -/
structure ImtHash (Commitment Digest : Type) where
  /-- `hash_imt_leaf`. -/
  hashLeaf : Commitment → UInt64 → Digest
  /-- `hash_imt_node`. -/
  hashNode : Digest → Digest → Digest
  /-- `IMT_EMPTY_ROOT`, the marker of an empty leaf position. -/
  emptyLeaf : Digest

/-- Errors of the tree operations. -/
inductive ImtError where
  | treeFull
  | leafIndexOutOfBounds (index count : UInt64)
  | invalidPathLength (expected got : Nat)
  deriving Repr, DecidableEq

/-- A membership path, siblings ordered from the leaf to the root. -/
structure ImtPath (Digest : Type) where
  siblings : List Digest
  leafIndex : UInt64
  deriving Repr, DecidableEq

/-- The checked constructor of membership paths. -/
def ImtPath.new
    (siblings : List Digest)
    (leafIndex : UInt64) :
    Except ImtError (ImtPath Digest) :=
  if siblings.length ≠ imtDepth then
    .error (.invalidPathLength imtDepth siblings.length)
  else
    .ok { siblings, leafIndex }

/--
The tree.  `count` is kept beside the leaf hashes and always is their number;
the source writes both in `append` and `reset` only.
-/
structure IncrementalMerkleTree (Digest : Type) where
  frontier : Vector Digest imtDepth
  count : UInt64
  leaves : List Digest
  count_eq : count.toNat = leaves.length

variable {Commitment Digest : Type}

namespace ImtHash

variable (hash : ImtHash Commitment Digest)

/-- The table of empty-subtree roots. -/
def emptySubtreeRoot : Nat → Digest
  | 0 => hash.emptyLeaf
  | depth + 1 =>
      hash.hashNode (emptySubtreeRoot depth) (emptySubtreeRoot depth)

/-- Root of the tree without leaves. -/
def imtEmptyRoot : Digest :=
  hash.emptySubtreeRoot imtDepth

/-- `IMT_GENESIS_FRONTIER`. -/
def genesisFrontier : Vector Digest imtDepth :=
  Vector.replicate imtDepth hash.emptyLeaf

/-- One level up: hash neighbours, an absent right child being empty. -/
def foldLevel (depth : Nat) : List Digest → List Digest
  | [] => []
  | [left] => [hash.hashNode left (hash.emptySubtreeRoot depth)]
  | left :: right :: rest =>
      hash.hashNode left right :: foldLevel depth rest

end ImtHash

namespace IncrementalMerkleTree

variable (hash : ImtHash Commitment Digest)

/-- The genesis tree. -/
def new : IncrementalMerkleTree Digest where
  frontier := hash.genesisFrontier
  count := 0
  leaves := []
  count_eq := rfl

/-- Append a commitment and return its leaf index. -/
def append
    (tree : IncrementalMerkleTree Digest)
    (commitment : Commitment) :
    Except ImtError (UInt64 × IncrementalMerkleTree Digest) :=
  if full : tree.count ≥ (1 : UInt64) <<< 32 then
    .error .treeFull
  else
    let leafIndex := tree.count
    let leafHash := hash.hashLeaf commitment leafIndex
    .ok (leafIndex, {
      frontier := tree.frontier.set 0 leafHash (by decide)
      count := tree.count + 1
      leaves := tree.leaves ++ [leafHash]
      count_eq := by
        have below : tree.count.toNat < 2 ^ 32 := by
          simpa [UInt64.le_iff_toNat_le] using full
        have countIsLength := tree.count_eq
        rw [UInt64.toNat_add, List.length_append, List.length_singleton]
        rw [show UInt64.toNat 1 = 1 from rfl]
        omega
    })

/-- The depth-32 root. -/
def root (tree : IncrementalMerkleTree Digest) : Digest :=
  if tree.count = 0 then
    hash.imtEmptyRoot
  else
    let level :=
      (List.range imtDepth).foldl
        (fun level depth => hash.foldLevel depth level) tree.leaves
    -- A nonempty list stays nonempty, so the source reads `level[0]`.
    level.headD hash.imtEmptyRoot

/--
Reset to the genesis state.  The result is absent where one of the assertions
after the reset would panic.
-/
def reset
    [DecidableEq Digest]
    (_tree : IncrementalMerkleTree Digest) :
    Option (IncrementalMerkleTree Digest) :=
  let cleared : IncrementalMerkleTree Digest := {
    frontier := hash.genesisFrontier
    count := 0
    leaves := []
    count_eq := rfl
  }
  if cleared.frontier = hash.genesisFrontier ∧
      cleared.count = 0 ∧
      cleared.root hash = hash.imtEmptyRoot then
    some cleared
  else
    none

/--
One level of the sibling loop: the siblings found so far, the current level and
the position of the path in it.
-/
def siblingStep
    (state : List Digest × List Digest × Nat)
    (depth : Nat) :
    List Digest × List Digest × Nat :=
  let (siblings, level, idx) := state
  let sib := idx ^^^ 1
  let sibHash :=
    if inside : sib < level.length then
      level[sib]
    else
      hash.emptySubtreeRoot depth
  (siblings ++ [sibHash], hash.foldLevel depth level, idx / 2)

/-- The 32 siblings on the path of a leaf. -/
def computeSiblings
    (tree : IncrementalMerkleTree Digest)
    (leafIndex : UInt64) :
    List Digest :=
  ((List.range imtDepth).foldl (siblingStep hash)
    ([], tree.leaves, leafIndex.toNat)).1

/-- The membership path of an occupied leaf position. -/
def proveMembership
    (tree : IncrementalMerkleTree Digest)
    (leafIndex : UInt64) :
    Except ImtError (ImtPath Digest) :=
  if leafIndex ≥ tree.count then
    .error (.leafIndexOutOfBounds leafIndex tree.count)
  else
    ImtPath.new (tree.computeSiblings hash leafIndex) leafIndex

end IncrementalMerkleTree

/-- Check a membership path against a root and a leaf count. -/
def imtMembershipVerify
    [DecidableEq Digest]
    (hash : ImtHash Commitment Digest)
    (commitment : Commitment)
    (path : ImtPath Digest)
    (root : Digest)
    (imtCommitmentCount : UInt64) :
    Bool :=
  if path.leafIndex ≥ imtCommitmentCount then
    false
  else if path.siblings.length ≠ imtDepth then
    false
  else
    let start := hash.hashLeaf commitment path.leafIndex
    let computed :=
      (List.range imtDepth).foldl
        (fun current level =>
          let sibling := path.siblings.getD level hash.emptyLeaf
          let isRight := (path.leafIndex >>> UInt64.ofNat level) &&& 1
          if isRight = 0 then
            hash.hashNode current sibling
          else
            hash.hashNode sibling current)
        start
    decide (computed = root)

/-- `d_lo`, the first word of both domain separators. -/
def imtDomainLo : UInt64 :=
  fromLeBytes (asciiBytes "scalar_i")

/-- `d_hi` of `DOMAIN_IMT_LEAF`, padded with one zero byte. -/
def imtLeafDomainHi : UInt64 :=
  fromLeBytes (asciiBytes "mt_leaf" ++ [0])

/-- `d_hi` of `DOMAIN_IMT_NODE`, padded with one zero byte. -/
def imtNodeDomainHi : UInt64 :=
  fromLeBytes (asciiBytes "mt_node" ++ [0])

/-- The permutation input of a leaf. -/
def imtLeafInput
    (commitment : Bytes32)
    (leafIndex : UInt64) :
    State8 :=
  let c (index : Fin 4) := fieldReduce (commitment.limb index)
  #v[fieldReduce imtDomainLo, fieldReduce imtLeafDomainHi,
    c 0, c 1, c 2, c 3, fieldReduce leafIndex, 0]

/--
The permutation input of an internal node.  Eight elements hold the domain and
all of the left child, so the last two words of the right child are dropped.
-/
def imtNodeInput (left right : Bytes32) : State8 :=
  let l (index : Fin 4) := fieldReduce (left.limb index)
  let r (index : Fin 4) := fieldReduce (right.limb index)
  #v[fieldReduce imtDomainLo, fieldReduce imtNodeDomainHi,
    l 0, l 1, l 2, l 3, r 0, r 1]

/-- The hash functions of the source. -/
def poseidonImtHash (perm : T8Permutation) : ImtHash Bytes32 Bytes32 where
  hashLeaf commitment leafIndex :=
    field8ToBytes32 (poseidon2PermuteT8 perm (imtLeafInput commitment leafIndex))
  hashNode left right :=
    field8ToBytes32 (poseidon2PermuteT8 perm (imtNodeInput left right))
  emptyLeaf := .zero

end ScalarCore
