import ScalarCore.Gfp3
import ScalarCore.MerklePy
import ScalarCore.Smt
import ScalarCore.WideTree

namespace ScalarCore

/-!
# The quaternary tree of nullifiers

The tree of depth 16 and arity 4 over nullifiers and their epochs.  The path of a
nullifier takes two bits at each level, its first 32 bits in all.  The limbs of a
digest enter a hash as field elements, so the siblings of a proof count up to
their reduction.

A proof is checked from the empty leaf, also one that is marked as a proof of
membership: the flag is read and then ignored.

The hash functions are a parameter.  They are taken to be ideal ones where trees
are to be told apart, which no hash into 32 bytes is.
-/

/-- Two bits are a number below 4. -/
theorem getD_childIndexAt_lt (key : Bytes32) (level : Nat) :
    (childIndexAt key level).getD 0 < 4 := by
  simp only [childIndexAt]
  cases key.bytes[level * qsmtBitsPerLevel / 8]? with
  | none =>
      exact Nat.succ_pos 3
  | some byte =>
      rw [Option.map_some, Option.getD_some, UInt8.toNat_and]
      exact Nat.lt_succ_of_le Nat.and_le_right

/-- `child_index_at` as the position of a child, on the levels of a key. -/
def childSlot (key : Bytes32) (level : Nat) : Fin 4 :=
  ⟨(childIndexAt key level).getD 0, getD_childIndexAt_lt key level⟩

/-- The hash functions of the quaternary tree. -/
structure QsmtHash (Digest : Type) where
  /-- The sponge over the domain and the limbs of four children. -/
  chainedNode : (Fin 4 → Digest) → Digest
  /-- The sponge over the domain, the leaf marker, a nullifier's limbs and its epoch. -/
  chainedLeaf : Bytes32 → UInt64 → Digest
  /-- `field_reduce` on every limb. -/
  reduce : Digest → Digest
  /-- `QSMT_EMPTY_ROOT`. -/
  emptyRoot : Digest

/-- `field_reduce` on the four limbs of an array. -/
def reduceLimbs (value : Bytes32) : Bytes32 :=
  Bytes32.ofLimbs fun index => fieldReduce (value.limb index)

/-- The four limbs of an array. -/
def limbList (value : Bytes32) : List UInt64 :=
  [value.limb 0, value.limb 1, value.limb 2, value.limb 3]

/-- `DOMAIN_SMT_ACTIVE` as three field elements. -/
def smtActiveDomain : List UInt64 :=
  let domain := asciiBytes "scalar_smt_active"
  let d0 := domain.take 8
  let d1 := (domain.drop 8).take 8
  let d2 := (domain.drop 16).take 1 ++ List.replicate 7 0
  [fieldReduce (fromLeBytes d0), fieldReduce (fromLeBytes d1), fieldReduce (fromLeBytes d2)]

/-- `leaf_marker`. -/
def leafMarker : UInt64 :=
  fromLeBytes (asciiBytes "leaf" ++ List.replicate 4 0)

/-- `poseidon2_hash_chained_bytes32`. -/
def poseidon2HashChainedBytes32 (perm : T8Permutation) (input : List UInt64) : Bytes32 :=
  Bytes32.ofLimbs (poseidon2HashChained perm input)

/-- The hash functions of the source, over a given permutation. -/
def poseidon2QsmtHash (perm : T8Permutation) : QsmtHash Bytes32 where
  chainedNode children :=
    poseidon2HashChainedBytes32 perm
      (smtActiveDomain ++ (List.finRange 4).flatMap fun index => limbList (children index))
  chainedLeaf nullifier epochId :=
    poseidon2HashChainedBytes32 perm
      (smtActiveDomain ++ [fieldReduce leafMarker] ++ limbList nullifier ++ [epochId])
  reduce := reduceLimbs
  emptyRoot := Bytes32.zero

/-- `QuaternarySmtProof`: the three siblings of each level, from the root to the leaf. -/
structure QuaternarySmtProof (Digest : Type) where
  siblings : List (Fin 3 → Digest)
  isMember : Bool
  key : Bytes32

section Hashing

variable {Digest : Type} [DecidableEq Digest] (hash : QsmtHash Digest)

/-- `hash_qsmt_node`. -/
def hashQsmtNode (children : Fin 4 → Digest) : Digest :=
  if ∀ index, children index = hash.emptyRoot then
    hash.emptyRoot
  else
    hash.chainedNode fun index => hash.reduce (children index)

omit [DecidableEq Digest] in
/-- `hash_qsmt_leaf`. -/
def hashQsmtLeaf (nullifier : Bytes32) (epochId : UInt64) : Digest :=
  hash.chainedLeaf (reduceLimbs nullifier) (fieldReduce epochId)

omit [DecidableEq Digest] in
/-- The loop over the four children: the climbed one in its place, the siblings in the others. -/
def placeChildren
    (childIdx : Fin 4)
    (current : Digest)
    (siblings : Fin 3 → Digest) : Fin 4 → Digest :=
  let start : (Fin 4 → Digest) × Nat := (fun _ => hash.emptyRoot, 0)
  let (children, _) :=
    (List.finRange 4).foldl
      (fun (children, sibIter) index =>
        if index = childIdx then
          (Function.update children index current, sibIter)
        else
          -- no more than three children are not the climbed one
          (Function.update children index (siblings (Fin.ofNat 3 sibIter)), sibIter + 1))
      start
  children

/-- One level of `QuaternarySmtProof::verify`, from the child to its parent. -/
def QuaternarySmtProof.parent
    (proof : QuaternarySmtProof Digest)
    (level : Nat)
    (current : Digest) : Digest :=
  let childIdx := childSlot proof.key level
  let siblings := proof.siblings.getD level fun _ => hash.emptyRoot
  hashQsmtNode hash (placeChildren hash childIdx current siblings)

/-- `QuaternarySmtProof::verify`. -/
def QuaternarySmtProof.verify (proof : QuaternarySmtProof Digest) (root : Digest) : Bool :=
  if proof.siblings.length ≠ qsmtDepth then
    false
  else
    -- the leaf hash of a membership proof is a placeholder
    let current :=
      if proof.isMember then
        hash.emptyRoot
      else
        hash.emptyRoot
    (List.range qsmtDepth).foldr (proof.parent hash) current == root

/--
`qsubtree_root`, `remaining` levels above the leaves.  The leaf level hashes the
first leaf; the assertion that there is no other one is not part of release builds.
-/
def qsubtreeRoot : Nat → List (Bytes32 × UInt64) → Nat → Digest
  | _, [], _ => hash.emptyRoot
  | 0, leaf :: _, _ => hashQsmtLeaf hash leaf.1 leaf.2
  | remaining + 1, leaf :: rest, level =>
      let group (index : Fin 4) :=
        (leaf :: rest).filter fun entry => childSlot entry.1 level == index
      hashQsmtNode hash fun index => qsubtreeRoot remaining (group index) (level + 1)

/-- `recompute_root`. -/
def recomputeQsmtRoot (leaves : SmtLeaves) : Digest :=
  if leaves.keys = ∅ then
    hash.emptyRoot
  else
    qsubtreeRoot hash qsmtDepth leaves.entriesSorted 0

/--
`QuaternarySparseMerkleTree`.  The root is kept beside the entries and always is
theirs: `insert` and `remove` recompute it and nothing else writes it.
-/
structure QuaternarySparseMerkleTree where
  root : Digest
  leaves : SmtLeaves
  root_eq : root = recomputeQsmtRoot hash leaves

namespace QuaternarySparseMerkleTree

/-- The empty tree. -/
def new : QuaternarySparseMerkleTree hash where
  root := hash.emptyRoot
  leaves := ∅
  root_eq := by simp [recomputeQsmtRoot]

variable {hash}

/-- Enter a nullifier, replacing the epoch of an earlier entry. -/
def insert
    (tree : QuaternarySparseMerkleTree hash)
    (nullifier : Bytes32)
    (epochId : UInt64) : QuaternarySparseMerkleTree hash where
  root := recomputeQsmtRoot hash (tree.leaves.insert nullifier epochId)
  leaves := tree.leaves.insert nullifier epochId
  root_eq := rfl

/-- Remove a nullifier. -/
def remove
    (tree : QuaternarySparseMerkleTree hash)
    (nullifier : Bytes32) : QuaternarySparseMerkleTree hash where
  root := recomputeQsmtRoot hash (tree.leaves.erase nullifier)
  leaves := tree.leaves.erase nullifier
  root_eq := rfl

/-- Whether a nullifier is present. -/
def contains (tree : QuaternarySparseMerkleTree hash) (nullifier : Bytes32) : Bool :=
  decide (nullifier ∈ tree.leaves)

/-- Perform one change. -/
def change (tree : QuaternarySparseMerkleTree hash) :
    SparseMerkleTree.Change → QuaternarySparseMerkleTree hash
  | .insert nullifier epochId => tree.insert nullifier epochId
  | .remove nullifier => tree.remove nullifier

variable (hash) in
/-- The tree reached from the empty one by a sequence of changes. -/
def afterChanges (changes : List SparseMerkleTree.Change) : QuaternarySparseMerkleTree hash :=
  changes.foldl change (new hash)

end QuaternarySparseMerkleTree

end Hashing

/-!
## The tree as a sparse tree of entries
-/

/-- Positions of a key, `remaining` of them from a level on. -/
def slotsFrom (key : Bytes32) : Nat → Nat → List (Fin 4)
  | _, 0 => []
  | level, remaining + 1 => childSlot key level :: slotsFrom key (level + 1) remaining

/-- The path of a key. -/
def qsmtPath (key : Bytes32) : List (Fin 4) :=
  slotsFrom key 0 qsmtDepth

@[simp] theorem length_slotsFrom
    (key : Bytes32)
    (level remaining : Nat) :
    (slotsFrom key level remaining).length = remaining := by
  induction remaining generalizing level with
  | zero =>
      rfl
  | succ remaining inductionHypothesis =>
      rw [slotsFrom, List.length_cons, inductionHypothesis]

@[simp] theorem length_qsmtPath (key : Bytes32) : (qsmtPath key).length = qsmtDepth :=
  length_slotsFrom key 0 qsmtDepth

/-- Two keys have one path where they have the same slots. -/
theorem slotsFrom_eq_iff
    {left right : Bytes32}
    {level remaining : Nat} :
    slotsFrom left level remaining = slotsFrom right level remaining ↔
      ∀ offset, offset < remaining →
        childSlot left (level + offset) = childSlot right (level + offset) := by
  induction remaining generalizing level with
  | zero =>
      exact iff_of_true rfl fun _ inside => absurd inside (Nat.not_lt_zero _)
  | succ remaining inductionHypothesis =>
      rw [slotsFrom, slotsFrom, List.cons.injEq, inductionHypothesis]
      constructor
      · rintro ⟨first, later⟩ offset inside
        cases offset with
        | zero =>
            exact first
        | succ offset =>
            have shifted := later offset (Nat.lt_of_succ_lt_succ inside)
            rwa [Nat.add_assoc, Nat.add_comm 1] at shifted
      · intro same
        refine ⟨same 0 (Nat.succ_pos remaining), fun offset inside => ?_⟩
        rw [Nat.add_assoc, Nat.add_comm 1]
        exact same (offset + 1) (Nat.succ_lt_succ inside)

/-- The slot of a level holds two bits of one byte. -/
theorem val_childSlot
    (key : Bytes32)
    {byteIdx pair : Nat}
    (inPath : byteIdx < 4)
    (inByte : pair < 4) :
    (childSlot key (4 * byteIdx + pair)).val =
      (key.byteAt byteIdx).toNat / 4 ^ (3 - pair) % 4 := by
  have inDepth : 4 * byteIdx + pair < qsmtDepth := by
    rw [qsmtDepth]
    omega
  have sameByte : (4 * byteIdx + pair) / 4 = byteIdx := by
    omega
  have bits : 6 - 2 * ((4 * byteIdx + pair) % 4) = 2 * (3 - pair) := by
    omega
  change (childIndexAt key (4 * byteIdx + pair)).getD 0 = _
  rw [VerifierPy.childIndexAt_eq inDepth, Option.getD_some, VerifierPy.pathByte, sameByte,
    bits, Nat.pow_mul]

/-- The slots of a byte determine it. -/
theorem byteAt_eq_iff
    {left right : Bytes32}
    {byteIdx : Nat}
    (inPath : byteIdx < 4) :
    left.byteAt byteIdx = right.byteAt byteIdx ↔
      ∀ pair, pair < 4 →
        childSlot left (4 * byteIdx + pair) = childSlot right (4 * byteIdx + pair) := by
  constructor
  · intro same pair inByte
    rw [Fin.ext_iff, val_childSlot left inPath inByte, val_childSlot right inPath inByte, same]
  · intro same
    have digit {pair : Nat} (inByte : pair < 4) :
        (left.byteAt byteIdx).toNat / 4 ^ (3 - pair) % 4 =
          (right.byteAt byteIdx).toNat / 4 ^ (3 - pair) % 4 := by
      rw [← val_childSlot left inPath inByte, ← val_childSlot right inPath inByte,
        same pair inByte]
    have first := digit (show 0 < 4 by decide)
    have second := digit (show 1 < 4 by decide)
    have third := digit (show 2 < 4 by decide)
    have fourth := digit (show 3 < 4 by decide)
    have leftBound := (left.byteAt byteIdx).toNat_lt
    have rightBound := (right.byteAt byteIdx).toNat_lt
    rw [← UInt8.toNat_inj]
    norm_num at first second third fourth
    omega

/-- The path of a key is its first four bytes. -/
theorem qsmtPath_eq_iff
    {left right : Bytes32} :
    qsmtPath left = qsmtPath right ↔
      ∀ byteIdx, byteIdx < 4 → left.byteAt byteIdx = right.byteAt byteIdx := by
  rw [qsmtPath, qsmtPath, slotsFrom_eq_iff]
  constructor
  · intro same byteIdx inPath
    refine (byteAt_eq_iff inPath).mpr fun pair inByte => ?_
    have slots := same (4 * byteIdx + pair) (by rw [qsmtDepth]; omega)
    rwa [Nat.zero_add] at slots
  · intro same level inDepth
    rw [qsmtDepth] at inDepth
    have inPath : level / 4 < 4 := by
      omega
    have slots :=
      (byteAt_eq_iff inPath).mp (same (level / 4) inPath) (level % 4) (Nat.mod_lt _ (by decide))
    rwa [Nat.div_add_mod, ← Nat.zero_add level] at slots

/-- What a list of entries puts at the ends of the paths of a subtree. -/
def slotContent
    (leaves : List (Bytes32 × UInt64))
    (level remaining : Nat) : WideTree.Content 3 (Bytes32 × UInt64) :=
  fun path => leaves.find? fun entry => slotsFrom entry.1 level remaining == path

/-- Below one child are the entries with that slot. -/
theorem below_slotContent
    (leaves : List (Bytes32 × UInt64))
    (level remaining : Nat)
    (side : Fin 4) :
    (slotContent leaves level (remaining + 1)).below side =
      slotContent (leaves.filter fun entry => childSlot entry.1 level == side)
        (level + 1) remaining := by
  funext rest
  simp only [WideTree.Content.below, slotContent, slotsFrom, List.cons_beq_cons,
    List.find?_filter, Bool.decide_and, Bool.decide_eq_true]

section Refinement

variable {Digest : Type} [DecidableEq Digest] {hash : QsmtHash Digest}

omit [DecidableEq Digest] in
/-- The hashes of the quaternary tree. -/
def QsmtHash.tree (hash : QsmtHash Digest) :
    WideTree.Hash 3 (Bytes32 × UInt64) Digest where
  leaf entry := hashQsmtLeaf hash entry.1 entry.2
  node := hash.chainedNode
  reduce := hash.reduce
  empty := hash.emptyRoot

/-- The hash of a node joins its children. -/
theorem hashQsmtNode_eq_join (children : Fin 4 → Digest) :
    hashQsmtNode hash children = hash.tree.join children :=
  rfl

variable (hash) in
omit [DecidableEq Digest] in
/-- The climbed child is put in its place among the siblings. -/
theorem placeChildren_eq_insertNth
    (childIdx : Fin 4)
    (current : Digest)
    (siblings : Fin 3 → Digest) :
    placeChildren hash childIdx current siblings =
      Fin.insertNth childIdx current siblings := by
  funext index
  fin_cases childIdx <;> fin_cases index <;> rfl

/-- The recursive root of the source is the root of the sparse tree. -/
theorem qsubtreeRoot_eq_rootOf
    (leaves : List (Bytes32 × UInt64))
    (level remaining : Nat) :
    qsubtreeRoot hash remaining leaves level =
      hash.tree.rootOf remaining (slotContent leaves level remaining) := by
  induction remaining generalizing leaves level with
  | zero =>
      cases leaves with
      | nil =>
          rfl
      | cons leaf rest =>
          rfl
  | succ remaining inductionHypothesis =>
      have children (side : Fin 4) :=
        inductionHypothesis
          (leaves.filter fun entry => childSlot entry.1 level == side) (level + 1)
      simp only [WideTree.Hash.rootOf, below_slotContent, ← children]
      cases leaves with
      | nil =>
          simp [qsubtreeRoot, WideTree.Hash.join, QsmtHash.tree]
      | cons leaf rest =>
          exact hashQsmtNode_eq_join _

namespace QuaternarySparseMerkleTree

/-- The content of the whole tree. -/
def content
    (tree : QuaternarySparseMerkleTree hash) : WideTree.Content 3 (Bytes32 × UInt64) :=
  slotContent tree.leaves.entriesSorted 0 qsmtDepth

/-- The root kept by the source is the root of its content. -/
theorem root_eq_rootOf (tree : QuaternarySparseMerkleTree hash) :
    tree.root = hash.tree.rootOf qsmtDepth tree.content := by
  rw [tree.root_eq, recomputeQsmtRoot, content, ← qsubtreeRoot_eq_rootOf]
  split
  · next noKeys =>
      have noEntries : tree.leaves.entriesSorted = [] := by
        simp [SmtLeaves.entriesSorted, noKeys, SmtLeaves.entriesOf]
      rw [noEntries, qsmtDepth, qsubtreeRoot]
  · rfl

/-- A path without stored nullifiers is empty. -/
theorem content_eq_none_iff
    {tree : QuaternarySparseMerkleTree hash}
    {key : Bytes32} :
    tree.content (qsmtPath key) = none ↔
      ∀ stored ∈ tree.leaves, qsmtPath stored ≠ qsmtPath key := by
  simp only [content, slotContent, List.find?_eq_none, beq_iff_eq,
    SmtLeaves.mem_entriesSorted, Prod.forall, Finmap.mem_iff]
  constructor
  · rintro noEntry stored ⟨epoch, found⟩
    exact noEntry stored epoch found
  · intro noStored stored epoch found
    exact noStored stored ⟨epoch, found⟩

end QuaternarySparseMerkleTree

namespace QuaternarySmtProof

variable (hash) in
/-- Folding the levels of a proof is climbing along the path of its key. -/
theorem foldr_parent_eq_climb
    (proof : QuaternarySmtProof Digest)
    (start : Digest)
    (level remaining : Nat)
    (enough : level + remaining = proof.siblings.length) :
    (List.range' level remaining).foldr (proof.parent hash) start =
      hash.tree.climb (slotsFrom proof.key level remaining)
        (proof.siblings.drop level) start := by
  induction remaining generalizing level with
  | zero =>
      rfl
  | succ remaining inductionHypothesis =>
      have inBounds : level < proof.siblings.length := by
        omega
      have above := inductionHypothesis (level + 1) (by omega)
      have siblingsAt :
          proof.siblings.getD level (fun _ => hash.emptyRoot) = proof.siblings[level] := by
        simp [inBounds]
      rw [List.range'_succ, List.foldr_cons, above, List.drop_eq_getElem_cons inBounds]
      simp only [parent, siblingsAt, placeChildren_eq_insertNth, slotsFrom]
      rfl

/-- A proof is accepted when its siblings lead from the empty leaf to the root. -/
theorem verify_iff
    {proof : QuaternarySmtProof Digest}
    {root : Digest} :
    proof.verify hash root = true ↔
      proof.siblings.length = qsmtDepth ∧
        hash.tree.climb (qsmtPath proof.key) proof.siblings hash.emptyRoot = root := by
  unfold verify
  split
  · next wrongLength =>
      simp [wrongLength]
  · next rightLength =>
      have fullLength : proof.siblings.length = qsmtDepth :=
        not_not.mp rightLength
      have climbed :=
        proof.foldr_parent_eq_climb hash hash.emptyRoot 0 qsmtDepth (by omega)
      simp only [ite_self, List.range_eq_range', climbed, beq_iff_eq, List.drop_zero]
      exact ⟨fun reached => ⟨fullLength, reached⟩, fun both => both.2⟩

end QuaternarySmtProof

end Refinement

end ScalarCore
