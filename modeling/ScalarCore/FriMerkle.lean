import ScalarCore.DuplicateLast
import ScalarCore.FriFold
import ScalarCore.PerfectTree

namespace ScalarCore.VerifierPy

/-!
# Openings of the committed matrix

A matrix of values is committed with the root of a tree over its rows.  A row is
opened by the siblings on its way to the root.  The check walks from a
digest past the siblings it is given, as many as there are: it is told neither the
number of rows nor the height of the tree, and so it accepts every node of the
tree as a row, and a row under every index that ends in the same bits.

The hash is a parameter.  It is taken to be an ideal one where digests are to be
told apart, which no hash into four words is.
-/

open PerfectTree

/-- `ef_to_u64s`. -/
def efToU64s (e : EF) : List UInt64 :=
  [Goldilocks.asCanonicalU64 (e 0), Goldilocks.asCanonicalU64 (e 1),
    Goldilocks.asCanonicalU64 (e 2)]

/-- `poseidon2_hash_row_to_4`: the last chunk is padded with zeros. -/
def poseidon2HashRowTo4 (perm : T8Permutation) (rowElems : List UInt64) : Digest4 :=
  let state :=
    (rateChunks rowElems).foldl
      (fun state chunk =>
        let padded := chunk ++ List.replicate (4 - chunk.length) 0
        poseidon2PermuteT8 perm (absorb state padded))
      (Vector.replicate 8 0)
  fun index => state.get (digestPosition index)

/-- `poseidon2_compress_4_to_4`. -/
def poseidon2Compress4To4 (perm : T8Permutation) (left right : Digest4) : Digest4 :=
  let state : State8 :=
    #v[left 0, left 1, left 2, left 3, right 0, right 1, right 2, right 3]
  fun index =>
    (poseidon2PermuteT8 perm (state.map fieldReduce)).get
      (digestPosition index)

/-- The hashes of the commitment. -/
structure MatrixHash (Digest : Type) where
  /-- `poseidon2_hash_row_to_4`. -/
  hashRow : List UInt64 → Digest
  /-- `poseidon2_compress_4_to_4`. -/
  compress : Digest → Digest → Digest

/-- The hashes of the source, over a given permutation. -/
def poseidon2MatrixHash (perm : T8Permutation) : MatrixHash Digest4 where
  hashRow := poseidon2HashRowTo4 perm
  compress := poseidon2Compress4To4 perm

namespace MatrixHash

variable {Digest : Type} (hash : MatrixHash Digest)

/-- Compression tells pairs apart and never gives the digest of a row. -/
structure Separates : Prop where
  compress_injective : ∀ left right left' right',
    hash.compress left right = hash.compress left' right' →
      left = left' ∧ right = right'
  row_ne_compress : ∀ row left right, hash.hashRow row ≠ hash.compress left right

/-- The layer above: an odd number of nodes is an index error. -/
def nextLayer : List Digest → Option (List Digest)
  | left :: right :: rest => do
      let later ← nextLayer rest
      return hash.compress left right :: later
  | [] => some []
  | [_] => none

/-- The layers up to the root, as long as there are two nodes; `fuel` counts them. -/
def commitLayers :
    Nat → List Digest → List (List Digest) → Option (Digest × List (List Digest))
  | 0, _, _ => none
  | fuel + 1, current, layers =>
      if 1 < current.length then do
        let next ← hash.nextLayer current
        commitLayers fuel next (layers ++ [next])
      else do
        let root ← current.head?
        return (root, layers)

/-- The digest of a row: its elements in turn. -/
def digestOfRow (row : List EF) : Digest :=
  hash.hashRow (row.flatMap efToU64s)

/-- What `merkle_commit_arity_matrix` computes, for any digests. -/
def merkleCommit (matrixRows : List (List EF)) :
    Option (Digest × List (List Digest)) := do
  let n := matrixRows.length
  guard (n &&& (n - 1) = 0)
  let leaves := matrixRows.map hash.digestOfRow
  hash.commitLayers n leaves [leaves]

/-- The loop of `merkle_open` over the layers below the root. -/
def openLayers : List (List Digest) → Nat → Option (List Digest)
  | [], _ => some []
  | layer :: above, idx => do
      let sibling ← layer[idx ^^^ 1]?
      let proof ← openLayers above (idx / 2)
      return sibling :: proof

/-- `merkle_open`. -/
def merkleOpen (layers : List (List Digest)) (rowIndex : Nat) : Option (List Digest) :=
  openLayers layers.dropLast rowIndex

/-- `merkle_verify`. -/
def merkleVerify
    [DecidableEq Digest]
    (root leafDigest : Digest)
    (rowIndex : Nat)
    (siblings : List Digest) : Bool :=
  let (current, _) :=
    siblings.foldl
      (fun (current, idx) sibling =>
        if idx % 2 = 0 then
          (hash.compress current sibling, idx / 2)
        else
          (hash.compress sibling current, idx / 2))
      (leafDigest, rowIndex)
  current == root

end MatrixHash

/-- `merkle_commit_arity_matrix`: a row is a leaf. -/
def merkleCommitArityMatrix
    (perm : T8Permutation) :
    List (List EF) → Option (Digest4 × List (List Digest4)) :=
  (poseidon2MatrixHash perm).merkleCommit

/-- A power of two passes the assertion on lengths. -/
theorem two_pow_and_pred (log : Nat) :
    2 ^ log &&& (2 ^ log - 1) = 0 := by
  rw [Nat.and_two_pow_sub_one_eq_mod, Nat.mod_self]

namespace MatrixHash

variable {Digest : Type} {hash : MatrixHash Digest}

/-- The digest of the row at a position. -/
def rowDigest (hash : MatrixHash Digest) (rows : List (List EF)) (index : Nat) : Digest :=
  hash.digestOfRow (rows.getD index [])

/-- The nodes of the perfect tree over the rows. -/
def node (hash : MatrixHash Digest) (rows : List (List EF)) (height index : Nat) : Digest :=
  nodeAt hash.compress (hash.rowDigest rows) height index

/-- The nodes of a layer from a position on. -/
def layerFrom
    (hash : MatrixHash Digest)
    (rows : List (List EF))
    (height start width : Nat) : List Digest :=
  (List.range' start width).map (hash.node rows height)

/-- The layers from a height up to the root, `log` levels above. -/
def layersFrom
    (hash : MatrixHash Digest)
    (rows : List (List EF)) : Nat → Nat → List (List Digest)
  | height, 0 => [hash.layerFrom rows height 0 1]
  | height, log + 1 =>
      hash.layerFrom rows height 0 (2 ^ (log + 1)) :: layersFrom hash rows (height + 1) log

@[simp] theorem length_layerFrom
    (rows : List (List EF))
    (height start width : Nat) :
    (hash.layerFrom rows height start width).length = width := by
  rw [layerFrom, List.length_map, List.length_range']

theorem layersFrom_ne_nil
    (rows : List (List EF))
    (height log : Nat) :
    hash.layersFrom rows height log ≠ [] := by
  cases log <;> simp [layersFrom]

variable (hash) in
/-- The layer above hashes neighbours. -/
theorem nextLayer_layerFrom
    (rows : List (List EF))
    (height start width : Nat) :
    hash.nextLayer (hash.layerFrom rows height (2 * start) (2 * width)) =
      some (hash.layerFrom rows (height + 1) start width) := by
  induction width generalizing start with
  | zero =>
      rfl
  | succ width inductionHypothesis =>
      have rest := inductionHypothesis (start + 1)
      rw [layerFrom, layerFrom] at rest
      rw [layerFrom, layerFrom, Nat.mul_succ, List.range'_succ, List.range'_succ,
        List.range'_succ, List.map_cons, List.map_cons, List.map_cons, nextLayer]
      rw [show 2 * start + 1 + 1 = 2 * (start + 1) from rfl, rest]
      rfl

variable (hash) in
/-- The loop collects the layers up to the root. -/
theorem commitLayers_layerFrom
    (rows : List (List EF))
    {log fuel : Nat}
    (enough : log < fuel)
    (height : Nat)
    (below : List (List Digest)) :
    hash.commitLayers fuel (hash.layerFrom rows height 0 (2 ^ log)) below =
      some (hash.node rows (height + log) 0,
        below ++ (hash.layersFrom rows height log).tail) := by
  induction log generalizing fuel height below with
  | zero =>
      match fuel, enough with
      | fuel + 1, _ =>
          rw [commitLayers, if_neg (by simp), layersFrom, List.tail_cons, List.append_nil]
          rfl
  | succ log inductionHypothesis =>
      match fuel, enough with
      | fuel + 1, enough =>
          have next := nextLayer_layerFrom hash rows height 0 (2 ^ log)
          have several : 1 < 2 ^ (log + 1) :=
            Nat.one_lt_two_pow (Nat.succ_ne_zero log)
          have levels : height + 1 + log = height + (log + 1) := by
            omega
          rw [Nat.mul_zero, ← Nat.pow_succ'] at next
          rw [commitLayers, length_layerFrom, if_pos several, next, Option.bind_eq_bind,
            Option.bind_some, inductionHypothesis (Nat.lt_of_succ_lt_succ enough), levels,
            layersFrom, List.tail_cons, List.append_assoc]
          cases log <;> rfl

/-- A matrix of `2 ^ log` rows is committed with the root and the layers of its tree. -/
theorem merkleCommit_eq
    {log : Nat}
    {rows : List (List EF)}
    (length : rows.length = 2 ^ log) :
    hash.merkleCommit rows =
      some (hash.node rows log 0, hash.layersFrom rows 0 log) := by
  have leaves : rows.map hash.digestOfRow = hash.layerFrom rows 0 0 (2 ^ log) := by
    refine List.ext_getElem (by simp [length]) ?_
    intro index inRows inLayer
    have inside : index < rows.length := by
      rwa [List.length_map] at inRows
    simp [layerFrom, node, rowDigest, inside]
  have enough : log < 2 ^ log :=
    Nat.lt_two_pow_self
  have committed :=
    commitLayers_layerFrom hash rows enough 0 [hash.layerFrom rows 0 0 (2 ^ log)]
  rw [merkleCommit]
  simp only [length, two_pow_and_pred, guard_true, Option.bind_eq_bind, Option.pure_def,
    Option.bind_some, leaves, committed, Nat.zero_add]
  cases log <;> rfl

/-- Opening a position collects the siblings on its way up. -/
theorem openLayers_layersFrom
    (rows : List (List EF))
    (height log : Nat)
    {index : Nat}
    (inside : index < 2 ^ log) :
    openLayers (hash.layersFrom rows height log).dropLast index =
      some (pathFrom hash.compress (hash.rowDigest rows) height index log) := by
  induction log generalizing height index with
  | zero =>
      rfl
  | succ log inductionHypothesis =>
      have above : index / 2 < 2 ^ log := by
        rw [Nat.pow_succ] at inside
        omega
      have sibling : index ^^^ 1 < 2 ^ (log + 1) :=
        Nat.xor_lt_two_pow inside (Nat.one_lt_two_pow (Nat.succ_ne_zero log))
      have found :
          (hash.layerFrom rows height 0 (2 ^ (log + 1)))[index ^^^ 1]? =
            some (hash.node rows height (index ^^^ 1)) := by
        rw [layerFrom, List.getElem?_map, List.getElem?_range' sibling, Option.map_some,
          Nat.one_mul, Nat.zero_add]
      rw [layersFrom, List.dropLast_cons_of_ne_nil (layersFrom_ne_nil rows _ _), openLayers,
        found, Option.bind_eq_bind, Option.bind_some, inductionHypothesis (height + 1) above]
      rfl

/-- The digest of a node as many levels below the root as there are siblings, and those. -/
def OpensNode
    (hash : MatrixHash Digest)
    (rows : List (List EF))
    (log : Nat)
    (digest : Digest)
    (rowIndex : Nat)
    (siblings : List Digest) : Prop :=
  let height := log - siblings.length
  let position := rowIndex % 2 ^ siblings.length
  siblings.length ≤ log ∧
    digest = hash.node rows height position ∧
    siblings =
      pathFrom hash.compress (hash.rowDigest rows) height position siblings.length

/-- An accepted digest is that of the row, exactly where the path has the height of the tree. -/
theorem sound_iff
    (separates : hash.Separates)
    {rows : List (List EF)}
    {log rowIndex : Nat}
    {digest : Digest}
    {siblings : List Digest} :
    (hash.OpensNode rows log digest rowIndex siblings →
        rowIndex < 2 ^ log ∧ digest = hash.rowDigest rows rowIndex) ↔
      (siblings.length = log ∧ rowIndex < 2 ^ log) ∨
        ¬ hash.OpensNode rows log digest rowIndex siblings := by
  constructor
  · intro sound
    by_cases opens : hash.OpensNode rows log digest rowIndex siblings
    · obtain ⟨inRange, isRow⟩ := sound opens
      refine .inl ⟨?_, inRange⟩
      obtain ⟨short, isNode, -⟩ := opens
      -- a node above the rows is a compression
      by_contra notFull
      obtain ⟨below, isBelow⟩ : ∃ below, log - siblings.length = below + 1 :=
        Nat.exists_eq_succ_of_ne_zero (by omega)
      rw [isRow, isBelow] at isNode
      exact separates.row_ne_compress _ _ _ isNode
    · exact .inr opens
  · rintro (⟨isFull, inRange⟩ | notOpened) opens
    · obtain ⟨-, isNode, -⟩ := opens
      rw [isFull, Nat.sub_self, Nat.mod_eq_of_lt inRange] at isNode
      exact ⟨inRange, isNode⟩
    · exact absurd opens notOpened

section Verify

variable [DecidableEq Digest]

/-- The loop of the check is a walk. -/
theorem merkleVerify_iff
    {root leafDigest : Digest}
    {rowIndex : Nat}
    {siblings : List Digest} :
    hash.merkleVerify root leafDigest rowIndex siblings = true ↔
      walk hash.compress rowIndex leafDigest siblings = root := by
  rw [merkleVerify]
  simp only [beq_iff_eq]
  refine Eq.congr ?_ rfl
  induction siblings generalizing leafDigest rowIndex with
  | nil =>
      rfl
  | cons sibling rest inductionHypothesis =>
      rw [List.foldl_cons, walk]
      split
      · exact inductionHypothesis
      · exact inductionHypothesis

/-- What leads to the root is the opening of a node. -/
theorem merkleVerify_root_iff
    (separates : hash.Separates)
    {rows : List (List EF)}
    {log rowIndex : Nat}
    {digest : Digest}
    {siblings : List Digest} :
    hash.merkleVerify (hash.node rows log 0) digest rowIndex siblings = true ↔
      hash.OpensNode rows log digest rowIndex siblings := by
  rw [merkleVerify_iff]
  refine walk_eq_root_iff separates.compress_injective ?_
  intro index _
  exact separates.row_ne_compress _

/-- A row is opened at its index. -/
theorem merkleVerify_merkleOpen
    (hash : MatrixHash Digest)
    {rows : List (List EF)}
    {log index : Nat}
    (inside : index < 2 ^ log) :
    ∃ siblings,
      merkleOpen (hash.layersFrom rows 0 log) index = some siblings ∧
        hash.merkleVerify (hash.node rows log 0) (hash.rowDigest rows index) index siblings =
          true := by
  refine ⟨_, openLayers_layersFrom rows 0 log inside, ?_⟩
  have arrives := walk_pathFrom hash.compress (hash.rowDigest rows) 0 index log
  rw [nodeAt_zero, Nat.zero_add, Nat.div_eq_of_lt inside] at arrives
  exact merkleVerify_iff.mpr arrives

/-- What is asked of the openings of one matrix. -/
def OpeningsExact
    (hash : MatrixHash Digest)
    (rows : List (List EF))
    (log : Nat) : Prop :=
  ∃ root layers,
    hash.merkleCommit rows = some (root, layers) ∧
      (∀ index, index < 2 ^ log →
        ∃ siblings,
          merkleOpen layers index = some siblings ∧
            hash.merkleVerify root (hash.rowDigest rows index) index siblings = true) ∧
      ∀ digest rowIndex siblings,
        hash.merkleVerify root digest rowIndex siblings = true →
          rowIndex < 2 ^ log ∧ digest = hash.rowDigest rows rowIndex

end Verify

section IdealHash

open DuplicateLast

/-- The hash that writes its arguments down. -/
def spelledOutRows : MatrixHash (HashTree (List UInt64)) where
  hashRow := .leaf
  compress := .node

/-- What is written down is told apart. -/
theorem spelledOutRows_separates : spelledOutRows.Separates where
  compress_injective := by
    intro left right left' right' same
    injection same with sameLeft sameRight
    exact ⟨sameLeft, sameRight⟩
  row_ne_compress := by
    intro row left right same
    cases same

/-- The root itself is accepted as the digest of a row, with no siblings at all. -/
theorem root_accepted_as_row :
    ¬ ∀ hash : MatrixHash (HashTree (List UInt64)),
      hash.Separates →
        ∀ rows log, rows.length = 2 ^ log → hash.OpeningsExact rows log := by
  intro always
  have length : [[![10, 0, 0]], [(![20, 0, 0] : EF)]].length = 2 ^ 1 := rfl
  obtain ⟨root, layers, committed, -, sound⟩ :=
    always spelledOutRows spelledOutRows_separates _ 1 length
  rw [merkleCommit_eq length, Option.some_inj, Prod.mk.injEq] at committed
  obtain ⟨-, isRow⟩ := sound root 0 [] (merkleVerify_iff.mpr rfl)
  rw [← committed.1] at isRow
  exact spelledOutRows_separates.row_ne_compress _ _ _ isRow.symm

end IdealHash

variable [DecidableEq Digest]

/-- Rows are opened at their indices; what else is accepted is the opening of a node. -/
theorem openings_exact_iff
    (separates : hash.Separates)
    {rows : List (List EF)}
    {log : Nat}
    (length : rows.length = 2 ^ log) :
    ∃ root layers,
      hash.merkleCommit rows = some (root, layers) ∧
        (∀ index, index < 2 ^ log →
          ∃ siblings,
            merkleOpen layers index = some siblings ∧
              hash.merkleVerify root (hash.rowDigest rows index) index siblings = true) ∧
        ∀ digest rowIndex siblings,
          (hash.merkleVerify root digest rowIndex siblings = true →
              rowIndex < 2 ^ log ∧ digest = hash.rowDigest rows rowIndex) ↔
            (siblings.length = log ∧ rowIndex < 2 ^ log) ∨
              ¬ hash.OpensNode rows log digest rowIndex siblings := by
  refine ⟨_, _, merkleCommit_eq length, fun _ => merkleVerify_merkleOpen hash, ?_⟩
  intro digest rowIndex siblings
  rw [merkleVerify_root_iff separates]
  exact sound_iff separates

/-- Two rows are opened at their indices, with one sibling each. -/
theorem openings_exact_iff_twoRows :
    ∃ root layers,
      spelledOutRows.merkleCommit [[![10, 0, 0]], [![20, 0, 0]]] = some (root, layers) ∧
        (∀ index, index < 2 ^ 1 →
          ∃ siblings,
            merkleOpen layers index = some siblings ∧
              spelledOutRows.merkleVerify root
                (spelledOutRows.rowDigest [[![10, 0, 0]], [![20, 0, 0]]] index) index siblings =
                  true) ∧
        ∀ digest rowIndex siblings,
          (spelledOutRows.merkleVerify root digest rowIndex siblings = true →
              rowIndex < 2 ^ 1 ∧
                digest = spelledOutRows.rowDigest [[![10, 0, 0]], [![20, 0, 0]]] rowIndex) ↔
            (siblings.length = 1 ∧ rowIndex < 2 ^ 1) ∨
              ¬ spelledOutRows.OpensNode [[![10, 0, 0]], [![20, 0, 0]]] 1 digest rowIndex
                siblings :=
  openings_exact_iff spelledOutRows_separates rfl

end MatrixHash

end ScalarCore.VerifierPy
