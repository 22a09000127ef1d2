import Mathlib.Data.List.Induction
import ScalarCore.Bytes
import ScalarCore.KeyedWrites
import ScalarCore.MachineInt
import ScalarCore.RingBuffer

namespace ScalarCore

/-!
# Alignment with the majority root

A node keeps its last ten snapshots in a ring buffer, each with its own root and
the root of the majority.  Its score is the share of those that agree.
-/

open KeyedWrites MachineInt RingBuffer

/-- `ALIGNMENT_WINDOW_SIZE`. -/
abbrev alignmentWindowSize : Nat :=
  10

/-- `ALIGNMENT_FP_BASIS`. -/
def alignmentFpBasis : UInt64 :=
  1000000

/-- `RootSnapshot`. -/
structure RootSnapshot where
  nodeRoot : Bytes32
  majorityRoot : Bytes32
  seqNum : UInt32
  deriving DecidableEq

/-- `is_aligned`. -/
def RootSnapshot.isAligned (snapshot : RootSnapshot) : Bool :=
  snapshot.nodeRoot = snapshot.majorityRoot

/-- `RootAlignmentBuffer`. -/
structure RootAlignmentBuffer where
  snapshots : Vector (Option RootSnapshot) alignmentWindowSize
  nextIdx : Fin alignmentWindowSize
  totalInserted : Nat

namespace RootAlignmentBuffer

/-- `new`. -/
def new : RootAlignmentBuffer where
  snapshots := Vector.replicate alignmentWindowSize none
  nextIdx := 0
  totalInserted := 0

/-- `push`. -/
def push (buffer : RootAlignmentBuffer) (snapshot : RootSnapshot) : RootAlignmentBuffer where
  snapshots := buffer.snapshots.set buffer.nextIdx (some snapshot)
  nextIdx := buffer.nextIdx + 1
  totalInserted := buffer.totalInserted + 1

/-- `count`. -/
def count (buffer : RootAlignmentBuffer) : Nat :=
  (buffer.snapshots.toList.filter Option.isSome).length

/-- `matched_count`. -/
def matchedCount (buffer : RootAlignmentBuffer) : Nat :=
  ((buffer.snapshots.toList.filterMap id).filter RootSnapshot.isAligned).length

/-- `alignment_score_fp`. -/
def alignmentScoreFp (buffer : RootAlignmentBuffer) : UInt64 :=
  let total := UInt64.ofNat buffer.count
  if total = 0 then
    0
  else
    let matched := UInt64.ofNat buffer.matchedCount
    (checkedDiv (saturatingMul matched alignmentFpBasis) total).getD 0

/-- `latest`. -/
def latest (buffer : RootAlignmentBuffer) : Option RootSnapshot :=
  buffer.snapshots.get (buffer.nextIdx - 1)

/-- `is_full`. -/
def isFull (buffer : RootAlignmentBuffer) : Bool :=
  buffer.count = alignmentWindowSize

/-- The last ten snapshots, the latest one first. -/
def window (pushed : List RootSnapshot) : List RootSnapshot :=
  pushed.reverse.take alignmentWindowSize

/-- What a buffer shows of the snapshots that were pushed. -/
structure Shows (pushed : List RootSnapshot) (buffer : RootAlignmentBuffer) : Prop where
  inserted : buffer.totalInserted = pushed.length
  count : buffer.count = min alignmentWindowSize pushed.length
  full : buffer.isFull = true ↔ alignmentWindowSize ≤ pushed.length
  latest : buffer.latest = pushed.getLast?
  matched : buffer.matchedCount = (window pushed).countP RootSnapshot.isAligned
  score :
    buffer.alignmentScoreFp.toNat =
      (window pushed).countP RootSnapshot.isAligned * 1000000 / (window pushed).length
  perfect :
    buffer.alignmentScoreFp = alignmentFpBasis ↔
      pushed ≠ [] ∧ ∀ snapshot ∈ window pushed, snapshot.isAligned = true
  zero :
    buffer.alignmentScoreFp = 0 ↔
      ∀ snapshot ∈ window pushed, snapshot.isAligned = false

/-- The buffer is a ring that holds what was pushed. -/
def Keeps (pushed : List RootSnapshot) (buffer : RootAlignmentBuffer) : Prop :=
  Holds alignmentWindowSize buffer.snapshots.toList buffer.nextIdx pushed ∧
    buffer.totalInserted = pushed.length

theorem keeps_new : Keeps [] new :=
  ⟨holds_empty (by decide), rfl⟩

theorem Keeps.push
    {pushed : List RootSnapshot}
    {buffer : RootAlignmentBuffer}
    (keeps : Keeps pushed buffer)
    (snapshot : RootSnapshot) :
    Keeps (pushed ++ [snapshot]) (buffer.push snapshot) := by
  obtain ⟨holds, inserted⟩ := keeps
  refine ⟨?_, ?_⟩
  · have next := holds.push snapshot
    rw [← Vector.toList_set] at next
    rw [RootAlignmentBuffer.push]
    dsimp only
    rw [Fin.val_add]
    exact next
  · rw [List.length_append, List.length_singleton, ← inserted]
    rfl

theorem length_window (pushed : List RootSnapshot) :
    (window pushed).length = min alignmentWindowSize pushed.length := by
  rw [window, List.length_take, List.length_reverse]

/-- The share of the aligned snapshots, in machine words. -/
theorem toNat_alignmentScoreFp
    {buffer : RootAlignmentBuffer}
    (few : buffer.count ≤ alignmentWindowSize)
    (fewer : buffer.matchedCount ≤ buffer.count) :
    buffer.alignmentScoreFp.toNat = buffer.matchedCount * 1000000 / buffer.count := by
  have ten : buffer.count ≤ 10 := few
  have total : (UInt64.ofNat buffer.count).toNat = buffer.count :=
    UInt64.toNat_ofNat_of_lt' (by change buffer.count < 2 ^ 64; omega)
  have matched : (UInt64.ofNat buffer.matchedCount).toNat = buffer.matchedCount :=
    UInt64.toNat_ofNat_of_lt' (by change buffer.matchedCount < 2 ^ 64; omega)
  rw [alignmentScoreFp]
  dsimp only
  by_cases none : UInt64.ofNat buffer.count = 0
  · have isZero : buffer.count = 0 := by
      rw [← total, none]
      rfl
    rw [if_pos none, isZero, Nat.div_zero]
    rfl
  · have basis : alignmentFpBasis.toNat = 1000000 := rfl
    rw [if_neg none, checkedDiv, if_neg none, Option.getD_some, UInt64.toNat_div,
      toNat_saturatingMul, total, matched, basis, min_eq_left]
    change _ ≤ 2 ^ 64 - 1
    omega

/-- A share is whole when it is that of all. -/
theorem share_eq_basis_iff
    {matched total : Nat}
    (most : matched ≤ total) :
    matched * 1000000 / total = 1000000 ↔ 0 < total ∧ matched = total := by
  rcases Nat.eq_zero_or_pos total with rfl | positive
  · exact iff_of_false (by rw [Nat.div_zero]; decide) (fun none => absurd none.1 (by decide))
  · rw [and_iff_right positive]
    constructor
    · intro whole
      have atLeast := (Nat.le_div_iff_mul_le positive).mp whole.ge
      omega
    · rintro rfl
      exact Nat.mul_div_cancel_left 1000000 positive

/-- A share of a few is zero only when it is that of none. -/
theorem share_eq_zero_iff
    {matched total : Nat}
    (most : matched ≤ total)
    (few : total ≤ 10) :
    matched * 1000000 / total = 0 ↔ matched = 0 := by
  rw [Nat.div_eq_zero_iff]
  omega

theorem Keeps.shows
    {pushed : List RootSnapshot}
    {buffer : RootAlignmentBuffer}
    (keeps : Keeps pushed buffer) : Shows pushed buffer := by
  obtain ⟨holds, inserted⟩ := keeps
  have slots := holds.perm
  have count : buffer.count = (window pushed).length := by
    rw [RootAlignmentBuffer.count, window, ← slots.length_eq,
      List.length_filterMap_eq_countP, List.countP_eq_length_filter]
    rfl
  have matched :
      buffer.matchedCount = (window pushed).countP RootSnapshot.isAligned := by
    rw [matchedCount, ← List.countP_eq_length_filter]
    exact slots.countP_eq _
  have fewer : buffer.matchedCount ≤ buffer.count := by
    rw [matched, count]
    exact List.countP_le_length
  have few : buffer.count ≤ alignmentWindowSize := by
    rw [count, length_window]
    exact Nat.min_le_left _ _
  have score := toNat_alignmentScoreFp few fewer
  rw [matched, count] at score
  have ten : (window pushed).length ≤ 10 := count ▸ few
  have most := List.countP_le_length (p := RootSnapshot.isAligned) (l := window pushed)
  refine ⟨inserted, count.trans (length_window pushed), ?_, ?_, matched, score, ?_, ?_⟩
  · rw [isFull, decide_eq_true_iff, count, length_window, min_eq_left_iff]
  · have newest := holds.latest
    have place :
        (buffer.nextIdx - 1).val =
          (buffer.nextIdx.val + (alignmentWindowSize - 1)) % alignmentWindowSize := by
      rw [Fin.val_sub, Nat.add_comm]
      rfl
    rw [← place, Vector.getElem?_toList, Vector.getElem?_eq_getElem (buffer.nextIdx - 1).isLt,
      Option.some_inj] at newest
    exact newest
  · have basis : alignmentFpBasis.toNat = 1000000 := rfl
    have some : pushed ≠ [] ↔ 0 < (window pushed).length := by
      rw [length_window, ← List.length_pos_iff]
      change 0 < pushed.length ↔ 0 < min 10 pushed.length
      omega
    rw [← UInt64.toNat_inj, score, basis, some, ← List.countP_eq_length]
    exact share_eq_basis_iff most
  · have noneAligned :
        (window pushed).countP RootSnapshot.isAligned = 0 ↔
          ∀ snapshot ∈ window pushed, snapshot.isAligned = false := by
      simp only [List.countP_eq_zero, Bool.not_eq_true]
    rw [← UInt64.toNat_inj, score, ← noneAligned]
    exact share_eq_zero_iff most ten

/--
A buffer shows the last ten of all the snapshots that were pushed: how many they are,
the latest one, and how many of them and what share were aligned.
-/
theorem shows_pushed (pushed : List RootSnapshot) :
    Shows pushed (pushed.foldl push new) := by
  have keeps : Keeps pushed (pushed.foldl push new) := by
    induction pushed using List.reverseRecOn with
    | nil =>
        exact keeps_new
    | append_singleton earlier snapshot inductionHypothesis =>
        rw [List.foldl_append]
        exact inductionHypothesis.push snapshot
  exact keeps.shows

end RootAlignmentBuffer

/-!
## The majority root
-/

/-- `counts`: how many peers have each root. -/
def countRoots (peerRoots : List (Bytes4 × Bytes32)) : Finmap fun _ : Bytes32 => Nat :=
  peerRoots.foldl
    (fun counts peer => counts.insert peer.2 ((counts.lookup peer.2).getD 0 + 1)) ∅

/-- `compute_majority_root`, with the order in which the map lists the roots. -/
def computeMajorityRoot
    (peerRoots : List (Bytes4 × Bytes32))
    (roots : List Bytes32) : Option Bytes32 :=
  if peerRoots.isEmpty then
    none
  else
    let threshold := peerRoots.length / 2 + 1
    ((itemsAt (countRoots peerRoots) roots).find? fun item => threshold ≤ item.2).map Prod.fst

/-- The peers that have a root. -/
def supporters (peerRoots : List (Bytes4 × Bytes32)) (root : Bytes32) : Nat :=
  peerRoots.countP fun peer => peer.2 = root

theorem lookup_countRoots (peerRoots : List (Bytes4 × Bytes32)) (root : Bytes32) :
    (countRoots peerRoots).lookup root =
      if supporters peerRoots root = 0 then none else some (supporters peerRoots root) := by
  induction peerRoots using List.reverseRecOn with
  | nil =>
      rfl
  | append_singleton earlier peer inductionHypothesis =>
      rw [countRoots, List.foldl_append, List.foldl_cons, List.foldl_nil, ← countRoots,
        supporters, List.countP_append, List.countP_singleton, ← supporters]
      by_cases same : peer.2 = root
      · subst same
        rw [Finmap.lookup_insert, inductionHypothesis, if_pos (decide_eq_true rfl),
          if_neg (Nat.succ_ne_zero _)]
        by_cases first : supporters earlier peer.2 = 0
        · rw [if_pos first, first]
          rfl
        · rw [if_neg first]
          rfl
      · have notSame : decide (peer.2 = root) = false := decide_eq_false same
        rw [Finmap.lookup_insert_of_ne _ (Ne.symm same), inductionHypothesis, notSame]
        rfl

/-- Two roots are not both supported by more than half of the peers. -/
theorem supporters_add_le
    {root root' : Bytes32}
    (different : root ≠ root')
    (peerRoots : List (Bytes4 × Bytes32)) :
    supporters peerRoots root + supporters peerRoots root' ≤ peerRoots.length := by
  induction peerRoots with
  | nil =>
      exact Nat.le_refl 0
  | cons peer rest inductionHypothesis =>
      rw [supporters, supporters, List.countP_cons, List.countP_cons, List.length_cons,
        ← supporters, ← supporters]
      by_cases first : peer.2 = root
      · have notSecond : peer.2 ≠ root' := fun second => different (first.symm.trans second)
        rw [if_pos (decide_eq_true first), if_neg (by rwa [decide_eq_true_iff])]
        omega
      · rw [if_neg (by rwa [decide_eq_true_iff])]
        split <;> omega

/-- The listed items that reach the threshold are the roots of a majority. -/
theorem mem_majority_iff
    {peerRoots : List (Bytes4 × Bytes32)}
    {roots : List Bytes32}
    (lists : (roots : Multiset Bytes32) = (countRoots peerRoots).keys.val)
    {root : Bytes32}
    {count : Nat} :
    (root, count) ∈ itemsAt (countRoots peerRoots) roots ∧ peerRoots.length / 2 + 1 ≤ count ↔
      count = supporters peerRoots root ∧
        peerRoots.length < 2 * supporters peerRoots root := by
  have listed : root ∈ roots ↔ root ∈ countRoots peerRoots := by
    rw [← Finmap.mem_keys, ← Multiset.mem_coe, lists]
    rfl
  rw [mem_itemsAt, listed, and_iff_right_of_imp Finmap.mem_of_lookup_eq_some,
    lookup_countRoots]
  by_cases none : supporters peerRoots root = 0
  · rw [if_pos none]
    refine iff_of_false nofun ?_
    omega
  · rw [if_neg none, Option.some_inj]
    constructor
    · rintro ⟨rfl, reaches⟩
      exact ⟨rfl, by omega⟩
    · rintro ⟨rfl, majority⟩
      exact ⟨rfl, by omega⟩

/--
In whatever order the map lists the roots, the result is the root that more than half
of the peers have, and there is none when no root has so many.
-/
theorem computeMajorityRoot_eq_some_iff
    {peerRoots : List (Bytes4 × Bytes32)}
    {roots : List Bytes32}
    (lists : (roots : Multiset Bytes32) = (countRoots peerRoots).keys.val)
    (root : Bytes32) :
    computeMajorityRoot peerRoots roots = some root ↔
      peerRoots.length < 2 * supporters peerRoots root := by
  rw [computeMajorityRoot]
  by_cases empty : peerRoots = []
  · subst empty
    exact iff_of_false nofun (Nat.lt_irrefl 0)
  · rw [if_neg (by rwa [List.isEmpty_iff])]
    dsimp only
    rw [Option.map_eq_some_iff]
    constructor
    · rintro ⟨⟨found, count⟩, isFound, rfl⟩
      have reaches := List.find?_some isFound
      simp only [decide_eq_true_iff] at reaches
      exact ((mem_majority_iff lists).mp ⟨List.mem_of_find?_eq_some isFound, reaches⟩).2
    · intro majority
      obtain ⟨isItem, reaches⟩ := (mem_majority_iff lists).mpr ⟨rfl, majority⟩
      have exists_found :
          ((itemsAt (countRoots peerRoots) roots).find? fun item =>
            decide (peerRoots.length / 2 + 1 ≤ item.2)).isSome :=
        List.find?_isSome.mpr ⟨_, isItem, decide_eq_true reaches⟩
      obtain ⟨⟨found, count⟩, isFound⟩ := Option.isSome_iff_exists.mp exists_found
      have reaches' := List.find?_some isFound
      simp only [decide_eq_true_iff] at reaches'
      have majority' :=
        ((mem_majority_iff lists).mp ⟨List.mem_of_find?_eq_some isFound, reaches'⟩).2
      refine ⟨_, isFound, ?_⟩
      by_contra different
      have both : supporters peerRoots found + supporters peerRoots root ≤ peerRoots.length :=
        supporters_add_le different peerRoots
      omega

/-- Two of three peers have the zero root, which is listed last. -/
theorem computeMajorityRoot_two_of_three :
    computeMajorityRoot
        [(⟨[0, 0, 0, 1], rfl⟩, Bytes32.zero), (⟨[0, 0, 0, 2], rfl⟩, Bytes32.endingIn 1),
          (⟨[0, 0, 0, 3], rfl⟩, Bytes32.zero)]
        [Bytes32.endingIn 1, Bytes32.zero] = some Bytes32.zero :=
  (computeMajorityRoot_eq_some_iff (by decide) Bytes32.zero).mpr (by decide)

end ScalarCore
