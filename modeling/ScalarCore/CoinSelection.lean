import ScalarCore.GreedyCover
import ScalarCore.KeyedSort
import ScalarCore.KeyedWrites
import ScalarCore.MachineInt
import Mathlib.Algebra.Order.Ring.Nat

namespace ScalarCore

/-!
# Coin selection

Coins are added to a selection until it reaches an amount: the least coin that
makes up the rest, and where there is none the greatest coin.  At most ten
coins may be selected.  Totals are clamped at the machine word, but for the
total of the coins that were selected before, which is an unchecked sum: a
build with overflow checks panics where it leaves the word, others wrap.
-/

open GreedyCover KeyedSort KeyedWrites MachineInt

/-- `MAX_INPUTS`. -/
def maxInputs : Nat :=
  10

/-- `DENOMINATIONS`. -/
def denominations : List UInt64 :=
  [1, 5, 10, 50, 100, 500, 1000, 5000, 10000, 50000, 100000, 500000, 1000000,
    5000000, 10000000, 50000000, 100000000]

/-- Coins of one value in a wallet. -/
structure WalletCoin where
  value : UInt64
  count : UInt32
  deriving Repr, DecidableEq

/-- The outcomes of the selection. -/
inductive CoinSelectionResult where
  | ok (selectedCoins : List UInt64) (totalSelected changeValue : UInt64)
  | requiresConsolidation (message : String)
  | insufficientBalance (message : String)
  deriving Repr, DecidableEq

/-- The message where too many coins are needed. -/
def consolidationMessage : String :=
  "Perlu konsolidasi coin dahulu: terlalu banyak coin kecil " ++
    "untuk menutup fee. Lakukan transaksi konsolidasi dulu."

/-- The message where no coin is left. -/
def insufficientMessage : String :=
  "Saldo tidak mencukupi untuk fee."

/-- The unchecked sum of coins, absent where a checked build panics. -/
def uncheckedSum (overflowChecks : Bool) (values : List UInt64) :
    Option UInt64 :=
  values.foldlM
    (fun total value =>
      if overflowChecks then
        checkedAdd total value
      else
        some (total + value))
    0

/-- `partition_point` of an ascending pool: its first coin that is enough. -/
def partitionPoint (pool : List UInt64) (shortfall : UInt64) : Nat :=
  pool.findIdx fun value => !decide (value < shortfall)

/-- The position of the coin that is taken next. -/
def chosenIdx (pool : List UInt64) (shortfall : UInt64) : Nat :=
  let bestIdx := partitionPoint pool shortfall
  if bestIdx < pool.length then
    bestIdx
  else
    pool.length - 1

/-- The coins of a wallet one by one. -/
def coinsOf (availableCoins : List WalletCoin) : List UInt64 :=
  availableCoins.flatMap fun coin =>
    List.replicate coin.count.toNat coin.value

/-- The coins of a wallet in ascending order. -/
def poolOf (availableCoins : List WalletCoin) : List UInt64 :=
  sortByKey UInt64.toNat (coinsOf availableCoins)

/-- The loop that adds coins until nothing is missing. -/
def coverShortfall
    (totalNeeded : UInt64)
    (selected : List UInt64)
    (totalSelected : UInt64)
    (pool : List UInt64) : CoinSelectionResult :=
  let shortfall := saturatingSub totalNeeded totalSelected
  if shortfall > 0 then
    if selected.length ≥ maxInputs then
      .requiresConsolidation consolidationMessage
    else if pool = [] then
      .insufficientBalance insufficientMessage
    else
      let coinValue := pool.getD (chosenIdx pool shortfall) 0
      coverShortfall totalNeeded (selected ++ [coinValue])
        (saturatingAdd totalSelected coinValue)
        (pool.eraseIdx (chosenIdx pool shortfall))
  else
    .ok selected totalSelected (saturatingSub totalSelected totalNeeded)
termination_by maxInputs - selected.length
decreasing_by
  rw [List.length_append, List.length_singleton]
  omega

/-- `step2b_fee_adequacy_check`, absent where a checked build panics. -/
def step2bFeeAdequacyCheck
    (overflowChecks : Bool)
    (selectedSoFar : List UInt64)
    (availableCoins : List WalletCoin)
    (targetValue feeTotal : UInt64) : Option CoinSelectionResult := do
  let totalNeeded := saturatingAdd targetValue feeTotal
  let totalSelected ← uncheckedSum overflowChecks selectedSoFar
  if totalSelected ≥ totalNeeded then
    some
      (.ok selectedSoFar totalSelected
        (saturatingSub totalSelected totalNeeded))
  else
    some
      (coverShortfall totalNeeded selectedSoFar totalSelected
        (poolOf availableCoins))

/-- The modes of the older interface, all treated alike. -/
inductive PrivacyMode where
  | speed
  | privacy
  | maximum
  deriving Repr, DecidableEq

/--
`select_coins` of a wallet whose map lists its values in an order; a count is
cut to 32 bits.
-/
def selectCoins
    (overflowChecks : Bool)
    (walletCoins : Finmap fun _ : UInt64 => UInt64)
    (order : List UInt64)
    (totalNeeded : UInt64)
    (_mode : PrivacyMode) : Option (Except String (List UInt64)) :=
  let available :=
    sortByKey (fun coin => coin.value.toNat)
      ((itemsAt walletCoins order).map fun item =>
        { value := item.1, count := item.2.toUInt32 : WalletCoin })
  (step2bFeeAdequacyCheck overflowChecks [] available totalNeeded 0).map
    fun result =>
      match result with
      | .ok selectedCoins _ _ => .ok selectedCoins
      | .requiresConsolidation message => .error message
      | .insufficientBalance message => .error message

/-!
## One coin
-/

section Loop

variable {pool : List UInt64} {shortfall : UInt64}

/-- The values of coins as integers. -/
def valuesOf (coins : List UInt64) : Multiset Nat :=
  (coins.map UInt64.toNat : List Nat)

/-- There is a position to take a coin from. -/
theorem chosenIdx_lt (nonempty : pool ≠ []) :
    chosenIdx pool shortfall < pool.length := by
  have positive := List.length_pos_iff.mpr nonempty
  unfold chosenIdx
  dsimp only
  split
  · assumption
  · exact Nat.sub_lt positive Nat.one_pos

/-- The coin that is taken is the one at that position. -/
theorem chosenCoin_eq_getElem (nonempty : pool ≠ []) :
    ∃ _ : chosenIdx pool shortfall < pool.length,
      pool.getD (chosenIdx pool shortfall) 0 =
        pool[chosenIdx pool shortfall] := by
  have inPool : chosenIdx pool shortfall < pool.length := chosenIdx_lt nonempty
  refine ⟨inPool, ?_⟩
  rw [List.getD_eq_getElem?_getD, List.getElem?_eq_getElem inPool,
    Option.getD_some]

/-- A coin that is taken is the coin and the rest of the pool. -/
theorem chosenCoin_perm (nonempty : pool ≠ []) :
    (pool.getD (chosenIdx pool shortfall) 0 ::
      pool.eraseIdx (chosenIdx pool shortfall)).Perm pool := by
  obtain ⟨inPool, isAt⟩ := chosenCoin_eq_getElem nonempty
  rw [isAt]
  exact List.getElem_cons_eraseIdx_perm inPool

/--
The coin that is taken makes up the rest, or is the greatest one where none
does.
-/
theorem chosenCoin_spec
    (nonempty : pool ≠ [])
    (ascending :
      pool.Pairwise fun left right => left.toNat ≤ right.toNat) :
    shortfall ≤ pool.getD (chosenIdx pool shortfall) 0 ∨
      ∀ coin ∈ pool,
        coin.toNat ≤ (pool.getD (chosenIdx pool shortfall) 0).toNat := by
  obtain ⟨inPool, isAt⟩ := chosenCoin_eq_getElem nonempty
  rw [isAt]
  by_cases enough : partitionPoint pool shortfall < pool.length
  · left
    have isBest : chosenIdx pool shortfall = partitionPoint pool shortfall :=
      if_pos enough
    have best := List.findIdx_getElem (w := enough)
    rw [Bool.not_eq_true', decide_eq_false_iff_not] at best
    simp only [isBest]
    exact UInt64.not_lt.mp best
  · right
    have isLast : chosenIdx pool shortfall = pool.length - 1 := if_neg enough
    intro coin listed
    obtain ⟨position, inRange, rfl⟩ := List.getElem_of_mem listed
    simp only [isLast]
    rcases Nat.lt_or_ge position (pool.length - 1) with earlier | last
    · exact List.pairwise_iff_getElem.mp ascending _ _ _ _ earlier
    · have same : position = pool.length - 1 := by omega
      simp only [same, le_refl]

/-- Coins are taken as long as their total is below the amount. -/
theorem saturatingSub_pos_iff {totalNeeded totalSelected : UInt64} :
    saturatingSub totalNeeded totalSelected > 0 ↔
      totalSelected.toNat < totalNeeded.toNat := by
  rw [gt_iff_lt, UInt64.lt_iff_toNat_lt, toNat_saturatingSub,
    UInt64.toNat_zero, Nat.sub_pos_iff_lt]

/-- What is missing after a coin is taken. -/
theorem missing_saturatingAdd (totalNeeded totalSelected coin : UInt64) :
    totalNeeded.toNat - (saturatingAdd totalSelected coin).toNat =
      totalNeeded.toNat - totalSelected.toNat - coin.toNat := by
  have inWord := totalNeeded.toNat_lt
  rw [toNat_saturatingAdd]
  unfold maxU64
  omega

/-- Taking the chosen coin does not change what can be covered. -/
theorem covers_chosenCoin_iff
    {slots : Nat}
    (nonempty : pool ≠ [])
    (ascending :
      pool.Pairwise fun left right => left.toNat ≤ right.toNat) :
    Covers (slots + 1) (valuesOf pool) shortfall.toNat ↔
      Covers slots (valuesOf (pool.eraseIdx (chosenIdx pool shortfall)))
        (shortfall.toNat -
          (pool.getD (chosenIdx pool shortfall) 0).toNat) := by
  have parts :
      valuesOf pool =
        (pool.getD (chosenIdx pool shortfall) 0).toNat ::ₘ
          valuesOf (pool.eraseIdx (chosenIdx pool shortfall)) :=
    (Multiset.coe_eq_coe.mpr
      ((chosenCoin_perm nonempty).map UInt64.toNat)).symm
  have listed :
      (pool.getD (chosenIdx pool shortfall) 0).toNat ∈ valuesOf pool := by
    rw [parts]
    exact Multiset.mem_cons_self _ _
  rcases chosenCoin_spec nonempty ascending with enough | greatest
  · rw [UInt64.le_iff_toNat_le] at enough
    rw [Nat.sub_eq_zero_of_le enough]
    exact iff_of_true (covers_of_mem listed enough) covers_zero
  · have isGreatest :
        ∀ value ∈ valuesOf pool,
          value ≤ (pool.getD (chosenIdx pool shortfall) 0).toNat := by
      intro value isValue
      obtain ⟨coin, isCoin, rfl⟩ := List.mem_map.mp isValue
      exact greatest coin isCoin
    rw [covers_erase_greatest_iff listed isGreatest, parts,
      Multiset.erase_cons_head]

/-!
## The loop
-/

/-- A result says whether an amount is covered, and why not. -/
def VerdictFor
    (slots : Nat)
    (pool : Multiset Nat)
    (missing : Nat) : CoinSelectionResult → Prop
  | .ok _ _ _ => Covers slots pool missing
  | .requiresConsolidation _ =>
      ¬ Covers slots pool missing ∧ slots ≤ pool.card
  | .insufficientBalance _ =>
      ¬ Covers slots pool missing ∧ pool.card < slots

/-- A verdict on what is left of an amount is one on the amount. -/
theorem VerdictFor.of_step
    {slots : Nat}
    {pool rest : Multiset Nat}
    {missing left : Nat}
    {result : CoinSelectionResult}
    (sameCover : Covers (slots + 1) pool missing ↔ Covers slots rest left)
    (oneLess : pool.card = rest.card + 1)
    (verdict : VerdictFor slots rest left result) :
    VerdictFor (slots + 1) pool missing result := by
  cases result with
  | ok selectedCoins totalSelected changeValue =>
      exact sameCover.mpr verdict
  | requiresConsolidation message =>
      refine ⟨fun covers => verdict.1 (sameCover.mp covers), ?_⟩
      rw [oneLess]
      exact Nat.succ_le_succ verdict.2
  | insufficientBalance message =>
      refine ⟨fun covers => verdict.1 (sameCover.mp covers), ?_⟩
      rw [oneLess]
      exact Nat.succ_lt_succ verdict.2

/-- The verdict of the loop is exact. -/
theorem verdictFor_coverShortfall
    (totalNeeded : UInt64)
    (selected : List UInt64)
    (totalSelected : UInt64)
    (pool : List UInt64)
    (ascending :
      pool.Pairwise fun left right => left.toNat ≤ right.toNat) :
    VerdictFor (maxInputs - selected.length) (valuesOf pool)
      (totalNeeded.toNat - totalSelected.toNat)
      (coverShortfall totalNeeded selected totalSelected pool) := by
  fun_induction coverShortfall totalNeeded selected totalSelected pool with
  | case1 selected totalSelected pool shortfall missing full =>
      rw [Nat.sub_eq_zero_of_le full]
      refine ⟨?_, Nat.zero_le _⟩
      rw [covers_noSlots_iff, Nat.not_le]
      exact Nat.sub_pos_of_lt (saturatingSub_pos_iff.mp missing)
  | case2 selected totalSelected shortfall missing room =>
      have positiveSlots : 0 < maxInputs - selected.length :=
        Nat.sub_pos_of_lt (Nat.lt_of_not_le room)
      refine ⟨?_, positiveSlots⟩
      rw [covers_iff_sum (Nat.zero_le _), Nat.not_le]
      exact Nat.sub_pos_of_lt (saturatingSub_pos_iff.mp missing)
  | case3 selected totalSelected pool shortfall missing room nonempty coinValue
      inductionHypothesis =>
      have rest :=
        inductionHypothesis (ascending.sublist (List.eraseIdx_sublist _ _))
      have slots :
          maxInputs - selected.length =
            maxInputs - (selected ++ [coinValue]).length + 1 := by
        rw [List.length_append, List.length_singleton]
        omega
      have sameCover :
          Covers (maxInputs - (selected ++ [coinValue]).length + 1)
              (valuesOf pool) shortfall.toNat ↔
            Covers (maxInputs - (selected ++ [coinValue]).length)
              (valuesOf (pool.eraseIdx (chosenIdx pool shortfall)))
              (shortfall.toNat - coinValue.toNat) :=
        covers_chosenCoin_iff nonempty ascending
      rw [toNat_saturatingSub] at sameCover
      rw [missing_saturatingAdd] at rest
      rw [slots]
      refine rest.of_step sameCover ?_
      exact
        (Multiset.coe_card _).trans
          (((chosenCoin_perm nonempty).map UInt64.toNat).length_eq.symm)
  | case4 selected totalSelected pool shortfall notMissing =>
      have enough : totalNeeded.toNat ≤ totalSelected.toNat :=
        Nat.not_lt.mp (saturatingSub_pos_iff.not.mp notMissing)
      rw [Nat.sub_eq_zero_of_le enough]
      exact covers_zero

/--
A selection extends the coins it started from by coins of the pool, and the
totals are those of its coins as long as they fit a machine word.
-/
structure Extends
    (totalNeeded : UInt64)
    (selected : List UInt64)
    (totalSelected : UInt64)
    (pool : List UInt64)
    (selectedCoins : List UInt64)
    (newTotal changeValue : UInt64) : Prop where
  coins : ∃ added,
    selectedCoins = selected ++ added ∧
      added.Subperm pool ∧
      newTotal.toNat =
        min (totalSelected.toNat + (added.map UInt64.toNat).sum) maxU64
  limited : selectedCoins.length ≤ max maxInputs selected.length
  reached : totalNeeded.toNat ≤ newTotal.toNat
  change : changeValue.toNat = newTotal.toNat - totalNeeded.toNat

/-- A selection that is enough extends itself. -/
theorem extends_of_enough
    {totalNeeded totalSelected : UInt64}
    (selected : List UInt64)
    (pool : List UInt64)
    (enough : totalNeeded.toNat ≤ totalSelected.toNat) :
    Extends totalNeeded selected totalSelected pool selected totalSelected
      (saturatingSub totalSelected totalNeeded) where
  coins := by
    refine ⟨[], (List.append_nil _).symm, List.nil_subperm, ?_⟩
    rw [List.map_nil, List.sum_nil, Nat.add_zero,
      Nat.min_eq_left (toNat_le_maxU64 totalSelected)]
  limited := Nat.le_max_right _ _
  reached := enough
  change := toNat_saturatingSub _ _

/-- Totals of clamped totals are clamped totals. -/
theorem min_saturatingAdd (totalSelected coin : UInt64) (sum : Nat) :
    min ((saturatingAdd totalSelected coin).toNat + sum) maxU64 =
      min (totalSelected.toNat + (coin.toNat + sum)) maxU64 := by
  rw [toNat_saturatingAdd]
  omega

/-- The selection of the loop extends the one it started from. -/
theorem extends_of_coverShortfall
    {totalNeeded : UInt64}
    {selected : List UInt64}
    {totalSelected : UInt64}
    {pool selectedCoins : List UInt64}
    {newTotal changeValue : UInt64}
    (covered :
      coverShortfall totalNeeded selected totalSelected pool =
        .ok selectedCoins newTotal changeValue) :
    Extends totalNeeded selected totalSelected pool selectedCoins newTotal
      changeValue := by
  fun_induction coverShortfall totalNeeded selected totalSelected pool with
  | case1 =>
      cases covered
  | case2 =>
      cases covered
  | case3 selected totalSelected pool shortfall missing room nonempty coinValue
      inductionHypothesis =>
      obtain ⟨⟨added, rfl, fromRest, total⟩, limited, reached, change⟩ :=
        inductionHypothesis covered
      refine ⟨⟨coinValue :: added, ?_, ?_, ?_⟩, ?_, reached, change⟩
      · rw [List.append_assoc, List.singleton_append]
      · exact
          ((List.subperm_cons coinValue).mpr fromRest).trans
            (chosenCoin_perm nonempty).subperm
      · rw [total, min_saturatingAdd, List.map_cons, List.sum_cons]
      · refine limited.trans ?_
        rw [List.length_append, List.length_singleton]
        omega
  | case4 selected totalSelected pool shortfall notMissing =>
      have enough : totalNeeded.toNat ≤ totalSelected.toNat :=
        Nat.not_lt.mp (saturatingSub_pos_iff.not.mp notMissing)
      cases covered
      exact extends_of_enough _ _ enough

end Loop

end ScalarCore
