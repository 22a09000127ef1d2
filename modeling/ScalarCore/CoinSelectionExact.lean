import ScalarCore.CoinSelection

namespace ScalarCore

/-!
# What coin selection returns

A selection that is returned conserves value as long as neither the amount that
is asked for nor the coins that are selected leave the machine word, as they
never do with coins of the fixed denominations.  Without a selection to start
from, one is returned exactly when ten coins of the wallet reach the amount.
Otherwise the error is that the balance is insufficient where the wallet has
fewer than ten coins, and that coins have to be consolidated where it has ten or
more, whether or not all of them together would do.
-/

open GreedyCover KeyedSort KeyedWrites MachineInt

/-- The pool has the coins of the wallet. -/
theorem poolOf_perm (availableCoins : List WalletCoin) :
    (poolOf availableCoins).Perm (coinsOf availableCoins) :=
  sortByKey_perm _ _

/-- An unchecked sum that fits the word is the sum. -/
theorem toNat_foldlM_add
    {overflowChecks : Bool}
    {values : List UInt64}
    {start total : UInt64}
    (summed :
      values.foldlM
        (fun total value =>
          if overflowChecks then
            checkedAdd total value
          else
            some (total + value)) start =
        some total)
    (fits : start.toNat + (valuesOf values).sum ≤ maxU64) :
    total.toNat = start.toNat + (valuesOf values).sum := by
  induction values generalizing start with
  | nil =>
      cases summed
      rfl
  | cons value rest inductionHypothesis =>
      have parts :
          (valuesOf (value :: rest)).sum =
            value.toNat + (valuesOf rest).sum :=
        List.sum_cons
      rw [parts] at fits ⊢
      have valueFits : start.toNat + value.toNat ≤ maxU64 := by omega
      have noWrap : (start + value).toNat = start.toNat + value.toNat := by
        rw [UInt64.toNat_add, Nat.mod_eq_of_lt]
        unfold maxU64 at valueFits
        omega
      have bothAdd :
          (if overflowChecks then
              checkedAdd start value
            else
              some (start + value)) = some (start + value) := by
        rw [checkedAdd, if_pos valueFits, ite_self]
      rw [List.foldlM_cons, bothAdd] at summed
      have restSum := inductionHypothesis summed (by rw [noWrap]; omega)
      rw [restSum, noWrap, Nat.add_assoc]

variable {overflowChecks : Bool} {selectedSoFar selectedCoins : List UInt64}
  {availableCoins : List WalletCoin}
  {targetValue feeTotal totalSelected changeValue : UInt64}

/-- A returned selection extends the one it started from. -/
theorem extends_of_step2b
    (accepted :
      step2bFeeAdequacyCheck overflowChecks selectedSoFar availableCoins
          targetValue feeTotal =
        some (.ok selectedCoins totalSelected changeValue)) :
    ∃ startTotal,
      uncheckedSum overflowChecks selectedSoFar = some startTotal ∧
        Extends (saturatingAdd targetValue feeTotal) selectedSoFar startTotal
          (poolOf availableCoins) selectedCoins totalSelected changeValue := by
  unfold step2bFeeAdequacyCheck at accepted
  dsimp only at accepted
  obtain ⟨startTotal, summed, selection⟩ := Option.bind_eq_some_iff.mp accepted
  refine ⟨startTotal, summed, ?_⟩
  by_cases enough : startTotal ≥ saturatingAdd targetValue feeTotal
  · rw [if_pos enough] at selection
    cases selection
    exact extends_of_enough _ _ (UInt64.le_iff_toNat_le.mp enough)
  · rw [if_neg enough, Option.some.injEq] at selection
    exact extends_of_coverShortfall selection

/-- The value of the coins is the total, and the total is what it is used for. -/
structure Conserves
    (selectedCoins : List UInt64)
    (totalSelected targetValue feeTotal changeValue : UInt64) : Prop where
  sum : (valuesOf selectedCoins).sum = totalSelected.toNat
  use :
    totalSelected.toNat =
      targetValue.toNat + feeTotal.toNat + changeValue.toNat

/-- All coins have one of the fixed denominations. -/
structure AllDenominations
    (selectedSoFar : List UInt64)
    (availableCoins : List WalletCoin) : Prop where
  selected : ∀ value ∈ selectedSoFar, value ∈ denominations
  available : ∀ coin ∈ availableCoins, coin.value ∈ denominations

/-- The total of coins that fit a word is their sum. -/
theorem total_eq_sum
    (accepted :
      step2bFeeAdequacyCheck overflowChecks selectedSoFar availableCoins
          targetValue feeTotal =
        some (.ok selectedCoins totalSelected changeValue))
    (sumFits : (valuesOf selectedCoins).sum ≤ maxU64) :
    totalSelected.toNat = (valuesOf selectedCoins).sum := by
  obtain ⟨startTotal, summed, ⟨added, rfl, _, total⟩, _, _, _⟩ :=
    extends_of_step2b accepted
  have parts :
      (valuesOf (selectedSoFar ++ added)).sum =
        (valuesOf selectedSoFar).sum + (added.map UInt64.toNat).sum := by
    rw [valuesOf, List.map_append, Multiset.sum_coe, List.sum_append]
    rfl
  have zeroStart : (0 : UInt64).toNat = 0 := rfl
  have start : startTotal.toNat = (valuesOf selectedSoFar).sum := by
    rw [toNat_foldlM_add summed (by rw [zeroStart]; omega), zeroStart,
      Nat.zero_add]
  rw [total, start, ← parts, Nat.min_eq_left sumFits]

/-- A selection conserves value exactly when no total leaves the word. -/
theorem conserves_iff
    (accepted :
      step2bFeeAdequacyCheck overflowChecks selectedSoFar availableCoins
          targetValue feeTotal =
        some (.ok selectedCoins totalSelected changeValue)) :
    Conserves selectedCoins totalSelected targetValue feeTotal changeValue ↔
      targetValue.toNat + feeTotal.toNat ≤ maxU64 ∧
        (valuesOf selectedCoins).sum ≤ maxU64 := by
  obtain ⟨_, _, _, _, reached, change⟩ := extends_of_step2b accepted
  have totalFits := toNat_le_maxU64 totalSelected
  rw [toNat_saturatingAdd] at reached change
  constructor
  · intro ⟨sum, use⟩
    exact ⟨by omega, sum ▸ totalFits⟩
  · intro ⟨amountFits, sumFits⟩
    rw [Nat.min_eq_left amountFits] at reached change
    exact ⟨(total_eq_sum accepted sumFits).symm, by omega⟩

/-- Few coins of the fixed denominations fit a word by far. -/
theorem sum_le_of_denominations
    {coins : List UInt64}
    (fixed : ∀ coin ∈ coins, coin ∈ denominations) :
    (valuesOf coins).sum ≤ coins.length * 100000000 := by
  have bounded : ∀ value ∈ valuesOf coins, value ≤ 100000000 := by
    intro value isValue
    obtain ⟨coin, listed, rfl⟩ := List.mem_map.mp isValue
    have greatest : ∀ value ∈ denominations, value.toNat ≤ 100000000 := by
      simp [denominations]
    exact greatest coin (fixed coin listed)
  have card : (valuesOf coins).card = coins.length := by
    rw [valuesOf, Multiset.coe_card, List.length_map]
  have sumBounded := Multiset.sum_le_card_nsmul _ _ bounded
  rwa [card, nsmul_eq_mul] at sumBounded

/-- Coins of the fixed denominations are conserved. -/
theorem conserves_of_denominations
    (limited : selectedSoFar.length ≤ maxInputs)
    (fixed : AllDenominations selectedSoFar availableCoins)
    (accepted :
      step2bFeeAdequacyCheck overflowChecks selectedSoFar availableCoins
          targetValue feeTotal =
        some (.ok selectedCoins totalSelected changeValue)) :
    Conserves selectedCoins totalSelected targetValue feeTotal
      changeValue := by
  obtain ⟨_, _, ⟨added, isExtended, fromPool, _⟩, few, reached, _⟩ :=
    extends_of_step2b accepted
  have allFixed : ∀ coin ∈ selectedCoins, coin ∈ denominations := by
    intro coin isSelected
    rw [isExtended, List.mem_append] at isSelected
    rcases isSelected with before | isAdded
    · exact fixed.selected coin before
    · have isCoin :=
        (poolOf_perm availableCoins).mem_iff.mp (fromPool.subset isAdded)
      obtain ⟨walletCoin, isAvailable, isOfWallet⟩ := List.mem_flatMap.mp isCoin
      rw [List.eq_of_mem_replicate isOfWallet]
      exact fixed.available walletCoin isAvailable
  have small := sum_le_of_denominations allFixed
  have atMostTen : selectedCoins.length ≤ 10 :=
    few.trans (Nat.max_le.mpr ⟨le_rfl, limited⟩)
  have sumFits : (valuesOf selectedCoins).sum < maxU64 := by
    unfold maxU64
    omega
  -- the amount is not clamped, since the coins reach it
  have amountFits : targetValue.toNat + feeTotal.toNat ≤ maxU64 := by
    rw [toNat_saturatingAdd, total_eq_sum accepted sumFits.le] at reached
    omega
  exact (conserves_iff accepted).mpr ⟨amountFits, sumFits.le⟩

/--
A returned selection extends the given one by coins of the wallet to at most
ten, and conserves value exactly when no total leaves the machine word, as with
coins of the fixed denominations.
-/
theorem step2b_selection
    (limited : selectedSoFar.length ≤ maxInputs)
    (accepted :
      step2bFeeAdequacyCheck overflowChecks selectedSoFar availableCoins
          targetValue feeTotal =
        some (.ok selectedCoins totalSelected changeValue)) :
    (∃ added,
        selectedCoins = selectedSoFar ++ added ∧
          added.Subperm (coinsOf availableCoins)) ∧
      selectedCoins.length ≤ maxInputs ∧
      (Conserves selectedCoins totalSelected targetValue feeTotal
          changeValue ↔
        targetValue.toNat + feeTotal.toNat ≤ maxU64 ∧
          (valuesOf selectedCoins).sum ≤ maxU64) ∧
      (AllDenominations selectedSoFar availableCoins →
        Conserves selectedCoins totalSelected targetValue feeTotal
          changeValue) := by
  obtain ⟨_, _, ⟨added, isExtended, fromPool, _⟩, few, _, _⟩ :=
    extends_of_step2b accepted
  exact
    ⟨⟨added, isExtended,
        fromPool.trans (poolOf_perm availableCoins).subperm⟩,
      few.trans (Nat.max_le.mpr ⟨le_rfl, limited⟩),
      conserves_iff accepted,
      fun fixed => conserves_of_denominations limited fixed accepted⟩

/-- A coin is added for the fee. -/
theorem step2b_addsCoin :
    step2bFeeAdequacyCheck true [10000] [{ value := 100, count := 1 }] 10000
        100 =
      some (.ok [10000, 100] 10100 0) := by
  have pool : poolOf [{ value := 100, count := 1 }] = [100] :=
    sortByKey_of_pairwise (List.pairwise_singleton _ _)
  have summed : uncheckedSum true [10000] = some 10000 := by decide
  simp only [step2bFeeAdequacyCheck, summed, pool, Option.bind_eq_bind,
    Option.bind_some]
  rw [coverShortfall, coverShortfall]
  decide

/-- What is said of a selection, of the one with the added coin. -/
theorem step2b_selection_addsCoin :
    (∃ added,
        ([10000, 100] : List UInt64) = [10000] ++ added ∧
          added.Subperm (coinsOf [{ value := 100, count := 1 }])) ∧
      ([10000, 100] : List UInt64).length ≤ maxInputs ∧
      (Conserves [10000, 100] 10100 10000 100 0 ↔
        (10000 : UInt64).toNat + (100 : UInt64).toNat ≤ maxU64 ∧
          (valuesOf [10000, 100]).sum ≤ maxU64) ∧
      (AllDenominations [10000] [{ value := 100, count := 1 }] →
        Conserves [10000, 100] 10100 10000 100 0) :=
  step2b_selection (by decide) step2b_addsCoin

/-- An amount beyond the machine word is paid for without its fee. -/
theorem fee_lost_beyond_word :
    ¬ ∀ (overflowChecks : Bool) (selectedSoFar : List UInt64)
        (availableCoins : List WalletCoin)
        (targetValue feeTotal : UInt64)
        (selectedCoins : List UInt64)
        (totalSelected changeValue : UInt64),
        selectedSoFar.length ≤ maxInputs →
        step2bFeeAdequacyCheck overflowChecks selectedSoFar availableCoins
            targetValue feeTotal =
          some (.ok selectedCoins totalSelected changeValue) →
        Conserves selectedCoins totalSelected targetValue feeTotal
          changeValue := by
  intro always
  have conserves :=
    always true [18446744073709551615] [] 18446744073709551615 1
      [18446744073709551615] 18446744073709551615 0 (by decide) (by decide)
  exact absurd conserves.use (by decide)

/-!
## Verdicts without a selection to start from
-/

/-- The values of the coins of a wallet as integers. -/
def balanceOf (availableCoins : List WalletCoin) : Multiset Nat :=
  valuesOf (coinsOf availableCoins)

/-- The result without a selection to start from, and what it says. -/
theorem verdictFor_step2b
    (overflowChecks : Bool)
    (availableCoins : List WalletCoin)
    (targetValue feeTotal : UInt64) :
    ∃ result,
      step2bFeeAdequacyCheck overflowChecks [] availableCoins targetValue
            feeTotal =
          some result ∧
        VerdictFor maxInputs (balanceOf availableCoins)
          (saturatingAdd targetValue feeTotal).toNat result := by
  have summed : uncheckedSum overflowChecks [] = some 0 := rfl
  simp only [step2bFeeAdequacyCheck, summed, Option.bind_eq_bind,
    Option.bind_some]
  by_cases nothing : (0 : UInt64) ≥ saturatingAdd targetValue feeTotal
  · rw [if_pos nothing]
    refine ⟨_, rfl, ?_⟩
    rw [Nat.le_zero.mp (UInt64.le_iff_toNat_le.mp nothing)]
    exact covers_zero
  · rw [if_neg nothing]
    refine ⟨_, rfl, ?_⟩
    have sameCoins :
        valuesOf (poolOf availableCoins) = balanceOf availableCoins :=
      Multiset.coe_eq_coe.mpr
        ((poolOf_perm availableCoins).map UInt64.toNat)
    have verdict :=
      verdictFor_coverShortfall (saturatingAdd targetValue feeTotal) [] 0
        (poolOf availableCoins) (pairwise_sortByKey _ _)
    rwa [sameCoins] at verdict

/-- Each verdict is returned exactly where it holds. -/
theorem verdict_iff
    {slots missing : Nat}
    {pool : Multiset Nat}
    {result : CoinSelectionResult}
    (verdict : VerdictFor slots pool missing result) :
    ((∃ selectedCoins totalSelected changeValue,
          result = .ok selectedCoins totalSelected changeValue) ↔
        Covers slots pool missing) ∧
      ((∃ message, result = .insufficientBalance message) ↔
        pool.card < slots ∧ pool.sum < missing) ∧
      ((∃ message, result = .requiresConsolidation message) ↔
        slots ≤ pool.card ∧ ¬ Covers slots pool missing) := by
  have decidedBySum (few : pool.card < slots) :
      ¬ Covers slots pool missing ↔ pool.sum < missing := by
    rw [covers_iff_sum few.le, Nat.not_le]
  cases result with
  | ok selectedCoins totalSelected changeValue =>
      refine ⟨iff_of_true ⟨_, _, _, rfl⟩ verdict, ?_, ?_⟩
      · refine iff_of_false (fun ⟨_, other⟩ => by cases other) ?_
        intro ⟨few, missed⟩
        exact (decidedBySum few).mpr missed verdict
      · exact
          iff_of_false (fun ⟨_, other⟩ => by cases other)
            (fun uncovered => uncovered.2 verdict)
  | requiresConsolidation message =>
      refine
        ⟨iff_of_false (fun ⟨_, _, _, other⟩ => by cases other) verdict.1,
          ?_, iff_of_true ⟨message, rfl⟩ ⟨verdict.2, verdict.1⟩⟩
      exact
        iff_of_false (fun ⟨_, other⟩ => by cases other)
          (fun missed => absurd missed.1 (Nat.not_lt.mpr verdict.2))
  | insufficientBalance message =>
      refine
        ⟨iff_of_false (fun ⟨_, _, _, other⟩ => by cases other) verdict.1,
          iff_of_true ⟨message, rfl⟩
            ⟨verdict.2, (decidedBySum verdict.2).mp verdict.1⟩,
          ?_⟩
      exact
        iff_of_false (fun ⟨_, other⟩ => by cases other)
          (fun uncovered => absurd verdict.2 (Nat.not_lt.mpr uncovered.1))

variable {walletCoins : Finmap fun _ : UInt64 => UInt64} {order : List UInt64}

/-- How many coins of a value a wallet has. -/
def countOf
    (walletCoins : Finmap fun _ : UInt64 => UInt64)
    (value : UInt64) : Nat :=
  ((walletCoins.lookup value).getD 0).toNat

/-- The values of the coins of a wallet that is a map. -/
def walletBalance
    (walletCoins : Finmap fun _ : UInt64 => UInt64) : Multiset Nat :=
  walletCoins.keys.val.bind fun value =>
    Multiset.replicate (countOf walletCoins value) value.toNat

/-- The order in which a map lists its values; nothing else is known of it. -/
def ListsValues
    (walletCoins : Finmap fun _ : UInt64 => UInt64)
    (order : List UInt64) : Prop :=
  (order : Multiset UInt64) = walletCoins.keys.val

/-- No count of the wallet is cut. -/
def CountsFit (walletCoins : Finmap fun _ : UInt64 => UInt64) : Prop :=
  ∀ value, countOf walletCoins value < 2 ^ 32

/-- Counts that are not cut give as many coins. -/
theorem coinsOf_itemsAt
    (fit : CountsFit walletCoins)
    (order : List UInt64) :
    coinsOf
        ((itemsAt walletCoins order).map fun item =>
          { value := item.1, count := item.2.toUInt32 : WalletCoin }) =
      order.flatMap fun value =>
        List.replicate (countOf walletCoins value) value := by
  induction order with
  | nil =>
      rfl
  | cons value rest inductionHypothesis =>
      have fits := fit value
      rw [coinsOf, itemsAt] at inductionHypothesis
      rw [coinsOf, itemsAt, List.filterMap_cons, List.flatMap_cons,
        ← inductionHypothesis]
      unfold countOf at fits ⊢
      cases found : walletCoins.lookup value with
      | none =>
          rfl
      | some count =>
          rw [found, Option.getD_some] at fits
          have uncut : count.toUInt32.toNat = count.toNat := by
            rw [UInt64.toNat_toUInt32]
            exact Nat.mod_eq_of_lt fits
          simp only [Option.map_some, List.map_cons, List.flatMap_cons, uncut,
            Option.getD_some]

/-- The coins that are selected from are those of the wallet. -/
theorem balanceOf_available
    (lists : ListsValues walletCoins order)
    (fit : CountsFit walletCoins) :
    balanceOf
        (sortByKey (fun coin => coin.value.toNat)
          ((itemsAt walletCoins order).map fun item =>
            { value := item.1, count := item.2.toUInt32 : WalletCoin })) =
      walletBalance walletCoins := by
  have reordered :
      (coinsOf
          (sortByKey (fun coin => coin.value.toNat)
            ((itemsAt walletCoins order).map fun item =>
              { value := item.1, count := item.2.toUInt32 : WalletCoin }))).Perm
        (order.flatMap fun value =>
          List.replicate (countOf walletCoins value) value) := by
    rw [← coinsOf_itemsAt fit order]
    exact (sortByKey_perm _ _).flatMap_right _
  rw [balanceOf, valuesOf, walletBalance, ← lists,
    Multiset.coe_eq_coe.mpr (reordered.map UInt64.toNat), List.map_flatMap]
  simp only [List.map_replicate, ← Multiset.coe_replicate, Multiset.coe_bind]

/--
A selection is returned exactly when ten coins of the wallet reach the amount.
Otherwise the balance is insufficient exactly when there are fewer than ten
coins, and coins have to be consolidated exactly when there are ten or more.
-/
theorem selection_verdicts
    (overflowChecks : Bool)
    (lists : ListsValues walletCoins order)
    (fit : CountsFit walletCoins)
    (totalNeeded : UInt64)
    (mode : PrivacyMode)
    (availableCoins : List WalletCoin)
    (targetValue feeTotal : UInt64) :
    ((∃ selectedCoins,
          selectCoins overflowChecks walletCoins order totalNeeded mode =
            some (.ok selectedCoins)) ↔
        Covers maxInputs (walletBalance walletCoins) totalNeeded.toNat) ∧
      ((∃ message,
          step2bFeeAdequacyCheck overflowChecks [] availableCoins targetValue
              feeTotal =
            some (.insufficientBalance message)) ↔
        (balanceOf availableCoins).card < maxInputs ∧
          (balanceOf availableCoins).sum <
            (saturatingAdd targetValue feeTotal).toNat) ∧
      ((∃ message,
          step2bFeeAdequacyCheck overflowChecks [] availableCoins targetValue
              feeTotal =
            some (.requiresConsolidation message)) ↔
        maxInputs ≤ (balanceOf availableCoins).card ∧
          ¬ Covers maxInputs (balanceOf availableCoins)
            (saturatingAdd targetValue feeTotal).toNat) := by
  refine ⟨?_, ?_⟩
  · obtain ⟨result, returned, verdict⟩ :=
      verdictFor_step2b overflowChecks
        (sortByKey (fun coin => coin.value.toNat)
          ((itemsAt walletCoins order).map fun item =>
            { value := item.1, count := item.2.toUInt32 : WalletCoin }))
        totalNeeded 0
    have sameAmount : (saturatingAdd totalNeeded 0).toNat = totalNeeded.toNat := by
      rw [toNat_saturatingAdd]
      exact Nat.min_eq_left (toNat_le_maxU64 totalNeeded)
    rw [balanceOf_available lists fit, sameAmount] at verdict
    rw [← (verdict_iff verdict).1, selectCoins, returned, Option.map_some]
    cases result with
    | ok selectedCoins totalSelected changeValue =>
        exact iff_of_true ⟨_, rfl⟩ ⟨_, _, _, rfl⟩
    | requiresConsolidation message =>
        exact
          iff_of_false (fun ⟨_, other⟩ => by cases other)
            (fun ⟨_, _, _, other⟩ => by cases other)
    | insufficientBalance message =>
        exact
          iff_of_false (fun ⟨_, other⟩ => by cases other)
            (fun ⟨_, _, _, other⟩ => by cases other)
  · obtain ⟨result, returned, verdict⟩ :=
      verdictFor_step2b overflowChecks availableCoins targetValue feeTotal
    simp only [returned, Option.some.injEq]
    exact (verdict_iff verdict).2

/-- A wallet that is a map of one value. -/
def oneValueWallet (value count : UInt64) : Finmap fun _ : UInt64 => UInt64 :=
  Finmap.singleton value count

/-- A wallet of three coins, as a map and as a list. -/
theorem selection_verdicts_threeCoins :
    ((∃ selectedCoins,
          selectCoins true (oneValueWallet 50 3) [50] 150 .speed =
            some (.ok selectedCoins)) ↔
        Covers maxInputs (walletBalance (oneValueWallet 50 3)) 150) ∧
      ((∃ message,
          step2bFeeAdequacyCheck true [] [{ value := 50, count := 3 }] 100
              100 =
            some (.insufficientBalance message)) ↔
        (balanceOf [{ value := 50, count := 3 }]).card < maxInputs ∧
          (balanceOf [{ value := 50, count := 3 }]).sum <
            (saturatingAdd 100 100).toNat) ∧
      ((∃ message,
          step2bFeeAdequacyCheck true [] [{ value := 50, count := 3 }] 100
              100 =
            some (.requiresConsolidation message)) ↔
        maxInputs ≤ (balanceOf [{ value := 50, count := 3 }]).card ∧
          ¬ Covers maxInputs (balanceOf [{ value := 50, count := 3 }])
            (saturatingAdd 100 100).toNat) := by
  have fit : CountsFit (oneValueWallet 50 3) := by
    intro value
    by_cases isFifty : value = 50
    · subst isFifty
      decide
    · have absent : (oneValueWallet 50 3).lookup value = none := by
        rw [oneValueWallet, Finmap.lookup_eq_none, Finmap.mem_singleton]
        exact isFifty
      rw [countOf, absent]
      decide
  exact
    selection_verdicts true (by rfl) fit 150 .speed
      [{ value := 50, count := 3 }] 100 100

/-- Twelve small coins have to be consolidated for what they do not reach. -/
theorem consolidation_of_insufficient_balance :
    (¬ ∀ (availableCoins : List WalletCoin) (targetValue feeTotal : UInt64),
        (∃ message,
            step2bFeeAdequacyCheck true [] availableCoins targetValue
                feeTotal =
              some (.insufficientBalance message)) ↔
          (balanceOf availableCoins).sum <
            (saturatingAdd targetValue feeTotal).toNat) ∧
      ¬ ∀ (availableCoins : List WalletCoin) (targetValue feeTotal : UInt64),
        (∃ message,
            step2bFeeAdequacyCheck true [] availableCoins targetValue
                feeTotal =
              some (.requiresConsolidation message)) ↔
          (saturatingAdd targetValue feeTotal).toNat ≤
              (balanceOf availableCoins).sum ∧
            ¬ Covers maxInputs (balanceOf availableCoins)
              (saturatingAdd targetValue feeTotal).toNat := by
  obtain ⟨result, returned, verdict⟩ :=
    verdictFor_step2b true [{ value := 1, count := 12 }] 100 0
  obtain ⟨_, insufficient_iff, consolidation_iff⟩ := verdict_iff verdict
  constructor
  · intro always
    have insufficient :=
      (always [{ value := 1, count := 12 }] 100 0).mpr (by decide)
    simp only [returned, Option.some.injEq] at insufficient
    exact absurd (insufficient_iff.mp insufficient).1 (by decide)
  · intro always
    have tooSmall :
        ¬ Covers maxInputs (balanceOf [{ value := 1, count := 12 }])
          (saturatingAdd 100 0).toNat := by
      intro ⟨chosen, isPart, _, reached⟩
      obtain ⟨rest, parts⟩ := Multiset.le_iff_exists_add.mp isPart
      have total : (balanceOf [{ value := 1, count := 12 }]).sum = 12 := by
        decide
      rw [parts, Multiset.sum_add] at total
      have needed : (saturatingAdd 100 0).toNat = 100 := by decide
      omega
    have consolidation := consolidation_iff.mpr ⟨by decide, tooSmall⟩
    have enough :=
      (always [{ value := 1, count := 12 }] 100 0).mp
        (by simpa only [returned, Option.some.injEq] using consolidation)
    exact absurd enough.1 (by decide)

end ScalarCore
