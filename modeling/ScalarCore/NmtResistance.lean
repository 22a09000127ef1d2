import ScalarCore.ProductionNmt

namespace ScalarCore

/-!
# The network time under lying peers

The network time is the lower median of eight reports.  Above the honest
reports it needs five liars; below them it needs four, since four low reports
already fill the ranks up to the lower median.
-/

open KeyedSort OrderStatistic

/-- `compute_nmt_from_8_peers`. -/
def computeNmtFrom8Peers (peerTimestamps : Vector UInt32 8) : UInt32 :=
  let sample := sortByKey UInt32.toNat peerTimestamps.toList
  sample.getD (nmtPeerCount / 2 - 1) 0

/-- The wrapper for eight peers and the general function agree. -/
theorem computeNmt_toList (peerTimestamps : Vector UInt32 8) :
    computeNmt peerTimestamps.toList =
      some (computeNmtFrom8Peers peerTimestamps) := by
  have eight : peerTimestamps.toList.length = nmtPeerCount :=
    Vector.length_toList
  have inSample :
      nmtPeerCount / 2 - 1 <
        (sortByKey UInt32.toNat peerTimestamps.toList).length := by
    rw [(sortByKey_perm _ _).length_eq, eight]
    decide
  rw [computeNmt, if_neg eight.not_lt, computeNmtFrom8Peers]
  dsimp only
  rw [List.take_of_length_le eight.le, List.getD_eq_getElem?_getD,
    List.getElem?_eq_getElem inSample, Option.getD_some]

instance : NeZero nmtPeerCount :=
  ⟨by decide⟩

/-- The reports that the network time is taken from. -/
def reportOf
    (peerTimestamps : List UInt32)
    (peer : Fin nmtPeerCount) : UInt32 :=
  peerTimestamps.getD peer 0

/-- The network time is between the least and the greatest honest report. -/
def BetweenHonest
    (peerTimestamps : List UInt32)
    (liars : Finset (Fin nmtPeerCount)) : Prop :=
  ∃ nmt,
    computeNmt peerTimestamps = some nmt ∧
      (∃ honest ∉ liars, reportOf peerTimestamps honest ≤ nmt) ∧
      ∃ honest ∉ liars, nmt ≤ reportOf peerTimestamps honest

/-- The lower median fills the ranks up to it with liars below the others. -/
def FourLowLiars
    (peerTimestamps : List UInt32)
    (liars : Finset (Fin nmtPeerCount)) : Prop :=
  liars.card = 4 ∧
    ∀ liar ∈ liars, ∀ honest ∉ liars,
      reportOf peerTimestamps liar < reportOf peerTimestamps honest

/-- The sample consists of the reports. -/
theorem take_eq_ofFn
    {peerTimestamps : List UInt32}
    (enough : nmtPeerCount ≤ peerTimestamps.length) :
    peerTimestamps.take nmtPeerCount = List.ofFn (reportOf peerTimestamps) := by
  apply List.ext_getElem
  · rw [List.length_take, Nat.min_eq_left enough, List.length_ofFn]
  · intro position inSample _
    rw [List.length_take, Nat.min_eq_left enough] at inSample
    rw [List.getElem_take, List.getElem_ofFn, reportOf,
      List.getD_eq_getElem?_getD,
      List.getElem?_eq_getElem (inSample.trans_le enough), Option.getD_some]

/-- Only liars are below every honest report. -/
theorem belowHonest_subset
    {peerTimestamps : List UInt32}
    {liars : Finset (Fin nmtPeerCount)} :
    belowHonest UInt32.toNat (reportOf peerTimestamps) liars ⊆ liars := by
  intro position isBelow
  by_contra isHonest
  exact lt_irrefl _ ((Finset.mem_filter.mp isBelow).2 position isHonest)

/-- Of at most four liars, more than three are below only if all four are. -/
theorem belowHonest_card_le_iff
    {peerTimestamps : List UInt32}
    {liars : Finset (Fin nmtPeerCount)}
    (fewLiars : liars.card ≤ 4) :
    (belowHonest UInt32.toNat (reportOf peerTimestamps) liars).card ≤ 3 ↔
      ¬ FourLowLiars peerTimestamps liars := by
  have onlyLiars :
      belowHonest UInt32.toNat (reportOf peerTimestamps) liars ⊆ liars :=
    belowHonest_subset
  have bounded := Finset.card_le_card onlyLiars
  constructor
  · intro few ⟨four, low⟩
    have allBelow :
        liars ⊆ belowHonest UInt32.toNat (reportOf peerTimestamps) liars := by
      intro liar lies
      refine Finset.mem_filter.mpr ⟨Finset.mem_univ _, ?_⟩
      intro honest isHonest
      exact UInt32.lt_iff_toNat_lt.mp (low liar lies honest isHonest)
    have atLeastFour := Finset.card_le_card allBelow
    omega
  · intro notLow
    by_contra more
    have sameCard :
        liars.card ≤
          (belowHonest UInt32.toNat (reportOf peerTimestamps) liars).card := by
      omega
    have allBelow := Finset.eq_of_subset_of_card_le belowHonest_subset sameCard
    refine notLow ⟨by omega, ?_⟩
    intro liar lies honest isHonest
    rw [← allBelow] at lies
    exact
      UInt32.lt_iff_toNat_lt.mpr
        ((Finset.mem_filter.mp lies).2 honest isHonest)

/-- With four honest peers only the reports below all of them matter. -/
theorem betweenHonest_iff_belowHonest
    {peerTimestamps : List UInt32}
    (enough : nmtPeerCount ≤ peerTimestamps.length)
    {liars : Finset (Fin nmtPeerCount)}
    (fewLiars : liars.card ≤ 4) :
    BetweenHonest peerTimestamps liars ↔
      (belowHonest UInt32.toNat (reportOf peerTimestamps) liars).card ≤ 3 := by
  obtain ⟨nmt, isNmt, isThird⟩ := computeNmt_spec enough
  rw [take_eq_ofFn enough] at isThird
  have manyHonest : 3 < liarsᶜ.card := by
    have eight : Fintype.card (Fin nmtPeerCount) = 8 := Fintype.card_fin _
    rw [Finset.card_compl, eight]
    omega
  obtain ⟨upper, isHonest, isUpper⟩ := exists_honest_ge isThird manyHonest
  rw [← exists_honest_le_iff isThird]
  constructor
  · intro ⟨reported, isReported, ⟨lower, lowerHonest, isLower⟩, _⟩
    obtain rfl := Option.some_inj.mp (isNmt.symm.trans isReported)
    exact ⟨lower, lowerHonest, UInt32.le_iff_toNat_le.mp isLower⟩
  · intro ⟨lower, lowerHonest, isLower⟩
    exact
      ⟨nmt, isNmt,
        ⟨lower, lowerHonest, UInt32.le_iff_toNat_le.mpr isLower⟩,
        ⟨upper, isHonest, UInt32.le_iff_toNat_le.mpr isUpper⟩⟩

/-- The first four peers. -/
def firstFour : Finset (Fin nmtPeerCount) :=
  {0, 1, 2, 3}

/--
With at most four liars the network time is between the honest reports exactly
when there are not four liars that all report less than every honest peer.
-/
theorem betweenHonest_iff
    {peerTimestamps : List UInt32}
    (enough : nmtPeerCount ≤ peerTimestamps.length)
    {liars : Finset (Fin nmtPeerCount)}
    (fewLiars : liars.card ≤ 4) :
    BetweenHonest peerTimestamps liars ↔
      ¬ FourLowLiars peerTimestamps liars := by
  rw [betweenHonest_iff_belowHonest enough fewLiars,
    belowHonest_card_le_iff fewLiars]

/-- Four liars that report late times do not move the network time. -/
theorem betweenHonest_fourHighLiars :
    BetweenHonest [9999, 9999, 9999, 9999, 1000, 1000, 1000, 1000]
      firstFour :=
  (betweenHonest_iff (by decide) (by decide)).mpr fun fourLow =>
    absurd (fourLow.2 0 (by decide) 4 (by decide)) (by decide)

/-- Four liars that report early times decide the network time. -/
theorem fourLowLiars_decide_nmt :
    ¬ ∀ peerTimestamps : List UInt32,
        nmtPeerCount ≤ peerTimestamps.length →
        ∀ liars : Finset (Fin nmtPeerCount),
          liars.card ≤ 4 → BetweenHonest peerTimestamps liars := by
  intro always
  have between :=
    always [0, 0, 0, 0, 1000, 1000, 1000, 1000] (by decide) firstFour
      (by decide)
  exact
    absurd
      ((betweenHonest_iff_belowHonest (by decide) (by decide)).mp between)
      (by decide)

end ScalarCore
