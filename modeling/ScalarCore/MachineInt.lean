import Mathlib.Data.UInt
import Mathlib.Tactic.Common

namespace MachineInt

/-!
# Fixed-width machine arithmetic

The saturating, checked and truncating operations of a machine word,
each specified by what it does to the natural number the word denotes.  A word
of 128 bits is represented by its natural number and clamped where an operation
saturates.
-/

/-- The largest value of a 64-bit word. -/
def maxU64 : Nat :=
  2 ^ 64 - 1

/-- The largest value of a 128-bit word. -/
def maxU128 : Nat :=
  2 ^ 128 - 1

/-- Addition clamped at the largest word. -/
def saturatingAdd (left right : UInt64) : UInt64 :=
  UInt64.ofNat (min (left.toNat + right.toNat) maxU64)

/-- Subtraction clamped at zero. -/
def saturatingSub (left right : UInt64) : UInt64 :=
  UInt64.ofNat (left.toNat - right.toNat)

/-- Multiplication clamped at the largest word. -/
def saturatingMul (left right : UInt64) : UInt64 :=
  UInt64.ofNat (min (left.toNat * right.toNat) maxU64)

/-- The largest value of a 32-bit word. -/
def maxU32 : Nat :=
  2 ^ 32 - 1

/-- Addition of 32-bit words clamped at the largest word. -/
def saturatingAddU32 (left right : UInt32) : UInt32 :=
  UInt32.ofNat (min (left.toNat + right.toNat) maxU32)

/-- Subtraction of 32-bit words clamped at zero. -/
def saturatingSubU32 (left right : UInt32) : UInt32 :=
  UInt32.ofNat (left.toNat - right.toNat)

/-- Addition that reports overflow. -/
def checkedAdd (left right : UInt64) : Option UInt64 :=
  if left.toNat + right.toNat ≤ maxU64 then
    some (left + right)
  else
    none

/-- The truncated sum, and whether the exact one does not fit. -/
def overflowingAdd (left right : UInt64) : UInt64 × Bool :=
  (left + right, decide (maxU64 < left.toNat + right.toNat))

/-- Addition of 32-bit words that reports overflow. -/
def checkedAddU32 (left right : UInt32) : Option UInt32 :=
  if left.toNat + right.toNat ≤ maxU32 then
    some (left + right)
  else
    none

/-- Division that reports a zero divisor. -/
def checkedDiv (left right : UInt64) : Option UInt64 :=
  if right = 0 then none else some (left / right)

/-- Multiplication that reports overflow. -/
def checkedMul (left right : UInt64) : Option UInt64 :=
  if left.toNat * right.toNat ≤ maxU64 then
    some (left * right)
  else
    none

/-- Subtraction that reports underflow. -/
def checkedSub (left right : UInt64) : Option UInt64 :=
  if right.toNat ≤ left.toNat then
    some (left - right)
  else
    none

/-- Multiplication of 128-bit words that reports overflow. -/
def checkedMul128 (left right : Nat) : Option Nat :=
  if left * right ≤ maxU128 then
    some (left * right)
  else
    none

/-- Multiplication of 128-bit words clamped at the largest word. -/
def saturatingMul128 (left right : Nat) : Nat :=
  min (left * right) maxU128

/-- Division of 128-bit words that reports a zero divisor. -/
def checkedDiv128 (left right : Nat) : Option Nat :=
  if right = 0 then
    none
  else
    some (left / right)

/-- Division rounded up. -/
def divCeil (left right : UInt64) : UInt64 :=
  if left % right > 0 then
    left / right + 1
  else
    left / right

/-- A word is at most the largest one. -/
theorem toNat_le_maxU64 (value : UInt64) : value.toNat ≤ maxU64 :=
  Nat.le_sub_one_of_lt value.toNat_lt

@[simp] theorem toNat_saturatingAdd
    (left right : UInt64) :
    (saturatingAdd left right).toNat =
      min (left.toNat + right.toNat) maxU64 := by
  have inRange :
      min (left.toNat + right.toNat) maxU64 < 2 ^ 64 := by
    unfold maxU64
    omega
  rw [saturatingAdd, UInt64.toNat_ofNat', Nat.mod_eq_of_lt inRange]

@[simp] theorem toNat_saturatingSub
    (left right : UInt64) :
    (saturatingSub left right).toNat =
      left.toNat - right.toNat := by
  have inRange : left.toNat - right.toNat < 2 ^ 64 := by
    have := left.toNat_lt
    omega
  rw [saturatingSub, UInt64.toNat_ofNat', Nat.mod_eq_of_lt inRange]

@[simp] theorem toNat_saturatingMul
    (left right : UInt64) :
    (saturatingMul left right).toNat =
      min (left.toNat * right.toNat) maxU64 := by
  have inRange :
      min (left.toNat * right.toNat) maxU64 < 2 ^ 64 := by
    unfold maxU64
    omega
  rw [saturatingMul, UInt64.toNat_ofNat', Nat.mod_eq_of_lt inRange]

@[simp] theorem toNat_saturatingAddU32
    (left right : UInt32) :
    (saturatingAddU32 left right).toNat =
      min (left.toNat + right.toNat) maxU32 := by
  have inRange :
      min (left.toNat + right.toNat) maxU32 < 2 ^ 32 := by
    unfold maxU32
    omega
  rw [saturatingAddU32, UInt32.toNat_ofNat', Nat.mod_eq_of_lt inRange]

@[simp] theorem toNat_saturatingSubU32
    (left right : UInt32) :
    (saturatingSubU32 left right).toNat =
      left.toNat - right.toNat := by
  have inRange : left.toNat - right.toNat < 2 ^ 32 := by
    have := left.toNat_lt
    omega
  rw [saturatingSubU32, UInt32.toNat_ofNat', Nat.mod_eq_of_lt inRange]

/-- The order of three clamped terms does not matter. -/
theorem saturatingAdd_right_comm (total left right : UInt64) :
    saturatingAdd (saturatingAdd total left) right =
      saturatingAdd (saturatingAdd total right) left := by
  rw [← UInt64.toNat_inj]
  simp only [toNat_saturatingAdd]
  omega

/-- A running saturating sum is the exact sum, clamped once. -/
theorem toNat_foldl_saturatingAdd
    {Item : Type*}
    (value : Item → UInt64)
    (items : List Item)
    (start : UInt64) :
    (items.foldl (fun total item => saturatingAdd total (value item)) start).toNat =
      min (start.toNat + (items.map fun item => (value item).toNat).sum)
        maxU64 := by
  induction items generalizing start with
  | nil =>
      have bound := start.toNat_lt
      rw [List.foldl_nil, List.map_nil, List.sum_nil]
      unfold maxU64
      omega
  | cons item rest inductionHypothesis =>
      rw [List.foldl_cons, inductionHypothesis, toNat_saturatingAdd, List.map_cons,
        List.sum_cons]
      omega

/-- A checked sum is present exactly when the exact sum fits the word. -/
theorem checkedAdd_eq_some_iff
    {left right total : UInt64} :
    checkedAdd left right = some total ↔
      total.toNat = left.toNat + right.toNat := by
  unfold checkedAdd maxU64
  have totalBound := total.toNat_lt
  constructor
  · intro accepted
    split at accepted
    · next fits =>
        cases accepted
        rw [UInt64.toNat_add]
        omega
    · cases accepted
  · intro exact
    rw [if_pos (by omega)]
    congr 1
    rw [← UInt64.toNat_inj, UInt64.toNat_add]
    omega

/-- A checked sum of 32-bit words is present when the exact sum fits. -/
theorem isSome_checkedAddU32
    {left right : UInt32} :
    (checkedAddU32 left right).isSome = true ↔
      left.toNat + right.toNat ≤ maxU32 := by
  unfold checkedAddU32
  split
  · rename_i fits
    exact ⟨fun _ => fits, fun _ => rfl⟩
  · rename_i overflows
    exact ⟨nofun, fun fits => absurd fits overflows⟩

/-- A checked product is the exact product. -/
theorem checkedMul_eq_some_iff
    {left right product : UInt64} :
    checkedMul left right = some product ↔
      product.toNat = left.toNat * right.toNat := by
  have productBound := product.toNat_lt
  unfold checkedMul maxU64
  split
  · rename_i fits
    have exact :
        (left * right).toNat = left.toNat * right.toNat := by
      rw [UInt64.toNat_mul, Nat.mod_eq_of_lt (by omega)]
    rw [Option.some_inj, ← UInt64.toNat_inj, exact, eq_comm]
  · constructor
    · nofun
    · omega

/-- A product that fits is present. -/
theorem exists_checkedMul
    {left right : UInt64}
    (fits : left.toNat * right.toNat ≤ maxU64) :
    ∃ product,
      checkedMul left right = some product ∧
        product.toNat = left.toNat * right.toNat :=
  ⟨_, if_pos fits, checkedMul_eq_some_iff.mp (if_pos fits)⟩

/-- A checked difference is the exact difference. -/
theorem checkedSub_eq_some_iff
    {left right difference : UInt64} :
    checkedSub left right = some difference ↔
      difference.toNat + right.toNat = left.toNat := by
  unfold checkedSub
  by_cases covers : right.toNat ≤ left.toNat
  · have exact :=
      UInt64.toNat_sub_of_le left right (UInt64.le_iff_toNat_le.mpr covers)
    rw [if_pos covers, Option.some_inj, ← UInt64.toNat_inj, exact]
    omega
  · rw [if_neg covers]
    constructor
    · nofun
    · omega

/-- A checked sum is missing exactly when the exact sum does not fit. -/
theorem checkedAdd_eq_none_iff
    {left right : UInt64} :
    checkedAdd left right = none ↔
      maxU64 < left.toNat + right.toNat := by
  unfold checkedAdd
  by_cases fits : left.toNat + right.toNat ≤ maxU64
  · simp [if_pos fits, Nat.not_lt.mpr fits]
  · simp [if_neg fits, Nat.lt_of_not_le fits]

/-- The word built from an in-range number denotes that number. -/
theorem toNat_ofNat_of_le
    {value : Nat}
    (fits : value ≤ maxU64) :
    (UInt64.ofNat value).toNat = value := by
  unfold maxU64 at fits
  rw [UInt64.toNat_ofNat', Nat.mod_eq_of_lt (by omega)]

/-- A counter below the largest word does not wrap. -/
theorem toNat_add_one
    {counter : UInt64}
    (below : counter.toNat < maxU64) :
    (counter + 1).toNat = counter.toNat + 1 := by
  unfold maxU64 at below
  rw [UInt64.toNat_add, UInt64.toNat_one, Nat.mod_eq_of_lt (by omega)]

/-- A checked fold that adds a measure of each item gives the exact total. -/
theorem foldlM_eq_some_iff
    {Item : Type*}
    {step : UInt64 → Item → Option UInt64}
    {measure : Item → Nat}
    {items : List Item}
    (exact :
      ∀ item ∈ items, ∀ start next,
        step start item = some next ↔ next.toNat = start.toNat + measure item)
    {start total : UInt64} :
    items.foldlM step start = some total ↔
      total.toNat = start.toNat + (items.map measure).sum := by
  induction items generalizing start with
  | nil =>
      rw [List.foldlM_nil, Option.pure_def, Option.some_inj, List.map_nil,
        List.sum_nil, add_zero, UInt64.toNat_inj, eq_comm]
  | cons item rest inductionHypothesis =>
      have exactFirst := exact item List.mem_cons_self start
      have exactRest {start : UInt64} :
          rest.foldlM step start = some total ↔
            total.toNat = start.toNat + (rest.map measure).sum :=
        inductionHypothesis fun other listed => exact other (List.mem_cons_of_mem item listed)
      rw [List.foldlM_cons, Option.bind_eq_bind, Option.bind_eq_some_iff,
        List.map_cons, List.sum_cons]
      constructor
      · rintro ⟨next, added, restTotal⟩
        rw [exactFirst] at added
        rw [exactRest] at restTotal
        omega
      · intro isTotal
        have totalBound := total.toNat_lt
        have next :
            (UInt64.ofNat (start.toNat + measure item)).toNat =
              start.toNat + measure item :=
          toNat_ofNat_of_le (by unfold maxU64; omega)
        refine ⟨_, (exactFirst _).mpr next, ?_⟩
        rw [exactRest]
        omega

/-- A running checked sum is present exactly when the exact sum fits. -/
theorem foldlM_checkedAdd_eq_some_iff
    {words : List UInt64}
    {start total : UInt64} :
    words.foldlM checkedAdd start = some total ↔
      total.toNat = start.toNat + (words.map UInt64.toNat).sum := by
  refine foldlM_eq_some_iff ?_
  intro word _ start next
  exact checkedAdd_eq_some_iff

/-- A product below the 128-bit bound is not clamped. -/
theorem saturatingMul128_eq
    {left right : Nat}
    (fits : left * right ≤ maxU128) :
    saturatingMul128 left right = left * right :=
  Nat.min_eq_left fits

/-- A division by a positive number is not refused. -/
theorem checkedDiv128_eq
    {left right : Nat}
    (positive : 0 < right) :
    checkedDiv128 left right = some (left / right) :=
  if_neg positive.ne'

/-- A sum of words that fits the word is not truncated. -/
theorem toNat_sum
    {words : List UInt64}
    (fits : (words.map UInt64.toNat).sum ≤ maxU64) :
    words.sum.toNat = (words.map UInt64.toNat).sum := by
  unfold maxU64 at fits
  induction words with
  | nil =>
      rfl
  | cons word rest inductionHypothesis =>
      simp only [List.map_cons, List.sum_cons] at fits ⊢
      rw [UInt64.toNat_add, inductionHypothesis (by omega)]
      exact Nat.mod_eq_of_lt (by omega)

/-- The minimum of two words denotes the minimum of their numbers. -/
theorem toNat_min
    (left right : UInt64) :
    (min left right).toNat = min left.toNat right.toNat := by
  rw [show min left right = if left ≤ right then left else right from rfl]
  split <;> rename_i order
  · exact (Nat.min_eq_left (UInt64.le_iff_toNat_le.mp order)).symm
  · have := UInt64.le_iff_toNat_le.not.mp order
    omega

/-- The maximum of two words denotes the maximum of their numbers. -/
theorem toNat_max
    (left right : UInt64) :
    (max left right).toNat = max left.toNat right.toNat := by
  rw [show max left right = if left ≤ right then right else left from rfl]
  split <;> rename_i order
  · exact (Nat.max_eq_right (UInt64.le_iff_toNat_le.mp order)).symm
  · have := UInt64.le_iff_toNat_le.not.mp order
    omega

end MachineInt
