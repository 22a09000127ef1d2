import Mathlib.Algebra.Ring.Nat
import Mathlib.Data.List.Basic
import Mathlib.Data.Nat.Log
import Mathlib.Tactic.Common

namespace CircuitTrace

/-!
# Traces whose rows are checked one at a time

A trace is a list of rows.  The constraints here read one row: a condition on
every row, one on the first and one on the last.  No constraint relates a row
to the next, so what a trace of a given height can show is what two single rows
can show.
-/

variable {Row : Type*}

/-- Conditions on every row, on the first and on the last. -/
structure RowConstraints (Row : Type*) where
  everyRow : Row → Prop
  firstRow : Row → Prop
  lastRow : Row → Prop

/-- A trace that meets the conditions. -/
structure Satisfies
    (constraints : RowConstraints Row)
    (trace : List Row) : Prop where
  every : ∀ row ∈ trace, constraints.everyRow row
  first : ∀ row ∈ trace.head?, constraints.firstRow row
  last : ∀ row ∈ trace.getLast?, constraints.lastRow row

/-- A row that meets all conditions may be repeated. -/
theorem satisfies_replicate
    {constraints : RowConstraints Row}
    {row : Row}
    (everyRow : constraints.everyRow row)
    (firstRow : constraints.firstRow row)
    (lastRow : constraints.lastRow row)
    (height : Nat) :
    Satisfies constraints (List.replicate height row) where
  every other listed := by
    rwa [List.eq_of_mem_replicate listed]
  first other isFirst := by
    rwa [List.eq_of_mem_replicate (List.mem_of_mem_head? isFirst)]
  last other isLast := by
    rwa [List.eq_of_mem_replicate (List.mem_of_getLast? isLast)]

/-- Copies of one row that end in another row. -/
theorem satisfies_replicate_concat
    {constraints : RowConstraints Row}
    {firstRow lastRow : Row}
    (firstEvery : constraints.everyRow firstRow)
    (isFirst : constraints.firstRow firstRow)
    (lastEvery : constraints.everyRow lastRow)
    (isLast : constraints.lastRow lastRow)
    (count : Nat) :
    Satisfies constraints
      (List.replicate (count + 1) firstRow ++ [lastRow]) where
  every row listed := by
    rcases List.mem_append.mp listed with copied | final
    · rwa [List.eq_of_mem_replicate copied]
    · rwa [List.mem_singleton.mp final]
  first row heads := by
    simp only [List.replicate_succ, List.cons_append, List.head?_cons,
      Option.mem_some_iff] at heads
    rwa [← heads]
  last row ends := by
    simp only [List.getLast?_concat, Option.mem_some_iff] at ends
    rwa [← ends]

/-- A trace of two or more rows shows one row for each end, and no more. -/
theorem exists_satisfies_iff
    {constraints : RowConstraints Row}
    {height : Nat}
    (twoRows : 2 ≤ height) :
    (∃ trace : List Row,
        trace.length = height ∧ Satisfies constraints trace) ↔
      (∃ row, constraints.everyRow row ∧ constraints.firstRow row) ∧
        ∃ row, constraints.everyRow row ∧ constraints.lastRow row := by
  constructor
  · rintro ⟨trace, hasHeight, satisfied⟩
    have nonempty : trace ≠ [] := by
      rintro rfl
      simp only [List.length_nil] at hasHeight
      omega
    constructor
    · exact ⟨trace.head nonempty,
        satisfied.every _ (List.head_mem nonempty),
        satisfied.first _ (List.head_mem_head? nonempty)⟩
    · exact ⟨trace.getLast nonempty,
        satisfied.every _ (List.getLast_mem nonempty),
        satisfied.last _ (List.getLast_mem_getLast? nonempty)⟩
  · rintro ⟨⟨first, firstEvery, isFirst⟩, last, lastEvery, isLast⟩
    refine ⟨List.replicate (height - 2 + 1) first ++ [last], ?_,
      satisfies_replicate_concat firstEvery isFirst lastEvery isLast _⟩
    simp only [List.length_append, List.length_replicate, List.length_singleton]
    omega

/-- `next_power_of_two`, the height of a trace. -/
def nextPowerOfTwo (count : Nat) : Nat :=
  2 ^ Nat.clog 2 count

theorem le_nextPowerOfTwo (count : Nat) :
    count ≤ nextPowerOfTwo count :=
  Nat.le_pow_clog (by decide) count

/-- The heights that need no padding are the powers of two. -/
theorem nextPowerOfTwo_eq_self_iff {count : Nat} :
    nextPowerOfTwo count = count ↔ ∃ exponent, count = 2 ^ exponent := by
  constructor
  · intro same
    exact ⟨Nat.clog 2 count, same.symm⟩
  · rintro ⟨exponent, rfl⟩
    exact congrArg (2 ^ ·) (Nat.clog_pow 2 exponent (by decide))

/-- A padded trace ends in a row of padding, unless its height needs none. -/
theorem getLast?_padded
    {rows : List Row}
    {last padding : Row}
    (isLast : rows.getLast? = some last) :
    (rows ++
        List.replicate (nextPowerOfTwo rows.length - rows.length)
          padding).getLast? =
      some (if nextPowerOfTwo rows.length = rows.length then
        last
      else
        padding) := by
  have enough := le_nextPowerOfTwo rows.length
  rw [List.getLast?_append, List.getLast?_replicate, isLast]
  by_cases full : nextPowerOfTwo rows.length = rows.length
  · rw [if_pos full, if_pos (Nat.sub_eq_zero_of_le full.le)]
    rfl
  · rw [if_neg full, if_neg (by omega)]
    rfl

end CircuitTrace
