import Mathlib.Algebra.Order.Floor.Ring
import Mathlib.Data.Int.ConditionallyCompleteOrder
import Mathlib.Data.Int.Interval
import Mathlib.Data.Set.Card
import Mathlib.Tactic.FieldSimp
import Mathlib.Tactic.Linarith

set_option autoImplicit false

/-! # Rounding to a grid

The multiples of an increment form a grid, and rounding sends a number to its nearest grid point,
midpoints up. How far apart two numbers end up is decided by the midpoints between them: rounding
moves them as many increments apart as there are midpoints from the smaller to the larger one
(`ticks_eq`).

For numbers less than an increment apart there is one midpoint at most, and it alone decides whether
they become equal or move a whole increment apart. -/

namespace Grid

variable {K : Type*} [Field K] [LinearOrder K]

/-- The midpoints of the grid between two numbers, by the grid point below them. -/
def midpoints (inc a b : K) : Set ℤ :=
  {k | min a b < (k + 1 / 2) * inc ∧ (k + 1 / 2) * inc ≤ max a b}

/-- How many midpoints lie between two numbers. -/
noncomputable def ticks (inc a b : K) : ℕ := (midpoints inc a b).ncard

theorem ticks_comm (inc a b : K) : ticks inc a b = ticks inc b a := by
  rw [ticks, ticks, midpoints, midpoints, min_comm, max_comm]

variable [FloorRing K]

/-- The nearest grid point, counted in increments. -/
def index (inc x : K) : ℤ := ⌊x / inc + 1 / 2⌋

variable [IsStrictOrderedRing K] {inc : K}

theorem index_mono (hinc : 0 < inc) {a b : K} (h : a ≤ b) : index inc a ≤ index inc b := by
  refine Int.floor_le_floor ?_
  have hdiv : a / inc ≤ b / inc := (div_le_div_iff_of_pos_right hinc).2 h
  linarith

/-- A midpoint is at most `x` if the grid point of `x` lies above it. -/
theorem midpoint_le_iff (hinc : 0 < inc) {k : ℤ} {x : K} :
    (k + 1 / 2) * inc ≤ x ↔ k < index inc x := by
  rw [index, ← Int.add_one_le_iff, Int.le_floor, ← le_div_iff₀ hinc]
  push_cast
  constructor <;> intro h <;> linarith

theorem midpoints_eq_Ico (hinc : 0 < inc) {a b : K} (h : a ≤ b) :
    midpoints inc a b = Set.Ico (index inc a) (index inc b) := by
  ext k
  rw [midpoints, Set.mem_ofPred_eq, min_eq_left h, max_eq_right h, midpoint_le_iff hinc, ← not_le,
    midpoint_le_iff hinc, not_lt]
  rfl

/-- Two numbers are rounded as many increments apart as midpoints lie between them. -/
theorem ticks_eq_of_le (hinc : 0 < inc) {a b : K} (h : a ≤ b) :
    (ticks inc a b : ℤ) = index inc b - index inc a := by
  have hle := index_mono hinc h
  rw [ticks, midpoints_eq_Ico hinc h, ← Finset.coe_Ico, Set.ncard_coe_finset, Int.card_Ico]
  omega

theorem ticks_eq (hinc : 0 < inc) (a b : K) :
    (ticks inc a b : ℤ) = |index inc a - index inc b| := by
  rcases le_total a b with h | h
  · rw [ticks_eq_of_le hinc h, abs_sub_comm, abs_of_nonneg]
    linarith [index_mono hinc h]
  · rw [ticks_comm, ticks_eq_of_le hinc h, abs_of_nonneg]
    linarith [index_mono hinc h]

theorem index_zero (inc : K) : index inc 0 = 0 := by
  rw [index, zero_div, zero_add, Int.floor_eq_zero_iff]
  constructor <;> norm_num

end Grid
