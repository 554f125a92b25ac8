import Mathlib.Algebra.Order.Floor.Ring
import Mathlib.Data.Int.ConditionallyCompleteOrder
import Mathlib.Data.Int.Interval
import Mathlib.Data.Set.Card
import Mathlib.Tactic.FieldSimp
import Mathlib.Tactic.Linarith
import TradeBot.Utils.Numeric

set_option autoImplicit false

/-! # Rounding boundaries

Prices are rounded to the nearest tick, and from the middle between two ticks away from zero. Two prices
are rounded to as many ticks apart as there are such middles between them.

The middle between two ticks goes to the larger one for prices above zero and to the smaller one
below. That is the reason for two kinds of boundaries, and for a lemma about a price that is rounded
twice: the second rounding starts from a tick and not from a number. -/

namespace TradeBot

/-- The price is rounded beyond the tick `k`: it is past the middle between `k` and the next tick, or on
    it where that is further from zero. -/
def PastMiddle (inc : ℚ) (k : ℤ) (x : ℚ) : Prop :=
  if 0 ≤ k then (k + 1 / 2) * inc ≤ x else (k + 1 / 2) * inc < x

/-- The middles between one price and a higher one, each by the tick below it. -/
def boundaries (inc a b : ℚ) : Set ℤ := {k | ¬ PastMiddle inc k a ∧ PastMiddle inc k b}

/-- How many middles lie between a price and a higher one. -/
noncomputable def boundaryCount (inc a b : ℚ) : ℕ := (boundaries inc a b).ncard

variable {inc a b x y : ℚ} {k : ℤ}

/-! ## `std::round` -/

theorem stdRound_mono (h : x ≤ y) : stdRound x ≤ stdRound y := by
  unfold stdRound
  split_ifs with hx hy hy
  · exact Int.floor_le_floor (by linarith)
  · exact absurd (hx.trans h) hy
  · have hceil : ⌈x - 1 / 2⌉ ≤ 0 := Int.ceil_le.2 (by push_cast; linarith)
    exact hceil.trans (Int.floor_nonneg.2 (by linarith))
  · exact Int.ceil_le_ceil (by linarith)

theorem stdRound_neg (x : ℚ) : stdRound (-x) = -stdRound x := by
  rcases lt_trichotomy x 0 with hneg | rfl | hpos
  · rw [stdRound, stdRound, if_pos (by linarith), if_neg (by linarith), ← Int.floor_neg]
    congr 1
    ring
  · decide +kernel
  · rw [stdRound, stdRound, if_neg (by linarith), if_pos hpos.le, ← Int.ceil_neg]
    congr 1
    ring

/-- A number is rounded to a larger integer than `k` if it has reached the middle behind `k`. -/
theorem lt_stdRound_iff :
    k < stdRound x ↔ if 0 ≤ k then (k + 1 / 2 : ℚ) ≤ x else (k + 1 / 2 : ℚ) < x := by
  by_cases hk : 0 ≤ k
  · have hk' : (0 : ℚ) ≤ k := Int.cast_nonneg hk
    rw [if_pos hk]
    by_cases hx : 0 ≤ x
    · rw [stdRound, if_pos hx, ← Int.add_one_le_iff, Int.le_floor]
      push_cast
      constructor <;> intro h <;> linarith
    · have hceil : ⌈x - 1 / 2⌉ ≤ 0 := Int.ceil_le.2 (by push_cast; linarith)
      rw [stdRound, if_neg hx]
      exact iff_of_false (by omega) (by linarith)
  · have hk' : (k : ℚ) + 1 ≤ 0 := by exact_mod_cast (by omega : k + 1 ≤ 0)
    rw [if_neg hk]
    by_cases hx : 0 ≤ x
    · have hfloor : 0 ≤ ⌊x + 1 / 2⌋ := Int.floor_nonneg.2 (by linarith)
      rw [stdRound, if_pos hx]
      exact iff_of_true (by omega) (by linarith)
    · rw [stdRound, if_neg hx, Int.lt_ceil]
      constructor <;> intro h <;> linarith

/-! ## Prices -/

theorem pastMiddle_iff (hinc : 0 < inc) : PastMiddle inc k x ↔ k < stdRound (x / inc) := by
  rw [lt_stdRound_iff, PastMiddle, le_div_iff₀ hinc, lt_div_iff₀ hinc]

theorem boundaries_eq_Ico (hinc : 0 < inc) :
    boundaries inc a b = Set.Ico (stdRound (a / inc)) (stdRound (b / inc)) := by
  ext k
  rw [boundaries, Set.mem_ofPred_eq, pastMiddle_iff hinc, pastMiddle_iff hinc, not_lt]
  rfl

theorem boundaryCount_eq (hinc : 0 < inc) :
    boundaryCount inc a b = (stdRound (b / inc) - stdRound (a / inc)).toNat := by
  rw [boundaryCount, boundaries_eq_Ico hinc, ← Finset.coe_Ico, Set.ncard_coe_finset, Int.card_Ico]

theorem boundaryCount_of_le (hinc : 0 < inc) (h : a ≤ b) :
    (boundaryCount inc a b : ℚ) = stdRound (b / inc) - stdRound (a / inc) := by
  have hle := stdRound_mono ((div_le_div_iff_of_pos_right hinc).2 h)
  rw [boundaryCount_eq hinc, ← Int.cast_natCast, Int.toNat_of_nonneg (by omega), Int.cast_sub]

/-- A price is rounded to a tick that is not below zero from beyond minus half a tick on. -/
theorem stdRound_nonneg_iff (hinc : 0 < inc) : 0 ≤ stdRound (x / inc) ↔ -(inc / 2) < x := by
  have hmiddle := pastMiddle_iff hinc (k := -1) (x := x)
  rw [PastMiddle, if_neg (by decide), ← Int.add_one_le_iff] at hmiddle
  rw [show (0 : ℤ) = -1 + 1 from rfl, ← hmiddle]
  push_cast
  constructor <;> intro h <;> linarith

theorem roundToTick_eq (hinc : 0 < inc) (x : ℚ) : roundToTick x inc = stdRound (x / inc) * inc :=
  if_neg (not_le.2 hinc)

/-- Two prices are rounded in their order, and apart, if there is a boundary between them. -/
theorem roundToTick_lt_iff (hinc : 0 < inc) :
    roundToTick a inc < roundToTick b inc ↔ 0 < boundaryCount inc a b := by
  rw [roundToTick_eq hinc, roundToTick_eq hinc, mul_lt_mul_iff_left₀ hinc, Int.cast_lt,
    boundaryCount_eq hinc]
  omega

theorem roundToTick_mono (hinc : 0 < inc) (h : a ≤ b) : roundToTick a inc ≤ roundToTick b inc := by
  have hround := stdRound_mono ((div_le_div_iff_of_pos_right hinc).2 h)
  rw [roundToTick_eq hinc, roundToTick_eq hinc]
  exact mul_le_mul_of_nonneg_right (Int.cast_le.2 hround) hinc.le

/-- Prices that are rounded apart are rounded in their order. -/
theorem boundaryCount_pos_iff_lt (hinc : 0 < inc) (hne : roundToTick a inc ≠ roundToTick b inc) :
    0 < boundaryCount inc a b ↔ a < b := by
  rw [← roundToTick_lt_iff hinc]
  constructor
  · exact fun hround => not_le.1 (fun hle => hround.not_ge (roundToTick_mono hinc hle))
  · exact fun h => lt_of_le_of_ne (roundToTick_mono hinc h.le) hne

theorem roundToTick_neg (hinc : 0 < inc) (x : ℚ) : roundToTick (-x) inc = -roundToTick x inc := by
  rw [roundToTick_eq hinc, roundToTick_eq hinc, neg_div, stdRound_neg]
  push_cast
  ring

/-- `t` ticks above a tick are rounded to a higher one from a half on, below zero from more than a half
    on. -/
theorem lt_roundToTick_add_iff (hinc : 0 < inc) (n : ℤ) (t : ℚ) :
    n * inc < roundToTick (n * inc + t * inc) inc ↔ if 0 ≤ n then 1 / 2 ≤ t else 1 / 2 < t := by
  have hdiv : (n * inc + t * inc) / inc = n + t := by
    field_simp
  rw [roundToTick_eq hinc, hdiv, mul_lt_mul_iff_left₀ hinc, Int.cast_lt, lt_stdRound_iff]
  by_cases hn : 0 ≤ n
  · rw [if_pos hn, if_pos hn, add_le_add_iff_left]
  · rw [if_neg hn, if_neg hn, add_lt_add_iff_left]

/-! ## Rounding again -/

theorem stdRound_intCast (n : ℤ) : stdRound (n : ℚ) = n := by
  by_cases hn : (0 : ℚ) ≤ n
  · rw [stdRound, if_pos hn, Int.floor_eq_iff]
    constructor <;> linarith
  · rw [stdRound, if_neg hn, Int.ceil_eq_iff]
    constructor <;> linarith

theorem roundToTick_roundToTick (x inc : ℚ) :
    roundToTick (roundToTick x inc) inc = roundToTick x inc := by
  by_cases hinc : inc ≤ 0
  · rw [roundToTick, if_pos hinc]
  · have hpos := not_le.1 hinc
    rw [roundToTick_eq hpos, roundToTick_eq hpos, mul_div_assoc, div_self hpos.ne', mul_one,
      stdRound_intCast]

theorem roundToTick_le_roundToTick {a b : ℚ} (inc : ℚ) (h : a ≤ b) :
    roundToTick a inc ≤ roundToTick b inc := by
  by_cases hinc : inc ≤ 0
  · rwa [roundToTick, roundToTick, if_pos hinc, if_pos hinc]
  · exact roundToTick_mono (not_le.1 hinc) h

/-- A rounded price that is moved up and rounded again has not gone down. -/
theorem roundToTick_le_roundToTick_add {x t : ℚ} (inc : ℚ) (ht : 0 ≤ t) :
    roundToTick x inc ≤ roundToTick (roundToTick x inc + t) inc := by
  have hmono := roundToTick_le_roundToTick inc (le_add_of_nonneg_right ht : roundToTick x inc ≤ _)
  rwa [roundToTick_roundToTick] at hmono

theorem roundToTick_sub_le_roundToTick {x t : ℚ} (inc : ℚ) (ht : 0 ≤ t) :
    roundToTick (roundToTick x inc - t) inc ≤ roundToTick x inc := by
  have hmono := roundToTick_le_roundToTick inc (sub_le_self (roundToTick x inc) ht)
  rwa [roundToTick_roundToTick] at hmono

end TradeBot
