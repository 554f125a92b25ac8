import Mathlib.Algebra.Order.Field.Basic
import Mathlib.Tactic.FieldSimp
import Mathlib.Tactic.Linarith
import Mathlib.Tactic.Positivity
import Mathlib.Tactic.Ring

set_option autoImplicit false

/-! # Positive definite matrices of two rows

The covariance of two quantities, entry by entry, and what the steps of a filter do to it: the first
quantity drifts with the second, independent noise is added, an observation of the first one is worked
in, entries of the diagonal are raised.

Each step is one lemma that takes a positive definite matrix to another, with the condition on its
parameters, so that a filter that takes the steps in any order keeps its covariance positive
definite. -/

/-- A symmetric matrix whose leading minors are positive. -/
structure PositiveDefinite {K : Type*} [Field K] [LinearOrder K] (p00 p01 p10 p11 : K) : Prop where
  symm : p01 = p10
  pos : 0 < p00
  det : p01 ^ 2 < p00 * p11

namespace PositiveDefinite

variable {K : Type*} [Field K] [LinearOrder K] [IsStrictOrderedRing K] {p00 p01 p10 p11 : K}

theorem pos_right (h : PositiveDefinite p00 p01 p10 p11) : 0 < p11 :=
  pos_of_mul_pos_right ((sq_nonneg p01).trans_lt h.det) h.pos.le

theorem diagonal {a d : K} (ha : 0 < a) (hd : 0 < d) : PositiveDefinite a 0 0 d where
  symm := rfl
  pos := ha
  det := by
    rw [zero_pow two_ne_zero]
    exact mul_pos ha hd

theorem form_nonneg (h : PositiveDefinite p00 p01 p10 p11) (a b : K) :
    0 ≤ a * (p00 * a + p01 * b) + b * (p10 * a + p11 * b) := by
  have hpos := h.pos
  have hdet := h.det
  have hsquare : p00 * (a * (p00 * a + p01 * b) + b * (p10 * a + p11 * b))
      = (p00 * a + p01 * b) ^ 2 + (p00 * p11 - p01 ^ 2) * b ^ 2 := by
    rw [← h.symm]
    ring
  have hnonneg : 0 ≤ (p00 * a + p01 * b) ^ 2 + (p00 * p11 - p01 ^ 2) * b ^ 2 :=
    add_nonneg (sq_nonneg _) (mul_nonneg (sub_nonneg.2 hdet.le) (sq_nonneg b))
  rw [← hsquare] at hnonneg
  exact nonneg_of_mul_nonneg_right hnonneg hpos

theorem raise (h : PositiveDefinite p00 p01 p10 p11) {a d : K} (ha : p00 ≤ a) (hd : p11 ≤ d) :
    PositiveDefinite a p01 p10 d where
  symm := h.symm
  pos := h.pos.trans_le ha
  det := h.det.trans_le (mul_le_mul ha hd h.pos_right.le (h.pos.le.trans ha))

/-- The first quantity moves by `t` times the second. -/
theorem drift (h : PositiveDefinite p00 p01 p10 p11) (t : K) :
    PositiveDefinite (p00 + t * p10 + t * (p01 + t * p11)) (p01 + t * p11) (p10 + t * p11) p11 where
  symm := by rw [h.symm]
  pos := by
    have hd := h.pos_right
    have hsquare : p11 * (p00 + t * p10 + t * (p01 + t * p11))
        = (p01 + t * p11) ^ 2 + (p00 * p11 - p01 ^ 2) := by
      rw [← h.symm]
      ring
    have hpos : 0 < (p01 + t * p11) ^ 2 + (p00 * p11 - p01 ^ 2) :=
      add_pos_of_nonneg_of_pos (sq_nonneg _) (sub_pos.2 h.det)
    rw [← hsquare] at hpos
    exact pos_of_mul_pos_right hpos hd.le
  det := by
    have hdet := h.det
    rw [← h.symm]
    nlinarith [hdet]

theorem add_noise (h : PositiveDefinite p00 p01 p10 p11) {a d : K} (ha : 0 ≤ a) (hd : 0 ≤ d) :
    PositiveDefinite (p00 + a) p01 p10 (p11 + d) :=
  h.raise (le_add_of_nonneg_right ha) (le_add_of_nonneg_right hd)

/-- What is left of the covariance after an observation of the first quantity with variance `r`. -/
theorem observed (h : PositiveDefinite p00 p01 p10 p11) {r : K} (hr : 0 < r) :
    PositiveDefinite (r * p00 / (p00 + r)) (r * p01 / (p00 + r)) (r * p10 / (p00 + r))
      (p11 - p01 ^ 2 / (p00 + r)) := by
  have hs : 0 < p00 + r := add_pos h.pos hr
  refine ⟨by rw [h.symm], div_pos (mul_pos hr h.pos) hs, ?_⟩
  have hgap : r * p00 / (p00 + r) * (p11 - p01 ^ 2 / (p00 + r)) - (r * p01 / (p00 + r)) ^ 2
      = r / (p00 + r) * (p00 * p11 - p01 ^ 2) := by
    field_simp
    ring
  have hpos : 0 < r / (p00 + r) * (p00 * p11 - p01 ^ 2) :=
    mul_pos (div_pos hr hs) (sub_pos.2 h.det)
  rw [← hgap] at hpos
  exact sub_pos.1 hpos

end PositiveDefinite
