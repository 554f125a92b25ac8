import Mathlib.Analysis.Real.Sqrt

set_option autoImplicit false

/-! # Square roots

An ordered field with a square root for every number that is not negative. Programs that divide by a
root are stated over such a field; the real numbers are one.

Nothing is said of the root of a negative number, and of the others the two laws determine it
(`sqrt_mul_self`). -/

/-- A function that is the square root on all numbers that are not negative. Nothing is said of the
    others. -/
structure SquareRoot (K : Type*) [Field K] [LinearOrder K] where
  sqrt : K → K
  nonneg : ∀ x, 0 ≤ x → 0 ≤ sqrt x
  mul_self : ∀ x, 0 ≤ x → sqrt x * sqrt x = x

namespace SquareRoot

/-- The square root of the real numbers. -/
noncomputable def real : SquareRoot ℝ where
  sqrt := Real.sqrt
  nonneg x _ := Real.sqrt_nonneg x
  mul_self _ h := Real.mul_self_sqrt h

variable {K : Type*} [Field K] [LinearOrder K] (R : SquareRoot K) {x c : K}

theorem pos (h : 0 < x) : 0 < R.sqrt x := by
  refine lt_of_le_of_ne (R.nonneg x h.le) fun hzero => ?_
  have hsq := R.mul_self x h.le
  rw [← hzero, mul_zero] at hsq
  exact h.ne hsq

variable [IsStrictOrderedRing K]

theorem sqrt_mul_self (h : 0 ≤ x) : R.sqrt (x * x) = x :=
  (mul_self_inj (R.nonneg _ (mul_self_nonneg x)) h).1 (R.mul_self _ (mul_self_nonneg x))

theorem abs_le_sqrt (h : c ^ 2 ≤ x) : |c| ≤ R.sqrt x := by
  have hx : 0 ≤ x := (sq_nonneg c).trans h
  refine abs_le_of_sq_le_sq ?_ (R.nonneg x hx)
  calc c ^ 2 ≤ x := h
    _ = R.sqrt x ^ 2 := by rw [pow_two, R.mul_self x hx]

/-- A number divided by a root of at least its square. -/
theorem div_sqrt_mem (hx : 0 < x) (h : c ^ 2 ≤ x) : -1 ≤ c / R.sqrt x ∧ c / R.sqrt x ≤ 1 := by
  have hroot := R.pos hx
  have habs := abs_le.1 (R.abs_le_sqrt h)
  rw [le_div_iff₀ hroot, div_le_iff₀ hroot, neg_one_mul, one_mul]
  exact habs

end SquareRoot
