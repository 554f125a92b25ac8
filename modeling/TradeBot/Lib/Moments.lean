import Mathlib.Algebra.BigOperators.Fin
import Mathlib.Algebra.BigOperators.Ring.List
import Mathlib.Algebra.Order.BigOperators.Group.List
import Mathlib.Algebra.Order.BigOperators.Ring.Finset
import Mathlib.Algebra.Order.Field.Basic
import Mathlib.Data.List.Induction
import Mathlib.Tactic.FieldSimp
import Mathlib.Tactic.Linarith
import Mathlib.Tactic.Positivity
import Mathlib.Tactic.Ring

set_option autoImplicit false

/-! # Moments of lists

Mean, sum of squared deviations and co-moment of the numbers of a list, how they change when one more is
appended, and the Cauchy-Schwarz inequality between them.

A list of pairs has two columns, and the squares of one list are the co-moment of two equal columns
(`squares_eq_coMoment`). The formulas for one more entry are those of Welford, which an accumulator
applies without the list. -/

namespace Moments

section Field

variable {K : Type*} [Field K]

/-- The mean of a list; that of an empty list is zero. -/
def mean (xs : List K) : K := xs.sum / xs.length

/-- The sum of squared deviations from the mean. -/
def squares (xs : List K) : K := (xs.map fun x => (x - mean xs) ^ 2).sum

/-- The sum of the products of the deviations from the two means. -/
def coMoment (ps : List (K × K)) : K :=
  (ps.map fun p => (p.1 - mean (ps.map Prod.fst)) * (p.2 - mean (ps.map Prod.snd))).sum

variable {xs ys : List K} {ps qs : List (K × K)}

theorem mean_nil : mean ([] : List K) = 0 := by simp [mean]

theorem squares_eq_coMoment (xs : List K) : squares xs = coMoment (xs.map fun x => (x, x)) := by
  simp [squares, coMoment, Function.comp_def, pow_two]

theorem mean_perm (h : xs.Perm ys) : mean xs = mean ys := by
  rw [mean, mean, h.sum_eq, h.length_eq]

theorem coMoment_perm (h : ps.Perm qs) : coMoment ps = coMoment qs := by
  unfold coMoment
  rw [mean_perm (h.map Prod.fst), mean_perm (h.map Prod.snd), (h.map _).sum_eq]

theorem squares_perm (h : xs.Perm ys) : squares xs = squares ys := by
  rw [squares_eq_coMoment, squares_eq_coMoment, coMoment_perm (h.map _)]

theorem sum_map_mul_sub (a b : K) (ps : List (K × K)) :
    (ps.map fun p => (p.1 - a) * (p.2 - b)).sum = (ps.map fun p => p.1 * p.2).sum
      - b * (ps.map Prod.fst).sum - a * (ps.map Prod.snd).sum + ps.length * (a * b) := by
  induction ps with
  | nil => simp
  | cons p ps ih =>
      simp only [List.map_cons, List.sum_cons, ih, List.length_cons, Nat.cast_add, Nat.cast_one]
      ring

variable [CharZero K]

theorem length_mul_mean (xs : List K) : xs.length * mean xs = xs.sum := by
  cases xs with
  | nil => simp
  | cons x xs =>
      have hlength : ((x :: xs).length : K) ≠ 0 := Nat.cast_ne_zero.2 (Nat.succ_ne_zero _)
      rw [mean, mul_div_cancel₀ _ hlength]

theorem mean_concat (xs : List K) (x : K) :
    mean (xs ++ [x]) = mean xs + (x - mean xs) / (xs.length + 1 : ℕ) := by
  have hlength : ((xs.length + 1 : ℕ) : K) ≠ 0 := Nat.cast_ne_zero.2 (Nat.succ_ne_zero _)
  have hsum := length_mul_mean xs
  rw [mean, List.sum_append, List.sum_singleton, List.length_append, List.length_singleton,
    eq_comm, ← hsum, eq_div_iff hlength, add_mul, div_mul_cancel₀ _ hlength]
  push_cast
  ring

theorem coMoment_eq (ps : List (K × K)) :
    coMoment ps = (ps.map fun p => p.1 * p.2).sum
      - ps.length * (mean (ps.map Prod.fst) * mean (ps.map Prod.snd)) := by
  have hfst := length_mul_mean (ps.map Prod.fst)
  have hsnd := length_mul_mean (ps.map Prod.snd)
  rw [List.length_map] at hfst hsnd
  rw [coMoment, sum_map_mul_sub, ← hfst, ← hsnd]
  ring

/-- One deviation is taken from the new mean, the other one from the old. -/
theorem coMoment_concat (ps : List (K × K)) (p : K × K) :
    coMoment (ps ++ [p]) = coMoment ps
      + (p.1 - mean ((ps ++ [p]).map Prod.fst)) * (p.2 - mean (ps.map Prod.snd)) := by
  have hlength : ((ps.length + 1 : ℕ) : K) ≠ 0 := Nat.cast_ne_zero.2 (Nat.succ_ne_zero _)
  have hfst := mean_concat (ps.map Prod.fst) p.1
  have hsnd := mean_concat (ps.map Prod.snd) p.2
  rw [List.length_map] at hfst hsnd
  rw [coMoment_eq, coMoment_eq]
  simp only [List.map_append, List.map_cons, List.map_nil, List.sum_append, List.sum_singleton,
    List.length_append, List.length_singleton, hfst, hsnd]
  push_cast at hlength ⊢
  field_simp
  ring

theorem squares_concat (xs : List K) (x : K) :
    squares (xs ++ [x]) = squares xs + (x - mean xs) * (x - mean (xs ++ [x])) := by
  have hconcat := coMoment_concat (xs.map fun x => (x, x)) (x, x)
  rw [squares_eq_coMoment, squares_eq_coMoment, List.map_append, List.map_singleton, hconcat]
  simp only [List.map_append, List.map_map, List.map_singleton, Function.comp_def, List.map_id']
  ring

end Field

section Order

variable {K : Type*} [Field K] [LinearOrder K] [IsStrictOrderedRing K]

theorem squares_nonneg (xs : List K) : 0 ≤ squares xs :=
  List.sum_nonneg fun _ hx => by
    obtain ⟨x, -, rfl⟩ := List.mem_map.1 hx
    exact sq_nonneg _

/-- Cauchy-Schwarz for the two columns of a list. -/
theorem sum_mul_sq_le (ps : List (K × K)) :
    (ps.map fun p => p.1 * p.2).sum ^ 2
      ≤ (ps.map fun p => p.1 ^ 2).sum * (ps.map fun p => p.2 ^ 2).sum := by
  rw [← Fin.sum_univ_fun_getElem, ← Fin.sum_univ_fun_getElem ps fun p => p.1 ^ 2,
    ← Fin.sum_univ_fun_getElem ps fun p => p.2 ^ 2]
  exact Finset.sum_mul_sq_le_sq_mul_sq _ _ _

theorem coMoment_sq_le (ps : List (K × K)) :
    coMoment ps ^ 2 ≤ squares (ps.map Prod.fst) * squares (ps.map Prod.snd) := by
  have hcs := sum_mul_sq_le
    (ps.map fun p => (p.1 - mean (ps.map Prod.fst), p.2 - mean (ps.map Prod.snd)))
  simpa only [coMoment, squares, List.map_map, Function.comp_def] using hcs

end Order

end Moments
