import Mathlib.Algebra.BigOperators.Fin

set_option autoImplicit false

/-! # Sums in lanes

A vectorized loop adds up a sequence in batches: each batch gives one entry to each lane. What does not
fill a batch is added one by one, after the lanes were added up.

The statement holds in any commutative monoid, so it says nothing about the rounding of floating
point sums, which does depend on the order. -/

namespace Lanes

open Finset

variable {M : Type*} [AddCommMonoid M] (lanes : ℕ) (f : ℕ → M)

/-- The lanes after `k` batches. -/
def partials (k : ℕ) : Fin lanes → M :=
  (List.range k).foldl (fun acc i lane => acc lane + f (i * lanes + lane)) 0

/-- The first `n` entries: the batches that they fill, and then the other ones. -/
def sum (n : ℕ) : M :=
  (List.range' (n / lanes * lanes) (n % lanes)).foldl (fun s j => s + f j)
    (∑ lane, partials lanes f (n / lanes) lane)

theorem partials_succ (k : ℕ) :
    partials lanes f (k + 1) = fun lane => partials lanes f k lane + f (k * lanes + lane) := by
  rw [partials, List.range_succ, List.foldl_append]
  rfl

theorem sum_partials (k : ℕ) :
    ∑ lane, partials lanes f k lane = ∑ j ∈ range (k * lanes), f j := by
  induction k with
  | zero => simp [partials]
  | succ k ih =>
      rw [partials_succ, sum_add_distrib, ih, Nat.succ_mul, sum_range_add,
        Finset.sum_range (fun x => f (k * lanes + x))]

theorem foldl_range' (s : M) (start m : ℕ) :
    (List.range' start m).foldl (fun s j => s + f j) s = s + ∑ j ∈ range m, f (start + j) := by
  induction m with
  | zero => simp
  | succ m ih =>
      rw [List.range'_1_concat, List.foldl_append, ih, sum_range_succ, ← add_assoc]
      rfl

/-- The order of the additions is all that the lanes change. -/
theorem sum_eq (n : ℕ) : sum lanes f n = ∑ j ∈ range n, f j := by
  rw [sum, foldl_range', sum_partials, ← sum_range_add, Nat.div_add_mod']

end Lanes
