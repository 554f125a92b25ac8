import Mathlib.Algebra.BigOperators.Fin
import Mathlib.Analysis.SpecialFunctions.Log.Basic
import Mathlib.Data.Fin.Tuple.Basic
import Mathlib.Data.List.GetD

set_option autoImplicit false

/-! # The forward algorithm

A chain of hidden states: weights of the first state and of the transitions, and a weight of each
observation in each state. The forward recursion adds up the weights of all paths that end in a state.
It may be run on logarithms, where a constant may be subtracted at any time (`IsLog`). -/

namespace ForwardAlgorithm

open Real

/-- The weights of a chain, without those of the observations. -/
structure Chain (S R : Type*) where
  start : S → R
  trans : S → S → R

namespace Chain

section Paths

variable {S R : Type*} [Fintype S] [CommSemiring R] (c : Chain S R)

/-- The first step, and a further one. -/
def first (e : S → R) (s : S) : R := c.start s * e s

/-- One step of the recursion, for an observation with the weights `e`. -/
def next (α e : S → R) (j : S) : R := (∑ i, α i * c.trans i j) * e j

/-- `e t s` is the weight of the observation at time `t` in the state `s`. -/
def forward (e : ℕ → S → R) : ℕ → S → R
  | 0 => c.first (e 0)
  | n + 1 => c.next (forward e n) (e (n + 1))

/-- The weight of a path with the observations on the way. -/
def weight (e : ℕ → S → R) {n : ℕ} (path : Fin (n + 1) → S) : R :=
  c.start (path 0) * (∏ t : Fin n, c.trans (path t.castSucc) (path t.succ))
    * ∏ t : Fin (n + 1), e t (path t)

variable {c} {e e' : ℕ → S → R} {n : ℕ}

theorem forward_congr (h : ∀ t ≤ n, e t = e' t) : c.forward e n = c.forward e' n := by
  induction n with
  | zero => rw [forward, forward, h 0 le_rfl]
  | succ n ih => rw [forward, forward, ih fun t ht => h t (Nat.le_succ_of_le ht), h (n + 1) le_rfl]

omit [Fintype S] in
/-- One more state. -/
theorem weight_snoc (path : Fin (n + 1) → S) (j : S) :
    c.weight e (Fin.snoc path j : Fin (n + 2) → S)
      = c.weight e path * c.trans (path (Fin.last n)) j * e (n + 1) j := by
  have hzero : (Fin.snoc path j : Fin (n + 2) → S) 0 = path 0 := Fin.snoc_castSucc (i := 0) ..
  have hlast : (Fin.snoc path j : Fin (n + 2) → S) (Fin.last n).succ = j := Fin.snoc_last ..
  have htrans (t : Fin n) : (Fin.snoc path j : Fin (n + 2) → S) t.castSucc.succ = path t.succ := by
    rw [Fin.succ_castSucc, Fin.snoc_castSucc]
  rw [weight, weight, Fin.prod_univ_castSucc (n := n), Fin.prod_univ_castSucc (n := n + 1), hzero, hlast]
  simp only [Fin.snoc_castSucc, Fin.snoc_last, htrans, Fin.val_castSucc, Fin.val_last]
  ring

/-- The recursion over a list of observations; `f` weighs an observation in each state. -/
theorem forward_eq_foldl {O : Type*} (f : O → S → R) (o : O) (os : List O) :
    c.forward (fun t => f ((o :: os).getD t o)) os.length
      = os.foldl (fun α o => c.next α (f o)) (c.first (f o)) := by
  induction os using List.reverseRecOn with
  | nil => rfl
  | append_singleton os x ih =>
      have hlast : (o :: (os ++ [x])).getD (os.length + 1) o = x := by simp
      have hold : c.forward (fun t => f ((o :: (os ++ [x])).getD t o)) os.length
          = c.forward (fun t => f ((o :: os).getD t o)) os.length := by
        refine forward_congr fun t ht => ?_
        rw [← List.cons_append, List.getD_append _ _ _ _ (Nat.lt_succ_of_le ht)]
      rw [List.length_append, List.length_singleton, forward, hold, ih, hlast, List.foldl_append,
        List.foldl_cons, List.foldl_nil]

/-- The recursion adds up the paths that end in a state. -/
theorem forward_eq_sum (s : S) :
    c.forward e n s = ∑ path : Fin n → S, c.weight e (Fin.snoc path s : Fin (n + 1) → S) := by
  induction n generalizing s with
  | zero => simp [forward, first, weight, Fin.snoc]
  | succ n ih =>
      have hpaths := (Fin.snocEquiv fun _ : Fin (n + 1) => S).sum_comp
        fun path => c.weight e (Fin.snoc path s : Fin (n + 2) → S)
      rw [forward, next, ← hpaths, Fintype.sum_prod_type, Finset.sum_mul]
      refine Finset.sum_congr rfl fun i _ => ?_
      rw [ih i, Finset.sum_mul, Finset.sum_mul]
      refine Finset.sum_congr rfl fun path _ => ?_
      rw [weight_snoc]
      simp [Fin.snocEquiv]

/-- All paths together. -/
theorem sum_forward : ∑ s, c.forward e n s = ∑ path : Fin (n + 1) → S, c.weight e path := by
  have hpaths := (Fin.snocEquiv fun _ : Fin (n + 1) => S).sum_comp fun path => c.weight e path
  rw [← hpaths, Fintype.sum_prod_type]
  exact Finset.sum_congr rfl fun s _ => forward_eq_sum s

end Paths

section Logarithms

variable {S : Type*} [Fintype S] [Nonempty S] {c : Chain S ℝ} {α e : S → ℝ}

theorem next_pos (htrans : ∀ i j, 0 < c.trans i j) (hα : ∀ s, 0 < α s) (he : ∀ s, 0 < e s) (j : S) :
    0 < c.next α e j :=
  mul_pos (Finset.sum_pos (fun i _ => mul_pos (hα i) (htrans i j)) Finset.univ_nonempty) (he j)

end Logarithms

end Chain

/-! ## Logarithms -/

section

variable {S : Type*} [Fintype S] [Nonempty S] {α : S → ℝ} {a : S → ℝ}

/-- The log of a sum of exponentials, taken relative to any number. -/
theorem log_sum_exp_shift (x : S → ℝ) (m : ℝ) :
    m + log (∑ i, exp (x i - m)) = log (∑ i, exp (x i)) := by
  have hpos : 0 < ∑ i, exp (x i - m) :=
    Finset.sum_pos (fun i _ => exp_pos _) Finset.univ_nonempty
  have hsum : ∑ i, exp (x i) = exp m * ∑ i, exp (x i - m) := by
    rw [Finset.mul_sum]
    exact Finset.sum_congr rfl fun i _ => by rw [← exp_add, add_sub_cancel]
  rw [hsum, log_mul (exp_ne_zero m) hpos.ne', log_exp]

/-- The logarithms of some weights, up to a common constant. -/
def IsLog (a α : S → ℝ) : Prop := ∃ k, ∀ s, a s = log (α s) + k

omit [Fintype S] [Nonempty S] in
theorem IsLog.sub (h : IsLog a α) (m : ℝ) : IsLog (fun s => a s - m) α := by
  obtain ⟨k, hk⟩ := h
  refine ⟨k - m, fun s => ?_⟩
  dsimp only
  rw [hk s, add_sub_assoc]

theorem IsLog.next {c : Chain S ℝ} (h : IsLog a α) (hα : ∀ s, 0 < α s)
    (htrans : ∀ i j, 0 < c.trans i j) {e : S → ℝ} (he : ∀ s, 0 < e s) (m : S → ℝ) :
    IsLog (fun j => m j + log (∑ i, exp (a i + log (c.trans i j) - m j)) + log (e j)) (c.next α e) := by
  obtain ⟨k, hk⟩ := h
  refine ⟨k, fun j => ?_⟩
  have hterm (i : S) : exp (a i + log (c.trans i j)) = exp k * (α i * c.trans i j) := by
    rw [hk i, exp_add, exp_add, exp_log (hα i), exp_log (htrans i j)]
    ring
  have hpos : 0 < ∑ i, α i * c.trans i j :=
    Finset.sum_pos (fun i _ => mul_pos (hα i) (htrans i j)) Finset.univ_nonempty
  have hsum : ∑ i, exp (a i + log (c.trans i j)) = exp k * ∑ i, α i * c.trans i j := by
    rw [Finset.mul_sum]
    exact Finset.sum_congr rfl fun i _ => hterm i
  dsimp only
  rw [log_sum_exp_shift (fun i => a i + log (c.trans i j)), hsum, log_mul (exp_ne_zero k) hpos.ne',
    log_exp, Chain.next, log_mul hpos.ne' (he j).ne']
  ring

omit [Nonempty S] in
/-- The constant drops out of the shares. -/
theorem IsLog.share (h : IsLog a α) (hα : ∀ s, 0 < α s) (s : S) :
    exp (a s) / ∑ i, exp (a i) = α s / ∑ i, α i := by
  obtain ⟨k, hk⟩ := h
  have hexp (i : S) : exp (a i) = exp k * α i := by
    rw [hk i, exp_add, exp_log (hα i), mul_comm]
  have hsum : ∑ i, exp (a i) = exp k * ∑ i, α i := by
    rw [Finset.mul_sum]
    exact Finset.sum_congr rfl fun i _ => hexp i
  rw [hsum, hexp s, mul_div_mul_left _ _ (exp_ne_zero k)]

end

end ForwardAlgorithm
