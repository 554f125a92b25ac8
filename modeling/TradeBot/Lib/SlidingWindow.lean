import Mathlib.Algebra.Order.Group.Defs
import Mathlib.Algebra.Order.Sub.Defs
import Mathlib.Data.List.Count
import Mathlib.Data.List.TakeWhile

set_option autoImplicit false

/-! # Sliding windows

A log of times that forgets what is older than a window, and admits a new time only while it holds
fewer than `limit`. `Bounded` is what keeps such a log honest against the list of all times it ever
admitted: what it has forgotten is too old for every reading of the clock that is still to come, so
no window of that length, wherever it lies, contains more than `limit` of them.

The readings that are still to come are a list of their own. No time that was admitted lies behind
one of them, which is all that is needed of a clock. -/

namespace SlidingWindow

variable {τ : Type*} [AddCommGroup τ] [LinearOrder τ]

/-- Forget the times more than `window` before `now`. -/
def prune (window now : τ) (log : List τ) : List τ :=
  log.dropWhile (fun t => decide (window < now - t))

/-- How many of the times lie in the window that begins at `a`. -/
def countIn (window a : τ) (times : List τ) : ℕ :=
  times.countP (fun t => decide (a ≤ t ∧ t ≤ a + window))

/-- The log of a limiter, with the times it admitted and the readings of the clock to come. -/
structure Bounded (window : τ) (limit : ℕ) (log admitted future : List τ) : Prop where
  forgets : ∃ old, admitted = old ++ log ∧ ∀ t ∈ old, ∀ r ∈ future, t + window < r
  past : ∀ t ∈ admitted, ∀ r ∈ future, t ≤ r
  length_le : log.length ≤ limit
  countIn_le : ∀ a, countIn window a admitted ≤ limit

variable {window now r : τ} {limit : ℕ} {log admitted future : List τ}

theorem Bounded.nil : Bounded window limit [] [] future where
  forgets := ⟨[], rfl, by simp⟩
  past := by simp
  length_le := Nat.zero_le _
  countIn_le := fun _ => Nat.zero_le _

theorem Bounded.of_subset {future' : List τ} (h : Bounded window limit log admitted future)
    (hsub : ∀ r ∈ future', r ∈ future) : Bounded window limit log admitted future' where
  forgets := by
    obtain ⟨old, heq, hold⟩ := h.forgets
    exact ⟨old, heq, fun t ht r hr => hold t ht r (hsub r hr)⟩
  past := fun t ht r hr => h.past t ht r (hsub r hr)
  length_le := h.length_le
  countIn_le := h.countIn_le

variable [IsOrderedAddMonoid τ]

theorem prune_split (window now : τ) (log : List τ) :
    ∃ old, log = old ++ prune window now log ∧ ∀ t ∈ old, t + window < now := by
  refine ⟨log.takeWhile _, List.takeWhile_append_dropWhile.symm, fun t ht => ?_⟩
  have hold := List.mem_takeWhile_imp ht
  rw [decide_eq_true_eq] at hold
  exact lt_sub_iff_add_lt'.1 hold

theorem Bounded.prune (h : Bounded window limit log admitted future)
    (hnow : ∀ r ∈ future, now ≤ r) :
    Bounded window limit (prune window now log) admitted future := by
  obtain ⟨old, hadmitted, hold⟩ := h.forgets
  obtain ⟨old', hlog, hold'⟩ := prune_split window now log
  refine ⟨⟨old ++ old', ?_, ?_⟩, h.past, ?_, h.countIn_le⟩
  · rw [List.append_assoc, ← hlog, hadmitted]
  · intro t ht r hr
    rcases List.mem_append.1 ht with ht | ht
    · exact hold t ht r hr
    · exact (hold' t ht).trans_le (hnow r hr)
  · exact (List.dropWhile_sublist _).length_le.trans h.length_le

/-- A window that contains the new time contains none of the forgotten ones. -/
theorem countIn_of_forgotten {a : τ} {old : List τ} (hold : ∀ t ∈ old, t + window < r)
    (hr : r ≤ a + window) : countIn window a old = 0 := by
  rw [countIn, List.countP_eq_zero]
  intro t ht hin
  rw [decide_eq_true_eq] at hin
  have hlt : t + window < a + window := (hold t ht).trans_le hr
  exact absurd hin.1 (not_le.2 (lt_of_add_lt_add_right hlt))

/-- Admit the reading `r` while the log is short. -/
theorem Bounded.admit (h : Bounded window limit log admitted (r :: future))
    (hfuture : ∀ r' ∈ future, r ≤ r') (hshort : log.length < limit) :
    Bounded window limit (log ++ [r]) (admitted ++ [r]) future := by
  obtain ⟨old, hadmitted, hold⟩ := h.forgets
  refine ⟨⟨old, by rw [hadmitted, List.append_assoc], ?_⟩, ?_, ?_, ?_⟩
  · exact fun t ht r' hr' => hold t ht r' (List.mem_cons_of_mem _ hr')
  · intro t ht r' hr'
    rcases List.mem_append.1 ht with ht | ht
    · exact h.past t ht r' (List.mem_cons_of_mem _ hr')
    · rw [List.mem_singleton.1 ht]
      exact hfuture r' hr'
  · rw [List.length_append, List.length_singleton]
    exact hshort
  · intro a
    by_cases hin : a ≤ r ∧ r ≤ a + window
    -- the window contains `r`: only times still in the log can be in it too
    · have hnone : countIn window a old = 0 :=
        countIn_of_forgotten (fun t ht => hold t ht r (List.mem_cons_self ..)) hin.2
      have hlog : countIn window a log ≤ log.length := List.countP_le_length
      have hsum : countIn window a (admitted ++ [r])
          = countIn window a old + countIn window a log + countIn window a [r] := by
        rw [hadmitted]
        simp only [countIn, List.countP_append]
      have hone : countIn window a [r] ≤ 1 := List.countP_le_length
      omega
    · have hsame : countIn window a (admitted ++ [r]) = countIn window a admitted := by
        simp [countIn, List.countP_append, hin]
      rw [hsame]
      exact h.countIn_le a

end SlidingWindow
