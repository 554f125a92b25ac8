import Mathlib.Data.Int.Init
import Mathlib.Tactic.Common

set_option autoImplicit false

/-! # Binary search for the last place

A condition on places that holds up to some place and not from there on: the search keeps the last place
where it saw the condition hold, and narrows the range behind or before the middle.

The condition has to be decreasing along the places, which is where a caller uses that its sequence
is sorted. What the search keeps is then what a scan from the last place down finds first
(`lastIndex`), and `Window` is the invariant of the range. -/

namespace BinarySearch

variable (p : ℤ → Bool)

/-- The search between `low` and `high`, both included; `best` is -1 as long as none is found. -/
def search (low high best : ℤ) : ℤ :=
  if low ≤ high then
    let mid := low + (high - low) / 2
    if p mid then search (mid + 1) high mid else search low (mid - 1) best
  else best
termination_by (high - low + 1).toNat

/-- The last of the places before `n`, -1 if there is none. -/
def lastIndex : ℕ → ℤ
  | 0 => -1
  | n + 1 => if p n then n else lastIndex n

variable {p}

theorem lastIndex_spec (n : ℕ) :
    lastIndex p n = -1 ∧ (∀ i : ℕ, i < n → p i = false) ∨
    ∃ k : ℕ, k < n ∧ lastIndex p n = k ∧ p k = true ∧ ∀ i : ℕ, k < i → i < n → p i = false := by
  induction n with
  | zero => exact .inl ⟨rfl, fun i hi => absurd hi (Nat.not_lt_zero i)⟩
  | succ n ih =>
      unfold lastIndex
      split
      · rename_i hp
        exact .inr ⟨n, Nat.lt_succ_self n, rfl, hp, fun i hlo hhi => by omega⟩
      · rename_i hp
        have hlast : p n = false := by simpa using hp
        rcases ih with ⟨heq, hnone⟩ | ⟨k, hk, heq, hpk, hafter⟩
        · refine .inl ⟨heq, fun i hi => ?_⟩
          rcases Nat.lt_succ_iff_lt_or_eq.1 hi with hlt | rfl
          · exact hnone i hlt
          · exact hlast
        · refine .inr ⟨k, by omega, heq, hpk, fun i hlo hhi => ?_⟩
          rcases Nat.lt_succ_iff_lt_or_eq.1 hhi with hlt | rfl
          · exact hafter i hlo hlt
          · exact hlast

theorem lastIndex_eq {n k : ℕ} (hk : k < n) (hpk : p k = true)
    (hafter : ∀ i : ℕ, k < i → i < n → p i = false) : lastIndex p n = k := by
  rcases lastIndex_spec (p := p) n with ⟨-, hnone⟩ | ⟨j, hj, heq, hpj, hbeyond⟩
  · exact absurd (hnone k hk) (by simp [hpk])
  · rcases Nat.lt_trichotomy j k with hlt | rfl | hgt
    · exact absurd (hbeyond k hlt hk) (by simp [hpk])
    · exact heq
    · exact absurd (hafter j hgt hj) (by simp [hpj])

theorem lastIndex_eq_neg_one {n : ℕ} (hnone : ∀ i : ℕ, i < n → p i = false) : lastIndex p n = -1 := by
  rcases lastIndex_spec (p := p) n with ⟨heq, -⟩ | ⟨j, hj, -, hpj, -⟩
  · exact heq
  · exact absurd (hnone j hj) (by simp [hpj])

/-- The condition holds before every place where it holds. -/
def Downward (p : ℤ → Bool) (n : ℕ) : Prop :=
  ∀ i j : ℕ, i ≤ j → j < n → p j = true → p i = true

/-- Everything before `low` meets the condition, with `best` just before it, and nothing behind `high`
does. -/
structure Window (p : ℤ → Bool) (n : ℕ) (low high best : ℤ) : Prop where
  low_nonneg : 0 ≤ low
  high_lt : high < n
  low_le : low ≤ high + 1
  best_eq : best = low - 1
  best_holds : 0 < low → p best = true
  after : ∀ i : ℕ, high < i → i < n → p i = false

theorem Window.search_eq {n : ℕ} (hp : Downward p n) {low high best : ℤ} (h : Window p n low high best) :
    search p low high best = lastIndex p n := by
  fun_induction search p low high best with
  | case1 low high best hle mid hmid ih =>
      have hlow := h.low_nonneg
      have hhigh := h.high_lt
      refine ih ⟨by omega, hhigh, by omega, by omega, fun _ => hmid, h.after⟩
  | case2 low high best hle mid hmid ih =>
      have hlow := h.low_nonneg
      have hhigh := h.high_lt
      refine ih ⟨hlow, by omega, by omega, h.best_eq, h.best_holds, fun i hlt hi => ?_⟩
      by_contra hpi
      refine hmid ?_
      obtain ⟨m, hm⟩ : ∃ m : ℕ, mid = m := ⟨mid.toNat, by omega⟩
      rw [hm]
      exact hp m i (by omega) hi (by simpa using hpi)
  | case3 low high best hgt =>
      have hlow := h.low_nonneg
      have hle := h.low_le
      have hbest := h.best_eq
      rcases Int.lt_or_eq_of_le hlow with hpos | hzero
      · obtain ⟨k, hk⟩ : ∃ k : ℕ, best = k := ⟨best.toNat, by omega⟩
        have hhigh := h.high_lt
        rw [hk, lastIndex_eq (by omega) (hk ▸ h.best_holds hpos) fun i hlt hi => h.after i (by omega) hi]
      · rw [lastIndex_eq_neg_one fun i hi => h.after i (by omega) hi]
        omega

/-- The search over all places finds the last one. -/
theorem search_eq_lastIndex {n : ℕ} (hp : Downward p n) : search p 0 (n - 1) (-1) = lastIndex p n :=
  Window.search_eq hp ⟨Int.le_refl 0, by omega, by omega, by omega, fun h => absurd h (Int.lt_irrefl 0),
    fun i hlt hi => by omega⟩

end BinarySearch
