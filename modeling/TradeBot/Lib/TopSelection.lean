import Mathlib.Data.List.Dedup
import Mathlib.Data.List.Perm.Basic
import Mathlib.Order.Lattice

set_option autoImplicit false

/-! # The first items of a ranking

A list of items, which may be repeated, is ranked by a weight, and the first `n` are taken. Ties come in
any order. Nothing that is left out weighs more than what is taken; but an item that is repeated can be
taken twice, unless the heavier ones leave it one place at most (`forall_nodup_take_iff`). -/

namespace TopSelection

variable {α β : Type*} [LinearOrder β] {w : α → β} {items l : List α} {a b : α} {n : ℕ}

/-- `l` holds the items, heavier ones first. -/
structure Ranking (w : α → β) (items l : List α) : Prop where
  perm : l.Perm items
  sorted : l.Pairwise (fun a b => w b ≤ w a)

theorem Ranking.le_of_mem_take_drop (h : Ranking w items l) (ha : a ∈ l.take n) (hb : b ∈ l.drop n) :
    w b ≤ w a := by
  have hsorted := h.sorted
  rw [← List.take_append_drop n l, List.pairwise_append] at hsorted
  exact hsorted.2.2 a ha b hb

/-- What weighs more than an item that is taken is taken too. -/
theorem Ranking.countP_take (h : Ranking w items l) (ha : a ∈ l.take n) :
    (l.take n).countP (fun b => decide (w a < w b)) = items.countP (fun b => decide (w a < w b)) := by
  have hrest : (l.drop n).countP (fun b => decide (w a < w b)) = 0 := by
    rw [List.countP_eq_zero]
    intro b hb
    rw [decide_eq_true_eq, not_lt]
    exact h.le_of_mem_take_drop ha hb
  rw [← h.perm.countP_eq]
  conv_rhs => rw [← List.take_append_drop n l, List.countP_append, hrest, Nat.add_zero]

section

variable [DecidableEq α]

/-- Two disjoint kinds of entries. -/
theorem countP_add_count_le (l : List α) {p : α → Bool} (hp : p a = false) :
    l.countP p + l.count a ≤ l.length := by
  induction l with
  | nil => simp
  | cons x l ih =>
      rw [List.countP_cons, List.count_cons, List.length_cons]
      by_cases hx : x = a
      · subst hx
        simp [hp]
        omega
      · simp only [beq_iff_eq, hx, if_false]
        split <;> omega

/-- An item that is taken twice has found two places behind the heavier ones. -/
theorem Ranking.heavier_add_two_le (h : Ranking w items l) (htwice : 2 ≤ (l.take n).count a) :
    items.countP (fun b => decide (w a < w b)) + 2 ≤ n := by
  have ha : a ∈ l.take n := List.count_pos_iff.1 (by omega)
  have hcount := countP_add_count_le (l.take n) (p := fun b => decide (w a < w b)) (a := a) (by simp)
  rw [h.countP_take ha] at hcount
  have hlength := List.length_take_le n l
  omega

/-- If none is taken twice, as many are taken as there are places or items. -/
theorem Ranking.length_take_of_nodup (h : Ranking w items l) (hnodup : (l.take n).Nodup) :
    (l.take n).length = min n items.dedup.length := by
  have hdistinct : (l.take n).length ≤ items.dedup.length := by
    refine (List.subperm_of_subset hnodup fun x hx => ?_).length_le
    exact List.mem_dedup.2 (h.perm.mem_iff.1 (List.mem_of_mem_take hx))
  rcases le_or_gt l.length n with hall | hmore
  · rw [List.take_of_length_le hall] at hnodup hdistinct ⊢
    have hitems : items.dedup.length ≤ l.length := by
      rw [h.perm.length_eq]
      exact (List.dedup_sublist items).length_le
    omega
  · rw [List.length_take] at hdistinct ⊢
    omega

/-- Among equal weights `a` may come first. -/
theorem exists_ranking_first (w : α → β) (items : List α) (a : α) :
    ∃ l, Ranking w items l ∧ l.Pairwise (fun x y => y = a → w x = w a → x = a) := by
  let before (x y : α) : Bool := decide (w y < w x ∨ w y = w x ∧ (x = a ∨ y ≠ a))
  have htrans : ∀ x y z, before x y = true → before y z = true → before x z = true := by
    intro x y z hxy hyz
    simp only [before, decide_eq_true_eq] at hxy hyz ⊢
    rcases hxy with hxy | ⟨hxy, hfirst⟩
    · exact Or.inl (hyz.elim (fun h => h.trans hxy) (fun h => h.1 ▸ hxy))
    · rcases hyz with hyz | ⟨hyz, hsecond⟩
      · exact Or.inl (hxy ▸ hyz)
      · exact Or.inr ⟨hyz.trans hxy, by tauto⟩
  have htotal : ∀ x y, (before x y || before y x) = true := by
    intro x y
    simp only [before, Bool.or_eq_true, decide_eq_true_eq]
    rcases lt_trichotomy (w x) (w y) with hlt | heq | hgt
    · exact Or.inr (Or.inl hlt)
    · by_cases hx : x = a
      · exact Or.inl (Or.inr ⟨heq.symm, Or.inl hx⟩)
      · exact Or.inr (Or.inr ⟨heq, Or.inr hx⟩)
    · exact Or.inl (Or.inl hgt)
  have hsorted := List.pairwise_mergeSort htrans htotal items
  refine ⟨items.mergeSort before, ⟨List.mergeSort_perm _ _, ?_⟩, ?_⟩
  · refine hsorted.imp fun {x y} hxy => ?_
    exact (of_decide_eq_true hxy).elim le_of_lt (fun h => h.1.le)
  · refine hsorted.imp fun {x y} hxy hy hweight => ?_
    rcases of_decide_eq_true hxy with hlt | ⟨-, hx | hne⟩
    · exact absurd (hy ▸ hlt) hweight.le.not_gt
    · exact hx
    · exact absurd hy hne

theorem length_le_countP_add_count {p : α → Bool} (h : ∀ x ∈ l, p x = true ∨ x = a) :
    l.length ≤ l.countP p + l.count a := by
  induction l with
  | nil => simp
  | cons x l ih =>
      have hrest := ih (fun y hy => h y (List.mem_cons_of_mem _ hy))
      rw [List.countP_cons, List.count_cons, List.length_cons]
      rcases h x (List.mem_cons_self ..) with hx | rfl
      · rw [if_pos hx]
        split <;> omega
      · simp only [beq_self_eq_true, if_true]
        omega

/-- If `a` comes first among equal weights, then it is taken twice where there is place. -/
theorem Ranking.not_nodup_take (h : Ranking w items l)
    (hfirst : l.Pairwise (fun x y => y = a → w x = w a → x = a)) (htwice : 2 ≤ items.count a)
    (hplace : items.countP (fun b => decide (w a < w b)) + 2 ≤ n) : ¬ (l.take n).Nodup := by
  intro hnodup
  have honce := List.nodup_iff_count_le_one.1 hnodup a
  have hsplit : l.count a = (l.take n).count a + (l.drop n).count a := by
    rw [← List.count_append, List.take_append_drop]
  rw [← h.perm.count_eq] at htwice
  -- so one of them is left out
  have hdrop : a ∈ l.drop n := List.count_pos_iff.1 (by omega)
  rw [← List.take_append_drop n l, List.pairwise_append] at hfirst
  have hheavier : ∀ x ∈ l.take n, decide (w a < w x) = true ∨ x = a := by
    intro x hx
    rcases (h.le_of_mem_take_drop hx hdrop).lt_or_eq with hlt | heq
    · exact Or.inl (decide_eq_true hlt)
    · exact Or.inr (hfirst.2.2 x hx a hdrop rfl heq.symm)
  have htaken := length_le_countP_add_count hheavier
  have hcount := countP_add_count_le items (p := fun b => decide (w a < w b)) (a := a) (by simp)
  have hsub := (List.take_sublist n l).countP_le (p := fun b => decide (w a < w b))
  rw [List.length_take, h.perm.length_eq] at htaken
  rw [h.perm.countP_eq] at hsub
  rw [h.perm.count_eq] at htwice
  omega

/-- Whatever the order of ties, no item is taken twice, if and only if an item that is repeated has one
    place at most behind the heavier ones. -/
theorem forall_nodup_take_iff (w : α → β) (items : List α) (n : ℕ) :
    (∀ l, Ranking w items l → (l.take n).Nodup) ↔
      ∀ a, 2 ≤ items.count a → n < items.countP (fun b => decide (w a < w b)) + 2 := by
  constructor
  · intro h a htwice
    obtain ⟨l, hranking, hfirst⟩ := exists_ranking_first w items a
    by_contra hplace
    exact hranking.not_nodup_take hfirst htwice (not_lt.1 hplace) (h l hranking)
  · intro h l hranking
    rw [List.nodup_iff_count_le_one]
    intro a
    by_contra htwice
    have hplace := hranking.heavier_add_two_le (not_le.1 htwice)
    have hcount := (List.take_sublist n l).count_le a
    rw [hranking.perm.count_eq] at hcount
    have hrepeated := h a (by omega)
    omega

end

end TopSelection
