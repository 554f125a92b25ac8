import Mathlib.Data.List.TakeWhile

set_option autoImplicit false

/-! # Slices of sorted lists

Along a sorted list some condition holds up to a place and not from there on. So the entries between two
such places are those that a filter picks, and `takeWhile` finds the places.

The condition has to be decreasing along the list. `takeWhile_dropWhile_eq_filter` is about two such
conditions, with the slice from the place of the first one to that of the second. -/

namespace SortedSlices

variable {α : Type*} {l : List α} {p q : α → Bool}

theorem lt_length_takeWhile_iff (h : l.Pairwise (fun x y => p y = true → p x = true)) {i : ℕ} :
    i < (l.takeWhile p).length ↔ ∃ hi : i < l.length, p l[i] = true := by
  induction l generalizing i with
  | nil => simp
  | cons x l ih =>
      rw [List.pairwise_cons] at h
      by_cases hx : p x = true
      · rw [List.takeWhile_cons_of_pos hx]
        cases i with
        | zero => simp [hx]
        | succ i => simpa using ih h.2
      · rw [List.takeWhile_cons_of_neg hx]
        refine iff_of_false (Nat.not_lt_zero _) ?_
        rintro ⟨hi, hpi⟩
        cases i with
        | zero => exact hx hpi
        | succ i => exact hx (h.1 _ (List.getElem_mem _) hpi)

theorem drop_length_takeWhile (l : List α) (p : α → Bool) :
    l.drop (l.takeWhile p).length = l.dropWhile p := by
  induction l with
  | nil => rfl
  | cons x l ih =>
      by_cases hx : p x = true
      · rw [List.takeWhile_cons_of_pos hx, List.dropWhile_cons_of_pos hx]
        exact ih
      · rw [List.takeWhile_cons_of_neg hx, List.dropWhile_cons_of_neg hx]
        rfl

theorem dropWhile_eq_self (h : ∀ x ∈ l, ¬ p x = true) : l.dropWhile p = l := by
  cases l with
  | nil => rfl
  | cons x l => exact List.dropWhile_cons_of_neg (h x List.mem_cons_self)

theorem takeWhile_dropWhile_eq_filter (hp : l.Pairwise (fun x y => p y = true → p x = true))
    (hq : l.Pairwise (fun x y => q y = true → q x = true)) :
    (l.dropWhile p).takeWhile q = l.filter (fun x => !p x && q x) := by
  induction l with
  | nil => rfl
  | cons x l ih =>
      rw [List.pairwise_cons] at hp hq
      by_cases hx : p x = true
      · rw [List.dropWhile_cons_of_pos hx, List.filter_cons_of_neg (by simp [hx])]
        exact ih hp.2 hq.2
      · have hrest : ∀ y ∈ l, ¬ p y = true := fun y hy hpy => hx (hp.1 y hy hpy)
        rw [List.dropWhile_cons_of_neg hx]
        by_cases hqx : q x = true
        · rw [List.takeWhile_cons_of_pos hqx, List.filter_cons_of_pos (by simp [hx, hqx]),
            ← ih hp.2 hq.2, dropWhile_eq_self hrest]
        · rw [List.takeWhile_cons_of_neg hqx, eq_comm, List.filter_eq_nil_iff]
          intro y hy hkeep
          rcases List.mem_cons.1 hy with rfl | hy
          · simp [hqx] at hkeep
          · exact hqx (hq.1 y hy (Bool.and_eq_true_iff.1 hkeep).2)

end SortedSlices
