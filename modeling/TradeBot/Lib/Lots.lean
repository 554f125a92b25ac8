import Mathlib.Algebra.BigOperators.Group.List.Basic
import Mathlib.Data.List.Nodup
import Mathlib.Tactic.Abel

set_option autoImplicit false

/-! # Lots

A lot is opened with an amount and closed in parts. `Conserved opened rest taken` says that of every
lot opened, what is still open and what was taken from it make up what it was opened with. The steps
are a lot opened, a part taken, and the rest taken.

Lots are told apart by their keys, and a key that was closed is not opened again. The amounts are
those of a group: a part that is greater than what is left leaves a negative rest, and the books
still agree. -/

namespace Lots

variable {κ α : Type*} [DecidableEq κ]

/-- The amount listed under a key. -/
def total [AddMonoid α] (k : κ) (l : List (κ × α)) : α :=
  ((l.filter (fun x => decide (x.1 = k))).map Prod.snd).sum

section

variable [AddCommMonoid α] {k k' : κ} {a : α} {l l' : List (κ × α)}

@[simp] theorem total_nil : total k ([] : List (κ × α)) = 0 := rfl

@[simp] theorem total_cons_self : total k ((k, a) :: l) = a + total k l := by
  rw [total, List.filter_cons_of_pos (by simp), List.map_cons, List.sum_cons]
  rfl

theorem total_cons_of_ne (h : k' ≠ k) : total k ((k', a) :: l) = total k l := by
  rw [total, List.filter_cons_of_neg (by simpa using h)]
  rfl

@[simp] theorem total_append : total k (l ++ l') = total k l + total k l' := by
  rw [total, List.filter_append, List.map_append, List.sum_append]
  rfl

theorem total_perm (h : l.Perm l') : total k l = total k l' :=
  ((h.filter _).map Prod.snd).sum_eq

theorem total_of_not_mem (h : k ∉ l.map Prod.fst) : total k l = 0 := by
  have hnone : l.filter (fun x => decide (x.1 = k)) = [] := by
    refine List.filter_eq_nil_iff.2 (fun x hx hkey => h ?_)
    exact List.mem_map.2 ⟨x, hx, of_decide_eq_true hkey⟩
  rw [total, hnone]
  rfl

end

/-- Every lot opened is made up by what is still open of it and what was taken from it. -/
structure Conserved [AddMonoid α] (opened rest taken : List (κ × α)) : Prop where
  nodup : (opened.map Prod.fst).Nodup
  open_known : ∀ k ∈ rest.map Prod.fst, k ∈ opened.map Prod.fst
  taken_known : ∀ k ∈ taken.map Prod.fst, k ∈ opened.map Prod.fst
  balance : ∀ x ∈ opened, total x.1 rest + total x.1 taken = x.2

variable {k : κ} {opened rest rest' taken : List (κ × α)}

theorem conserved_nil [AddMonoid α] : Conserved ([] : List (κ × α)) [] [] where
  nodup := List.nodup_nil
  open_known := by simp
  taken_known := by simp
  balance := by simp

theorem Conserved.perm [AddCommMonoid α] (h : Conserved opened rest taken)
    (hperm : rest'.Perm rest) : Conserved opened rest' taken where
  nodup := h.nodup
  open_known := fun k hk => h.open_known k ((hperm.map Prod.fst).mem_iff.1 hk)
  taken_known := h.taken_known
  balance := fun x hx => by rw [total_perm hperm, h.balance x hx]

/-- A new lot is opened. -/
theorem Conserved.open [AddCommMonoid α] {a : α} (h : Conserved opened rest taken)
    (hk : k ∉ opened.map Prod.fst) :
    Conserved (opened ++ [(k, a)]) ((k, a) :: rest) taken where
  nodup := by
    rw [List.map_append, List.map_singleton, List.nodup_append']
    exact ⟨h.nodup, List.nodup_singleton k, List.disjoint_singleton.2 hk⟩
  open_known := by
    intro k' hk'
    rw [List.map_append]
    rcases List.mem_cons.1 hk' with rfl | hk'
    · exact List.mem_append_right _ (List.mem_singleton.2 rfl)
    · exact List.mem_append_left _ (h.open_known k' hk')
  taken_known := by
    intro k' hk'
    rw [List.map_append]
    exact List.mem_append_left _ (h.taken_known k' hk')
  balance := by
    intro x hx
    rcases List.mem_append.1 hx with hx | hx
    · have hne : k ≠ x.1 := fun heq => hk (heq ▸ List.mem_map_of_mem hx)
      rw [total_cons_of_ne hne, h.balance x hx]
    · obtain rfl : x = (k, a) := List.mem_singleton.1 hx
      rw [total_cons_self, total_of_not_mem (fun hin => hk (h.open_known k hin)),
        total_of_not_mem (fun hin => hk (h.taken_known k hin))]
      simp

/-- Part of a lot is taken. -/
theorem Conserved.take [AddCommGroup α] {a b : α} (h : Conserved opened ((k, a) :: rest) taken) :
    Conserved opened ((k, a - b) :: rest) (taken ++ [(k, b)]) where
  nodup := h.nodup
  open_known := h.open_known
  taken_known := by
    intro k' hk'
    rw [List.map_append] at hk'
    rcases List.mem_append.1 hk' with hk' | hk'
    · exact h.taken_known k' hk'
    · obtain rfl : k' = k := List.mem_singleton.1 hk'
      exact h.open_known k' (List.mem_cons_self ..)
  balance := by
    intro x hx
    have hbal := h.balance x hx
    by_cases heq : k = x.1
    · subst heq
      simp only [total_cons_self, total_append, total_nil] at hbal ⊢
      rw [← hbal]
      abel
    · simp only [total_append, total_cons_of_ne heq, total_nil, add_zero] at hbal ⊢
      exact hbal

/-- The rest of a lot is taken. -/
theorem Conserved.close [AddCommGroup α] {a : α} (h : Conserved opened ((k, a) :: rest) taken) :
    Conserved opened rest (taken ++ [(k, a)]) where
  nodup := h.nodup
  open_known := fun k' hk' => h.open_known k' (List.mem_cons_of_mem _ hk')
  taken_known := h.take.taken_known
  balance := by
    intro x hx
    have hbal := (h.take (b := a)).balance x hx
    by_cases heq : k = x.1
    · subst heq
      rw [sub_self, total_cons_self, zero_add] at hbal
      exact hbal
    · rw [total_cons_of_ne heq] at hbal
      exact hbal

end Lots
