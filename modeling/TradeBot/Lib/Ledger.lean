import Mathlib.Algebra.BigOperators.Group.List.Basic
import Mathlib.Algebra.Order.BigOperators.Group.List
import Mathlib.Algebra.Order.Group.Defs
import Mathlib.Data.List.Count
import Mathlib.Data.List.Perm.Basic

set_option autoImplicit false

/-! # Reserving and releasing amounts

A single balance stands for the amounts that are held, each under a key: reserving adds an amount to
the balance, releasing takes it off again, with the result clamped at zero. `Ledger.Balanced` says
that the balance is the sum of the amounts held and that every key was released exactly once, or not
yet. Its rules are the two operations done in order. -/

namespace Ledger

variable {κ α : Type*} [AddCommGroup α] [LinearOrder α]

/-- Take an amount off the balance, which never falls below zero. -/
def release (balance amount : α) : α := max 0 (balance - amount)

/-- The balance after the amounts `xs` were released one after the other. -/
def releaseAll (balance : α) (xs : List (κ × α)) : α :=
  xs.foldl (fun b x => release b x.2) balance

/-- `balance` is the sum of the amounts `held`; of the keys `taken` those no longer held were
    released once, and no other key was released. -/
structure Balanced [DecidableEq κ] (balance : α) (held : List (κ × α)) (taken released : List κ) :
    Prop where
  sum : balance = (held.map Prod.snd).sum
  nodup : (held.map Prod.fst).Nodup
  known : ∀ k ∈ held.map Prod.fst, k ∈ taken
  nonneg : ∀ x ∈ held, 0 ≤ x.2
  once : ∀ k ∈ taken, k ∉ held.map Prod.fst → released.count k = 1
  gone : ∀ k ∈ released, k ∈ taken ∧ k ∉ held.map Prod.fst

variable [DecidableEq κ] {balance amount : α} {held held' : List (κ × α)}
  {taken released released' : List κ} {k : κ}

theorem balanced_nil : Balanced (0 : α) ([] : List (κ × α)) [] [] where
  sum := rfl
  nodup := List.nodup_nil
  known := by simp
  nonneg := by simp
  once := by simp
  gone := by simp

theorem Balanced.perm (h : Balanced balance held taken released) (hperm : held'.Perm held) :
    Balanced balance held' taken released where
  sum := h.sum.trans (hperm.map Prod.snd).sum_eq.symm
  nodup := (hperm.map Prod.fst).nodup_iff.2 h.nodup
  known := fun k hk => h.known k ((hperm.map Prod.fst).mem_iff.1 hk)
  nonneg := fun x hx => h.nonneg x (hperm.mem_iff.1 hx)
  once := fun k hk hout => h.once k hk (fun hin => hout ((hperm.map Prod.fst).mem_iff.2 hin))
  gone := fun k hk =>
    ⟨(h.gone k hk).1, fun hin => (h.gone k hk).2 ((hperm.map Prod.fst).mem_iff.1 hin)⟩

theorem Balanced.perm_released (h : Balanced balance held taken released)
    (hperm : released'.Perm released) : Balanced balance held taken released' :=
  { h with
    once := fun k hk hout => (hperm.count_eq k).trans (h.once k hk hout)
    gone := fun k hk => h.gone k (hperm.mem_iff.1 hk) }

/-- A new key is reserved. -/
theorem Balanced.reserve (h : Balanced balance held taken released) (hk : k ∉ taken)
    (hamount : 0 ≤ amount) :
    Balanced (balance + amount) ((k, amount) :: held) (k :: taken) released where
  sum := by
    rw [List.map_cons, List.sum_cons, ← h.sum]
    exact add_comm balance amount
  nodup := List.nodup_cons.2 ⟨fun hin => hk (h.known k hin), h.nodup⟩
  known := by
    intro k' hk'
    rcases List.mem_cons.1 hk' with rfl | hk'
    · exact List.mem_cons_self ..
    · exact List.mem_cons_of_mem _ (h.known k' hk')
  nonneg := by
    intro x hx
    rcases List.mem_cons.1 hx with rfl | hx
    · exact hamount
    · exact h.nonneg x hx
  once := by
    intro k' hk' hout
    obtain ⟨hne, hout⟩ := not_or.1 (fun h => hout (List.mem_cons.2 h))
    exact h.once k' ((List.mem_cons.1 hk').resolve_left hne) hout
  gone := by
    intro k' hk'
    obtain ⟨hin, hout⟩ := h.gone k' hk'
    refine ⟨List.mem_cons_of_mem _ hin, fun hheld => ?_⟩
    rcases List.mem_cons.1 hheld with rfl | hheld
    · exact hk hin
    · exact hout hheld

variable [IsOrderedAddMonoid α]

/-- A held amount is at most the balance, so that the clamp does not show. -/
theorem Balanced.release_eq (h : Balanced balance ((k, amount) :: held) taken released) :
    release balance amount = (held.map Prod.snd).sum := by
  have hrest : 0 ≤ (held.map Prod.snd).sum := by
    refine List.sum_nonneg (fun a ha => ?_)
    obtain ⟨x, hx, rfl⟩ := List.mem_map.1 ha
    exact h.nonneg x (List.mem_cons_of_mem _ hx)
  have hsum : balance - amount = (held.map Prod.snd).sum := by
    rw [h.sum, List.map_cons, List.sum_cons]
    exact add_sub_cancel_left ..
  rw [release, hsum, max_eq_right hrest]

/-- A key that is held is released. -/
theorem Balanced.release (h : Balanced balance ((k, amount) :: held) taken released) :
    Balanced (release balance amount) held taken (k :: released) where
  sum := h.release_eq
  nodup := (List.nodup_cons.1 h.nodup).2
  known := fun k' hk' => h.known k' (List.mem_cons_of_mem _ hk')
  nonneg := fun x hx => h.nonneg x (List.mem_cons_of_mem _ hx)
  once := by
    intro k' hk' hout
    by_cases heq : k' = k
    · have hnone : k ∉ released := fun hin => (h.gone k hin).2 (List.mem_cons_self ..)
      rw [heq, List.count_cons_self, List.count_eq_zero.2 hnone]
    · rw [List.count_cons_of_ne (Ne.symm heq)]
      refine h.once k' hk' (fun hin => ?_)
      exact hout ((List.mem_cons.1 hin).resolve_left heq)
  gone := by
    intro k' hk'
    rcases List.mem_cons.1 hk' with rfl | hk'
    · exact ⟨h.known k' (List.mem_cons_self ..), (List.nodup_cons.1 h.nodup).1⟩
    · obtain ⟨hin, hout⟩ := h.gone k' hk'
      exact ⟨hin, fun hheld => hout (List.mem_cons_of_mem _ hheld)⟩

/-- Keys that are held are released one after the other. -/
theorem Balanced.releaseAll {xs : List (κ × α)}
    (h : Balanced balance (xs ++ held) taken released) :
    Balanced (releaseAll balance xs) held taken (xs.map Prod.fst ++ released) := by
  induction xs generalizing balance released with
  | nil => exact h
  | cons x xs ih => exact (ih h.release).perm_released List.perm_middle.symm

end Ledger
