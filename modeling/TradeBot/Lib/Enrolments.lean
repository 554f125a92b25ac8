import Mathlib.Data.List.Nodup
import Mathlib.Data.List.Count
import Mathlib.Order.Nat

set_option autoImplicit false

/-! # Enrolments

A key is opened, later ended, and may then be opened again. A trace of such marks, latest first, names
each enrolment by its key and by how many times the key had been opened. `Tracked tr live` is what a
store keeps that ends only keys it holds: no enrolment ends twice.

The trace is kept beside the store and not in it. `open`, `end` and `endAll` are the three things a
store can do with its keys, each with what it adds to the trace. A store whose steps are made of
these tracks its keys in every run. -/

namespace Enrolments

variable {κ : Type*} [DecidableEq κ]

/-- What is noted of a key. -/
inductive Mark (κ : Type*)
  | opened (k : κ)
  | ended (k : κ)
  deriving DecidableEq

/-- How many times the key was opened. -/
def openings (k : κ) (tr : List (Mark κ)) : ℕ := tr.count (.opened k)

/-- The enrolments that ended, with repetitions if one ended more than once. -/
def endings : List (Mark κ) → List (κ × ℕ)
  | [] => []
  | .opened _ :: tr => endings tr
  | .ended k :: tr => (k, openings k tr) :: endings tr

variable {k k' : κ} {tr : List (Mark κ)} {live live' : κ → Prop}

@[simp] theorem openings_ended : openings k (.ended k' :: tr) = openings k tr := by
  rw [openings, openings, List.count_cons_of_ne (by simp)]

@[simp] theorem openings_opened_self : openings k (.opened k :: tr) = openings k tr + 1 :=
  List.count_cons_self

theorem openings_le_opened : openings k tr ≤ openings k (.opened k' :: tr) :=
  List.count_le_count_cons

theorem openings_opened_of_ne (h : k' ≠ k) : openings k (.opened k' :: tr) = openings k tr := by
  rw [openings, openings, List.count_cons_of_ne (by simpa using h)]

/-- The keys `live` are open, the enrolments that ended did so once, and none of them is open. -/
structure Tracked (tr : List (Mark κ)) (live : κ → Prop) : Prop where
  nodup : (endings tr).Nodup
  known : ∀ e ∈ endings tr, 1 ≤ e.2 ∧ e.2 ≤ openings e.1 tr
  current : ∀ e ∈ endings tr, live e.1 → e.2 < openings e.1 tr
  opened : ∀ k, live k → 1 ≤ openings k tr

theorem tracked_nil (h : ∀ k, ¬ live k) : Tracked [] live where
  nodup := List.nodup_nil
  known := by simp [endings]
  current := by simp [endings]
  opened := fun k hk => absurd hk (h k)

theorem Tracked.congr (h : Tracked tr live) (hiff : ∀ k, live' k ↔ live k) : Tracked tr live' where
  nodup := h.nodup
  known := h.known
  current := fun e he hlive => h.current e he ((hiff e.1).1 hlive)
  opened := fun k hk => h.opened k ((hiff k).1 hk)

/-- A key is opened. -/
theorem Tracked.open (h : Tracked tr live) (k : κ) :
    Tracked (.opened k :: tr) (fun k' => k' = k ∨ live k') where
  nodup := h.nodup
  known := fun e he => ⟨(h.known e he).1, (h.known e he).2.trans openings_le_opened⟩
  current := by
    intro e he hlive
    by_cases heq : e.1 = k
    · rw [← heq, openings_opened_self]
      exact Nat.lt_succ_of_le (h.known e he).2
    · rw [openings_opened_of_ne (Ne.symm heq)]
      exact h.current e he (hlive.resolve_left heq)
  opened := by
    intro k' hk'
    by_cases heq : k' = k
    · rw [heq, openings_opened_self]
      exact Nat.le_add_left ..
    · exact (h.opened k' (hk'.resolve_left heq)).trans openings_le_opened

/-- A key that is held is ended, and held no longer. -/
theorem Tracked.end (h : Tracked tr live) (hk : live k) :
    Tracked (.ended k :: tr) (fun k' => live k' ∧ k' ≠ k) where
  nodup := by
    refine List.nodup_cons.2 ⟨fun hin => ?_, h.nodup⟩
    exact absurd (h.current _ hin hk) (lt_irrefl _)
  known := by
    intro e he
    rw [openings_ended]
    rcases List.mem_cons.1 he with rfl | he
    · exact ⟨h.opened k hk, le_rfl⟩
    · exact h.known e he
  current := by
    intro e he hlive
    rw [openings_ended]
    rcases List.mem_cons.1 he with rfl | he
    · exact absurd rfl hlive.2
    · exact h.current e he hlive.1
  opened := fun k' hk' => by simpa using h.opened k' hk'.1

/-- Different keys that are held are ended one after the other. -/
theorem Tracked.endAll {ks : List κ} (h : Tracked tr live) (hnodup : ks.Nodup)
    (hlive : ∀ k ∈ ks, live k) :
    Tracked ((ks.map Mark.ended).reverse ++ tr) (fun k => live k ∧ k ∉ ks) := by
  induction ks generalizing tr live with
  | nil => exact h.congr (fun k => by simp)
  | cons k ks ih =>
      rw [List.nodup_cons] at hnodup
      have hrest : ∀ k' ∈ ks, live k' ∧ k' ≠ k := by
        intro k' hk'
        exact ⟨hlive k' (List.mem_cons_of_mem _ hk'), fun heq => hnodup.1 (heq ▸ hk')⟩
      have hnext := ih (h.end (hlive k (List.mem_cons_self ..))) hnodup.2 hrest
      rw [List.map_cons, List.reverse_cons, List.append_assoc, List.singleton_append]
      exact hnext.congr (fun k' => by rw [List.mem_cons, not_or, and_assoc])

end Enrolments
