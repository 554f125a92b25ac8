import Mathlib.Algebra.Order.Monoid.Defs
import Mathlib.Algebra.BigOperators.Group.List.Basic
import Mathlib.Data.List.DropRight
import Mathlib.Order.Bounds.Image

set_option autoImplicit false

/-! # Cumulative sums and episodes

A one-sided CUSUM adds up increments and never falls below zero: it is the greatest sum of the newest
increments, however many of them are taken. An alarm that restarts its sum when it recovers adds up the
increments of an episode, which are those since the last recovery, and has been raised in an episode
if and only if one of the readings of the episode was a hit.

A sum that is also set back from outside starts anew there, so both descriptions hold from the last
restart on. What an alarm of the first kind says about a stretch of the sequence is a bound on its
sums; what one of the second kind says is only that a hit lies in the episode. -/

namespace Cusum

variable {K : Type*} [AddCommMonoid K] {l : List K} {s x : K}

/-- The sums of the newest increments. -/
def suffixSums (l : List K) : Set K := {s | ∃ suffix, suffix <:+ l ∧ suffix.sum = s}

theorem suffixSums_concat :
    suffixSums (l ++ [x]) = insert 0 ((fun s => s + x) '' suffixSums l) := by
  ext s
  constructor
  · rintro ⟨suffix, hsuffix, rfl⟩
    rcases List.suffix_concat_iff.1 hsuffix with rfl | ⟨before, rfl, hbefore⟩
    · exact .inl rfl
    · exact .inr ⟨before.sum, ⟨before, hbefore, rfl⟩, by simp⟩
  · rintro (rfl | ⟨_, ⟨before, hbefore, rfl⟩, rfl⟩)
    · exact ⟨[], List.nil_suffix, rfl⟩
    · exact ⟨before ++ [x], List.suffix_append_self_iff.2 hbefore, by simp⟩

variable [LinearOrder K]

theorem isGreatest_nil : IsGreatest (suffixSums ([] : List K)) 0 :=
  ⟨⟨[], List.suffix_rfl, rfl⟩, by rintro _ ⟨suffix, hsuffix, rfl⟩; simp [List.suffix_nil.1 hsuffix]⟩

/-- One update of the sum. -/
theorem isGreatest_concat [IsOrderedAddMonoid K] (h : IsGreatest (suffixSums l) s) :
    IsGreatest (suffixSums (l ++ [x])) (max 0 (s + x)) := by
  rw [suffixSums_concat]
  have hmono : Monotone (fun t : K => t + x) := fun _ _ hle => add_le_add_left hle x
  exact (Monotone.map_isGreatest hmono h).insert 0

end Cusum

namespace Episodes

variable {α : Type*} {ends hit : α → Bool} {h : List α} {a : α} {raised : Bool}

/-- The entries since the last one that ended an episode. -/
def episode (ends : α → Bool) (h : List α) : List α := h.rtakeWhile (fun a => !ends a)

@[simp] theorem episode_nil : episode ends [] = [] := List.rtakeWhile_nil _

theorem episode_of_ends (hends : ends a = true) : episode ends (h ++ [a]) = [] :=
  List.rtakeWhile_concat_neg _ _ _ (by simp [hends])

theorem episode_of_not_ends (hends : ends a = false) :
    episode ends (h ++ [a]) = episode ends h ++ [a] :=
  List.rtakeWhile_concat_pos _ _ _ (by simp [hends])

/-- The alarm is raised while its episode has a hit. -/
def Raised (ends hit : α → Bool) (h : List α) (raised : Bool) : Prop :=
  raised = true ↔ ∃ a ∈ episode ends h, hit a = true

theorem raised_nil : Raised ends hit [] false := by simp [Raised]

theorem Raised.of_last (hraised : Raised ends hit (h ++ [a]) raised)
    (hone : hit a = true → ends a = false) (hhit : hit a = true) : raised = true := by
  refine hraised.2 ⟨a, ?_, hhit⟩
  rw [episode_of_not_ends (hone hhit)]
  exact List.mem_append_right _ (List.mem_singleton_self a)

/-- A hit raises it, and the end of an episode alone takes it back. -/
theorem Raised.step (hraised : Raised ends hit h raised) (hone : hit a = true → ends a = false) :
    Raised ends hit (h ++ [a]) (hit a || raised && !ends a) := by
  cases hends : ends a with
  | true =>
      have hmiss : hit a = false := by
        rw [← Bool.not_eq_true]
        exact fun hhit => by simp [hone hhit] at hends
      simp [Raised, episode_of_ends hends, hmiss]
  | false =>
      rw [Raised] at hraised ⊢
      rw [episode_of_not_ends hends]
      simp only [Bool.not_false, Bool.and_true, Bool.or_eq_true, hraised, List.mem_append,
        List.mem_singleton]
      constructor
      · rintro (hhit | ⟨b, hb, hhit⟩)
        · exact ⟨a, .inr rfl, hhit⟩
        · exact ⟨b, .inl hb, hhit⟩
      · rintro ⟨b, hb | rfl, hhit⟩
        · exact .inr ⟨b, hb, hhit⟩
        · exact .inl hhit

end Episodes
