import Mathlib.Data.List.Infix
import TradeBot.Lib.Runs

set_option autoImplicit false

/-! # Properties of histories

A history is a list that only grows at its end. `AtEach R` says that every entry was justified by
what came before it; `Throughout Q` says that `Q` held at every moment. Both are proved along the
appends that make up the history.

`throughout_iff_along` is what a result about all runs comes from when a step keeps a property
exactly if it meets a condition. Where a property is decidable, so are the statements about a given
list, by its recursion, which lets a run be checked by evaluation. -/

namespace Histories

variable {α : Type*} {R : List α → α → Prop} {Q : List α → Prop} {h h' : List α}

/-- Every entry of the history is related by `R` to the entries before it. -/
def AtEach (R : List α → α → Prop) (h : List α) : Prop :=
  ∀ pre a post, h = pre ++ a :: post → R pre a

theorem atEach_nil : AtEach R [] := by
  intro pre a post heq
  simp at heq

theorem atEach_append :
    AtEach R (h ++ h') ↔ AtEach R h ∧ AtEach (fun pre a => R (h ++ pre) a) h' := by
  constructor
  · intro hall
    refine ⟨fun pre a post heq => hall pre a (post ++ h') (by simp [heq]), ?_⟩
    exact fun pre a post heq => hall (h ++ pre) a post (by simp [heq])
  · rintro ⟨hfst, hsnd⟩ pre a post heq
    rcases List.append_eq_append_iff.1 heq with ⟨mid, hmid, hrest⟩ | ⟨mid, hmid, hrest⟩
    · rw [hmid]
      exact hsnd mid a post hrest
    · cases mid with
      | nil =>
          rw [List.append_nil] at hmid
          rw [← hmid, ← List.append_nil h]
          exact hsnd [] a post hrest.symm
      | cons b mid =>
          obtain ⟨rfl, rfl⟩ := List.cons.inj hrest
          exact hfst pre a mid hmid

theorem atEach_singleton {a : α} : AtEach R [a] ↔ R [] a := by
  constructor
  · exact fun hall => hall [] a [] rfl
  · intro hR pre b post heq
    cases pre with
    | nil =>
        obtain ⟨rfl, _⟩ := List.cons.inj heq
        exact hR
    | cons c pre => simp at heq

theorem atEach_cons {a : α} : AtEach R (a :: h) ↔ R [] a ∧ AtEach (fun pre => R (a :: pre)) h := by
  have hsplit : AtEach R ([a] ++ h) ↔ AtEach R [a] ∧ AtEach (fun pre => R ([a] ++ pre)) h := atEach_append
  rwa [atEach_singleton] at hsplit

instance decidableAtEach {R : List α → α → Prop} [∀ pre a, Decidable (R pre a)] :
    ∀ h : List α, Decidable (AtEach R h)
  | [] => isTrue atEach_nil
  | a :: h =>
      have : Decidable (AtEach (fun pre => R (a :: pre)) h) := decidableAtEach h
      decidable_of_iff (R [] a ∧ AtEach (fun pre => R (a :: pre)) h) atEach_cons.symm

theorem AtEach.of_mem (hall : ∀ pre, ∀ a ∈ h, R pre a) : AtEach R h :=
  fun pre a _ heq => hall pre a (by simp [heq])

/-- `Q` holds of every prefix of the history. -/
def Throughout (Q : List α → Prop) (h : List α) : Prop := ∀ pre, pre <+: h → Q pre

theorem Throughout.last (hall : Throughout Q h) : Q h := hall h List.prefix_rfl

theorem throughout_append :
    Throughout Q (h ++ h') ↔ Throughout Q h ∧ Throughout (fun pre => Q (h ++ pre)) h' := by
  constructor
  · intro hall
    refine ⟨fun pre hpre => hall pre (hpre.trans (List.prefix_append ..)), fun pre hpre => ?_⟩
    exact hall (h ++ pre) ((List.prefix_append_right_inj h).2 hpre)
  · rintro ⟨hfst, hsnd⟩ pre hpre
    rcases List.prefix_or_prefix_of_prefix hpre (List.prefix_append h h') with hin | ⟨mid, rfl⟩
    · exact hfst pre hin
    · exact hsnd mid ((List.prefix_append_right_inj h).1 hpre)

theorem throughout_cons {a : α} :
    Throughout Q (a :: h) ↔ Q [] ∧ Throughout (fun pre => Q (a :: pre)) h := by
  constructor
  · exact fun hall => ⟨hall [] List.nil_prefix,
      fun pre hpre => hall (a :: pre) (List.cons_prefix_cons.2 ⟨rfl, hpre⟩)⟩
  · rintro ⟨hnil, hcons⟩ pre hpre
    cases pre with
    | nil => exact hnil
    | cons b pre =>
        obtain ⟨rfl, htail⟩ := List.cons_prefix_cons.1 hpre
        exact hcons pre htail

section

variable {σ : Type*} {step : σ → α → σ} {C : σ → α → Prop} (Inv : σ → Prop)

/-- A property that every admitted step keeps holds throughout the admitted runs. -/
theorem throughout_of_along (hstep : ∀ s a, Inv s → C s a → Inv (step s a)) {s : σ} (h0 : Inv s)
    (halong : Runs.Along step C s h) : Throughout (fun pre => Inv (pre.foldl step s)) h := by
  induction h generalizing s with
  | nil =>
      intro pre hpre
      rw [List.prefix_nil.1 hpre]
      exact h0
  | cons a h ih => exact throughout_cons.2 ⟨h0, ih (hstep s a h0 halong.1) halong.2⟩

/-- A run that keeps a property throughout meets what a step must meet to keep it. -/
theorem along_of_throughout (hneeds : ∀ s a, Inv s → Inv (step s a) → C s a) {s : σ}
    (hall : Throughout (fun pre => Inv (pre.foldl step s)) h) : Runs.Along step C s h := by
  induction h generalizing s with
  | nil => trivial
  | cons a h ih =>
      obtain ⟨hstart, hrest⟩ := throughout_cons.1 hall
      exact ⟨hneeds s a hstart (hrest [] List.nil_prefix), ih hrest⟩

/-- A property that a step keeps if and only if it meets `C` holds throughout the runs whose steps
    all meet `C`, and no others. -/
theorem throughout_iff_along (hiff : ∀ s a, Inv s → (Inv (step s a) ↔ C s a)) {s : σ} (h0 : Inv s) :
    Throughout (fun pre => Inv (pre.foldl step s)) h ↔ Runs.Along step C s h :=
  ⟨along_of_throughout Inv (fun s a hs => (hiff s a hs).1),
    throughout_of_along Inv (fun s a hs => (hiff s a hs).2) h0⟩

end

end Histories
