import Mathlib.Data.List.Basic
import Mathlib.Data.List.Induction

set_option autoImplicit false

/-! # Runs of a deterministic machine

A machine is a function `step : σ → ι → σ`; a run folds it over a list of inputs. `Along` demands a
condition of every step of a run, stated on the state before the step and its input, and
`Along.invariant` is the induction that all results about runs use.

`Along` is a recursion over the inputs, so it can be evaluated where the condition is decidable, and
it splits at an append. Most invariants need the condition for their own step only, and then the
plain `invariant` over all inputs does. -/

namespace Runs

variable {σ ι : Type*} {step : σ → ι → σ}

/-- Every step of the run from `s` over the inputs meets `C`. -/
def Along (step : σ → ι → σ) (C : σ → ι → Prop) : σ → List ι → Prop
  | _, [] => True
  | s, i :: is => C s i ∧ Along step C (step s i) is

instance decidableAlong {C : σ → ι → Prop} [∀ s i, Decidable (C s i)] :
    ∀ (s : σ) (is : List ι), Decidable (Along step C s is)
  | _, [] => inferInstanceAs (Decidable True)
  | s, i :: is =>
      have : Decidable (Along step C (step s i) is) := decidableAlong _ is
      inferInstanceAs (Decidable (C s i ∧ Along step C (step s i) is))

variable {C : σ → ι → Prop} {s : σ}

theorem along_of_mem {is : List ι} (h : ∀ i ∈ is, ∀ s, C s i) : Along step C s is := by
  induction is generalizing s with
  | nil => trivial
  | cons i is ih =>
      exact ⟨h i (List.mem_cons_self ..) s, ih (fun j hj => h j (List.mem_cons_of_mem _ hj))⟩

theorem Along.and {C' : σ → ι → Prop} {is : List ι} (h : Along step C s is)
    (h' : Along step C' s is) : Along step (fun s i => C s i ∧ C' s i) s is := by
  induction is generalizing s with
  | nil => trivial
  | cons i is ih => exact ⟨⟨h.1, h'.1⟩, ih h.2 h'.2⟩

/-- A condition on the steps follows from another with the help of an invariant. -/
theorem Along.imp {C' : σ → ι → Prop} (Inv : σ → Prop)
    (hstep : ∀ s i, Inv s → C s i → Inv (step s i)) (himp : ∀ s i, Inv s → C s i → C' s i)
    {is : List ι} (h : Along step C s is) (h0 : Inv s) : Along step C' s is := by
  induction is generalizing s with
  | nil => trivial
  | cons i is ih => exact ⟨himp s i h0 h.1, ih h.2 (hstep s i h0 h.1)⟩

theorem along_append {is js : List ι} :
    Along step C s (is ++ js) ↔ Along step C s is ∧ Along step C (is.foldl step s) js := by
  induction is generalizing s with
  | nil => simp [Along]
  | cons i is ih => simp [Along, ih, and_assoc]

/-- A property that every admitted step preserves holds at the end of every admitted run. -/
theorem Along.invariant (Inv : σ → Prop) (hstep : ∀ s i, Inv s → C s i → Inv (step s i))
    {is : List ι} (h : Along step C s is) (h0 : Inv s) : Inv (is.foldl step s) := by
  induction is generalizing s with
  | nil => exact h0
  | cons i is ih => exact ih h.2 (hstep s i h0 h.1)

/-- The same for a property that relates the state to the inputs so far. -/
theorem Along.invariant_history (Inv : List ι → σ → Prop)
    (hstep : ∀ done s i, Inv done s → C s i → Inv (done ++ [i]) (step s i)) {is : List ι}
    (h : Along step C s is) (h0 : Inv [] s) : Inv is (is.foldl step s) := by
  induction is using List.reverseRecOn with
  | nil => exact h0
  | append_singleton is i ih =>
      obtain ⟨hinit, hlast, -⟩ := along_append.1 h
      rw [List.foldl_append]
      exact hstep is _ i (ih hinit) hlast

/-- A property that every step preserves holds at the end of every run. -/
theorem invariant (Inv : σ → Prop) (hstep : ∀ s i, Inv s → Inv (step s i)) (is : List ι)
    (h0 : Inv s) : Inv (is.foldl step s) := by
  induction is generalizing s with
  | nil => exact h0
  | cons i is ih => exact ih (hstep s i h0)

end Runs
