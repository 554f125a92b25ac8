import Mathlib.Data.List.Chain
import Mathlib.Logic.Function.Basic

set_option autoImplicit false

/-! # Logs of switches

A log of events each of which switches a key on or off. `lit` is what a reader of the log takes a key
for, all keys being off at first. A log that only holds real changes alternates at every key, and
follows the switches (`Tracks`).

A log in which a switch is repeated still says the same at its end, so that it alternates is a
condition of its own beside `lit`. -/

namespace Switches

variable {α κ : Type*} [DecidableEq κ] (key : α → κ) (on : α → Bool)

/-- What the log says about one key, oldest first. -/
def flags (log : List α) (k : κ) : List Bool := (log.filter (fun a => decide (key a = k))).map on

/-- The key after replaying the log. -/
def lit (log : List α) (k : κ) : Bool := ((flags key on log k).getLast?).getD false

/-- On, off, on, and so forth. -/
def Alternating (bs : List Bool) : Prop := List.IsChain (· ≠ ·) (false :: bs)

instance : DecidablePred Alternating := fun bs =>
  inferInstanceAs (Decidable (List.IsChain (· ≠ ·) (false :: bs)))

/-- The log mirrors the switches, and holds changes only. -/
structure Tracks (log : List α) (f : κ → Bool) : Prop where
  lit : ∀ k, lit key on log k = f k
  alternating : ∀ k, Alternating (flags key on log k)

variable {key on} {log : List α} {f : κ → Bool} {a : α}

theorem flags_concat (k : κ) :
    flags key on (log ++ [a]) k = flags key on log k ++ if key a = k then [on a] else [] := by
  by_cases hk : key a = k
  · simp [flags, hk]
  · simp [flags, hk]

theorem lit_concat (k : κ) :
    lit key on (log ++ [a]) k = if key a = k then on a else lit key on log k := by
  rw [lit, flags_concat]
  by_cases hk : key a = k
  · simp [hk]
  · simp [hk, lit]

theorem Alternating.concat {bs : List Bool} {b : Bool} (h : Alternating bs)
    (hb : b ≠ bs.getLast?.getD false) : Alternating (bs ++ [b]) := by
  unfold Alternating at h ⊢
  rw [← List.cons_append, List.isChain_append]
  refine ⟨h, List.isChain_singleton _, fun x hx y hy => ?_⟩
  obtain rfl := Option.mem_some_iff.1 hy
  rw [List.getLast?_cons, Option.mem_some_iff] at hx
  exact fun heq => hb (by rw [hx, heq])

theorem tracks_nil : Tracks key on [] (fun _ => false) where
  lit _ := rfl
  alternating _ := List.isChain_singleton _

/-- A change is logged. -/
theorem Tracks.switch (h : Tracks key on log f) (hchange : on a ≠ f (key a)) :
    Tracks key on (log ++ [a]) (Function.update f (key a) (on a)) where
  lit k := by
    rw [lit_concat]
    by_cases hk : key a = k
    · rw [if_pos hk, ← hk, Function.update_self]
    · rw [if_neg hk, Function.update_of_ne (Ne.symm hk), h.lit k]
  alternating k := by
    rw [flags_concat]
    by_cases hk : key a = k
    · rw [if_pos hk]
      refine (h.alternating k).concat (fun heq => hchange ?_)
      rw [heq, hk]
      exact h.lit k
    · rw [if_neg hk, List.append_nil]
      exact h.alternating k

/-- What is no change need not be logged. -/
theorem Tracks.congr (h : Tracks key on log f) {f' : κ → Bool} (hf : ∀ k, f' k = f k) :
    Tracks key on log f' where
  lit k := (h.lit k).trans (hf k).symm
  alternating := h.alternating

/-- A change that is not logged shows at once. -/
theorem Tracks.not_silent (h : Tracks key on log f) {f' : κ → Bool} {k : κ} (hk : f' k ≠ f k) :
    ¬ Tracks key on log f' := fun h' => hk ((h'.lit k).symm.trans (h.lit k))

end Switches
