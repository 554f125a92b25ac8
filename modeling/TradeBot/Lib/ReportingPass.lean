import Mathlib.Data.List.Infix

set_option autoImplicit false

/-! # Passes that report what they change

A loop brings a state up to date and logs what it changes. A turn that logs nothing has found its part
settled and has left what one sees of the state as it was; then the same holds of the loop, which is
silent exactly if everything is settled (`Reports.foldl`).

Being settled is a property of the state before the loop. A turn that reports may leave any state
behind, so after the first report nothing is claimed about the rest of the loop. -/

namespace ReportingPass

variable {σ Ω α β : Type*} {see : σ → Ω} {log : σ → List β}

/-- A move of the state that is silent exactly if `settled` holds of what one sees. -/
structure Reports (see : σ → Ω) (log : σ → List β) (settled : Ω → Prop) (s s' : σ) : Prop where
  grows : log s <+: log s'
  silent_iff : log s' = log s ↔ settled (see s)
  kept : log s' = log s → see s' = see s

variable {settled settled' : Ω → Prop} {s s' s'' : σ}

theorem Reports.refl (s : σ) : Reports see log (fun _ => True) s s :=
  ⟨List.prefix_rfl, iff_of_true rfl trivial, fun _ => rfl⟩

/-- A turn that finds its part settled. -/
theorem Reports.silent (hsettled : settled (see s)) (hlog : log s' = log s) (hsee : see s' = see s) :
    Reports see log settled s s' :=
  ⟨by rw [hlog], iff_of_true hlog hsettled, fun _ => hsee⟩

/-- A turn that logs something because its part is not settled. -/
theorem Reports.report (new : β) (hsettled : ¬ settled (see s)) (hlog : log s' = log s ++ [new]) :
    Reports see log settled s s' := by
  have hne : log s' ≠ log s := by
    rw [hlog, ne_eq, List.append_right_eq_self]
    exact List.cons_ne_nil _ _
  exact ⟨by rw [hlog]; exact List.prefix_append _ _, iff_of_false hne hsettled,
    fun hsame => absurd hsame hne⟩

theorem Reports.trans (h : Reports see log settled s s') (h' : Reports see log settled' s' s'') :
    Reports see log (fun o => settled o ∧ settled' o) s s'' := by
  -- a log that ends as it began has not grown in between
  have hmiddle (hsame : log s'' = log s) : log s' = log s :=
    (hsame ▸ h'.grows : log s' <+: log s).eq_of_length_le h.grows.length_le
  refine ⟨h.grows.trans h'.grows, ?_, fun hsame => ?_⟩
  · constructor
    · intro hsame
      have hfirst := hmiddle hsame
      refine ⟨h.silent_iff.1 hfirst, ?_⟩
      rw [← h.kept hfirst]
      exact h'.silent_iff.1 (hsame.trans hfirst.symm)
    · rintro ⟨hsettled, hsettled'⟩
      have hfirst := h.silent_iff.2 hsettled
      rw [← h.kept hfirst] at hsettled'
      exact (h'.silent_iff.2 hsettled').trans hfirst
  · have hfirst := hmiddle hsame
    exact (h'.kept (hsame.trans hfirst.symm)).trans (h.kept hfirst)

theorem Reports.congr (h : Reports see log settled s s') (hiff : ∀ o, settled o ↔ settled' o) :
    Reports see log settled' s s' :=
  ⟨h.grows, h.silent_iff.trans (hiff _), h.kept⟩

/-- A loop whose turns report what they change reports what it changes. -/
theorem Reports.foldl {f : σ → α → σ} {settledAt : α → Ω → Prop} {l : List α}
    (h : ∀ s, ∀ a ∈ l, Reports see log (settledAt a) s (f s a)) (s : σ) :
    Reports see log (fun o => ∀ a ∈ l, settledAt a o) s (l.foldl f s) := by
  induction l generalizing s with
  | nil => exact (Reports.refl s).congr (fun o => by simp)
  | cons a l ih =>
      have hrest := ih (fun s b hb => h s b (List.mem_cons_of_mem _ hb)) (f s a)
      exact ((h s a (List.mem_cons_self ..)).trans hrest).congr (fun o => by simp)

end ReportingPass
