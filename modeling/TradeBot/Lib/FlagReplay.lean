import Mathlib.Data.List.Basic

set_option autoImplicit false

/-! # A flagged entry kept in step by messages

An entry is absent, or present with a flag. Its owner reports every change of it, and a copy replays
the reports in their order. An entry that is written to the copy between two reports may be behind
them: `replay_eq_iff_inTime` says when the reports still under way put the copy right. -/

namespace FlagReplay

/-- What a report is to the entry. -/
inductive News
  | set (flag : Bool)
  | clear
  | raise
  | clearRaised
  | other
  deriving DecidableEq

/-- The entry after a report; `none` is an absent one. -/
def News.apply : News → Option Bool → Option Bool
  | .set flag, _ => some flag
  | .clear, _ => none
  | .raise, e => e.map (fun _ => true)
  | .clearRaised, some true => none
  | .clearRaised, e => e
  | .other, e => e

/-- After such a report it no longer matters what the entry was. -/
def News.overwrites : News → Bool
  | .set _ => true
  | .clear => true
  | _ => false

/-- The entry after some reports, applied in their order. -/
def replay (news : List News) (e : Option Bool) : Option Bool :=
  news.foldl (fun e n => n.apply e) e

/-- A report says outright what the entry is. -/
def Overwritten (news : List News) : Prop := ∃ n ∈ news, n.overwrites = true

/-- What the reports leave behind does not depend on what the entry was. -/
def Settles (news : List News) : Prop :=
  Overwritten news ∨ List.Sublist [.raise, .clearRaised] news

/-- An unflagged entry written now ends as the owner's entry `s`. -/
def InTime (news : List News) (s : Option Bool) : Prop :=
  Settles news ∨ s = some false ∨ s = some true ∧ .raise ∈ news

instance (news : List News) : Decidable (Overwritten news) :=
  inferInstanceAs (Decidable (∃ n ∈ news, n.overwrites = true))

instance (news : List News) : Decidable (Settles news) :=
  inferInstanceAs (Decidable (Or ..))

instance (news : List News) (s : Option Bool) : Decidable (InTime news s) :=
  inferInstanceAs (Decidable (Or ..))

variable {news news' : List News} {n : News} {e e' s : Option Bool}

@[simp] theorem replay_nil : replay [] e = e := rfl

@[simp] theorem replay_cons : replay (n :: news) e = replay news (n.apply e) := rfl

@[simp] theorem replay_append : replay (news ++ news') e = replay news' (replay news e) :=
  List.foldl_append

theorem overwritten_cons :
    Overwritten (n :: news) ↔ n.overwrites = true ∨ Overwritten news := by
  simp [Overwritten]

theorem apply_of_overwrites (h : n.overwrites = true) : n.apply e = n.apply e' := by
  cases n with
  | set _ => rfl
  | clear => rfl
  | raise => cases h
  | clearRaised => cases h
  | other => cases h

theorem replay_of_overwritten (h : Overwritten news) : replay news e = replay news e' := by
  induction news generalizing e e' with
  | nil => simp [Overwritten] at h
  | cons n news ih =>
      rw [replay_cons, replay_cons]
      rcases overwritten_cons.1 h with hn | hrest
      · rw [apply_of_overwrites hn]
      · exact ih hrest

/-! ## Reports that do not overwrite -/

theorem replay_none (h : ¬ Overwritten news) : replay news none = none := by
  induction news with
  | nil => rfl
  | cons n news ih =>
      rw [overwritten_cons, not_or] at h
      have hn : n.apply none = none := by
        cases n with
        | set _ => exact absurd rfl h.1
        | clear => rfl
        | raise => rfl
        | clearRaised => rfl
        | other => rfl
      rw [replay_cons, hn, ih h.2]

theorem replay_true (h : ¬ Overwritten news) :
    replay news (some true) = if .clearRaised ∈ news then none else some true := by
  induction news with
  | nil => rfl
  | cons n news ih =>
      rw [overwritten_cons, not_or] at h
      rw [replay_cons]
      cases n with
      | set _ => exact absurd rfl h.1
      | clear => exact absurd rfl h.1
      | raise => simpa [News.apply] using ih h.2
      | clearRaised => simpa [News.apply] using replay_none h.2
      | other => simpa [News.apply] using ih h.2

theorem replay_false (h : ¬ Overwritten news) :
    replay news (some false) = if List.Sublist [.raise, .clearRaised] news then none
      else some (decide (.raise ∈ news)) := by
  induction news with
  | nil => rfl
  | cons n news ih =>
      rw [overwritten_cons, not_or] at h
      rw [replay_cons]
      cases n with
      | set _ => exact absurd rfl h.1
      | clear => exact absurd rfl h.1
      | raise => simpa [News.apply] using replay_true h.2
      | clearRaised => simpa [News.apply, List.sublist_cons_iff] using ih h.2
      | other => simpa [News.apply, List.sublist_cons_iff] using ih h.2

theorem mem_of_raised_cleared (h : List.Sublist [.raise, .clearRaised] news) :
    .raise ∈ news ∧ .clearRaised ∈ news :=
  ⟨h.subset (by simp), h.subset (by simp)⟩

/-! ## Entries written late -/

theorem replay_of_settles (h : Settles news) : replay news e = replay news e' := by
  by_cases hover : Overwritten news
  · exact replay_of_overwritten hover
  · have hsub := h.resolve_left hover
    have hall : ∀ e, replay news e = none := by
      intro e
      rcases e with _ | _ | _
      · exact replay_none hover
      · rw [replay_false hover, if_pos hsub]
      · rw [replay_true hover, if_pos (mem_of_raised_cleared hsub).2]
    rw [hall e, hall e']

/-- An entry that is absent stays so, or the reports settle what it will be. -/
theorem replay_none_or (news : List News) :
    replay news none = none ∨ ∀ e e', replay news e = replay news e' := by
  by_cases hover : Overwritten news
  · exact Or.inr (fun e e' => replay_of_overwritten hover)
  · exact Or.inl (replay_none hover)

/-- The reports under way lead from some entry to the owner's. They lead there from an unflagged one
    too if and only if it is in time. -/
theorem replay_eq_iff_inTime (h : replay news e = s) :
    replay news (some false) = s ↔ InTime news s := by
  by_cases hset : Settles news
  · exact iff_of_true ((replay_of_settles hset).trans h) (Or.inl hset)
  · obtain ⟨hover, hsub⟩ := not_or.1 hset
    have hfalse := replay_false hover
    rw [if_neg hsub] at hfalse
    rw [InTime, or_iff_right hset, hfalse]
    constructor
    · rintro rfl
      by_cases hraise : .raise ∈ news
      · exact Or.inr ⟨by rw [decide_eq_true hraise], hraise⟩
      · exact Or.inl (by rw [decide_eq_false hraise])
    · rintro (rfl | ⟨rfl, hraise⟩)
      · rcases e with _ | _ | _
        · rw [replay_none hover] at h
          cases h
        · exact hfalse ▸ h
        · rw [replay_true hover] at h
          split at h <;> cases h
      · rw [decide_eq_true hraise]

/-! ## Copies behind their owner -/

/-- The reports under way take the copy to the owner's entry, or to an absent one, which is excused by
    `P`. -/
structure Tracks (news : List News) (copy owner : Option Bool) (P : Prop) : Prop where
  reported : ∃ e, replay news e = owner
  caughtUp : replay news copy = owner ∨ replay news copy = none ∧ P

namespace Tracks

variable {copy owner owner' : Option Bool} {P P' : Prop}

theorem of_eq (h : replay news copy = owner) : Tracks news copy owner P := ⟨⟨copy, h⟩, Or.inl h⟩

theorem mono (himp : P → P') (h : Tracks news copy owner P) : Tracks news copy owner P' :=
  ⟨h.reported, h.caughtUp.imp id (And.imp id himp)⟩

/-- The owner's entry changes, and the change is reported. -/
theorem report (h : Tracks news copy owner P) (howner : replay news' owner = owner')
    (hP : P → P' ∨ owner' = none ∨ Overwritten news') :
    Tracks (news ++ news') copy owner' P' := by
  obtain ⟨e, he⟩ := h.reported
  refine ⟨⟨e, by rw [replay_append, he, howner]⟩, ?_⟩
  rw [replay_append]
  rcases h.caughtUp with hcopy | ⟨hcopy, hp⟩
  · exact Or.inl (by rw [hcopy, howner])
  · rw [hcopy]
    by_cases hover : Overwritten news'
    · exact Or.inl ((replay_of_overwritten hover).trans howner)
    · rw [replay_none hover]
      rcases hP hp with hp' | hnone | hover'
      · exact Or.inr ⟨rfl, hp'⟩
      · exact Or.inl hnone.symm
      · exact absurd hover' hover

/-- The first report reaches the copy. -/
theorem deliver (h : Tracks (n :: news) copy owner P) : Tracks news (n.apply copy) owner P := by
  obtain ⟨e, he⟩ := h.reported
  exact ⟨⟨n.apply e, he⟩, h.caughtUp⟩

/-- The copy is dropped. -/
theorem drop (hp : P') (h : Tracks news copy owner P) : Tracks news none owner P' := by
  obtain ⟨e, he⟩ := h.reported
  refine ⟨⟨e, he⟩, ?_⟩
  rcases replay_none_or news with hnone | hall
  · exact Or.inr ⟨hnone, hp⟩
  · exact Or.inl ((hall none e).trans he)

/-- An unflagged copy is written in time. -/
theorem write (h : Tracks news copy owner P) (hin : InTime news owner) :
    Tracks news (some false) owner P := by
  obtain ⟨e, he⟩ := h.reported
  exact of_eq ((replay_eq_iff_inTime he).2 hin)

/-- Once all reports have arrived the copy is the owner's entry. -/
theorem eq_of_quiet (hp : ¬ P) (h : Tracks [] copy owner P) : copy = owner :=
  h.caughtUp.resolve_right (fun hex => hp hex.2)

end Tracks

end FlagReplay
