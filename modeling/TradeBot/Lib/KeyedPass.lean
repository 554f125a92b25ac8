import Mathlib.Data.List.Forall2
import Mathlib.Data.List.Nodup
import Mathlib.Logic.Relation

set_option autoImplicit false

/-! # Passes over a list of keyed objects that share a state

A loop `for (auto& x : xs)` whose body mutates `x` and a state `s` shared by all the objects is a
left-to-right pass `mapAccum`; a loop that stops at the first object it selects is `updateFirst?`.

What such a loop does to *one* object is its own turn, preceded and followed by the turns of the
others, which change the shared state but not the object. A `Frame` names the changes of the state
that are `foreign` to an object; `Frame.Move` is one turn of the object between two such changes
(an object that is left alone takes a turn that changes nothing). `Refines` says that a pass moves
every object. It composes: over two lists one after the other (`Refines.append`), hence over the
elements of one list (`refines_mapAccum`, `refines_updateFirst?`), over part of a longer list
(`Refines.inContext`), and in sequence (`Refines.seq`). -/

namespace KeyedPass

variable {α β σ κ : Type*}

/-! ## The two loops -/

/-- Visit every element from left to right, threading the state. -/
def mapAccum (f : σ → α → σ × α) : σ → List α → σ × List α
  | s, [] => (s, [])
  | s, a :: as =>
      let r := f s a
      let rs := mapAccum f r.1 as
      (rs.1, r.2 :: rs.2)

/-- Visit the first element that `sel` selects and stop; `none` if it selects no element. -/
def updateFirst? (sel : α → Option β) (f : σ → α → β → σ × α) : σ → List α → Option (σ × List α)
  | _, [] => none
  | s, a :: as =>
      match sel a with
      | some b => some ((f s a b).1, (f s a b).2 :: as)
      | none => (updateFirst? sel f s as).map (fun r => (r.1, a :: r.2))

theorem mem_mapAccum {f : σ → α → σ × α} {s : σ} {l : List α} {b : α}
    (h : b ∈ (mapAccum f s l).2) : ∃ s', ∃ a ∈ l, b = (f s' a).2 := by
  induction l generalizing s with
  | nil => simp [mapAccum] at h
  | cons a as ih =>
      rcases List.mem_cons.1 h with rfl | h
      · exact ⟨s, a, List.mem_cons_self .., rfl⟩
      · obtain ⟨s', x, hx, rfl⟩ := ih h
        exact ⟨s', x, List.mem_cons_of_mem _ hx, rfl⟩

/-- What every turn keeps of the shared state, the loop keeps. -/
theorem mapAccum_rel {R : σ → σ → Prop} {f : σ → α → σ × α} (hrefl : ∀ s, R s s)
    (htrans : ∀ {s s' s''}, R s s' → R s' s'' → R s s'') (h : ∀ s a, R s (f s a).1) (s : σ)
    (l : List α) : R s (mapAccum f s l).1 := by
  induction l generalizing s with
  | nil => exact hrefl s
  | cons a as ih => exact htrans (h s a) (ih (f s a).1)

/-- Actions collected from a list and performed in order, and the list mapped: one pass. -/
theorem mapAccum_eq_foldl_filterMap {f : σ → α → σ × α} {act : α → Option β} {exec : σ → β → σ}
    {mark : α → α} (hsome : ∀ s a b, act a = some b → f s a = (exec s b, mark a))
    (hnone : ∀ s a, act a = none → f s a = (s, mark a)) (s : σ) (l : List α) :
    mapAccum f s l = ((l.filterMap act).foldl exec s, l.map mark) := by
  induction l generalizing s with
  | nil => rfl
  | cons a as ih =>
      simp only [mapAccum, List.map_cons]
      cases hact : act a with
      | none => simp [ih, hnone s a hact, List.filterMap_cons_none hact]
      | some b => simp [ih, hsome s a b hact, List.filterMap_cons_some hact]

/-- The first selected element splits the list, and only it is replaced. -/
theorem updateFirst?_eq_some {sel : α → Option β} {f : σ → α → β → σ × α} {s : σ} {l : List α}
    {r : σ × List α} (h : updateFirst? sel f s l = some r) :
    ∃ pre a post b, l = pre ++ a :: post ∧ (∀ x ∈ pre, sel x = none) ∧ sel a = some b ∧
      r = ((f s a b).1, pre ++ (f s a b).2 :: post) := by
  induction l generalizing r with
  | nil => simp [updateFirst?] at h
  | cons a as ih =>
      simp only [updateFirst?] at h
      cases hsel : sel a with
      | some b =>
          simp only [hsel, Option.some.injEq] at h
          exact ⟨[], a, as, b, rfl, by simp, hsel, h.symm⟩
      | none =>
          simp only [hsel, Option.map_eq_some_iff] at h
          obtain ⟨r', hr', rfl⟩ := h
          obtain ⟨pre, x, post, b, rfl, hpre, hb, rfl⟩ := ih hr'
          refine ⟨a :: pre, x, post, b, rfl, ?_, hb, rfl⟩
          intro y hy
          rcases List.mem_cons.1 hy with rfl | hy
          · exact hsel
          · exact hpre y hy

theorem updateFirst?_eq_none {sel : α → Option β} {f : σ → α → β → σ × α} {s : σ} {l : List α} :
    updateFirst? sel f s l = none ↔ ∀ x ∈ l, sel x = none := by
  induction l with
  | nil => simp [updateFirst?]
  | cons a as ih =>
      cases hsel : sel a with
      | some b => simp [updateFirst?, hsel]
      | none => simp [updateFirst?, hsel, ih]

theorem updateFirst?_append {sel : α → Option β} {f : σ → α → β → σ × α} (s : σ) {pre : List α}
    {a : α} {b : β} (post : List α) (hpre : ∀ x ∈ pre, sel x = none) (ha : sel a = some b) :
    updateFirst? sel f s (pre ++ a :: post) = some ((f s a b).1, pre ++ (f s a b).2 :: post) := by
  induction pre with
  | nil => simp [updateFirst?, ha]
  | cons x xs ih =>
      have hx : sel x = none := hpre x (List.mem_cons_self ..)
      simp [updateFirst?, hx, ih (fun y hy => hpre y (List.mem_cons_of_mem _ hy))]

theorem updateFirst?_append_none {sel : α → Option β} {f : σ → α → β → σ × α} (s : σ)
    {pre : List α} (post : List α) (hpre : ∀ x ∈ pre, sel x = none) :
    updateFirst? sel f s (pre ++ post)
      = (updateFirst? sel f s post).map (fun r => (r.1, pre ++ r.2)) := by
  induction pre with
  | nil => simp
  | cons x xs ih =>
      have hx : sel x = none := hpre x (List.mem_cons_self ..)
      rw [List.cons_append, updateFirst?, hx]
      simp only [ih (fun y hy => hpre y (List.mem_cons_of_mem _ hy)), Option.map_map]
      rfl

/-! ## What a pass does to one object -/

/-- The identity of an object, and the changes of the shared state that do not concern it. -/
structure Frame (α σ κ : Type*) where
  key : α → κ
  foreign : κ → σ → σ → Prop
  foreign_refl : ∀ u s, foreign u s s
  foreign_trans : ∀ {u s s' s''}, foreign u s s' → foreign u s' s'' → foreign u s s''

namespace Frame

variable (L : Frame α σ κ)

/-- One turn of an object between two changes that do not concern it. -/
def Move (turn : α × σ → α × σ → Prop) (x y : α × σ) : Prop :=
  ∃ s₁ s₂, L.foreign (L.key x.1) x.2 s₁ ∧ turn (x.1, s₁) (y.1, s₂) ∧
    L.foreign (L.key x.1) s₂ y.2

/-- A turn keeps the object's key and is foreign to every other object. -/
structure Sound (turn : α × σ → α × σ → Prop) : Prop where
  key : ∀ {a a' s s'}, turn (a, s) (a', s') → L.key a' = L.key a
  foreign : ∀ {a a' s s'}, turn (a, s) (a', s') → ∀ u, u ≠ L.key a → L.foreign u s s'

variable {L} {turn turn' : α × σ → α × σ → Prop} {a a' : α} {s s' s'' : σ}

theorem Move.of_turn (h : turn (a, s) (a', s')) : L.Move turn (a, s) (a', s') :=
  ⟨s, s', L.foreign_refl .., h, L.foreign_refl ..⟩

theorem Move.precede (hpre : L.foreign (L.key a) s s') (h : L.Move turn (a, s') (a', s'')) :
    L.Move turn (a, s) (a', s'') := by
  obtain ⟨s₁, s₂, before, now, after⟩ := h
  exact ⟨s₁, s₂, L.foreign_trans hpre before, now, after⟩

theorem Move.follow (h : L.Move turn (a, s) (a', s')) (hpost : L.foreign (L.key a) s' s'') :
    L.Move turn (a, s) (a', s'') := by
  obtain ⟨s₁, s₂, before, now, after⟩ := h
  exact ⟨s₁, s₂, before, now, L.foreign_trans after hpost⟩

theorem Move.mono (himp : ∀ x y, turn x y → turn' x y) {x y : α × σ} (h : L.Move turn x y) :
    L.Move turn' x y := by
  obtain ⟨s₁, s₂, before, now, after⟩ := h
  exact ⟨s₁, s₂, before, himp _ _ now, after⟩

end Frame

/-- Every object of `l` moves to the object of `l'` at its place, and an object that is in neither
    list sees a foreign change. -/
structure Refines (L : Frame α σ κ) (turn : α × σ → α × σ → Prop) (s : σ) (l : List α) (s' : σ)
    (l' : List α) : Prop where
  keys : l'.map L.key = l.map L.key
  foreign : ∀ u, u ∉ l.map L.key → L.foreign u s s'
  moves : List.Forall₂ (fun a a' => L.Move turn (a, s) (a', s')) l l'

variable {L : Frame α σ κ} {turn turn₁ turn₂ : α × σ → α × σ → Prop} {s s' s'' : σ}
  {l l' l'' : List α}

/-- Weaken a pointwise relation using membership in the first list. -/
theorem forall₂_imp_mem {R S : α → β → Prop} {as : List α} {bs : List β}
    (himp : ∀ a ∈ as, ∀ b, R a b → S a b) (h : List.Forall₂ R as bs) : List.Forall₂ S as bs := by
  induction h with
  | nil => exact .nil
  | @cons a b as bs hd _ ih =>
      exact .cons (himp a (List.mem_cons_self ..) b hd)
        (ih (fun x hx => himp x (List.mem_cons_of_mem _ hx)))

theorem forall₂_comp {γ : Type*} {R : α → β → Prop} {S : β → γ → Prop} {T : α → γ → Prop}
    (hcomp : ∀ a b c, R a b → S b c → T a c) {as : List α} {bs : List β} {cs : List γ}
    (h : List.Forall₂ R as bs) (h' : List.Forall₂ S bs cs) : List.Forall₂ T as cs := by
  induction h generalizing cs with
  | nil =>
      cases h'
      exact .nil
  | cons hd _ ih =>
      cases h' with
      | cons hd' tl' => exact .cons (hcomp _ _ _ hd hd') (ih tl')

/-- What an element of the second list is related to. -/
theorem forall₂_exists_of_mem {R : α → β → Prop} {as : List α} {bs : List β}
    (h : List.Forall₂ R as bs) {b : β} (hb : b ∈ bs) : ∃ a ∈ as, R a b := by
  induction h with
  | nil => simp at hb
  | @cons a b' as bs hd _ ih =>
      rcases List.mem_cons.1 hb with rfl | hin
      · exact ⟨a, List.mem_cons_self .., hd⟩
      · obtain ⟨x, hx, hR⟩ := ih hin
        exact ⟨x, List.mem_cons_of_mem _ hx, hR⟩

/-- Likewise with membership in the second list. -/
theorem forall₂_imp_mem_right {R S : α → β → Prop} {as : List α} {bs : List β}
    (himp : ∀ a, ∀ b ∈ bs, R a b → S a b) (h : List.Forall₂ R as bs) : List.Forall₂ S as bs := by
  induction h with
  | nil => exact .nil
  | @cons a b as bs hd _ ih =>
      exact .cons (himp a b (List.mem_cons_self ..) hd)
        (ih (fun x y hy => himp x y (List.mem_cons_of_mem _ hy)))

/-- When every object may rest, so may all of them. -/
theorem Refines.rest {s : σ} {l : List α} (hrest : ∀ a ∈ l, turn (a, s) (a, s)) :
    Refines L turn s l s l where
  keys := rfl
  foreign := fun u _ => L.foreign_refl u s
  moves := List.forall₂_same.2 (fun a ha => .of_turn (hrest a ha))

theorem Refines.mono (himp : ∀ x y, turn₁ x y → turn₂ x y) (h : Refines L turn₁ s l s' l') :
    Refines L turn₂ s l s' l' where
  keys := h.keys
  foreign := h.foreign
  moves := h.moves.imp (fun _ _ => Frame.Move.mono himp)

theorem Refines.precede (hpre : ∀ u, L.foreign u s s') (h : Refines L turn s' l s'' l') :
    Refines L turn s l s'' l' where
  keys := h.keys
  foreign := fun u hu => L.foreign_trans (hpre u) (h.foreign u hu)
  moves := h.moves.imp (fun _ _ hmove => hmove.precede (hpre _))

/-- One turn refines the one-element list. -/
theorem Refines.single {a a' : α} (hs : L.Sound turn) (h : turn (a, s) (a', s')) :
    Refines L turn s [a] s' [a'] where
  keys := by simp [hs.key h]
  foreign := fun u hu => hs.foreign h u (by simpa using hu)
  moves := .cons (.of_turn h) .nil

/-- Passes over two lists of different objects, one after the other. -/
theorem Refines.append {k k' : List α} (h₁ : Refines L turn s l s' l')
    (h₂ : Refines L turn s' k s'' k') (hnd : ((l ++ k).map L.key).Nodup) :
    Refines L turn s (l ++ k) s'' (l' ++ k') := by
  rw [List.map_append, List.nodup_append'] at hnd
  obtain ⟨_, _, hdis⟩ := hnd
  refine ⟨by simp [h₁.keys, h₂.keys], ?_, ?_⟩
  · intro u hu
    rw [List.map_append, List.mem_append, not_or] at hu
    exact L.foreign_trans (h₁.foreign u hu.1) (h₂.foreign u hu.2)
  · refine List.rel_append (forall₂_imp_mem ?_ h₁.moves) (forall₂_imp_mem ?_ h₂.moves)
    · intro a ha a' hmove
      exact hmove.follow (h₂.foreign _ (hdis (List.mem_map_of_mem ha)))
    · intro a ha a' hmove
      exact hmove.precede (h₁.foreign _ (fun hmem => hdis hmem (List.mem_map_of_mem ha)))

/-- A pass over part of a list leaves the objects before and after it alone. -/
theorem Refines.inContext {pre post : List α} (hpre : ∀ a ∈ pre, turn (a, s) (a, s))
    (hpost : ∀ a ∈ post, turn (a, s') (a, s')) (h : Refines L turn s l s' l')
    (hnd : ((pre ++ l ++ post).map L.key).Nodup) :
    Refines L turn s (pre ++ l ++ post) s' (pre ++ l' ++ post) := by
  have hfront : Refines L turn s (pre ++ l) s' (pre ++ l') :=
    (Refines.rest hpre).append h (by rw [List.map_append] at hnd; exact hnd.of_append_left)
  exact hfront.append (.rest hpost) hnd

/-- Two passes over the same objects, when each object's two turns make up one turn. -/
theorem Refines.seq {turn₃ : α × σ → α × σ → Prop} (hs : L.Sound turn₁)
    (h₁ : Refines L turn₁ s l s' l') (h₂ : Refines L turn₂ s' l' s'' l'')
    (hcomp : ∀ {a a' a'' s₁ s₂ s₃ s₄}, turn₁ (a, s₁) (a', s₂) → L.foreign (L.key a) s₂ s₃ →
      turn₂ (a', s₃) (a'', s₄) → L.Move turn₃ (a, s₁) (a'', s₄)) :
    Refines L turn₃ s l s'' l'' where
  keys := h₂.keys.trans h₁.keys
  foreign := fun u hu =>
    L.foreign_trans (h₁.foreign u hu) (h₂.foreign u (by rw [h₁.keys]; exact hu))
  moves := by
    have compose : ∀ a b c, L.Move turn₁ (a, s) (b, s') → L.Move turn₂ (b, s') (c, s'') →
        L.Move turn₃ (a, s) (c, s'') := by
      intro a b c ⟨s₁, s₂, before, now, after⟩ ⟨s₃, s₄, before', now', after'⟩
      have hkey : L.key b = L.key a := hs.key now
      have mid : L.foreign (L.key a) s₂ s₃ := L.foreign_trans after (hkey ▸ before')
      exact ((hcomp now mid now').precede before).follow (hkey ▸ after')
    exact forall₂_comp compose h₁.moves h₂.moves

/-- A pass each of whose iterations is a turn refines the list, provided the keys are distinct. -/
theorem refines_mapAccum {f : σ → α → σ × α} (hs : L.Sound turn) (s : σ) (l : List α)
    (h : ∀ s, ∀ a ∈ l, turn (a, s) ((f s a).2, (f s a).1)) (hnd : (l.map L.key).Nodup) :
    Refines L turn s l (mapAccum f s l).1 (mapAccum f s l).2 := by
  induction l generalizing s with
  | nil => exact ⟨rfl, fun u _ => L.foreign_refl u s, .nil⟩
  | cons a as ih =>
      exact (Refines.single hs (h s a (List.mem_cons_self ..))).append
        (ih (f s a).1 (fun s x hx => h s x (List.mem_cons_of_mem _ hx)) (List.nodup_cons.1 hnd).2)
        hnd

/-- A pass that stops at the first selected element refines the list. -/
theorem refines_updateFirst? {sel : α → Option β} {f : σ → α → β → σ × α} {s : σ} {l : List α}
    {r : σ × List α} (hr : updateFirst? sel f s l = some r) (hs : L.Sound turn)
    (hrest : ∀ x, turn x x)
    (h : ∀ pre a post b, l = pre ++ a :: post → (∀ x ∈ pre, sel x = none) → sel a = some b →
      turn (a, s) ((f s a b).2, (f s a b).1))
    (hnd : (l.map L.key).Nodup) : Refines L turn s l r.1 r.2 := by
  obtain ⟨pre, a, post, b, rfl, hpre, hb, rfl⟩ := updateFirst?_eq_some hr
  have hone : Refines L turn s [a] (f s a b).1 [(f s a b).2] :=
    .single hs (h pre a post b rfl hpre hb)
  simpa using hone.inContext (fun x _ => hrest (x, s)) (fun x _ => hrest (x, (f s a b).1))
    (by simpa using hnd)

/-! ## Lists with distinct keys -/

/-- Take the element of a key out. -/
theorem perm_cons_filter_key [DecidableEq κ] {key : α → κ} {l : List α} {a : α}
    (hnd : (l.map key).Nodup) (ha : a ∈ l) :
    l.Perm (a :: l.filter (fun x => decide (key x ≠ key a))) := by
  induction l with
  | nil => simp at ha
  | cons x xs ih =>
      obtain ⟨hx, hnd⟩ := List.nodup_cons.1 hnd
      rcases List.mem_cons.1 ha with rfl | ha
      · have hkeep : xs.filter (fun y => decide (key y ≠ key a)) = xs := by
          refine List.filter_eq_self.2 (fun y hy => decide_eq_true (fun heq => hx ?_))
          exact heq ▸ List.mem_map_of_mem hy
        rw [List.filter_cons_of_neg (by simp), hkeep]
      · have hne : key x ≠ key a := fun heq => hx (heq ▸ List.mem_map_of_mem ha)
        rw [List.filter_cons_of_pos (by simp [hne])]
        exact ((ih hnd ha).cons x).trans (.swap ..)

end KeyedPass
