import Mathlib.Data.List.Basic
import Mathlib.Data.List.Destutter

set_option autoImplicit false

/-! # The last write wins

A cell that a sequence of actions overwrites, where an action may leave it alone: at the end it holds
what the last action that concerned it has written.

The last action that concerns the cell splits the sequence in two, and nothing before it matters.
Several cells that one sequence of actions writes to are treated one by one, each with the actions
that concern it.

A publisher that suppresses what it published last is such a cell too: what it remembers is the last
value up to sameness. -/

namespace LastWrite

variable {α β δ σ : Type*}

/-- What the last of the actions that write has written. -/
def last (word : α → Option δ) (l : List α) : Option δ := (l.filterMap word).getLast?

variable {word : α → Option δ}

@[simp] theorem last_nil : last word [] = none := rfl

theorem last_append (l l' : List α) : last word (l ++ l') = (last word l').or (last word l) := by
  rw [last, List.filterMap_append, List.getLast?_append]
  rfl

theorem last_singleton (a : α) : last word [a] = word a := by
  cases h : word a <;> simp [last, h]

theorem last_cons (a : α) (l : List α) : last word (a :: l) = (last word l).or (word a) := by
  rw [← List.singleton_append, last_append, last_singleton]

theorem last_map (f : β → α) (l : List β) : last word (l.map f) = last (fun b => word (f b)) l := by
  rw [last, List.filterMap_map]
  rfl

theorem last_filter (p : α → Bool) (l : List α) :
    last word (l.filter p) = last (fun a => if p a then word a else none) l := by
  rw [last, List.filterMap_filter]
  rfl

theorem last_eq_none {l : List α} : last word l = none ↔ ∀ a ∈ l, word a = none := by
  rw [last, List.getLast?_eq_none_iff, List.filterMap_eq_nil_iff]

theorem exists_of_last {l : List α} {x : δ} (h : last word l = some x) : ∃ a ∈ l, word a = some x :=
  List.mem_filterMap.1 (List.mem_of_getLast? h)

/-- A cell into which all that write write the same holds it, if one writes. -/
theorem last_of_forall {l : List α} {x : δ} {a : α} (ha : a ∈ l) (hword : word a = some x)
    (hsame : ∀ b ∈ l, ∀ y, word b = some y → y = x) : last word l = some x := by
  cases hlast : last word l with
  | none => rw [last_eq_none.1 hlast a ha] at hword; cases hword
  | some y =>
      obtain ⟨b, hb, hy⟩ := exists_of_last hlast
      rw [hsame b hb y hy]

theorem last_congr {word' : α → Option δ} {l : List α} (h : ∀ a ∈ l, word a = word' a) :
    last word l = last word' l := by
  rw [last, List.filterMap_congr h]
  rfl

/-- A cell that each step overwrites with its word. -/
theorem read_foldl {step : σ → α → σ} (read : σ → δ)
    (hstep : ∀ s a, read (step s a) = (word a).getD (read s)) (l : List α) (s : σ) :
    read (l.foldl step s) = (last word l).getD (read s) := by
  induction l generalizing s with
  | nil => rfl
  | cons a l ih => rw [List.foldl_cons, ih, hstep, last_cons, Option.getD_or]

end LastWrite

/-! ## Suppressing what was published last

Values are published one after the other, except those that are the same as the last one published. The
memory holds one value only, so that several different values are published again whenever they come
again (`silent_again_iff`). -/

namespace LastValue

variable {κ : Type*} (same : κ → κ → Prop) [DecidableRel same]

/-- The last value published before, and those that are published. -/
def kept (last : κ) (ks : List κ) : List κ := ks.destutter' (fun a b => ¬ same a b) last

/-- What is published of some values, each compared with the one published last. -/
def published (last : κ) (ks : List κ) : List κ := (kept same last ks).tail

/-- The value that is remembered afterwards. -/
def remembered (last : κ) (ks : List κ) : κ := (published same last ks).getLastD last

variable {same} {last k : κ} {ks : List κ}

theorem kept_eq (last : κ) (ks : List κ) : kept same last ks = last :: published same last ks := by
  induction ks generalizing last with
  | nil => rfl
  | cons k ks ih =>
      by_cases hk : same last k
      · rw [published, kept, List.destutter'_cons_neg _ (not_not.2 hk)]
        exact ih last
      · rw [published, kept, List.destutter'_cons_pos _ hk]
        rfl

@[simp] theorem published_nil : published same last [] = [] := rfl

@[simp] theorem remembered_nil : remembered same last [] = last := rfl

theorem published_cons_of_same (h : same last k) :
    published same last (k :: ks) = published same last ks := by
  rw [published, kept, List.destutter'_cons_neg _ (not_not.2 h)]
  rfl

theorem published_cons_of_not_same (h : ¬ same last k) :
    published same last (k :: ks) = k :: published same k ks := by
  rw [published, kept, List.destutter'_cons_pos _ h, List.tail_cons]
  exact kept_eq k ks

theorem remembered_cons_of_same (h : same last k) :
    remembered same last (k :: ks) = remembered same last ks := by
  rw [remembered, remembered, published_cons_of_same h]

theorem remembered_cons_of_not_same (h : ¬ same last k) :
    remembered same last (k :: ks) = remembered same k ks := by
  rw [remembered, remembered, published_cons_of_not_same h, List.getLastD_cons]

/-- Nothing is published if everything is the same as the last value. -/
theorem published_eq_nil_iff : published same last ks = [] ↔ ∀ k ∈ ks, same last k := by
  induction ks with
  | nil => simp
  | cons k ks ih =>
      by_cases hk : same last k
      · rw [published_cons_of_same hk, ih, List.forall_mem_cons, and_iff_right hk]
      · rw [published_cons_of_not_same hk]
        exact iff_of_false (List.cons_ne_nil _ _) (fun h => hk (h k (List.mem_cons_self ..)))

theorem remembered_of_silent (h : published same last ks = []) : remembered same last ks = last := by
  rw [remembered, h, List.getLastD_nil]

/-- What is remembered after something was published differs from a value that came before. -/
theorem remembered_of_not_silent (h : published same last ks ≠ []) :
    remembered same last ks ∈ ks ∧ ∃ k ∈ last :: ks, ¬ same k (remembered same last ks) := by
  induction ks generalizing last with
  | nil => exact absurd rfl h
  | cons k ks ih =>
      by_cases hk : same last k
      · rw [published_cons_of_same hk] at h
        rw [remembered_cons_of_same hk]
        obtain ⟨hmem, k', hk', hdiffers⟩ := ih h
        refine ⟨List.mem_cons_of_mem _ hmem, k', ?_, hdiffers⟩
        simp only [List.mem_cons] at hk' ⊢
        tauto
      · rw [remembered_cons_of_not_same hk]
        by_cases hsilent : published same k ks = []
        · rw [remembered_of_silent hsilent]
          exact ⟨List.mem_cons_self .., last, List.mem_cons_self .., hk⟩
        · obtain ⟨hmem, k', hk', hdiffers⟩ := ih hsilent
          exact ⟨List.mem_cons_of_mem _ hmem, k', List.mem_cons_of_mem _ hk', hdiffers⟩

/-- The same values are not published again, whatever was remembered first, if and only if they are all
    the same. -/
theorem silent_again_iff (hsymm : ∀ a ∈ ks, ∀ b ∈ ks, same a b → same b a) :
    (∀ last, published same (remembered same last ks) ks = []) ↔ ∀ a ∈ ks, ∀ b ∈ ks, same a b := by
  simp only [published_eq_nil_iff]
  constructor
  · intro h a ha
    have hsilent : published same a ks = [] := by
      by_contra hne
      obtain ⟨hmem, k, hk, hdiffers⟩ := remembered_of_not_silent hne
      have hkmem : k ∈ ks := (List.mem_cons.1 hk).elim (fun heq => heq ▸ ha) id
      exact hdiffers (hsymm _ hmem k hkmem (h a k hkmem))
    have hall := h a
    rwa [remembered_of_silent hsilent] at hall
  · intro h last
    by_cases hsilent : published same last ks = []
    · rw [remembered_of_silent hsilent]
      exact published_eq_nil_iff.1 hsilent
    · exact h _ (remembered_of_not_silent hsilent).1

/-- What is remembered is the same as the value that came last. -/
theorem same_remembered (hlast : ks.getLast? = some k) (hrefl : same k k) :
    same (remembered same last ks) k := by
  induction ks generalizing last with
  | nil => cases hlast
  | cons k' ks ih =>
      by_cases hk : same last k'
      · rw [remembered_cons_of_same hk]
        cases ks with
        | nil =>
            cases hlast
            exact hk
        | cons _ _ => exact ih (by simpa using hlast)
      · rw [remembered_cons_of_not_same hk]
        cases ks with
        | nil =>
            cases hlast
            exact hrefl
        | cons _ _ => exact ih (by simpa using hlast)

/-- Other values are not published after some, whatever was remembered first, if and only if they are
    the one that came last; different values must not be the same. -/
theorem silent_after_iff {js : List κ} (hrefl : ∀ j ∈ js, same j j)
    (hdistinct : ∀ j ∈ js, ∀ k ∈ js ++ ks, same j k → j = k) (hnone : ∃ last, ∀ k, ¬ same last k) :
    (∀ last, published same (remembered same last js) ks = []) ↔
      ∀ k ∈ ks, js.getLast? = some k := by
  simp only [published_eq_nil_iff]
  constructor
  · intro h k hk
    obtain ⟨last, hnone⟩ := hnone
    have hsame := h last k hk
    by_cases hsilent : published same last js = []
    · rw [remembered_of_silent hsilent] at hsame
      exact absurd hsame (hnone k)
    · have hmem := (remembered_of_not_silent hsilent).1
      obtain ⟨j, hj⟩ := Option.isSome_iff_exists.1
        (List.getLast?_isSome.2 (List.ne_nil_of_mem hmem))
      have hjmem : j ∈ js := List.mem_of_getLast? hj
      have hj' := hdistinct _ hmem j (List.mem_append_left _ hjmem)
        (same_remembered hj (hrefl j hjmem))
      rw [hj, ← hj', hdistinct _ hmem k (List.mem_append_right _ hk) hsame]
  · intro h last k hk
    exact same_remembered (h k hk) (hrefl k (List.mem_of_getLast? (h k hk)))

end LastValue
