import Mathlib.Data.List.Induction
import Mathlib.Data.Set.Insert
import Mathlib.Order.Defs.LinearOrder
import Mathlib.Order.Lattice

set_option autoImplicit false

/-! # The first maximum

A search that keeps the best score so far, and replaces it only by a better one, finds the first
candidate with the greatest score. Candidates without a score are passed over. -/

namespace FirstMaximum

variable {ι K : Type*} [LinearOrder K] {score score' : ι → Option K}

/-- One step of the search; the state is the best score so far and its candidate. -/
def step (score : ι → Option K) (best : K × ι) (i : ι) : K × ι :=
  match score i with
  | some r => if best.1 < r then (r, i) else best
  | none => best

theorem step_of_none {best : K × ι} {i : ι} (h : score i = none) : step score best i = best := by
  rw [step, h]

theorem step_of_some {best : K × ι} {i : ι} {r : K} (h : score i = some r) :
    step score best i = if best.1 < r then (r, i) else best := by
  rw [step, h]

variable [LinearOrder ι]

/-- `i` has the score `r`, no candidate of `s` a greater one, and none before `i` an equal one. -/
structure IsFirstMaximum (score : ι → Option K) (s : Set ι) (i : ι) (r : K) : Prop where
  mem : i ∈ s
  score_eq : score i = some r
  le : ∀ j ∈ s, ∀ x ∈ score j, x ≤ r
  first : ∀ j ∈ s, j < i → ∀ x ∈ score j, x < r

variable {s t : Set ι} {i j : ι} {r x : K}

theorem IsFirstMaximum.unique (h : IsFirstMaximum score s i r) (h' : IsFirstMaximum score s j x) :
    i = j := by
  rcases lt_trichotomy i j with hlt | heq | hgt
  · exact absurd (h'.first i h.mem hlt r h.score_eq) (not_lt.2 (h.le j h'.mem x h'.score_eq))
  · exact heq
  · exact absurd (h.first j h'.mem hgt x h'.score_eq) (not_lt.2 (h'.le i h.mem r h.score_eq))

theorem IsFirstMaximum.restrict (h : IsFirstMaximum score s i r) (hsub : t ⊆ s) (hi : i ∈ t) :
    IsFirstMaximum score t i r where
  mem := hi
  score_eq := h.score_eq
  le j hj := h.le j (hsub hj)
  first j hj := h.first j (hsub hj)

theorem IsFirstMaximum.congr (h : IsFirstMaximum score s i r) (heq : ∀ j ∈ s, score j = score' j) :
    IsFirstMaximum score' s i r where
  mem := h.mem
  score_eq := by rw [← heq i h.mem, h.score_eq]
  le j hj x hx := h.le j hj x (by rw [heq j hj]; exact hx)
  first j hj hlt x hx := h.first j hj hlt x (by rw [heq j hj]; exact hx)

/-- A later candidate whose score is not greater changes nothing. -/
theorem IsFirstMaximum.insert_of_le {k : ι} (h : IsFirstMaximum score s i r) (hik : i < k)
    (hk : ∀ x ∈ score k, x ≤ r) : IsFirstMaximum score (insert k s) i r where
  mem := .inr h.mem
  score_eq := h.score_eq
  le j hj x hx := by
    rcases hj with rfl | hold
    · exact hk x hx
    · exact h.le j hold x hx
  first j hj hlt x hx := by
    rcases hj with rfl | hold
    · exact absurd hlt (not_lt_of_gt hik)
    · exact h.first j hold hlt x hx

theorem isFirstMaximum_insert {k : ι} (hscore : score k = some r)
    (hbelow : ∀ j ∈ s, ∀ x ∈ score j, x < r) : IsFirstMaximum score (insert k s) k r where
  mem := .inl rfl
  score_eq := hscore
  le j hj x hx := by
    rcases hj with rfl | hold
    · rw [hscore] at hx
      exact (Option.some.inj hx).ge
    · exact (hbelow j hold x hx).le
  first j hj hjk x hx := by
    rcases hj with rfl | hold
    · exact absurd hjk (lt_irrefl j)
    · exact hbelow j hold x hx

theorem IsFirstMaximum.step {k : ι} (h : IsFirstMaximum score s i r) (hik : i < k) :
    ∃ j x, FirstMaximum.step score (r, i) k = (x, j) ∧ IsFirstMaximum score (insert k s) j x := by
  cases hk : score k with
  | none => exact ⟨i, r, step_of_none hk, h.insert_of_le hik (by simp [hk])⟩
  | some x =>
      rw [step_of_some hk]
      split
      · rename_i hbetter
        exact ⟨k, x, rfl, isFirstMaximum_insert hk fun j hj y hy => (h.le j hj y hy).trans_lt hbetter⟩
      · rename_i hnot
        exact ⟨i, r, rfl, h.insert_of_le hik (by simpa [hk] using hnot)⟩

/-- The first candidate with a score is better than the floor. -/
theorem step_floor {floor : K} {d k : ι} (hnone : ∀ j ∈ s, score j = none)
    (hfloor : ∀ x ∈ score k, floor < x) :
    (∃ x, FirstMaximum.step score (floor, d) k = (x, k) ∧ IsFirstMaximum score (insert k s) k x) ∨
    score k = none ∧ FirstMaximum.step score (floor, d) k = (floor, d) := by
  cases hk : score k with
  | none => exact .inr ⟨rfl, step_of_none hk⟩
  | some x =>
      rw [step_of_some hk, if_pos (hfloor x hk)]
      exact .inl ⟨x, rfl, isFirstMaximum_insert hk fun j hj => by simp [hnone j hj]⟩

/-- The search from a floor below all scores ends at the first maximum, or where it began when no
candidate has a score. -/
theorem foldl_step {l : List ι} (hl : l.Pairwise (· < ·)) {floor : K} {d : ι}
    (hfloor : ∀ j ∈ l, ∀ x ∈ score j, floor < x) :
    (∃ i r, l.foldl (step score) (floor, d) = (r, i) ∧ IsFirstMaximum score {j | j ∈ l} i r) ∨
    (∀ j ∈ l, score j = none) ∧ l.foldl (step score) (floor, d) = (floor, d) := by
  induction l using List.reverseRecOn with
  | nil => exact .inr ⟨by simp, rfl⟩
  | append_singleton l k ih =>
      obtain ⟨hl, -, hlast⟩ := List.pairwise_append.1 hl
      obtain ⟨hbefore, hk⟩ := List.forall_mem_append.1 hfloor
      have hset : {j | j ∈ l ++ [k]} = insert k {j | j ∈ l} := by
        ext j
        simp [or_comm]
      rw [List.foldl_append, List.foldl_cons, List.foldl_nil, hset]
      rcases ih hl hbefore with ⟨i, r, heq, hmax⟩ | ⟨hnone, heq⟩ <;> rw [heq]
      · obtain ⟨j, x, hstep, hmax⟩ := hmax.step (hlast i hmax.mem k (List.mem_singleton_self k))
        exact .inl ⟨j, x, hstep, hmax⟩
      · rcases step_floor hnone (hk k (List.mem_singleton_self k)) with ⟨x, hstep, hmax⟩ | ⟨hsk, hstep⟩
        · exact .inl ⟨k, x, hstep, hmax⟩
        · exact .inr ⟨List.forall_mem_append.2 ⟨hnone, List.forall_mem_singleton.2 hsk⟩, hstep⟩

end FirstMaximum
