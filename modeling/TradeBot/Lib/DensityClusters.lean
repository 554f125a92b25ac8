import Mathlib.Data.Set.Basic
import Mathlib.Logic.Relation

set_option autoImplicit false

/-! # Density clusters

What DBSCAN computes, for points with a neighbourhood relation some of which are core points: the cores
linked by chains of neighbouring cores form a cluster, together with their neighbours. A labelling is
built cluster by cluster, where a border point stays in the first one that reaches it. `Partial.extend`
adds a cluster, and `Partial.clustering` says what has been reached when every core is labelled. -/

/-- A symmetric neighbourhood, in which every core is its own neighbour. -/
structure Density (α : Type*) where
  near : α → α → Prop
  core : α → Prop
  symm : ∀ {x y}, near x y → near y x
  refl : ∀ {x}, core x → near x x

namespace Density

variable {α : Type*} (D : Density α)

/-- A chain of cores. -/
def Linked : α → α → Prop := Relation.ReflTransGen (fun x y => D.near x y ∧ D.core x ∧ D.core y)

/-- The cores linked with `s`, and their neighbours. -/
def reach (s : α) : Set α := {y | ∃ x, D.Linked s x ∧ D.core x ∧ D.near x y}

/-- Clusters numbered up to `count`, each complete up to border points in other clusters. -/
structure Partial (label : α → Option ℕ) (count : ℕ) : Prop where
  lt_count : ∀ {x c}, label x = some c → c < count
  has_core : ∀ c < count, ∃ x, D.core x ∧ label x = some c
  near_ne_none : ∀ {x c y}, D.core x → label x = some c → D.near x y → label y ≠ none
  near_core : ∀ {x c y}, D.core x → label x = some c → D.near x y → D.core y → label y = some c
  linked : ∀ {x y c}, D.core x → D.core y → label x = some c → label y = some c → D.Linked x y
  border : ∀ {y c}, label y = some c → ∃ x, D.core x ∧ label x = some c ∧ D.near x y

/-- The definition of DBSCAN. -/
structure Clustering (label : α → Option ℕ) (count : ℕ) : Prop where
  lt_count : ∀ {x c}, label x = some c → c < count
  has_core : ∀ c < count, ∃ x, D.core x ∧ label x = some c
  core : ∀ {x}, D.core x → label x ≠ none
  linked_iff : ∀ {x y}, D.core x → D.core y → (label x = label y ↔ D.Linked x y)
  border : ∀ {x y}, ¬ D.core y → D.core x → D.near x y →
    ∃ x', D.core x' ∧ D.near x' y ∧ label y = label x'
  noise : ∀ {y}, (∀ x, D.core x → ¬ D.near x y) → label y = none

variable {D} {s x y z : α} {label : α → Option ℕ} {count : ℕ}

theorem Linked.symm (h : D.Linked x y) : D.Linked y x := by
  induction h with
  | refl => exact .refl
  | tail _ hstep ih => exact .head ⟨D.symm hstep.1, hstep.2.2, hstep.2.1⟩ ih

theorem Linked.core (h : D.Linked s x) (hs : D.core s) : D.core x := by
  cases h with
  | refl => exact hs
  | tail _ hstep => exact hstep.2.2

/-- A core in reach is linked. -/
theorem linked_of_mem_reach (h : y ∈ D.reach s) (hy : D.core y) : D.Linked s y := by
  obtain ⟨x, hlinked, hx, hnear⟩ := h
  exact hlinked.tail ⟨hnear, hx, hy⟩

theorem mem_reach_of_near (h : y ∈ D.reach s) (hy : D.core y) (hnear : D.near y z) : z ∈ D.reach s :=
  ⟨y, linked_of_mem_reach h hy, hy, hnear⟩

/-- A core that has not been labelled is linked with no labelled core. -/
theorem Partial.none_of_linked (h : D.Partial label count) (hnone : label s = none)
    (hlinked : D.Linked s x) : label x = none := by
  induction hlinked with
  | refl => exact hnone
  | @tail y z _ hstep ih =>
      cases hlabel : label z with
      | none => rfl
      | some c => exact absurd ih (h.near_ne_none hstep.2.2 hlabel (D.symm hstep.1))

/-! ## The next cluster -/

open Classical in
/-- The unlabelled points in reach of `s` form the next cluster. -/
noncomputable def extend (D : Density α) (label : α → Option ℕ) (s : α) (count : ℕ) : α → Option ℕ :=
  fun y => if label y = none ∧ y ∈ D.reach s then some count else label y

theorem extend_of_mem (hnone : label y = none) (hmem : y ∈ D.reach s) :
    D.extend label s count y = some count := if_pos ⟨hnone, hmem⟩

theorem extend_of_ne_none (h : label y ≠ none) : D.extend label s count y = label y :=
  if_neg (fun hnew => h hnew.1)

theorem extend_of_not_mem (h : y ∉ D.reach s) : D.extend label s count y = label y :=
  if_neg (fun hnew => h hnew.2)

/-- A label is new or an old one. -/
theorem extend_eq_some {c : ℕ} (h : D.extend label s count y = some c) :
    (label y = none ∧ y ∈ D.reach s ∧ c = count) ∨ label y = some c := by
  unfold extend at h
  split_ifs at h with hnew
  · exact Or.inl ⟨hnew.1, hnew.2, (Option.some.inj h).symm⟩
  · exact Or.inr h

theorem Partial.extend (h : D.Partial label count) (hs : D.core s) (hnone : label s = none) :
    D.Partial (D.extend label s count) (count + 1) := by
  have hnew {x : α} (hx : D.Linked s x) : D.extend label s count x = some count :=
    extend_of_mem (h.none_of_linked hnone hx) ⟨x, hx, hx.core hs, D.refl (hx.core hs)⟩
  -- a core has the new label if it is linked with `s`, and an old one otherwise
  have hcases {x : α} {c : ℕ} (hx : D.core x) (hlabel : D.extend label s count x = some c) :
      (c = count ∧ D.Linked s x) ∨ label x = some c :=
    (extend_eq_some hlabel).imp (fun hnew => ⟨hnew.2.2, linked_of_mem_reach hnew.2.1 hx⟩) id
  constructor
  · intro x c hlabel
    obtain ⟨-, -, rfl⟩ | hold := extend_eq_some hlabel
    · exact Nat.lt_succ_self _
    · exact Nat.lt_succ_of_lt (h.lt_count hold)
  · intro c hc
    rcases Nat.lt_succ_iff_lt_or_eq.1 hc with hc | rfl
    · obtain ⟨x, hx, hlabel⟩ := h.has_core c hc
      exact ⟨x, hx, (extend_of_ne_none (by simp [hlabel])).trans hlabel⟩
    · exact ⟨s, hs, hnew .refl⟩
  · intro x c y hx hlabel hnear
    obtain ⟨rfl, hlinked⟩ | hold := hcases hx hlabel
    · by_cases hy : label y = none
      · rw [extend_of_mem hy ⟨x, hlinked, hx, hnear⟩]
        exact Option.some_ne_none _
      · rwa [extend_of_ne_none hy]
    · have hy := h.near_ne_none hx hold hnear
      rwa [extend_of_ne_none hy]
  · intro x c y hx hlabel hnear hy
    obtain ⟨rfl, hlinked⟩ | hold := hcases hx hlabel
    · exact hnew (hlinked.tail ⟨hnear, hx, hy⟩)
    · have hlabel' := h.near_core hx hold hnear hy
      exact (extend_of_ne_none (by simp [hlabel'])).trans hlabel'
  · intro x y c hx hy hlabel hlabel'
    obtain ⟨rfl, hlinked⟩ | hold := hcases hx hlabel
    · obtain ⟨-, hlinked'⟩ | hold' := hcases hy hlabel'
      · exact hlinked.symm.trans hlinked'
      · exact absurd (h.lt_count hold') (Nat.lt_irrefl _)
    · obtain ⟨rfl, -⟩ | hold' := hcases hy hlabel'
      · exact absurd (h.lt_count hold) (Nat.lt_irrefl _)
      · exact h.linked hx hy hold hold'
  · intro y c hlabel
    obtain ⟨-, ⟨x, hlinked, hx, hnear⟩, rfl⟩ | hold := extend_eq_some hlabel
    · exact ⟨x, hx, hnew hlinked, hnear⟩
    · obtain ⟨x, hx, hlabel', hnear⟩ := h.border hold
      exact ⟨x, hx, (extend_of_ne_none (by simp [hlabel'])).trans hlabel', hnear⟩

theorem partial_empty (D : Density α) : D.Partial (fun _ => none) 0 where
  lt_count h := nomatch h
  has_core _ hc := absurd hc (Nat.not_lt_zero _)
  near_ne_none _ h := nomatch h
  near_core _ h := nomatch h
  linked _ _ h := nomatch h
  border h := nomatch h

/-! ## All clusters -/

theorem Partial.label_eq_of_linked (h : D.Partial label count)
    (hlabel : label x ≠ none) (hlinked : D.Linked x y) : label x = label y := by
  obtain ⟨c, hc⟩ := Option.ne_none_iff_exists'.1 hlabel
  rw [hc]
  induction hlinked with
  | refl => exact hc.symm
  | tail _ hstep ih => exact (h.near_core hstep.2.1 ih.symm hstep.1 hstep.2.2).symm

theorem Partial.clustering (h : D.Partial label count) (hall : ∀ x, D.core x → label x ≠ none) :
    D.Clustering label count where
  lt_count := h.lt_count
  has_core := h.has_core
  core hx := hall _ hx
  linked_iff {x y} hx hy := by
    constructor
    · intro heq
      obtain ⟨c, hc⟩ := Option.ne_none_iff_exists'.1 (hall x hx)
      exact h.linked hx hy hc (heq ▸ hc)
    · exact h.label_eq_of_linked (hall x hx)
  border {x y} _ hx hnear := by
    obtain ⟨c, hc⟩ := Option.ne_none_iff_exists'.1 (hall x hx)
    obtain ⟨c', hc'⟩ := Option.ne_none_iff_exists'.1 (h.near_ne_none hx hc hnear)
    obtain ⟨x', hx', hlabel, hnear'⟩ := h.border hc'
    exact ⟨x', hx', hnear', hc'.trans hlabel.symm⟩
  noise {y} hfar := by
    cases hlabel : label y with
    | none => rfl
    | some c =>
        obtain ⟨x, hx, -, hnear⟩ := h.border hlabel
        exact absurd hnear (hfar x hx)

end Density
