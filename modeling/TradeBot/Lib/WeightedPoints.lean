import Mathlib.Algebra.BigOperators.Group.List.Basic
import Mathlib.Algebra.Order.BigOperators.Group.List
import Mathlib.Algebra.Order.Field.Basic
import Mathlib.Tactic.FieldSimp
import Mathlib.Tactic.Linarith
import Mathlib.Tactic.Positivity
import Mathlib.Tactic.Ring

set_option autoImplicit false

/-! # Weighted points

A sorted list of points with weights, made coarser by combining neighbours. Whatever decides which
neighbours are combined, the total weight stays, the list stays sorted and no mean leaves the range of
the points.

`Coarsens` relates a list to all those that some combining of neighbours leads to, any number of
times. What is proved of it holds of every rule by which a program decides what to combine. -/

/-- A point on the line and how much of a distribution stands for it. -/
structure WeightedPoint (K : Type*) where
  mean : K
  weight : K
  deriving DecidableEq

namespace WeightedPoint

variable {K : Type*} [Field K]

/-- Two points in one, at the mean of both. -/
def combine (a b : WeightedPoint K) : WeightedPoint K where
  mean := (a.mean * a.weight + b.mean * b.weight) / (a.weight + b.weight)
  weight := a.weight + b.weight

/-- The weight of all points. -/
def totalWeight (l : List (WeightedPoint K)) : K := (l.map weight).sum

theorem totalWeight_append (l l' : List (WeightedPoint K)) :
    totalWeight (l ++ l') = totalWeight l + totalWeight l' := by
  rw [totalWeight, List.map_append, List.sum_append, ← totalWeight, ← totalWeight]

theorem totalWeight_cons (p : WeightedPoint K) (l : List (WeightedPoint K)) :
    totalWeight (p :: l) = p.weight + totalWeight l := by
  rw [totalWeight, List.map_cons, List.sum_cons, ← totalWeight]

theorem totalWeight_perm {l l' : List (WeightedPoint K)} (h : l.Perm l') :
    totalWeight l = totalWeight l' := (h.map weight).sum_eq

/-- The second list is the first one with some runs of neighbours combined from the left. -/
inductive Coarsens : List (WeightedPoint K) → List (WeightedPoint K) → Prop
  | nil : Coarsens [] []
  | keep (a : WeightedPoint K) {l l' : List (WeightedPoint K)} : Coarsens l l' → Coarsens (a :: l) (a :: l')
  | combine (a b : WeightedPoint K) {l l' : List (WeightedPoint K)} :
      Coarsens (a.combine b :: l) l' → Coarsens (a :: b :: l) l'

variable {a b p : WeightedPoint K} {l l' : List (WeightedPoint K)}

theorem Coarsens.totalWeight_eq (h : Coarsens l l') : totalWeight l' = totalWeight l := by
  induction h with
  | nil => rfl
  | keep a _ ih => rw [totalWeight_cons, totalWeight_cons, ih]
  | combine a b _ ih =>
      rw [ih, totalWeight_cons, totalWeight_cons, totalWeight_cons, WeightedPoint.combine, add_assoc]

theorem Coarsens.ne_nil (h : Coarsens l l') (hl : l ≠ []) : l' ≠ [] := by
  induction h with
  | nil => exact hl
  | keep a _ _ => exact List.cons_ne_nil _ _
  | combine a b _ ih => exact ih (List.cons_ne_nil _ _)

section Order

variable [LinearOrder K] {lo hi : K}

/-- Every point stands for something. -/
def Positive (l : List (WeightedPoint K)) : Prop := ∀ p ∈ l, 0 < p.weight

omit [Field K] in
/-- The points lie in a range. -/
def Within (lo hi : K) (l : List (WeightedPoint K)) : Prop := ∀ p ∈ l, lo ≤ p.mean ∧ p.mean ≤ hi

omit [Field K] in
/-- The points stand in the order of their means; equal means are allowed. -/
def Sorted (l : List (WeightedPoint K)) : Prop := l.Pairwise fun a b => a.mean ≤ b.mean

theorem positive_cons : Positive (p :: l) ↔ 0 < p.weight ∧ Positive l := List.forall_mem_cons

variable [IsStrictOrderedRing K]

theorem Positive.totalWeight_nonneg (h : Positive l) : 0 ≤ totalWeight l := by
  refine List.sum_nonneg fun w hw => ?_
  obtain ⟨p, hp, rfl⟩ := List.mem_map.1 hw
  exact (h p hp).le

theorem combine_weight_pos (ha : 0 < a.weight) (hb : 0 < b.weight) : 0 < (a.combine b).weight :=
  add_pos ha hb

theorem le_combine_mean (ha : 0 < a.weight) (hb : 0 < b.weight) (hla : lo ≤ a.mean) (hlb : lo ≤ b.mean) :
    lo ≤ (a.combine b).mean := by
  have hsum : lo * (a.weight + b.weight) ≤ a.mean * a.weight + b.mean * b.weight := by
    rw [mul_add]
    exact add_le_add (mul_le_mul_of_nonneg_right hla ha.le) (mul_le_mul_of_nonneg_right hlb hb.le)
  exact (le_div_iff₀ (add_pos ha hb)).2 hsum

theorem combine_mean_le (ha : 0 < a.weight) (hb : 0 < b.weight) (hah : a.mean ≤ hi) (hbh : b.mean ≤ hi) :
    (a.combine b).mean ≤ hi := by
  have hsum : a.mean * a.weight + b.mean * b.weight ≤ hi * (a.weight + b.weight) := by
    rw [mul_add]
    exact add_le_add (mul_le_mul_of_nonneg_right hah ha.le) (mul_le_mul_of_nonneg_right hbh hb.le)
  exact (div_le_iff₀ (add_pos ha hb)).2 hsum

theorem Coarsens.positive (h : Coarsens l l') (hpos : Positive l) : Positive l' := by
  induction h with
  | nil => exact hpos
  | keep a _ ih =>
      obtain ⟨ha, hl⟩ := positive_cons.1 hpos
      exact positive_cons.2 ⟨ha, ih hl⟩
  | combine a b _ ih =>
      obtain ⟨ha, hbl⟩ := positive_cons.1 hpos
      obtain ⟨hb, hl⟩ := positive_cons.1 hbl
      exact ih (positive_cons.2 ⟨combine_weight_pos ha hb, hl⟩)

theorem Coarsens.le_mean (h : Coarsens l l') (hpos : Positive l) (hlo : ∀ p ∈ l, lo ≤ p.mean) :
    ∀ p ∈ l', lo ≤ p.mean := by
  induction h with
  | nil => exact hlo
  | keep a _ ih =>
      obtain ⟨-, hl⟩ := positive_cons.1 hpos
      obtain ⟨hla, hll⟩ := List.forall_mem_cons.1 hlo
      exact List.forall_mem_cons.2 ⟨hla, ih hl hll⟩
  | combine a b _ ih =>
      obtain ⟨ha, hbl⟩ := positive_cons.1 hpos
      obtain ⟨hb, hl⟩ := positive_cons.1 hbl
      obtain ⟨hla, hlbl⟩ := List.forall_mem_cons.1 hlo
      obtain ⟨hlb, hll⟩ := List.forall_mem_cons.1 hlbl
      exact ih (positive_cons.2 ⟨combine_weight_pos ha hb, hl⟩)
        (List.forall_mem_cons.2 ⟨le_combine_mean ha hb hla hlb, hll⟩)

theorem Coarsens.mean_le (h : Coarsens l l') (hpos : Positive l) (hhi : ∀ p ∈ l, p.mean ≤ hi) :
    ∀ p ∈ l', p.mean ≤ hi := by
  induction h with
  | nil => exact hhi
  | keep a _ ih =>
      obtain ⟨-, hl⟩ := positive_cons.1 hpos
      obtain ⟨hah, hlh⟩ := List.forall_mem_cons.1 hhi
      exact List.forall_mem_cons.2 ⟨hah, ih hl hlh⟩
  | combine a b _ ih =>
      obtain ⟨ha, hbl⟩ := positive_cons.1 hpos
      obtain ⟨hb, hl⟩ := positive_cons.1 hbl
      obtain ⟨hah, hblh⟩ := List.forall_mem_cons.1 hhi
      obtain ⟨hbh, hlh⟩ := List.forall_mem_cons.1 hblh
      exact ih (positive_cons.2 ⟨combine_weight_pos ha hb, hl⟩)
        (List.forall_mem_cons.2 ⟨combine_mean_le ha hb hah hbh, hlh⟩)

theorem Coarsens.within (h : Coarsens l l') (hpos : Positive l) (hl : Within lo hi l) : Within lo hi l' :=
  fun p hp => ⟨h.le_mean hpos (fun q hq => (hl q hq).1) p hp, h.mean_le hpos (fun q hq => (hl q hq).2) p hp⟩

theorem Coarsens.sorted (h : Coarsens l l') (hpos : Positive l) (hsorted : Sorted l) : Sorted l' := by
  induction h with
  | nil => exact hsorted
  | keep a hrest ih =>
      obtain ⟨-, hl⟩ := positive_cons.1 hpos
      obtain ⟨hfirst, hsl⟩ := List.pairwise_cons.1 hsorted
      exact List.pairwise_cons.2 ⟨hrest.le_mean hl hfirst, ih hl hsl⟩
  | combine a b _ ih =>
      obtain ⟨ha, hbl⟩ := positive_cons.1 hpos
      obtain ⟨hb, hl⟩ := positive_cons.1 hbl
      obtain ⟨hfirst, hsbl⟩ := List.pairwise_cons.1 hsorted
      obtain ⟨hsecond, hsl⟩ := List.pairwise_cons.1 hsbl
      refine ih (positive_cons.2 ⟨combine_weight_pos ha hb, hl⟩) (List.pairwise_cons.2 ⟨fun p hp => ?_, hsl⟩)
      exact combine_mean_le ha hb (hfirst p (List.mem_cons_of_mem _ hp)) (hsecond p hp)

end Order

end WeightedPoint
