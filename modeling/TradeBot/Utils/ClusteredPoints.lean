import Mathlib.Data.Finset.Card
import Mathlib.Data.List.GetD
import Mathlib.Tactic.Linarith
import TradeBot.Lib.DensityClusters
import TradeBot.Lib.SortedSlices
import TradeBot.Utils.Clustering
import TradeBot.Utils.Numeric

set_option autoImplicit false

/-! # What `Dbscan1D` computes

The clusters are those of DBSCAN (`cluster_isDbscan`): every growth reaches all that its core point
reaches, and the scan starts a growth at every core point left.

Two points are neighbours if they differ by `eps` at most. The ranges of positions are these
neighbourhoods as long as the bounds `val - eps` and `val + eps` of every point are exact (`Exact`), as
they are in exact arithmetic. `Reads` says so, and all that follows rests on it alone. Where a bound is
rounded, a point can get a neighbour that is further away (`cluster_rounded`). -/

namespace TradeBot

namespace Dbscan1D

/-- The points within `eps`, and the core points of `values`. -/
def density (values : List ℚ) (eps : ℚ) (minPts : ℕ) (heps : 0 ≤ eps) : Density ℚ where
  near x y := |x - y| ≤ eps
  core x := x ∈ values ∧ minPts ≤ (values.filter (fun y => decide (|x - y| ≤ eps))).length
  symm h := by rwa [abs_sub_comm]
  refl _ := by rwa [sub_self, abs_zero]

/-- Both bounds around the point are exact. -/
def Exact (round : ℚ → ℚ) (eps x : ℚ) : Prop := round (x - eps) = x - eps ∧ round (x + eps) = x + eps

instance (round : ℚ → ℚ) (eps x : ℚ) : Decidable (Exact round eps x) :=
  inferInstanceAs (Decidable (_ ∧ _))

/-! ## Neighbours -/

section

variable {points : List ℚ} (hsorted : points.Pairwise (· ≤ ·))

include hsorted

theorem below_downward (bound : ℚ) :
    points.Pairwise (fun x y => decide (y < bound) = true → decide (x < bound) = true) := by
  simp only [decide_eq_true_eq]
  exact hsorted.imp (fun hle hy => hle.trans_lt hy)

theorem upTo_downward (bound : ℚ) :
    points.Pairwise (fun x y => decide (¬ bound < y) = true → decide (¬ bound < x) = true) := by
  simp only [decide_eq_true_eq]
  exact hsorted.imp (fun hle hy hx => hy (hx.trans_le hle))

theorem mem_findRange {round : ℚ → ℚ} {val eps : ℚ} (hexact : Exact round eps val) {idx : ℕ} :
    idx ∈ findRange round points val eps ↔
      idx < points.length ∧ |val - points.getD idx 0| ≤ eps := by
  have hlo := SortedSlices.lt_length_takeWhile_iff (i := idx) (below_downward hsorted (val - eps))
  rw [findRange, hexact.1, hexact.2]
  generalize (points.takeWhile (fun p => decide (p < val - eps))).length = lo at hlo ⊢
  have hhi := SortedSlices.lt_length_takeWhile_iff (i := idx - lo)
    ((upTo_downward hsorted (val + eps)).sublist (List.drop_sublist lo points))
  simp only [decide_eq_true_eq, List.getElem_drop, List.length_drop] at hlo hhi
  rw [Nat.add_sub_cancel_left, List.mem_range'_1, abs_le]
  by_cases hidx : idx < points.length
  · rw [List.getD_eq_getElem _ _ hidx]
    by_cases hle : lo ≤ idx
    · have hlow : ¬ points[idx] < val - eps := fun h => absurd (hlo.2 ⟨hidx, h⟩) (not_lt.2 hle)
      simp only [Nat.add_sub_cancel' hle] at hhi
      have hhi' : idx < lo + ((points.drop lo).takeWhile (fun p => decide (¬ val + eps < p))).length ↔
          ¬ val + eps < points[idx] := by
        rw [← Nat.sub_lt_iff_lt_add' hle, hhi]
        exact ⟨fun h => h.2, fun h => ⟨by omega, h⟩⟩
      rw [hhi']
      constructor
      · exact fun h => ⟨hidx, by linarith [not_lt.1 h.2], by linarith [not_lt.1 hlow]⟩
      · exact fun h => ⟨hle, by linarith [h.2.1]⟩
    · obtain ⟨_, hlow⟩ := hlo.1 (not_le.1 hle)
      exact iff_of_false (fun h => hle h.1) (fun h => by linarith [h.2.2])
  · refine iff_of_false (fun h => ?_) (fun h => hidx h.1)
    obtain ⟨hlt, -⟩ := hhi.1 (by omega)
    omega

theorem length_findRange {round : ℚ → ℚ} {val eps : ℚ} (hexact : Exact round eps val) :
    (findRange round points val eps).length =
      (points.filter (fun y => decide (|val - y| ≤ eps))).length := by
  have hslice := SortedSlices.takeWhile_dropWhile_eq_filter (below_downward hsorted (val - eps))
    (upTo_downward hsorted (val + eps))
  rw [findRange, hexact.1, hexact.2, List.length_range', Nat.add_sub_cancel_left,
    SortedSlices.drop_length_takeWhile, hslice]
  refine congrArg List.length (List.filter_congr (fun y _ => ?_))
  rw [Bool.eq_iff_iff]
  simp only [Bool.and_eq_true, Bool.not_eq_true', decide_eq_false_iff_not, decide_eq_true_eq, abs_le]
  constructor
  · exact fun h => ⟨by linarith [not_lt.1 h.2], by linarith [not_lt.1 h.1]⟩
  · exact fun h => ⟨by linarith [h.2], by linarith [h.1]⟩

end

/-! ## Queueing neighbours -/

theorem push_visitedGen (gen : ℕ) (g : Growth) (idx j : ℕ) :
    (g.push gen idx).visitedGen j = if j = idx then gen else g.visitedGen j :=
  Function.update_apply ..

/-- Positions queued behind `g`, each for the first time. -/
structure Queued (gen : ℕ) (g g' : Growth) (new : List ℕ) : Prop where
  clusterId : g'.clusterId = g.clusterId
  queue : g'.queue = g.queue ++ new
  visitedGen : ∀ j, g'.visitedGen j = if j ∈ new then gen else g.visitedGen j
  nodup : new.Nodup
  fresh : ∀ j ∈ new, g.visitedGen j ≠ gen

theorem Queued.refl (gen : ℕ) (g : Growth) : Queued gen g g [] :=
  ⟨rfl, (List.append_nil _).symm, fun _ => rfl, List.nodup_nil, fun _ h => absurd h List.not_mem_nil⟩

/-- One position more. -/
theorem Queued.push {gen : ℕ} {g g' : Growth} {new : List ℕ} (h : Queued gen g g' new) {idx : ℕ}
    (hnew : idx ∉ new) (hfresh : g.visitedGen idx ≠ gen) :
    Queued gen g (g'.push gen idx) (new ++ [idx]) where
  clusterId := h.clusterId
  queue := by rw [Growth.push, h.queue, List.append_assoc]
  visitedGen j := by
    rw [push_visitedGen, h.visitedGen]
    by_cases hj : j = idx <;> simp [hj]
  nodup := List.nodup_append.2 ⟨h.nodup, List.nodup_singleton _, fun j hj j' hj' heq =>
    hnew (List.mem_singleton.1 hj' ▸ heq ▸ hj)⟩
  fresh j hj := by
    rcases List.mem_append.1 hj with hj | hj
    · exact h.fresh j hj
    · exact List.mem_singleton.1 hj ▸ hfresh

theorem queued_pushNew (gen : ℕ) (range : List ℕ) (g : Growth) :
    ∃ new, Queued gen g (g.pushNew gen range) new ∧ (∀ j ∈ new, j ∈ range) ∧
      ∀ j ∈ range, g.clusterId j ≠ none ∨ (g.pushNew gen range).visitedGen j = gen := by
  induction range using List.reverseRecOn with
  | nil => exact ⟨[], .refl gen g, fun _ h => h, fun _ h => absurd h List.not_mem_nil⟩
  | append_singleton range idx ih =>
      obtain ⟨new, hqueued, hsub, hdone⟩ := ih
      have hfold : g.pushNew gen (range ++ [idx]) =
          if (g.pushNew gen range).clusterId idx = none ∧
              (g.pushNew gen range).visitedGen idx ≠ gen then
            (g.pushNew gen range).push gen idx
          else g.pushNew gen range := by
        rw [Growth.pushNew, List.foldl_append]
        rfl
      rw [hfold]
      split_ifs with hpush
      · -- the position is new to the queue
        have hnot : idx ∉ new ∧ g.visitedGen idx ≠ gen := by
          have hvisited := hpush.2
          rw [hqueued.visitedGen] at hvisited
          split_ifs at hvisited with hin
          · exact absurd rfl hvisited
          · exact ⟨hin, hvisited⟩
        refine ⟨new ++ [idx], hqueued.push hnot.1 hnot.2, fun j hj => ?_, fun j hj => ?_⟩
        · rcases List.mem_append.1 hj with hj | hj
          · exact List.mem_append_left _ (hsub j hj)
          · exact List.mem_append_right _ hj
        · rw [push_visitedGen]
          by_cases heq : j = idx
          · exact Or.inr (if_pos heq)
          · rw [if_neg heq]
            refine hdone j ((List.mem_append.1 hj).resolve_right (fun h => ?_))
            exact heq (List.mem_singleton.1 h)
      · refine ⟨new, hqueued, fun j hj => List.mem_append_left _ (hsub j hj), fun j hj => ?_⟩
        rcases List.mem_append.1 hj with hj | hj
        · exact hdone j hj
        · rw [List.mem_singleton.1 hj]
          rw [hqueued.clusterId] at hpush
          -- it was passed over: labelled, or queued before
          by_cases hlabel : g.clusterId idx = none
          · exact Or.inr (not_not.1 (fun hne => hpush ⟨hlabel, hne⟩))
          · exact Or.inl hlabel

theorem queued_pushOthers {gen i : ℕ} {range : List ℕ} {g : Growth} (hnodup : range.Nodup)
    (hfresh : ∀ j, g.visitedGen j ≠ gen) :
    Queued gen g (g.pushOthers gen i range) (range.filter (fun j => decide (j ≠ i))) := by
  induction range using List.reverseRecOn with
  | nil => exact .refl gen g
  | append_singleton range idx ih =>
      have hdisjoint := List.nodup_append.1 hnodup
      have hqueued := ih hdisjoint.1
      have hnot : idx ∉ range := fun h => hdisjoint.2.2 idx h idx (List.mem_singleton_self _) rfl
      have hfold : g.pushOthers gen i (range ++ [idx]) =
          if idx ≠ i then (g.pushOthers gen i range).push gen idx else g.pushOthers gen i range := by
        rw [Growth.pushOthers, List.foldl_append]
        rfl
      rw [hfold, List.filter_append]
      by_cases hi : idx ≠ i
      · rw [if_pos hi, List.filter_cons_of_pos (by simpa using hi), List.filter_nil]
        exact hqueued.push (fun h => hnot (List.mem_filter.1 h).1) (hfresh idx)
      · rw [if_neg hi, List.filter_cons_of_neg (by simpa using hi), List.filter_nil, List.append_nil]
        exact hqueued

/-! ## How long the queue gets -/

/-- The positions that have not been queued in this generation. -/
def unvisited (n gen : ℕ) (g : Growth) : ℕ :=
  ((Finset.range n).filter (fun j => g.visitedGen j ≠ gen)).card

/-- What is queued is no longer unvisited. -/
theorem Queued.unvisited_add {n gen : ℕ} {g g' : Growth} {new : List ℕ} (h : Queued gen g g' new)
    (hlt : ∀ j ∈ new, j < n) : unvisited n gen g' + new.length = unvisited n gen g := by
  have hsub : new.toFinset ⊆ (Finset.range n).filter (fun j => g.visitedGen j ≠ gen) := by
    intro j hj
    rw [List.mem_toFinset] at hj
    exact Finset.mem_filter.2 ⟨Finset.mem_range.2 (hlt j hj), h.fresh j hj⟩
  have hrest : (Finset.range n).filter (fun j => g'.visitedGen j ≠ gen) =
      (Finset.range n).filter (fun j => g.visitedGen j ≠ gen) \ new.toFinset := by
    ext j
    rw [Finset.mem_sdiff, Finset.mem_filter, Finset.mem_filter, List.mem_toFinset, h.visitedGen]
    by_cases hj : j ∈ new <;> simp [hj]
  rw [unvisited, unvisited, hrest, ← List.toFinset_card_of_nodup h.nodup,
    Finset.card_sdiff_add_card_eq_card hsub]

/-! ## The growth of a cluster -/

/-- Ranges of positions are neighbourhoods, and their lengths tell the core points. -/
structure Reads (D : Density ℚ) (round : ℚ → ℚ) (points : List ℚ) (eps : ℚ) (minPts : ℕ) :
    Prop where
  mem_range : ∀ {i j}, i < points.length → (j ∈ findRange round points (points.getD i 0) eps ↔
    j < points.length ∧ D.near (points.getD i 0) (points.getD j 0))
  core_iff : ∀ {j}, j < points.length →
    (minPts ≤ (findRange round points (points.getD j 0) eps).length ↔ D.core (points.getD j 0))
  exists_of_core : ∀ {x}, D.core x → ∃ j < points.length, points.getD j 0 = x

/-- While the cluster `id` grows from the core `s`, `label` being the clusters before it. -/
structure Growing (D : Density ℚ) (points : List ℚ) (label : ℚ → Option ℕ) (s : ℚ) (id gen : ℕ)
    (g : Growth) : Prop where
  start : ∃ i < points.length, points.getD i 0 = s ∧ g.clusterId i = some id
  clusterId : ∀ j < points.length, g.clusterId j = label (points.getD j 0) ∨
    label (points.getD j 0) = none ∧ g.clusterId j = some id ∧ points.getD j 0 ∈ D.reach s
  queue : ∀ j ∈ g.queue, j < points.length ∧ points.getD j 0 ∈ D.reach s
  covered : ∀ j < points.length, g.clusterId j = some id → D.core (points.getD j 0) →
    ∀ m < points.length, D.near (points.getD j 0) (points.getD m 0) →
      g.clusterId m ≠ none ∨ m ∈ g.queue
  visited : ∀ j, g.visitedGen j = gen → g.clusterId j ≠ none ∨ j ∈ g.queue
  le_gen : ∀ j, g.visitedGen j ≤ gen

section

variable {D : Density ℚ} {round : ℚ → ℚ} {points : List ℚ} {eps : ℚ} {minPts : ℕ}
  {label : ℚ → Option ℕ} {s : ℚ} {id gen idx : ℕ} {queue : List ℕ} {g g' : Growth}

/-- A position that is labelled leaves the queue. -/
theorem Growing.pop (h : Growing D points label s id gen g) (hqueue : g.queue = idx :: queue)
    (hlabelled : g.clusterId idx ≠ none) :
    Growing D points label s id gen { g with queue := queue } where
  start := h.start
  clusterId := h.clusterId
  queue j hj := h.queue j (hqueue ▸ List.mem_cons_of_mem _ hj)
  covered j hj hid hcore m hm hnear := by
    rcases h.covered j hj hid hcore m hm hnear with hm | hm
    · exact Or.inl hm
    · rcases List.mem_cons.1 (hqueue ▸ hm) with rfl | hm
      · exact Or.inl hlabelled
      · exact Or.inr hm
  visited j hj := by
    rcases h.visited j hj with hj | hj
    · exact Or.inl hj
    · rcases List.mem_cons.1 (hqueue ▸ hj) with rfl | hj
      · exact Or.inl hlabelled
      · exact Or.inr hj
  le_gen := h.le_gen

/-- A queued position that is not labelled yet joins the cluster, with its neighbours queued if it is a
    core point. -/
theorem Growing.join (h : Growing D points label s id gen g) (hqueue : g.queue = idx :: queue)
    (hnone : g.clusterId idx = none) {new : List ℕ}
    (hqueued : Queued gen
      { g with queue := queue, clusterId := Function.update g.clusterId idx (some id) } g' new)
    (hreach : ∀ j ∈ new, j < points.length ∧ points.getD j 0 ∈ D.reach s)
    (hneighbours : D.core (points.getD idx 0) → ∀ m < points.length,
      D.near (points.getD idx 0) (points.getD m 0) →
        g'.clusterId m ≠ none ∨ g'.visitedGen m = gen) :
    Growing D points label s id gen g' := by
  obtain ⟨hidx, hidxReach⟩ := h.queue idx (hqueue ▸ List.mem_cons_self)
  have hid (j : ℕ) : g'.clusterId j = if j = idx then some id else g.clusterId j := by
    rw [hqueued.clusterId]
    exact Function.update_apply ..
  -- nothing that was labelled or queued gets lost
  have hkeep {j : ℕ} (hj : g.clusterId j ≠ none ∨ j ∈ g.queue) :
      g'.clusterId j ≠ none ∨ j ∈ g'.queue := by
    rw [hid, hqueued.queue]
    by_cases heq : j = idx
    · exact Or.inl (by simp [heq])
    · rw [if_neg heq]
      refine hj.imp_right (fun hj => List.mem_append_left _ ?_)
      rw [hqueue] at hj
      exact List.mem_of_ne_of_mem heq hj
  have hvisited (j : ℕ) (hj : g'.visitedGen j = gen) : g'.clusterId j ≠ none ∨ j ∈ g'.queue := by
    rw [hqueued.visitedGen] at hj
    split_ifs at hj with hin
    · exact Or.inr (hqueued.queue ▸ List.mem_append_right _ hin)
    · exact hkeep (h.visited j hj)
  refine ⟨?_, fun j hj => ?_, fun j hj => ?_, fun j hj hlabel hcore m hm hnear => ?_, hvisited,
    fun j => ?_⟩
  · obtain ⟨i, hi, hpoint, hlabel⟩ := h.start
    exact ⟨i, hi, hpoint, by rw [hid, hlabel, ite_self]⟩
  · rw [hid]
    by_cases heq : j = idx
    · subst heq
      rw [if_pos rfl]
      -- the position itself had no label, so its new one is the cluster's
      rcases h.clusterId j hj with hold | ⟨-, hold, -⟩
      · exact Or.inr ⟨hold.symm.trans hnone, rfl, hidxReach⟩
      · rw [hnone] at hold
        cases hold
    · rw [if_neg heq]
      exact h.clusterId j hj
  · rw [hqueued.queue] at hj
    rcases List.mem_append.1 hj with hj | hj
    · exact h.queue j (hqueue ▸ List.mem_cons_of_mem _ hj)
    · exact hreach j hj
  · rw [hid] at hlabel
    by_cases heq : j = idx
    · subst heq
      -- its own neighbours are queued now if it is a core point
      exact (hneighbours hcore m hm hnear).elim Or.inl (hvisited m)
    · rw [if_neg heq] at hlabel
      exact hkeep (h.covered j hj hlabel hcore m hm hnear)
  · rw [hqueued.visitedGen]
    split_ifs
    · exact le_rfl
    · exact h.le_gen j

/-- One turn of the loop over the queue. -/
theorem Growing.visit (hreads : Reads D round points eps minPts) (h : Growing D points label s id gen g)
    (hqueue : g.queue = idx :: queue) :
    Growing D points label s id gen
        ({ g with queue := queue }.visit round points eps minPts id gen idx) ∧
      unvisited points.length gen ({ g with queue := queue }.visit round points eps minPts id gen idx)
          + ({ g with queue := queue }.visit round points eps minPts id gen idx).queue.length
        = unvisited points.length gen g + queue.length := by
  obtain ⟨hidx, hidxReach⟩ := h.queue idx (hqueue ▸ List.mem_cons_self)
  unfold Growth.visit
  by_cases hnone : g.clusterId idx = none
  · rw [if_pos hnone]
    dsimp only
    split_ifs with hpoints
    · have hcore := (hreads.core_iff hidx).1 hpoints
      obtain ⟨new, hqueued, hsub, hdone⟩ := queued_pushNew gen
        (findRange round points (points.getD idx 0) eps)
        { g with queue := queue, clusterId := Function.update g.clusterId idx (some id) }
      have hreach (j : ℕ) (hj : j ∈ new) : j < points.length ∧ points.getD j 0 ∈ D.reach s := by
        obtain ⟨hlt, hnear⟩ := (hreads.mem_range hidx).1 (hsub j hj)
        exact ⟨hlt, Density.mem_reach_of_near hidxReach hcore hnear⟩
      refine ⟨h.join hqueue hnone hqueued hreach (fun _ m hm hnear => ?_), ?_⟩
      · rw [hqueued.clusterId]
        exact hdone m ((hreads.mem_range hidx).2 ⟨hm, hnear⟩)
      · have hcount := hqueued.unvisited_add (fun j hj => (hreach j hj).1)
        rw [hqueued.queue, List.length_append, Nat.add_comm queue.length, ← Nat.add_assoc, hcount]
        rfl
    · have hcore : ¬ D.core (points.getD idx 0) := fun hcore => hpoints ((hreads.core_iff hidx).2 hcore)
      exact ⟨h.join hqueue hnone (.refl gen _) (fun _ hj => absurd hj List.not_mem_nil)
        (fun hcore' => absurd hcore' hcore), rfl⟩
  · rw [if_neg hnone]
    exact ⟨h.pop hqueue hnone, rfl⟩

/-- The queue is emptied in at most as many turns as there are positions unvisited or queued. -/
theorem Growing.expand (hreads : Reads D round points eps minPts) (h : Growing D points label s id gen g)
    {fuel : ℕ} (hfuel : unvisited points.length gen g + g.queue.length ≤ fuel) :
    Growing D points label s id gen (g.expand round points eps minPts id gen fuel) ∧
      (g.expand round points eps minPts id gen fuel).queue = [] := by
  induction fuel generalizing g with
  | zero => exact ⟨h, List.length_eq_zero_iff.1 (show g.queue.length = 0 by omega)⟩
  | succ fuel ih =>
      rw [Growth.expand]
      split
      · exact ⟨h, by assumption⟩
      · rename_i idx queue hqueue
        obtain ⟨hnext, hcount⟩ := h.visit hreads hqueue
        refine ih hnext ?_
        rw [hqueue, List.length_cons] at hfuel
        omega

/-- With an empty queue, the neighbours of the cluster's core points are in it, unless they were in another
    one before. -/
theorem Growing.near_eq (h : Growing D points label s id gen g) (hqueue : g.queue = []) {j m : ℕ}
    (hj : j < points.length) (hid : g.clusterId j = some id) (hcore : D.core (points.getD j 0))
    (hm : m < points.length) (hnear : D.near (points.getD j 0) (points.getD m 0))
    (hold : label (points.getD m 0) = none) : g.clusterId m = some id := by
  have hne : g.clusterId m ≠ none := by
    refine (h.covered j hj hid hcore m hm hnear).resolve_right (fun hin => ?_)
    exact absurd (hqueue ▸ hin) List.not_mem_nil
  rcases h.clusterId m hm with heq | ⟨-, heq, -⟩
  · exact absurd (heq.trans hold) hne
  · exact heq

/-- So the core points that are linked with the first one are in it. -/
theorem Growing.linked_eq (hreads : Reads D round points eps minPts) (hsofar : D.Partial label id)
    (hnone : label s = none) (hs : D.core s) (h : Growing D points label s id gen g)
    (hqueue : g.queue = []) {x : ℚ} (hx : D.Linked s x) :
    ∀ j < points.length, points.getD j 0 = x → g.clusterId j = some id := by
  obtain ⟨i, hi, hpoint, hid⟩ := h.start
  induction hx with
  | refl =>
      intro j hj hjs
      subst hpoint
      exact h.near_eq hqueue hi hid hs hj (by rw [hjs]; exact D.refl hs) (by rw [hjs]; exact hnone)
  | @tail x y hx hstep ih =>
      intro j hj hjy
      obtain ⟨i', hi', hpoint'⟩ := hreads.exists_of_core hstep.2.1
      subst hpoint' hjy
      exact h.near_eq hqueue hi' (ih i' hi' rfl) hstep.2.1 hj hstep.1
        (hsofar.none_of_linked hnone (hx.tail hstep))

/-- With an empty queue the cluster is complete. -/
theorem Growing.clusterId_eq (hreads : Reads D round points eps minPts) (hsofar : D.Partial label id)
    (hs : D.core s) (hnone : label s = none) (h : Growing D points label s id gen g)
    (hqueue : g.queue = []) :
    ∀ j < points.length, g.clusterId j = D.extend label s id (points.getD j 0) := by
  intro j hj
  by_cases hold : label (points.getD j 0) = none
  · by_cases hmem : points.getD j 0 ∈ D.reach s
    · have hreach := hmem
      obtain ⟨x, hx, hcore, hnear⟩ := hreach
      obtain ⟨i, hi, hpoint⟩ := hreads.exists_of_core hcore
      rw [Density.extend_of_mem hold hmem]
      subst hpoint
      have hid := h.linked_eq hreads hsofar hnone hs hqueue hx i hi rfl
      exact h.near_eq hqueue hi hid hcore hj hnear hold
    · rw [Density.extend_of_not_mem hmem]
      exact (h.clusterId j hj).resolve_right (fun hnew => hmem hnew.2.2)
  · rw [Density.extend_of_ne_none hold]
    exact (h.clusterId j hj).resolve_right (fun hnew => hold hnew.1)

/-! ## The scan -/

/-- Before the position `i`: the clusters so far, with every core point up to there. -/
structure Scanned (D : Density ℚ) (points : List ℚ) (i : ℕ) (st : Scan) : Prop where
  exists_label : ∃ label, D.Partial label st.nextClusterId ∧
    ∀ j < points.length, st.clusterId j = label (points.getD j 0)
  cores : ∀ j < i, D.core (points.getD j 0) → st.clusterId j ≠ none
  le_gen : ∀ j, st.visitedGen j ≤ st.currentGen

/-- A growth starts with its core point and the neighbours of that. -/
theorem growing_start (hreads : Reads D round points eps minPts) (hsofar : D.Partial label id) {i : ℕ}
    (hi : i < points.length) (hcore : D.core (points.getD i 0)) (hnone : label (points.getD i 0) = none)
    (hid : ∀ j < points.length, g.clusterId j =
      if j = i then some id else label (points.getD j 0))
    (hqueue : g.queue = []) (hgen : ∀ j, g.visitedGen j < gen) :
    Growing D points label (points.getD i 0) id gen
        (g.pushOthers gen i (findRange round points (points.getD i 0) eps)) ∧
      unvisited points.length gen (g.pushOthers gen i (findRange round points (points.getD i 0) eps))
          + (g.pushOthers gen i (findRange round points (points.getD i 0) eps)).queue.length
        ≤ points.length := by
  have hqueued : Queued gen g (g.pushOthers gen i (findRange round points (points.getD i 0) eps))
      ((findRange round points (points.getD i 0) eps).filter (fun j => decide (j ≠ i))) :=
    queued_pushOthers List.nodup_range' (fun j => (hgen j).ne)
  -- what is queued are the neighbours without the point itself
  generalize hnew : (findRange round points (points.getD i 0) eps).filter (fun j => decide (j ≠ i)) = new
    at hqueued
  have hmem (j : ℕ) : j ∈ new ↔
      (j < points.length ∧ D.near (points.getD i 0) (points.getD j 0)) ∧ j ≠ i := by
    rw [← hnew, List.mem_filter, hreads.mem_range hi, decide_eq_true_iff]
  generalize g.pushOthers gen i (findRange round points (points.getD i 0) eps) = g' at hqueued ⊢
  have hreach {j : ℕ} (hnear : D.near (points.getD i 0) (points.getD j 0)) :
      points.getD j 0 ∈ D.reach (points.getD i 0) := ⟨_, .refl, hcore, hnear⟩
  -- the queue was empty before
  have hqueue' : g'.queue = new := by rw [hqueued.queue, hqueue, List.nil_append]
  constructor
  · refine ⟨⟨i, hi, rfl, ?_⟩, fun j hj => ?_, fun j hj => ?_, fun j hj hlabel _ m hm hnear => ?_,
      fun j hj => ?_, fun j => ?_⟩
    · rw [hqueued.clusterId, hid i hi, if_pos rfl]
    · rw [hqueued.clusterId, hid j hj]
      -- only the point itself has got the number
      split_ifs with heq
      · subst heq
        exact Or.inr ⟨hnone, rfl, hreach (D.refl hcore)⟩
      · exact Or.inl rfl
    · have hin := (hmem j).1 (hqueue' ▸ hj)
      exact ⟨hin.1.1, hreach hin.1.2⟩
    · rw [hqueued.clusterId, hid j hj] at hlabel
      split_ifs at hlabel with heq
      · subst heq
        by_cases hmj : m = j
        · left
          rw [hqueued.clusterId, hid m hm, if_pos hmj]
          exact Option.some_ne_none _
        · exact Or.inr (hqueue' ▸ (hmem m).2 ⟨⟨hm, hnear⟩, hmj⟩)
      · -- no other position has the new number yet
        exact absurd (hsofar.lt_count hlabel) (lt_irrefl _)
    · rw [hqueued.visitedGen] at hj
      split_ifs at hj with hin
      · exact Or.inr (hqueue' ▸ hin)
      · exact absurd hj (hgen j).ne
    · rw [hqueued.visitedGen]
      split_ifs
      · exact le_rfl
      · exact (hgen j).le
  · rw [hqueue', hqueued.unvisited_add (fun j hj => ((hmem j).1 hj).1.1)]
    exact (Finset.card_filter_le _ _).trans (Finset.card_range _).le

theorem Scanned.step (hreads : Reads D round points eps minPts) {i : ℕ} {st : Scan}
    (h : Scanned D points i st) (hi : i < points.length) :
    Scanned D points (i + 1) (st.step round points eps minPts i) := by
  -- a point that starts no cluster has to be labelled already or no core point
  have hsame (hthis : D.core (points.getD i 0) → st.clusterId i ≠ none) :
      Scanned D points (i + 1) st := by
    refine ⟨h.exists_label, fun j hj hcore => ?_, h.le_gen⟩
    rcases Nat.lt_succ_iff_lt_or_eq.1 hj with hj | rfl
    · exact h.cores j hj hcore
    · exact hthis hcore
  unfold Scan.step
  split_ifs with hlabelled
  · exact hsame (fun _ => hlabelled)
  · dsimp only
    split_ifs with hfew
    · exact hsame (fun hcore => absurd ((hreads.core_iff hi).2 hcore) (not_le.2 hfew))
    · -- a core point without a label: a new cluster grows from it
      have hcore := (hreads.core_iff hi).1 (not_lt.1 hfew)
      obtain ⟨label, hsofar, hlabel⟩ := h.exists_label
      have hnone : label (points.getD i 0) = none := (hlabel i hi).symm.trans (not_not.1 hlabelled)
      have hstart : ∀ j < points.length,
          Function.update st.clusterId i (some st.nextClusterId) j =
            if j = i then some st.nextClusterId else label (points.getD j 0) := by
        intro j hj
        rw [Function.update_apply, hlabel j hj]
      have hgen : ∀ j, st.visitedGen j < st.currentGen + 1 := fun j => Nat.lt_succ_of_le (h.le_gen j)
      obtain ⟨hgrowing, hfuel⟩ := growing_start hreads hsofar hi hcore hnone
        (g := ⟨Function.update st.clusterId i (some st.nextClusterId), st.visitedGen, []⟩) hstart rfl
        hgen
      obtain ⟨hgrown, hempty⟩ := hgrowing.expand hreads hfuel
      have hextended := hgrown.clusterId_eq hreads hsofar hcore hnone hempty
      refine ⟨⟨_, hsofar.extend hcore hnone, hextended⟩, fun j hj hcore' => ?_, hgrown.le_gen⟩
      refine (hextended j (by omega)).trans_ne ?_
      -- a core point so far keeps its label, or gets that of the new cluster
      by_cases hold : label (points.getD j 0) = none
      · rcases Nat.lt_succ_iff_lt_or_eq.1 hj with hj | rfl
        · exact absurd ((hlabel j (hj.trans hi)).trans hold) (h.cores j hj hcore')
        · rw [Density.extend_of_mem hold ⟨_, .refl, hcore, D.refl hcore⟩]
          exact Option.some_ne_none _
      · rwa [Density.extend_of_ne_none hold]

theorem scanned_scan (hreads : Reads D round points eps minPts) :
    Scanned D points points.length (scan round points eps minPts) := by
  have hprefix : ∀ n ≤ points.length,
      Scanned D points n ((List.range n).foldl (Scan.step round points eps minPts) {}) := by
    intro n hn
    induction n with
    | zero =>
        exact ⟨⟨_, Density.partial_empty D, fun _ _ => rfl⟩, fun j hj => absurd hj (Nat.not_lt_zero j),
          fun _ => le_rfl⟩
    | succ n ih =>
        rw [List.range_succ, List.foldl_append]
        exact (ih (by omega)).step hreads (by omega)
  exact hprefix _ le_rfl

end

/-! ## The result -/

theorem getElem?_addPoint (clusterId : ℕ → Option ℕ) (result : List (List ℚ)) (p : ℚ × ℕ) (c : ℕ) :
    (addPoint clusterId result p)[c]? =
      result[c]?.map (· ++ if clusterId p.2 = some c then [p.1] else []) := by
  unfold addPoint
  split
  · rename_i id hid
    rw [List.getElem?_modify, hid]
    by_cases hc : id = c <;> cases result[c]? <;> simp [hc]
  · rename_i hnone
    cases result[c]? <;> simp [hnone]

/-- Each list gets the points labelled with its number, in their order. -/
theorem getElem?_foldl_addPoint (clusterId : ℕ → Option ℕ) (ps : List (ℚ × ℕ))
    (result : List (List ℚ)) (c : ℕ) :
    (ps.foldl (addPoint clusterId) result)[c]? =
      result[c]?.map
        (· ++ (ps.filter (fun p => decide (clusterId p.2 = some c))).map Prod.fst) := by
  induction ps generalizing result with
  | nil => simp
  | cons p ps ih =>
      rw [List.foldl_cons, ih, getElem?_addPoint, Option.map_map]
      by_cases hlabel : clusterId p.2 = some c
      · simp [hlabel, Function.comp_def]
      · simp [hlabel, Function.comp_def]

theorem filter_zipIdx {points : List ℚ} {clusterId : ℕ → Option ℕ} {label : ℚ → Option ℕ}
    (hlabel : ∀ j < points.length, clusterId j = label (points.getD j 0)) (c : ℕ) :
    (points.zipIdx.filter (fun p => decide (clusterId p.2 = some c))).map Prod.fst =
      points.filter (fun x => decide (label x = some c)) := by
  have hsame : points.zipIdx.filter (fun p => decide (clusterId p.2 = some c)) =
      points.zipIdx.filter ((fun x => decide (label x = some c)) ∘ Prod.fst) := by
    refine List.filter_congr (fun p hp => ?_)
    obtain ⟨hlt, hpoint⟩ := List.mem_zipIdx' hp
    rw [hlabel p.2 hlt, List.getD_eq_getElem _ _ hlt, ← hpoint]
    rfl
  rw [hsame, ← List.filter_map, List.zipIdx_map_fst]

theorem collect_eq {points : List ℚ} {clusterId : ℕ → Option ℕ} {label : ℚ → Option ℕ}
    (hlabel : ∀ j < points.length, clusterId j = label (points.getD j 0)) (count : ℕ) :
    collect points clusterId count =
      (List.range count).map (fun c => points.filter (fun x => decide (label x = some c))) := by
  refine List.ext_getElem? (fun c => ?_)
  rw [collect, getElem?_foldl_addPoint, filter_zipIdx hlabel, List.getElem?_map]
  by_cases hc : c < count
  · rw [List.getElem?_replicate, if_pos hc, List.getElem?_range hc]
    rfl
  · rw [List.getElem?_replicate, if_neg hc, List.getElem?_eq_none (by simpa using hc)]
    rfl

theorem reads_density {values points : List ℚ} (hperm : points.Perm values)
    (hsorted : points.Pairwise (· ≤ ·)) {round : ℚ → ℚ} {eps : ℚ} (heps : 0 ≤ eps) (minPts : ℕ)
    (hexact : ∀ x ∈ values, Exact round eps x) :
    Reads (density values eps minPts heps) round points eps minPts := by
  have hmem {j : ℕ} (hj : j < points.length) : points.getD j 0 ∈ values := by
    rw [List.getD_eq_getElem _ _ hj]
    exact hperm.mem_iff.1 (List.getElem_mem hj)
  constructor
  case mem_range => exact fun hi => mem_findRange hsorted (hexact _ (hmem hi))
  case core_iff =>
    intro j hj
    rw [length_findRange hsorted (hexact _ (hmem hj)), (hperm.filter _).length_eq]
    exact ⟨fun h => ⟨hmem hj, h⟩, And.right⟩
  case exists_of_core =>
    intro x hx
    obtain ⟨j, hj, hpoint⟩ := List.mem_iff_getElem.1 (hperm.mem_iff.2 hx.1)
    exact ⟨j, hj, (List.getD_eq_getElem _ _ hj).trans hpoint⟩

/-- The clusters hold the points as a labelling says that is a clustering by the definition of DBSCAN. -/
def IsDbscan (values : List ℚ) (eps : ℚ) (minPts : ℕ) (heps : 0 ≤ eps) (clusters : List (List ℚ)) :
    Prop :=
  ∃ label : ℚ → Option ℕ, (density values eps minPts heps).Clustering label clusters.length ∧
    ∀ c, (h : c < clusters.length) →
      clusters[c].Perm (values.filter (fun x => decide (label x = some c)))

/-- The clusters are those of DBSCAN, if the bounds around each point are exact. -/
theorem cluster_isDbscan (round : ℚ → ℚ) (values : List ℚ) (eps : ℚ) (minPts : ℕ) (heps : 0 ≤ eps)
    (hexact : ∀ x ∈ values, Exact round eps x) :
    IsDbscan values eps minPts heps (cluster round values eps minPts) := by
  have hperm : (values.insertionSort (· ≤ ·)).Perm values := List.perm_insertionSort _ _
  have hreads := reads_density hperm (List.pairwise_insertionSort _ _) heps minPts hexact
  have hscanned := scanned_scan hreads
  obtain ⟨label, hsofar, hlabel⟩ := hscanned.exists_label
  have hcores : ∀ x, (density values eps minPts heps).core x → label x ≠ none := by
    intro x hx
    obtain ⟨j, hj, hpoint⟩ := hreads.exists_of_core hx
    subst hpoint
    rw [← hlabel j hj]
    exact hscanned.cores j hj hx
  have hclusters : cluster round values eps minPts =
      (List.range (scan round (values.insertionSort (· ≤ ·)) eps minPts).nextClusterId).map
        (fun c => (values.insertionSort (· ≤ ·)).filter (fun x => decide (label x = some c))) := by
    unfold cluster
    split_ifs with hempty
    · subst hempty
      rfl
    · exact collect_eq hlabel _
  refine ⟨label, ?_, fun c hc => ?_⟩
  · rw [hclusters, List.length_map, List.length_range]
    exact hsofar.clustering hcores
  · simp only [hclusters, List.getElem_map, List.getElem_range]
    exact hperm.filter _

/-- A border point between two clusters stays in the first. The doubles of these points are exact. -/
theorem cluster_isDbscan_border :
    cluster nearestDouble [3, -1, 0, 3, 1, -1, 2] 1 4 = [[-1, -1, 0, 1], [2, 3, 3]] ∧
      IsDbscan [3, -1, 0, 3, 1, -1, 2] 1 4 zero_le_one
        (cluster nearestDouble [3, -1, 0, 3, 1, -1, 2] 1 4) :=
  ⟨by decide +kernel, cluster_isDbscan nearestDouble [3, -1, 0, 3, 1, -1, 2] 1 4 zero_le_one
    (by decide +kernel)⟩

/-- The doubles of `0.7` and `0.9` differ by more than the double of `0.2`, and are clustered. -/
theorem cluster_rounded :
    let a := nearestDouble (7 / 10)
    let b := nearestDouble (9 / 10)
    let eps := nearestDouble (1 / 5)
    eps < |a - b| ∧ cluster nearestDouble [a, b] eps 2 = [[a, b]] ∧
      ∀ heps : 0 ≤ eps, ¬ IsDbscan [a, b] eps 2 heps (cluster nearestDouble [a, b] eps 2) := by
  intro a b eps
  have hclusters : cluster nearestDouble [a, b] eps 2 = [[a, b]] := by decide +kernel
  refine ⟨by decide +kernel, hclusters, fun heps hdbscan => ?_⟩
  rw [hclusters] at hdbscan
  obtain ⟨label, hclustering, -⟩ := hdbscan
  -- the cluster has a core point, but none of the two has the other one within `eps`
  obtain ⟨x, ⟨hmem, hcount⟩, -⟩ := hclustering.has_core 0 Nat.one_pos
  have hfew : ∀ x ∈ [a, b], ([a, b].filter (fun y => decide (|x - y| ≤ eps))).length < 2 := by
    decide +kernel
  exact absurd hcount (not_le.2 (hfew x hmem))

end Dbscan1D

end TradeBot
