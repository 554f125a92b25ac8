import TradeBot.Utils.TDigest

set_option autoImplicit false

/-! # The centroids and quantiles of a digest

A digest represents what was added to it: its centroids are the added points in a coarser form, and its
quantile is a piecewise linear function between their means.

`Represents` is the invariant. A merge combines neighbours of a sorted list, which
`Lib/WeightedPoints` allows for any rule of combining, so neither the scale function nor the size of
the buffer matters to it. What the quantile function adds is read off the sorted means. -/

namespace TradeBot.TDigest

open WeightedPoint

variable {S : CentroidSort} {st : TDigest} {points : List Centroid}

/-! ## Merging -/

theorem pass_coarsens (totalSum deltaInv : ℚ) (rest : List Centroid) (s : Pass) :
    ∃ r, (rest.foldl (Pass.step totalSum deltaInv) s).centroids
        ++ [(rest.foldl (Pass.step totalSum deltaInv) s).cur] = s.centroids ++ r ∧
      Coarsens (s.cur :: rest) r := by
  induction rest generalizing s with
  | nil => exact ⟨[s.cur], rfl, .keep s.cur .nil⟩
  | cons c rest ih =>
      obtain ⟨r, heq, hr⟩ := ih (s.step totalSum deltaInv c)
      rw [List.foldl_cons, heq]
      unfold Pass.step at hr ⊢
      dsimp only at hr ⊢
      split
      · rename_i hsmall
        rw [if_pos hsmall] at hr
        exact ⟨r, rfl, .combine s.cur c hr⟩
      · rename_i hlarge
        rw [if_neg hlarge] at hr
        exact ⟨s.cur :: r, by simp, .keep s.cur hr⟩

theorem compress_coarsens (totalSum deltaInv : ℚ) (l : List Centroid) :
    Coarsens l (compress totalSum deltaInv l) := by
  cases l with
  | nil => exact .nil
  | cons first rest =>
      obtain ⟨r, heq, hr⟩ :=
        pass_coarsens totalSum deltaInv rest { cur := first, weightSoFar := first.weight }
      rw [List.nil_append] at heq
      rw [show compress totalSum deltaInv (first :: rest) = r from heq]
      exact hr

/-- The sums are those of the points added and of the buffer, whatever the weights are. -/
structure Sums (points : List Centroid) (st : TDigest) : Prop where
  total : st.totalSum = WeightedPoint.totalWeight points
  unmerged : st.unmergedSum = WeightedPoint.totalWeight st.unmerged

/-- A digest stands for some points: no weight is lost, and no mean leaves their range. -/
structure Represents (points : List Centroid) (st : TDigest) : Prop where
  sorted : Sorted st.centroids
  positive : Positive (st.centroids ++ st.unmerged)
  weight : WeightedPoint.totalWeight (st.centroids ++ st.unmerged) = WeightedPoint.totalWeight points
  within : ∀ lo hi, Within lo hi points → Within lo hi (st.centroids ++ st.unmerged)
  ne_nil : points ≠ [] → st.centroids ++ st.unmerged ≠ []

theorem merge_unmerged (S : CentroidSort) (st : TDigest) : (st.merge S).unmerged = [] := by
  unfold merge
  split
  · assumption
  · rfl

theorem merge_totalSum (S : CentroidSort) (st : TDigest) : (st.merge S).totalSum = st.totalSum := by
  unfold merge
  split <;> rfl

theorem Sums.merge (h : Sums points st) : Sums points (st.merge S) := by
  unfold TDigest.merge
  split
  · exact h
  · exact ⟨h.total, rfl⟩

theorem Represents.merge (h : Represents points st) : Represents points (st.merge S) := by
  unfold TDigest.merge
  split
  · exact h
  · have hperm := S.perm (st.centroids ++ st.unmerged)
    have hcoarsens := compress_coarsens st.totalSum st.deltaInv (S.sort (st.centroids ++ st.unmerged))
    have hpositive : Positive (S.sort (st.centroids ++ st.unmerged)) :=
      fun p hp => h.positive p (hperm.mem_iff.1 hp)
    have hnil : compress st.totalSum st.deltaInv (S.sort (st.centroids ++ st.unmerged)) ++ []
        = compress st.totalSum st.deltaInv (S.sort (st.centroids ++ st.unmerged)) := List.append_nil _
    refine ⟨hcoarsens.sorted hpositive (S.sorted _), ?_, ?_, fun lo hi hin => ?_, fun hne => ?_⟩
    · rw [hnil]
      exact hcoarsens.positive hpositive
    · rw [hnil, hcoarsens.totalWeight_eq, totalWeight_perm hperm, h.weight]
    · rw [hnil]
      exact hcoarsens.within hpositive fun p hp => h.within lo hi hin p (hperm.mem_iff.1 hp)
    · rw [hnil]
      exact hcoarsens.ne_nil fun hsort => h.ne_nil hne (List.Perm.nil_eq (hsort ▸ hperm)).symm

theorem Sums.buffer (h : Sums points st) (value weight : ℚ) :
    Sums (points ++ [⟨value, weight⟩]) (st.buffer value weight) where
  total := by
    rw [totalWeight_append, ← h.total]
    exact congrArg (st.totalSum + ·) (by simp [WeightedPoint.totalWeight])
  unmerged := by
    show st.unmergedSum + weight = WeightedPoint.totalWeight (st.unmerged ++ [⟨value, weight⟩])
    rw [totalWeight_append, ← h.unmerged]
    exact congrArg (st.unmergedSum + ·) (by simp [WeightedPoint.totalWeight])

theorem Represents.buffer (h : Represents points st) (value : ℚ) {weight : ℚ} (hw : 0 < weight) :
    Represents (points ++ [⟨value, weight⟩]) (st.buffer value weight) := by
  have hentries : (st.buffer value weight).centroids ++ (st.buffer value weight).unmerged
      = (st.centroids ++ st.unmerged) ++ [⟨value, weight⟩] := (List.append_assoc ..).symm
  refine ⟨h.sorted, ?_, ?_, fun lo hi hin => ?_, fun _ => ?_⟩
  · rw [hentries]
    exact List.forall_mem_append.2 ⟨h.positive, List.forall_mem_singleton.2 hw⟩
  · rw [hentries, totalWeight_append _ [_], h.weight, ← totalWeight_append]
  · obtain ⟨hpoints, hlast⟩ := List.forall_mem_append.1 hin
    rw [hentries]
    exact List.forall_mem_append.2 ⟨h.within lo hi hpoints, hlast⟩
  · rw [hentries]
    exact List.append_ne_nil_of_right_ne_nil _ (List.cons_ne_nil _ _)

/-! ## Runs of calls -/

theorem quantile_of_mem {q : ℚ} (h0 : 0 ≤ q) (h1 : q ≤ 1) :
    st.quantile S q = ((st.merge S),
      match (st.merge S).centroids with
      | [] => none
      | [c] => some c.mean
      | centroids => scan (q * (st.merge S).totalSum) none 0 centroids) := by
  rw [quantile, if_neg (not_or.2 ⟨not_lt.2 h0, not_lt.2 h1⟩)]
  dsimp only
  split <;> simp_all

theorem quantile_fst (S : CentroidSort) (st : TDigest) (q : ℚ) :
    (st.quantile S q).1 = st ∨ (st.quantile S q).1 = st.merge S := by
  by_cases hq : q < 0 ∨ 1 < q
  · rw [quantile, if_pos hq]
    exact .inl rfl
  · obtain ⟨h0, h1⟩ := not_or.1 hq
    rw [quantile_of_mem (not_lt.1 h0) (not_lt.1 h1)]
    exact .inr rfl

theorem add_cases (S : CentroidSort) (st : TDigest) (value weight : ℚ) :
    st.add S value weight = (st.buffer value weight).merge S ∨
      st.add S value weight = st.buffer value weight := by
  by_cases hfull : st.delta * 10 ≤ (st.buffer value weight).unmerged.length
  · exact .inl (if_pos hfull)
  · exact .inr (if_neg hfull)

theorem added_append (calls more : List TDigestCall) :
    added (calls ++ more) = added calls ++ added more := List.filterMap_append

/-- What merging and buffering keep is kept by every call. -/
theorem step_keeps {P : List Centroid → TDigest → Prop} {call : TDigestCall}
    (hmerge : ∀ {points st}, P points st → P points (st.merge S))
    (hbuffer : ∀ value weight, call = .add value weight →
      P (points ++ [⟨value, weight⟩]) (st.buffer value weight))
    (h : P points st) : P (points ++ added [call]) (st.step S call) := by
  cases call with
  | add value weight =>
      have hnew := hbuffer value weight rfl
      show P (points ++ [⟨value, weight⟩]) (st.add S value weight)
      rcases add_cases S st value weight with heq | heq <;> rw [heq]
      · exact hmerge hnew
      · exact hnew
  | merge =>
      rw [show added [.merge] = [] from rfl, List.append_nil]
      exact hmerge h
  | quantile q =>
      rw [show added [.quantile q] = [] from rfl, List.append_nil]
      show P points (st.quantile S q).1
      rcases quantile_fst S st q with heq | heq <;> rw [heq]
      · exact h
      · exact hmerge h

theorem Sums.step (h : Sums points st) (call : TDigestCall) :
    Sums (points ++ added [call]) (st.step S call) :=
  step_keeps Sums.merge (fun value weight _ => h.buffer value weight) h

theorem Represents.step (h : Represents points st) {call : TDigestCall}
    (hcall : Positive (added [call])) : Represents (points ++ added [call]) (st.step S call) := by
  refine step_keeps Represents.merge (fun value weight heq => ?_) h
  subst heq
  exact h.buffer value (hcall ⟨value, weight⟩ (List.mem_singleton_self _))

/-- A digest after some calls. -/
def run (S : CentroidSort) (delta : ℚ) (calls : List TDigestCall) : TDigest :=
  calls.foldl (step S) (create delta)

theorem run_concat (delta : ℚ) (calls : List TDigestCall) (call : TDigestCall) :
    run S delta (calls ++ [call]) = (run S delta calls).step S call := List.foldl_concat ..

theorem sums_run (S : CentroidSort) (delta : ℚ) (calls : List TDigestCall) :
    Sums (added calls) (run S delta calls) := by
  induction calls using List.reverseRecOn with
  | nil => exact ⟨rfl, rfl⟩
  | append_singleton calls call ih =>
      rw [run_concat, added_append]
      exact ih.step call

theorem represents_run (S : CentroidSort) (delta : ℚ) {calls : List TDigestCall}
    (hpos : Positive (added calls)) : Represents (added calls) (run S delta calls) := by
  induction calls using List.reverseRecOn with
  | nil =>
      exact ⟨.nil, by simp [Positive, run, create], rfl, by simp [Within, run, create], by simp [added]⟩
  | append_singleton calls call ih =>
      rw [added_append] at hpos ⊢
      obtain ⟨hbefore, hcall⟩ := List.forall_mem_append.1 hpos
      rw [run_concat]
      exact (ih hbefore).step hcall

/-! ## Quantiles -/

section Scan

variable {p m lo hi weightSoFar target target' w : ℚ} {l : List Centroid}

theorem interpolate_mem (hw : 0 < w) (hpm : p ≤ m) (hlo : weightSoFar ≤ target)
    (hhi : target ≤ weightSoFar + w) :
    p ≤ p + (m - p) * (target - weightSoFar) / w ∧ p + (m - p) * (target - weightSoFar) / w ≤ m := by
  have hrise : 0 ≤ m - p := sub_nonneg.2 hpm
  have hpart : (m - p) * (target - weightSoFar) ≤ (m - p) * w :=
    mul_le_mul_of_nonneg_left (by linarith) hrise
  have hle : (m - p) * (target - weightSoFar) / w ≤ m - p := (div_le_iff₀ hw).2 hpart
  have hge : 0 ≤ (m - p) * (target - weightSoFar) / w :=
    div_nonneg (mul_nonneg hrise (by linarith)) hw.le
  constructor <;> linarith

theorem interpolate_mono (hw : 0 < w) (hpm : p ≤ m) (h : target ≤ target') :
    p + (m - p) * (target - weightSoFar) / w ≤ p + (m - p) * (target' - weightSoFar) / w := by
  have hrise : 0 ≤ m - p := sub_nonneg.2 hpm
  gcongr

/-- From behind a centroid on, the result is between its mean and the greatest one. -/
theorem scan_some_mem (hpos : Positive l) (hsorted : Sorted l) (hfirst : ∀ c ∈ l, p ≤ c.mean)
    (ht : weightSoFar ≤ target) :
    ∃ x, scan target (some p) weightSoFar l = some x ∧ p ≤ x ∧
      ∀ hi, p ≤ hi → (∀ c ∈ l, c.mean ≤ hi) → x ≤ hi := by
  induction l generalizing p weightSoFar with
  | nil => exact ⟨p, rfl, le_rfl, fun hi hp _ => hp⟩
  | cons c l ih =>
      obtain ⟨hcw, hl⟩ := positive_cons.1 hpos
      obtain ⟨hc, hsl⟩ := List.pairwise_cons.1 hsorted
      obtain ⟨hpc, -⟩ := List.forall_mem_cons.1 hfirst
      unfold scan
      split
      · rename_i hin
        obtain ⟨hge, hle⟩ := interpolate_mem hcw hpc ht hin
        exact ⟨_, rfl, hge, fun hi _ hhi => hle.trans (List.forall_mem_cons.1 hhi).1⟩
      · rename_i hout
        obtain ⟨x, heq, hge, hle⟩ := ih hl hsl hc (not_le.1 hout).le
        refine ⟨x, heq, hpc.trans hge, fun hi _ hhi => ?_⟩
        obtain ⟨hch, hlh⟩ := List.forall_mem_cons.1 hhi
        exact hle hi hch hlh

theorem scan_some_mono (hpos : Positive l) (hsorted : Sorted l) (hfirst : ∀ c ∈ l, p ≤ c.mean)
    (hlo : weightSoFar ≤ target) (ht : target ≤ target') :
    ∃ x y, scan target (some p) weightSoFar l = some x ∧ scan target' (some p) weightSoFar l = some y ∧
      x ≤ y := by
  induction l generalizing p weightSoFar with
  | nil => exact ⟨p, p, rfl, rfl, le_rfl⟩
  | cons c l ih =>
      obtain ⟨hcw, hl⟩ := positive_cons.1 hpos
      obtain ⟨hc, hsl⟩ := List.pairwise_cons.1 hsorted
      obtain ⟨hpc, -⟩ := List.forall_mem_cons.1 hfirst
      unfold scan
      by_cases hin' : target' ≤ weightSoFar + c.weight
      · rw [if_pos (ht.trans hin'), if_pos hin']
        exact ⟨_, _, rfl, rfl, interpolate_mono hcw hpc ht⟩
      · rw [if_neg hin']
        by_cases hin : target ≤ weightSoFar + c.weight
        · -- the first target ends within this centroid, the second one behind it
          obtain ⟨-, hle⟩ := interpolate_mem hcw hpc hlo hin
          obtain ⟨y, heq, hge, -⟩ := scan_some_mem hl hsl hc (not_le.1 hin').le
          rw [if_pos hin]
          exact ⟨_, y, rfl, heq, hle.trans hge⟩
        · rw [if_neg hin]
          exact ih hl hsl hc (not_le.1 hin).le

/-- The quantile as a function of the target weight. -/
def valueAt (centroids : List Centroid) (target : ℚ) : Option ℚ :=
  match centroids with
  | [] => none
  | [c] => some c.mean
  | centroids => scan target none 0 centroids

theorem valueAt_mem (hpos : Positive l) (hsorted : Sorted l) (hne : l ≠ []) (target : ℚ) :
    ∃ x, valueAt l target = some x ∧ ∀ lo hi, Within lo hi l → lo ≤ x ∧ x ≤ hi := by
  match l, hne with
  | [c], _ => exact ⟨c.mean, rfl, fun lo hi hin => hin c (List.mem_singleton_self c)⟩
  | c :: d :: l, _ =>
      obtain ⟨-, hl⟩ := positive_cons.1 hpos
      obtain ⟨hc, hsl⟩ := List.pairwise_cons.1 hsorted
      show ∃ x, scan target none 0 (c :: d :: l) = some x ∧ _
      unfold scan
      split
      · exact ⟨c.mean, rfl, fun lo hi hin => hin c List.mem_cons_self⟩
      · rename_i hout
        obtain ⟨x, heq, hge, hle⟩ := scan_some_mem hl hsl hc (not_le.1 hout).le
        refine ⟨x, heq, fun lo hi hin => ?_⟩
        have hcin := hin c List.mem_cons_self
        exact ⟨hcin.1.trans hge, hle hi hcin.2 fun e he => (hin e (List.mem_cons_of_mem _ he)).2⟩

theorem valueAt_mono (hpos : Positive l) (hsorted : Sorted l) (hne : l ≠ []) (ht : target ≤ target') :
    ∃ x y, valueAt l target = some x ∧ valueAt l target' = some y ∧ x ≤ y := by
  match l, hne with
  | [c], _ => exact ⟨c.mean, c.mean, rfl, rfl, le_rfl⟩
  | c :: d :: l, _ =>
      obtain ⟨-, hl⟩ := positive_cons.1 hpos
      obtain ⟨hc, hsl⟩ := List.pairwise_cons.1 hsorted
      show ∃ x y, scan target none 0 (c :: d :: l) = some x ∧
        scan target' none 0 (c :: d :: l) = some y ∧ _
      unfold scan
      by_cases hin' : target' ≤ 0 + c.weight
      · rw [if_pos (ht.trans hin'), if_pos hin']
        exact ⟨c.mean, c.mean, rfl, rfl, le_rfl⟩
      · rw [if_neg hin']
        by_cases hin : target ≤ 0 + c.weight
        · obtain ⟨y, heq, hge, -⟩ := scan_some_mem hl hsl hc (not_le.1 hin').le
          rw [if_pos hin]
          exact ⟨c.mean, y, rfl, heq, hge⟩
        · rw [if_neg hin]
          exact scan_some_mono hl hsl hc (not_le.1 hin).le ht

end Scan

theorem quantile_snd {q : ℚ} (h0 : 0 ≤ q) (h1 : q ≤ 1) :
    (st.quantile S q).2 = valueAt (st.merge S).centroids (q * (st.merge S).totalSum) := by
  rw [quantile_of_mem h0 h1]
  rfl

theorem merge_parts (S : CentroidSort) (st : TDigest) :
    (st.merge S).centroids ++ (st.merge S).unmerged = (st.merge S).centroids := by
  rw [merge_unmerged, List.append_nil]

/-- The quantiles of a digest that represents some points. -/
theorem Represents.quantiles (h : Represents points (st.merge S)) (htotal : 0 ≤ st.totalSum)
    (hne : points ≠ []) :
    ∃ value : ℚ → ℚ,
      (∀ q, 0 ≤ q → q ≤ 1 → (st.quantile S q).2 = some (value q)) ∧
      (∀ q q', 0 ≤ q → q ≤ q' → q' ≤ 1 → value q ≤ value q') ∧
      ∀ lo hi, Within lo hi points → ∀ q, 0 ≤ q → q ≤ 1 → lo ≤ value q ∧ value q ≤ hi := by
  obtain ⟨hsorted, hcentroids, -, hwithin, hne'⟩ := h
  have hne := hne' hne
  simp only [merge_parts] at hcentroids hwithin hne
  have hmem := fun q => valueAt_mem hcentroids hsorted hne (q * (st.merge S).totalSum)
  refine ⟨fun q => (valueAt (st.merge S).centroids (q * (st.merge S).totalSum)).getD 0,
    fun q h0 h1 => ?_, fun q q' h0 hle h1 => ?_, fun lo hi hin q h0 h1 => ?_⟩
  · obtain ⟨x, heq, -⟩ := hmem q
    dsimp only
    rw [quantile_snd h0 h1, heq, Option.getD_some]
  · rw [← merge_totalSum S] at htotal
    obtain ⟨x, y, hx, hy, hxy⟩ := valueAt_mono hcentroids hsorted hne
      (mul_le_mul_of_nonneg_right hle htotal)
    dsimp only
    rw [hx, hy]
    exact hxy
  · obtain ⟨x, heq, hbounds⟩ := hmem q
    dsimp only
    rw [heq]
    exact hbounds lo hi (hwithin lo hi hin)

theorem positive_added {calls : List TDigestCall}
    (hpos : ∀ value weight, .add value weight ∈ calls → 0 < weight) : Positive (added calls) := by
  intro p hp
  obtain ⟨call, hcall, heq⟩ := List.mem_filterMap.1 hp
  cases call with
  | add value weight => exact Option.some.inj heq ▸ hpos value weight hcall
  | merge => exact absurd heq.symm (Option.some_ne_none p)
  | quantile q => exact absurd heq.symm (Option.some_ne_none p)

theorem run_representation (S : CentroidSort) (delta : ℚ) (calls : List TDigestCall)
    (hpos : ∀ value weight, .add value weight ∈ calls → 0 < weight) :
    let merged := (run S delta calls).merge S
    Sorted merged.centroids ∧ Positive merged.centroids ∧
    WeightedPoint.totalWeight merged.centroids = WeightedPoint.totalWeight (added calls) ∧
    (∀ lo hi, Within lo hi (added calls) → Within lo hi merged.centroids) ∧
    (added calls ≠ [] → ∃ value : ℚ → ℚ,
      (∀ q, 0 ≤ q → q ≤ 1 → ((run S delta calls).quantile S q).2 = some (value q)) ∧
      (∀ q q', 0 ≤ q → q ≤ q' → q' ≤ 1 → value q ≤ value q') ∧
      ∀ lo hi, Within lo hi (added calls) → ∀ q, 0 ≤ q → q ≤ 1 → lo ≤ value q ∧ value q ≤ hi) := by
  intro merged
  have hadded := positive_added hpos
  have hrep : Represents (added calls) merged := (represents_run S delta hadded).merge
  have htotal : 0 ≤ (run S delta calls).totalSum :=
    (sums_run S delta calls).total ▸ hadded.totalWeight_nonneg
  obtain ⟨hsorted, hcentroids, hweight, hwithin, -⟩ := id hrep
  rw [merge_parts] at hcentroids hweight
  refine ⟨hsorted, hcentroids, hweight, fun lo hi hin => ?_, hrep.quantiles htotal⟩
  have hin := hwithin lo hi hin
  rwa [merge_parts] at hin

theorem run_representation_three :
    Sorted ((run .byMean 100 [.add 3 1, .add 1 2, .quantile (1 / 2), .add 2 1]).merge .byMean).centroids :=
  (run_representation .byMean 100 [.add 3 1, .add 1 2, .quantile (1 / 2), .add 2 1] (by
    intro value weight h
    simp only [List.mem_cons, TDigestCall.add.injEq, List.not_mem_nil, or_false, reduceCtorEq,
      false_or] at h
    rcases h with ⟨-, rfl⟩ | ⟨-, rfl⟩ | ⟨-, rfl⟩ <;> norm_num)).1

end TradeBot.TDigest
