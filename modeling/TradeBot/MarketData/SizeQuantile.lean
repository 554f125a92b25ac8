import TradeBot.Utils.DigestQuantiles
import TradeBot.Utils.Welford

set_option autoImplicit false

/-! # The cached quantile of trade sizes

The part of `TradeStream` that keeps the sizes of all trades, and the rule of `get_stats` to query the
digest again only when enough was added. The rule reads `total_weight()`, which counts the entries of the
buffer twice: they are in the total from the moment they are added.

`Watched` counts beside the stream how many trades have come, which the code does not do, so that the
freshness of the cache can be stated. A query merges the buffer, and then the weight is right; it is
the weight read by the rule before the query that counts the buffered trades once more. -/

namespace TradeBot

/-- The accumulator of all sizes, the digest, and the cached quantile with the weight at its last
    query. -/
structure SizeQuantile where
  sizeStats : WelfordAccumulator ℚ := {}
  sizeDistribution : TDigest
  cachedQ99 : Option ℚ := some 0
  lastMergeWeight : ℕ := 0

/-- A call of the stream that touches the sizes. -/
inductive SizeCall
  | onTrade (size : ℚ)
  | getStats

namespace SizeQuantile

variable (S : CentroidSort) (st : SizeQuantile)

/-- No trade has come yet. -/
def create : SizeQuantile := { sizeDistribution := .create 100 }

/-- The size of a trade goes into both. -/
def onTrade (size : ℚ) : SizeQuantile :=
  { st with
    sizeStats := st.sizeStats.update size
    sizeDistribution := st.sizeDistribution.add S size 1 }

/-- The condition for a new query. -/
def Refreshes : Prop := (st.lastMergeWeight + 50 : ℚ) < st.sizeDistribution.totalWeight

instance : Decidable st.Refreshes := inferInstanceAs (Decidable (_ < _))

/-- The state with the average size and the 99th percentile. -/
def getStats : SizeQuantile × ℚ × Option ℚ :=
  let totalW := st.sizeDistribution.totalWeight
  if 0 < totalW then
    if st.Refreshes then
      let (digest, q99) := st.sizeDistribution.quantile S (99 / 100)
      ({ st with sizeDistribution := digest, cachedQ99 := q99, lastMergeWeight := ⌊totalW⌋₊ },
        st.sizeStats.mean, q99)
    else (st, st.sizeStats.mean, st.cachedQ99)
  else (st, st.sizeStats.mean, some 0)

end SizeQuantile

/-! ## The weight that is read -/

namespace TDigest

open WeightedPoint

variable {S : CentroidSort}

theorem Sums.totalWeight_eq {points : List Centroid} {st : TDigest} (h : Sums points st) :
    st.totalWeight = WeightedPoint.totalWeight points + WeightedPoint.totalWeight st.unmerged := by
  rw [TDigest.totalWeight, h.total, h.unmerged]

/-- The weight read is right exactly while the buffer holds none. -/
theorem run_totalWeight_eq_iff (S : CentroidSort) (delta : ℚ) (calls : List TDigestCall) :
    (run S delta calls).totalWeight = WeightedPoint.totalWeight (added calls) ↔
      WeightedPoint.totalWeight (run S delta calls).unmerged = 0 := by
  rw [(sums_run S delta calls).totalWeight_eq]
  exact add_eq_left

end TDigest

namespace SizeQuantile

variable {S : CentroidSort}

/-- A stream with the number of its trades, now and when the quantile was queried last. -/
structure Watched where
  stream : SizeQuantile := create
  trades : ℕ := 0
  refreshedAt : ℕ := 0

/-- A call, with the number of trades when the cache was last refreshed. -/
def Watched.step (S : CentroidSort) (w : Watched) : SizeCall → Watched
  | .onTrade size => { w with stream := w.stream.onTrade S size, trades := w.trades + 1 }
  | .getStats =>
      { w with
        stream := (w.stream.getStats S).1
        refreshedAt := if w.stream.Refreshes then w.trades else w.refreshedAt }

/-- `get_stats` finds nothing in the buffer. -/
def BufferEmpty (w : Watched) : SizeCall → Prop
  | .onTrade _ => True
  | .getStats => w.stream.sizeDistribution.unmerged = []

/-- `get_stats` queries the digest if more than 50 trades came since it did so last. -/
def RefreshInTime (w : Watched) : SizeCall → Prop
  | .onTrade _ => True
  | .getStats => w.refreshedAt + 50 < w.trades → w.stream.Refreshes

/-- The digest holds the trades, and the weight of the last query is their number at that time. -/
structure InStep (w : Watched) : Prop where
  sums : ∃ points, TDigest.Sums points w.stream.sizeDistribution ∧
    WeightedPoint.totalWeight points = w.trades
  last : w.stream.lastMergeWeight = w.refreshedAt

theorem InStep.totalWeight_eq {w : Watched} (h : InStep w)
    (hempty : w.stream.sizeDistribution.unmerged = []) :
    w.stream.sizeDistribution.totalWeight = w.trades := by
  obtain ⟨points, hsums, htrades⟩ := h.sums
  rw [hsums.totalWeight_eq, hempty, htrades]
  exact add_zero _

theorem InStep.refreshes_iff {w : Watched} (h : InStep w)
    (hempty : w.stream.sizeDistribution.unmerged = []) :
    w.stream.Refreshes ↔ w.refreshedAt + 50 < w.trades := by
  rw [Refreshes, h.totalWeight_eq hempty, h.last]
  exact_mod_cast Iff.rfl

theorem getStats_of_refreshes {st : SizeQuantile} (h : st.Refreshes) :
    (st.getStats S).1 = { st with
      sizeDistribution := (st.sizeDistribution.quantile S (99 / 100)).1
      cachedQ99 := (st.sizeDistribution.quantile S (99 / 100)).2
      lastMergeWeight := ⌊st.sizeDistribution.totalWeight⌋₊ } := by
  have hpos : 0 < st.sizeDistribution.totalWeight :=
    lt_of_le_of_lt (by positivity) (show (st.lastMergeWeight + 50 : ℚ) < _ from h)
  rw [getStats, if_pos hpos, if_pos h]

theorem getStats_of_not_refreshes {st : SizeQuantile} (h : ¬st.Refreshes) : (st.getStats S).1 = st := by
  by_cases hpos : 0 < st.sizeDistribution.totalWeight
  · rw [getStats, if_pos hpos, if_neg h]
  · rw [getStats, if_neg hpos]

theorem InStep.step {w : Watched} (h : InStep w) {call : SizeCall} (hempty : BufferEmpty w call) :
    InStep (w.step S call) := by
  obtain ⟨points, hsums, htrades⟩ := h.sums
  cases call with
  | onTrade size =>
      refine ⟨⟨points ++ [⟨size, 1⟩], hsums.step (.add size 1), ?_⟩, h.last⟩
      rw [WeightedPoint.totalWeight_append, htrades]
      simp [Watched.step, WeightedPoint.totalWeight]
  | getStats =>
      by_cases hrefresh : w.stream.Refreshes
      · have hdigest : TDigest.Sums points (w.stream.sizeDistribution.quantile S (99 / 100)).1 := by
          have hstep := hsums.step (S := S) (.quantile (99 / 100))
          rwa [show TDigest.added [.quantile (99 / 100)] = [] from rfl, List.append_nil] at hstep
        refine ⟨⟨points, ?_, htrades⟩, ?_⟩
        · show TDigest.Sums points (w.stream.getStats S).1.sizeDistribution
          rw [getStats_of_refreshes hrefresh]
          exact hdigest
        · show (w.stream.getStats S).1.lastMergeWeight = if w.stream.Refreshes then w.trades else _
          rw [getStats_of_refreshes hrefresh, if_pos hrefresh, h.totalWeight_eq hempty]
          exact Nat.floor_natCast w.trades
      · refine ⟨⟨points, ?_, htrades⟩, ?_⟩
        · show TDigest.Sums points (w.stream.getStats S).1.sizeDistribution
          rw [getStats_of_not_refreshes hrefresh]
          exact hsums
        · show (w.stream.getStats S).1.lastMergeWeight = if w.stream.Refreshes then _ else w.refreshedAt
          rw [getStats_of_not_refreshes hrefresh, if_neg hrefresh, h.last]

theorem inStep_start : InStep {} := ⟨⟨[], ⟨rfl, rfl⟩, rfl⟩, rfl⟩

/-- While `get_stats` finds the buffer empty, its cache is as fresh as it means it to be. -/
theorem refreshInTime_along {calls : List SizeCall}
    (h : Runs.Along (Watched.step S) BufferEmpty {} calls) :
    Runs.Along (Watched.step S) RefreshInTime {} calls := by
  refine h.imp InStep (fun w call hw hempty => hw.step hempty) (fun w call hw hempty => ?_) inStep_start
  cases call with
  | onTrade size => trivial
  | getStats => exact (hw.refreshes_iff hempty).2

theorem weight_read_iff_buffer_empty (S : CentroidSort) (delta : ℚ) :
    (∀ calls, (TDigest.run S delta calls).totalWeight = WeightedPoint.totalWeight (TDigest.added calls) ↔
      WeightedPoint.totalWeight (TDigest.run S delta calls).unmerged = 0) ∧
    (∀ calls more, (∀ p ∈ TDigest.added more, 0 ≤ p.weight) →
      WeightedPoint.totalWeight (TDigest.run S delta calls).unmerged = 0 →
      WeightedPoint.totalWeight (TDigest.run S delta (calls ++ more)).unmerged = 0 →
      (TDigest.run S delta calls).totalWeight ≤ (TDigest.run S delta (calls ++ more)).totalWeight) ∧
    ∀ calls, Runs.Along (Watched.step S) BufferEmpty {} calls →
      Runs.Along (Watched.step S) RefreshInTime {} calls := by
  refine ⟨TDigest.run_totalWeight_eq_iff S delta, fun calls more hmore h h' => ?_,
    fun calls => refreshInTime_along⟩
  rw [(TDigest.run_totalWeight_eq_iff S delta calls).2 h,
    (TDigest.run_totalWeight_eq_iff S delta (calls ++ more)).2 h', TDigest.added_append,
    WeightedPoint.totalWeight_append]
  refine le_add_of_nonneg_right (List.sum_nonneg fun w hw => ?_)
  obtain ⟨p, hp, rfl⟩ := List.mem_map.1 hw
  exact hmore p hp

/-- One added value is read as two. -/
theorem buffered_weight_read_twice :
    ¬ ∀ calls : List TDigestCall, (TDigest.run .byMean 100 calls).totalWeight
      = WeightedPoint.totalWeight (TDigest.added calls) := by
  intro hall
  have hone := hall [.add 1 1]
  have hadded : TDigest.added [.add 1 1] = [⟨1, 1⟩] := rfl
  rw [hadded] at hone
  norm_num [TDigest.run, TDigest.step, TDigest.add, TDigest.buffer, TDigest.create, TDigest.totalWeight,
    WeightedPoint.totalWeight] at hone

/-- The sizes of the trades among the calls. -/
def sizes (calls : List SizeCall) : List ℚ :=
  calls.filterMap fun
    | .onTrade size => some size
    | .getStats => none

/-- The average of `get_stats` is that of all trades, queries or not. -/
theorem sizeStats_mean (S : CentroidSort) (calls : List SizeCall) :
    (calls.foldl (Watched.step S) {}).stream.sizeStats.mean = (sizes calls).sum / (sizes calls).length := by
  have hstats : (calls.foldl (Watched.step S) {}).stream.sizeStats
      = WelfordAccumulator.updates (sizes calls) := by
    induction calls using List.reverseRecOn with
    | nil => rfl
    | append_singleton calls call ih =>
        rw [List.foldl_concat, sizes, List.filterMap_append, ← sizes, WelfordAccumulator.updates,
          List.foldl_append, ← WelfordAccumulator.updates, ← ih]
        cases call with
        | onTrade size => rfl
        | getStats =>
            show ((List.foldl (Watched.step S) {} calls).stream.getStats S).1.sizeStats = _
            by_cases h : (List.foldl (Watched.step S) {} calls).stream.Refreshes
            · rw [getStats_of_refreshes h]
              rfl
            · rw [getStats_of_not_refreshes h]
              rfl
  rw [hstats, WelfordAccumulator.updates_eq_batch]
  rfl

end SizeQuantile

end TradeBot
