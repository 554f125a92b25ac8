import TradeBot.Lib.Histories
import TradeBot.Universe.TickerPool

set_option autoImplicit false

/-! # Membership and its timers

The pool is a list, but `is_in_pool` asks the affinity map, which the affinity pass and the overrides
fill. `one_notion_iff` says when the two agree, and `timers_exact` that the timers of `active_since_`
give the time since which a ticker is in the list.

Both results are about every run from the empty pool. The timers need no condition on the run, since
only a refresh touches them and the list together. The map is also written to by overrides, and is
filled by the affinity pass after a refresh and not by the refresh itself. -/

namespace TradeBot

open Histories

namespace TickerPool

variable {pool : TickerPool}

/-! ## The affinity map as the pool -/

/-- Membership by the affinity map is membership in the pool, and only members have enabled
    strategies. -/
structure OneNotion (pool : TickerPool) : Prop where
  inPool : ∀ ticker, pool.isInPool ticker = true ↔ toInternalTicker ticker ∈ pool.active
  enabled : ∀ ticker strategy, pool.isStrategyEnabled ticker strategy = true →
    pool.isInPool ticker = true

/-- `refresh_pool` brings no ticker that is not in the pool yet, and no override is about a ticker
    outside of it. -/
def KeepsToPool (pool : TickerPool) : Op → Prop
  | .refreshPool stats available _ =>
      ∀ t ∈ pool.survivors stats (available.map toInternalTicker), t ∈ pool.active
  | .overrideAffinity ticker _ _ => toInternalTicker ticker ∈ pool.active
  | _ => True

theorem isInPool_iff (ticker : Ticker) :
    pool.isInPool ticker = true ↔ toInternalTicker ticker ∈ pool.affinity :=
  AList.lookup_isSome

theorem oneNotion_iff (h : Normalized pool) :
    OneNotion pool ↔ ∀ t, t ∈ pool.affinity ↔ t ∈ pool.active := by
  constructor
  · intro hone t
    by_cases ht : toInternalTicker t = t
    · have hin := hone.inPool t
      rwa [isInPool_iff, ht] at hin
    · exact iff_of_false (fun hin => ht (h.affinity t hin)) (fun hin => ht (h.active t hin))
  · refine fun hsame => ⟨fun ticker => (isInPool_iff ticker).trans (hsame _), ?_⟩
    intro ticker strategy henabled
    unfold TickerUniverse.isStrategyEnabled at henabled
    unfold TickerUniverse.isInPool
    cases hlookup : pool.affinity.lookup (toInternalTicker ticker) with
    | none => simp [hlookup] at henabled
    | some entry => rfl

/-- An operation keeps the map and the list the same, unless it reaches beyond the pool. -/
theorem step_same_iff (h : ∀ t, t ∈ pool.affinity ↔ t ∈ pool.active) (op : Op) :
    (∀ t, t ∈ (pool.step op).1.affinity ↔ t ∈ (pool.step op).1.active) ↔ KeepsToPool pool op := by
  -- the affinity pass adds an entry for every ticker of the list
  have hcollect : ∀ (p : TickerPool) (scores : AffinityScores),
      (∀ t, t ∈ p.affinity → t ∈ p.active) →
      ∀ t, t ∈ (p.collectAffinityChanges scores).1.affinity ↔ t ∈ p.active :=
    fun p scores hp t => (p.mem_collectAffinityChanges scores).trans
      ⟨fun hin => hin.elim id (hp t), Or.inl⟩
  cases op with
  | refreshPool stats available now =>
      constructor
      · exact fun hsame t ht => (h t).1 (mem_keepActive.1 ((hsame t).2 ht)).2
      · exact fun hkeeps t => mem_keepActive.trans
          ⟨fun hin => hin.1, fun hin => ⟨hin, (h t).2 (hkeeps t hin)⟩⟩
  | refreshAffinity scores =>
      exact iff_of_true (hcollect pool scores (fun t => (h t).1)) trivial
  | overrideAffinity ticker strategy enabled =>
      constructor
      · exact fun hsame => (hsame _).1 ((AList.mem_insert _).2 (Or.inl rfl))
      · intro hkeeps t
        refine (AList.mem_insert _).trans ⟨fun hin => ?_, fun hin => Or.inr ((h t).2 hin)⟩
        -- the entry that is written, or one from before
        rcases hin with heq | hin
        · rw [heq]
          exact hkeeps
        · exact (h t).1 hin
  | onBigEvent ticker scores now =>
      refine iff_of_true (hcollect _ scores ?_) trivial
      exact fun t => (h t).1
  | onScreenerNewCoin ticker stats scores now =>
      refine iff_of_true ?_ trivial
      by_cases hrebuilds : pool.rebuildsFor (toInternalTicker ticker) = true
      · simp only [step, onScreenerNewCoin, if_pos hrebuilds]
        exact hcollect _ scores (fun t ht => (mem_keepActive.1 ht).1)
      · simp only [step, onScreenerNewCoin, if_neg hrebuilds]
        exact h
  | registerStrategy name =>
      refine iff_of_true ?_ trivial
      simp only [step, registerStrategy_affinity, registerStrategy_active]
      exact h
  | seedCandidates candidates => exact iff_of_true h trivial

/-- In a run from the empty pool membership is one notion after every operation, if and only if
    `refresh_pool` never brings a new ticker and no override is about a ticker outside the pool. -/
theorem one_notion_iff (boostTtl : TimePoint) (cfg : PoolConfig) (accepts : Ticker → Bool)
    (volumeSort : VolumeSort) (ops : List Op) :
    Throughout (fun pre => OneNotion ((init boostTtl cfg accepts volumeSort).run pre)) ops ↔
      Runs.Along (fun pool op => (pool.step op).1) KeepsToPool
        (init boostTtl cfg accepts volumeSort) ops := by
  have hinit := normalized_init boostTtl cfg accepts volumeSort
  have hnormal : ∀ pre, Normalized ((init boostTtl cfg accepts volumeSort).run pre) :=
    fun pre => Runs.invariant Normalized (fun pool op hpool => hpool.step op) pre hinit
  simp only [oneNotion_iff (hnormal _)]
  refine throughout_iff_along (fun pool : TickerPool => ∀ t, t ∈ pool.affinity ↔ t ∈ pool.active)
    (fun pool op hpool => step_same_iff hpool op) (fun t => ?_)
  exact iff_of_false (AList.notMem_empty t) List.not_mem_nil

/-- Right after the first `refresh_pool` its tickers are not in the pool for `is_in_pool`. -/
theorem refreshed_ticker_not_in_pool :
    ¬ ∀ boostTtl cfg accepts volumeSort ops,
        OneNotion ((init boostTtl cfg accepts volumeSort).run ops) := by
  intro hall
  have hin := (hall 0 {} (fun _ => true) .stable [.refreshPool (fun _ => none) ["BTC_USDT"] 0]).inPool
    "BTC_USDT"
  exact absurd hin (by decide +kernel)

/-! ## The timers -/

/-- `since` is the time of the earliest refresh since which the ticker is in the pool. -/
def InPoolSince (history : List (TimePoint × List Ticker)) (t : Ticker) (since : TimePoint) : Prop :=
  ∃ before start after, history = before ++ start :: after ∧ start.1 = since ∧
    (∀ refresh ∈ start :: after, t ∈ refresh.2) ∧ ∀ last ∈ before.getLast?, t ∉ last.2

/-- The ticker is in the pool without interruption for at least `d`. -/
def InPoolFor (history : List (TimePoint × List Ticker)) (t : Ticker) (d now : TimePoint) : Prop :=
  ∃ before start after, history = before ++ start :: after ∧ d ≤ now - start.1 ∧
    ∀ refresh ∈ start :: after, t ∈ refresh.2

/-- The timers of a pool that the refreshes of `history` made. -/
structure Exact (history : List (TimePoint × List Ticker)) (pool : TickerPool) : Prop where
  last : ∀ refresh ∈ history.getLast?, refresh.2 = pool.active
  running : ∀ t ∈ pool.active, ∃ since ∈ pool.activeSince.lookup t, InPoolSince history t since
  stopped : ∀ t ∉ pool.active, pool.activeSince.lookup t = none

variable {history : List (TimePoint × List Ticker)}

theorem InPoolSince.concat {t : Ticker} {since : TimePoint} (h : InPoolSince history t since)
    {refresh : TimePoint × List Ticker} (ht : t ∈ refresh.2) :
    InPoolSince (history ++ [refresh]) t since := by
  obtain ⟨before, start, after, rfl, hstart, hin, hlast⟩ := h
  refine ⟨before, start, after ++ [refresh], by simp, hstart, fun x hx => ?_, hlast⟩
  rcases List.mem_append.1 (List.cons_append .. ▸ hx) with hx | hx
  · exact hin x hx
  · rwa [List.mem_singleton.1 hx]

theorem Exact.refreshed (h : Exact history pool) (refresh : TimePoint × List Ticker)
    {pool' : TickerPool} (hactive : pool'.active = refresh.2)
    (htimers : pool'.activeSince
      = refresh.2.foldl (emplace refresh.1) (keepActive refresh.2 pool.activeSince)) :
    Exact (history ++ [refresh]) pool' where
  last r hr := by
    rw [List.getLast?_concat] at hr
    rw [hactive, ← Option.some.inj hr]
  running t ht := by
    rw [hactive] at ht
    rw [htimers, lookup_foldl_emplace, lookup_keepActive, if_pos ht, if_pos ht]
    by_cases hwas : t ∈ pool.active
    · obtain ⟨since, hsince, hin⟩ := h.running t hwas
      rw [Option.mem_def.1 hsince]
      exact ⟨since, rfl, hin.concat ht⟩
    · rw [h.stopped t hwas]
      refine ⟨refresh.1, rfl, history, refresh, [], rfl, rfl, ?_, fun r hr => ?_⟩
      · exact fun r hr => by rwa [List.mem_singleton.1 hr]
      · rwa [h.last r hr]
  stopped t ht := by
    rw [hactive] at ht
    rw [htimers, lookup_foldl_emplace, lookup_keepActive, if_neg ht, if_neg ht]
    rfl

theorem Exact.step (h : Exact history pool) (op : Op) :
    Exact (history ++ (pool.refreshOf op).toList) (pool.step op).1 := by
  have hactive := pool.step_active op
  have htimers := pool.step_activeSince op
  cases hrefresh : pool.refreshOf op with
  | none =>
      rw [hrefresh] at hactive htimers
      simp only [Option.map_none, Option.getD_none] at hactive htimers
      rw [Option.toList_none, List.append_nil]
      exact ⟨by rw [hactive]; exact h.last, by rw [hactive, htimers]; exact h.running,
        by rw [hactive, htimers]; exact h.stopped⟩
  | some refresh =>
      rw [hrefresh] at hactive htimers
      exact h.refreshed refresh hactive htimers

theorem Exact.run (h : Exact history pool) (ops : List Op) :
    Exact (history ++ pool.refreshes ops) (pool.run ops) := by
  induction ops generalizing pool history with
  | nil => simpa [refreshes, TickerPool.run] using h
  | cons op ops ih =>
      have hrest := ih (h.step op)
      rw [List.append_assoc] at hrest
      exact hrest

theorem exists_mem_getLast? {α : Type} (before : List α) (start : α) (after : List α) :
    ∃ l ∈ (before ++ start :: after).getLast?, l ∈ start :: after := by
  refine ⟨(start :: after).getLast (List.cons_ne_nil _ _), ?_, List.getLast_mem _⟩
  rw [List.getLast?_append_of_ne_nil _ (List.cons_ne_nil _ _), List.getLast?_eq_getLast_of_ne_nil]
  rfl

/-- With a clock that does not go back a timer is old enough if and only if the ticker was there. -/
theorem Exact.isAffinityStable_iff (h : Exact history pool)
    (hclock : (history.map Prod.fst).Pairwise (· ≤ ·)) (ticker : Ticker) (d now : TimePoint) :
    pool.isAffinityStable ticker d now = true ↔ InPoolFor history (toInternalTicker ticker) d now := by
  unfold TickerUniverse.isAffinityStable
  by_cases hactive : toInternalTicker ticker ∈ pool.active
  · obtain ⟨since, hsince, before, start, after, hhist, rfl, hin, hlast⟩ := h.running _ hactive
    rw [Option.mem_def.1 hsince]
    simp only [decide_eq_true_eq]
    refine ⟨fun hd => ⟨before, start, after, hhist, hd, hin⟩, ?_⟩
    rintro ⟨before', start', after', hhist', hd, hin'⟩
    suffices hle : start.1 ≤ start'.1 from hd.trans (Int.sub_le_sub_left hle now)
    -- the interruption before `start` is not within the uninterrupted time
    rw [hhist] at hhist' hclock
    rcases List.append_eq_append_iff.1 hhist' with ⟨mid, rfl, hmid⟩ | ⟨mid, rfl, hmid⟩
    · have hstart' : start' ∈ start :: after := hmid ▸ by simp
      rcases List.mem_cons.1 hstart' with rfl | hafter
      · exact le_rfl
      · rw [List.map_append, List.map_cons] at hclock
        exact List.rel_of_pairwise_cons (List.pairwise_append.1 hclock).2.1
          (List.mem_map_of_mem hafter)
    · cases mid with
      | nil => exact le_of_eq (congrArg Prod.fst (List.cons.inj hmid).1.symm)
      | cons x mid =>
          obtain ⟨rfl, rfl⟩ := List.cons.inj hmid
          obtain ⟨l, hl, hmem⟩ := exists_mem_getLast? before' start' mid
          have hlater : l ∈ (start' :: mid) ++ start :: after := List.mem_append_left _ hmem
          exact absurd (hin' l hlater) (hlast l hl)
  · rw [h.stopped _ hactive]
    refine iff_of_false Bool.false_ne_true ?_
    rintro ⟨before, start, after, hhist, _, hin⟩
    obtain ⟨l, hl, hmem⟩ := exists_mem_getLast? before start after
    rw [← hhist] at hl
    exact hactive (h.last l hl ▸ hin l hmem)

theorem exact_init (boostTtl : TimePoint) (cfg : PoolConfig) (accepts : Ticker → Bool)
    (volumeSort : VolumeSort) : Exact [] (init boostTtl cfg accepts volumeSort) where
  last _ hr := absurd hr (Option.not_mem_none _)
  running _ ht := absurd ht List.not_mem_nil
  stopped _ _ := rfl

/-- The timers give the time since which each ticker is in the pool, there are no others, and a ticker
    is stable if and only if it is in the pool for long enough. -/
theorem timers_exact (boostTtl : TimePoint) (cfg : PoolConfig) (accepts : Ticker → Bool)
    (volumeSort : VolumeSort) (ops : List Op)
    (hclock : (((init boostTtl cfg accepts volumeSort).refreshes ops).map Prod.fst).Pairwise
      (· ≤ ·)) :
    (∀ t ∈ ((init boostTtl cfg accepts volumeSort).run ops).active,
        ∃ since ∈ ((init boostTtl cfg accepts volumeSort).run ops).activeSince.lookup t,
          InPoolSince ((init boostTtl cfg accepts volumeSort).refreshes ops) t since) ∧
      (∀ t ∉ ((init boostTtl cfg accepts volumeSort).run ops).active,
        ((init boostTtl cfg accepts volumeSort).run ops).activeSince.lookup t = none) ∧
      ∀ ticker d now,
        ((init boostTtl cfg accepts volumeSort).run ops).isAffinityStable ticker d now = true ↔
          InPoolFor ((init boostTtl cfg accepts volumeSort).refreshes ops)
            (toInternalTicker ticker) d now := by
  have hexact := (exact_init boostTtl cfg accepts volumeSort).run ops
  rw [List.nil_append] at hexact
  exact ⟨hexact.running, hexact.stopped, hexact.isAffinityStable_iff hclock⟩

/-- A ticker is in the pool, then out of it, and in again. -/
def returnRun : List Op :=
  [.refreshPool (fun _ => none) ["BTC_USDT"] 0, .refreshPool (fun _ => none) [] 10,
    .refreshPool (fun _ => none) ["BTC_USDT"] 20, .refreshPool (fun _ => none) ["BTC_USDT"] 30]

/-- A ticker that leaves and comes back has its timer started again. -/
theorem timers_exact_returned :
    (init 0 {} (fun _ => true) .stable).refreshes returnRun
        = [(0, ["BTC_USDT"]), (10, []), (20, ["BTC_USDT"]), (30, ["BTC_USDT"])] ∧
      (((init 0 {} (fun _ => true) .stable).run returnRun).isAffinityStable "btc-usdt" 10 30 = true ↔
        InPoolFor ((init 0 {} (fun _ => true) .stable).refreshes returnRun)
          (toInternalTicker "btc-usdt") 10 30) := by
  have hclock : (((init 0 {} (fun _ => true) .stable).refreshes returnRun).map Prod.fst).Pairwise
      (· ≤ ·) := by decide +kernel
  exact ⟨by decide +kernel, (timers_exact 0 {} (fun _ => true) .stable returnRun hclock).2.2 _ _ _⟩

end TickerPool

end TradeBot
