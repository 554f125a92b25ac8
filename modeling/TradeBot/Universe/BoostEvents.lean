import TradeBot.Lib.ReportingPass
import TradeBot.Universe.TickerPool

set_option autoImplicit false

/-! # Boost events

A boost is to have an effect on the affinity at the next `refresh_affinity()` only. The functions that
take boost events in run the affinity pass themselves, so they leave the affinity alone exactly while
there is nothing to refresh.

A query cannot tell an entry for a disabled strategy from a missing one, so two maps may differ and
look the same. `BoostsOnly` compares what the queries see before and after a call, and the condition
is that the affinity pass would find nothing to change. -/

namespace TradeBot

open ReportingPass

namespace TickerPool

variable (pool : TickerPool) (scores : AffinityScores)

/-- `on_big_tick`. The size is not used. -/
def onBigTick (ticker : Ticker) (_sizeUsd : ℚ) (now : TimePoint) : TickerPool × List AffinityChange :=
  pool.onBigEvent scores ticker now

/-- `on_big_amount`. Nor is this one. -/
def onBigAmount (ticker : Ticker) (_sizeUsd : ℚ) (now : TimePoint) :
    TickerPool × List AffinityChange :=
  pool.onBigEvent scores ticker now

/-- An operation that changes nothing but the boost table, as far as the queries show, and reports
    nothing. -/
structure BoostsOnly (r : TickerPool × List AffinityChange) : Prop where
  active : r.1.active = pool.active
  inPool : ∀ ticker, r.1.isInPool ticker = pool.isInPool ticker
  enabled : ∀ ticker strategy, r.1.isStrategyEnabled ticker strategy
    = pool.isStrategyEnabled ticker strategy
  strategies : ∀ ticker, r.1.enabledStrategies ticker = pool.enabledStrategies ticker
  silent : r.2 = []

/-- Every ticker of the pool has an entry, which holds the scores of the moment. -/
def Refreshed : Prop :=
  ∀ t ∈ pool.active, (toInternalTicker t = t → t ∈ pool.affinity) ∧
    ∀ strategy ∈ pool.strategies, scores strategy t = enabledAt pool.affinity (t, strategy)

/-! ## The affinity pass -/

variable {scores}

theorem enabledAt_insert_insert_of_eq {affinity : AffinityMap} {ticker : Ticker}
    {entry : AList (fun _ : String => Bool)} {strategy : String} {enabled : Bool}
    (hsame : enabled = (entry.lookup strategy).getD false) :
    enabledAt (affinity.insert ticker (entry.insert strategy enabled))
      = enabledAt (affinity.insert ticker entry) := by
  funext k
  rw [enabledAt_insert, enabledAt_insert]
  by_cases hs : k.2 = strategy
  · rw [hs, AList.lookup_insert, hsame]
    rfl
  · rw [AList.lookup_insert_ne hs]

theorem collectStrategy_reports (affinity : AffinityMap) (ticker : Ticker)
    (e : AList (fun _ : String => Bool) × List AffinityChange) (strategy : String) :
    Reports (fun e => enabledAt (affinity.insert ticker e.1)) Prod.snd
      (fun o => scores strategy ticker = o (ticker, strategy)) e
      (collectStrategy scores ticker e strategy) := by
  have hsee : enabledAt (affinity.insert ticker e.1) (ticker, strategy)
      = (e.1.lookup strategy).getD false := by
    rw [enabledAt_insert, if_pos rfl]
  unfold collectStrategy
  cases hprev : e.1.lookup strategy with
  | none =>
      rw [hprev, Option.getD_none] at hsee
      by_cases henabled : scores strategy ticker = true
      · exact Reports.report ⟨ticker, strategy, true⟩
          (by simp only [hsee, henabled, Bool.true_eq_false, not_false_eq_true])
          (by simp only [henabled, if_true])
      · rw [Bool.not_eq_true] at henabled
        refine Reports.silent (by simp only [hsee, henabled]) (by simp [henabled]) ?_
        exact enabledAt_insert_insert_of_eq (by rw [hprev, henabled, Option.getD_none])
  | some prev =>
      rw [hprev, Option.getD_some] at hsee
      by_cases hchange : prev = scores strategy ticker
      · refine Reports.silent (by rw [hsee, hchange]) ?_ ?_
        all_goals simp only [hchange, ne_eq, not_true_eq_false, if_false]
      · exact Reports.report ⟨ticker, strategy, scores strategy ticker⟩ (by rw [hsee]; exact Ne.symm hchange)
          (by simp only [ne_eq, hchange, not_false_eq_true, if_true])

theorem enabledAt_reinsert (affinity : AffinityMap) (ticker : Ticker) :
    enabledAt (affinity.insert ticker ((affinity.lookup ticker).getD ∅)) = enabledAt affinity := by
  funext k
  rw [enabledAt_insert]
  by_cases hk : k.1 = ticker
  · rw [if_pos hk, enabledAt, hk]
    cases affinity.lookup ticker with
    | none => rfl
    | some entry => rfl
  · rw [if_neg hk]

theorem collectTicker_reports (r : AffinityMap × List AffinityChange) (ticker : Ticker) :
    Reports (fun r => enabledAt r.1) Prod.snd
      (fun o => ∀ strategy ∈ pool.strategies, scores strategy ticker = o (ticker, strategy)) r
      (pool.collectTicker scores r ticker) := by
  have hpass := Reports.foldl (fun e strategy (_ : strategy ∈ pool.strategies) =>
    @collectStrategy_reports scores r.1 ticker e strategy) ((r.1.lookup ticker).getD ∅, r.2)
  have hsilent := hpass.silent_iff
  have hkept := hpass.kept
  simp only [enabledAt_reinsert] at hsilent hkept
  exact ⟨hpass.grows, hsilent, hkept⟩

theorem collectAffinityChanges_reports :
    ((pool.collectAffinityChanges scores).2 = [] ↔ ∀ t ∈ pool.active, ∀ strategy ∈ pool.strategies,
      scores strategy t = enabledAt pool.affinity (t, strategy)) ∧
    ((pool.collectAffinityChanges scores).2 = [] →
      enabledAt (pool.collectAffinityChanges scores).1.affinity = enabledAt pool.affinity) := by
  have hpass := Reports.foldl (fun r t (_ : t ∈ pool.active) =>
    @collectTicker_reports pool scores r t) (pool.affinity, [])
  exact ⟨hpass.silent_iff, hpass.kept⟩

/-! ## What the queries see -/

theorem enabledStrategies_nodup (u : TickerUniverse) (ticker : Ticker) :
    (u.enabledStrategies ticker).Nodup := by
  unfold TickerUniverse.enabledStrategies
  cases u.affinity.lookup (toInternalTicker ticker) with
  | none => exact List.nodup_nil
  | some entry =>
      rw [(List.mergeSort_perm _ _).nodup_iff]
      exact List.Nodup.sublist (List.filter_sublist.map Sigma.fst) entry.nodupKeys

theorem enabledStrategies_sorted (u : TickerUniverse) (ticker : Ticker) :
    (u.enabledStrategies ticker).Pairwise (· ≤ ·) := by
  unfold TickerUniverse.enabledStrategies
  cases u.affinity.lookup (toInternalTicker ticker) with
  | none => exact List.Pairwise.nil
  | some entry =>
      refine (List.pairwise_mergeSort ?_ ?_ _).imp of_decide_eq_true
      · intro a b c hab hbc
        exact decide_eq_true (String.le_trans (of_decide_eq_true hab) (of_decide_eq_true hbc))
      · intro a b
        simpa using String.le_total a b

/-- The strategies of a ticker come sorted and once each, so that they are known from the single ones. -/
theorem enabledStrategies_congr {u u' : TickerUniverse} {ticker : Ticker}
    (h : ∀ strategy, u.isStrategyEnabled ticker strategy = u'.isStrategyEnabled ticker strategy) :
    u.enabledStrategies ticker = u'.enabledStrategies ticker := by
  have hperm : (u.enabledStrategies ticker).Perm (u'.enabledStrategies ticker) := by
    rw [List.perm_ext_iff_of_nodup (enabledStrategies_nodup u ticker) (enabledStrategies_nodup u' ticker)]
    intro strategy
    rw [TickerUniverse.mem_enabledStrategies, TickerUniverse.mem_enabledStrategies, h]
  exact hperm.eq_of_pairwise (fun _ _ _ _ => String.le_antisymm) (enabledStrategies_sorted u ticker)
    (enabledStrategies_sorted u' ticker)

theorem isInPool_iff_mem (ticker : Ticker) :
    pool.isInPool ticker = true ↔ toInternalTicker ticker ∈ pool.affinity := AList.lookup_isSome

/-- The affinity pass is invisible exactly if the pool is refreshed. -/
theorem collect_boostsOnly_iff {boosted : TickerPool} (hactive : boosted.active = pool.active)
    (hstrategies : boosted.strategies = pool.strategies) (haffinity : boosted.affinity = pool.affinity) :
    pool.BoostsOnly (boosted.collectAffinityChanges scores) ↔ pool.Refreshed scores := by
  obtain ⟨hsilent, hkept⟩ := @collectAffinityChanges_reports boosted scores
  have hmem (t : Ticker) := boosted.mem_collectAffinityChanges scores (t := t)
  rw [hactive, hstrategies, haffinity] at hsilent
  rw [haffinity] at hkept
  simp only [hactive, haffinity] at hmem
  constructor
  · intro h t ht
    refine ⟨fun hnormal => ?_, hsilent.1 h.silent t ht⟩
    have hin := h.inPool t
    rw [Bool.eq_iff_iff, isInPool_iff_mem, isInPool_iff_mem, hnormal, hmem] at hin
    exact hin.1 (Or.inl ht)
  · intro h
    have hquiet := hsilent.2 (fun t ht => (h t ht).2)
    have henabled (ticker : Ticker) (strategy : String) :
        (boosted.collectAffinityChanges scores).1.isStrategyEnabled ticker strategy
          = pool.isStrategyEnabled ticker strategy := by
      rw [isStrategyEnabled_eq, isStrategyEnabled_eq, hkept hquiet]
    refine ⟨hactive, fun ticker => ?_, henabled,
      fun ticker => enabledStrategies_congr (henabled ticker), hquiet⟩
    rw [Bool.eq_iff_iff, isInPool_iff_mem, isInPool_iff_mem, hmem, or_iff_right_iff_imp]
    exact fun ht => (h _ ht).1 (toInternalTicker_idem ticker)

/-! ## Boosts -/

/-- A boost event leaves the affinity alone exactly if a refresh would find nothing to do. -/
theorem boosts_boostsOnly_iff (scores : AffinityScores) (ticker : Ticker) (sizeUsd : ℚ)
    (now : TimePoint) :
    (pool.BoostsOnly (pool.onBigTick scores ticker sizeUsd now) ↔ pool.Refreshed scores) ∧
      (pool.BoostsOnly (pool.onBigAmount scores ticker sizeUsd now) ↔ pool.Refreshed scores) ∧
      (pool.BoostsOnly (pool.onBigEvent scores ticker now) ↔ pool.Refreshed scores) := by
  have hevent : pool.BoostsOnly (pool.onBigEvent scores ticker now) ↔ pool.Refreshed scores :=
    pool.collect_boostsOnly_iff rfl rfl rfl
  exact ⟨hevent, hevent, hevent⟩

/-- BTC is in the pool, and at the last refresh the strategy was not for it. -/
def waitingPool : TickerPool :=
  (init 0 {} (fun _ => true) .stable).run [.registerStrategy "Strat",
    .refreshPool (fun _ => none) ["BTC_USDT"] 0, .refreshAffinity (fun _ _ => false)]

/-- A boost enables the strategy as soon as the score has changed. -/
theorem boost_enables :
    waitingPool.isStrategyEnabled "BTC_USDT" "Strat" = false ∧
      (waitingPool.onBigTick (fun _ _ => true) "BTC_USDT" 1 1).1.isStrategyEnabled
        "BTC_USDT" "Strat" = true ∧
      ¬ waitingPool.BoostsOnly (waitingPool.onBigTick (fun _ _ => true) "BTC_USDT" 1 1) := by
  have hbefore : waitingPool.isStrategyEnabled "BTC_USDT" "Strat" = false := by decide +kernel
  have hafter : (waitingPool.onBigTick (fun _ _ => true) "BTC_USDT" 1 1).1.isStrategyEnabled
      "BTC_USDT" "Strat" = true := by decide +kernel
  refine ⟨hbefore, hafter, fun h => ?_⟩
  have hsame := h.enabled "BTC_USDT" "Strat"
  rw [hbefore, hafter] at hsame
  exact Bool.noConfusion hsame

end TickerPool

end TradeBot
