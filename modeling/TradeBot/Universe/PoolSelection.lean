import TradeBot.Lib.TopSelection
import TradeBot.Universe.TickerPool

set_option autoImplicit false

/-! # The selection of the pool

`refresh_pool` is to choose the passing tickers with the largest volumes. It normalises what is
available but, unlike `on_screener_new_coin`, does not look whether it has a ticker already, so that one
that is listed twice can take two places.

`std::sort` leaves the order of equal volumes open, so the selection is right only if it is for every
order. That is a result about rankings (`Lib/TopSelection`), where a ticker that is listed twice is
an entry that is repeated. -/

namespace TradeBot

open TopSelection

namespace TickerPool

variable (pool : TickerPool) (stats : StatsLookup) (available : List Ticker)

/-- The volume by which the pool is ranked; a ticker without statistics has none. -/
def volume24h (ticker : Ticker) : ℚ := ((stats ticker).map TickerStats.volume24hUsd).getD 0

/-- The available tickers that pass the filter, as often as they are listed. -/
def passing : List Ticker :=
  (available.map toInternalTicker).filter (fun t => (pool.passesFilter stats t).isSome)

/-- The pool is what it should be made of. -/
structure Selects (active : List Ticker) : Prop where
  nodup : active.Nodup
  passing : ∀ t ∈ active, t ∈ pool.passing stats available
  length : active.length = min pool.cfg.maxPoolSize (pool.passing stats available).dedup.length
  ordered : active.Pairwise (fun a b => volume24h stats b ≤ volume24h stats a)
  top : ∀ t ∈ pool.passing stats available, t ∉ active →
    ∀ kept ∈ active, volume24h stats t ≤ volume24h stats kept

/-! ## The entries that are sorted -/

variable {pool stats available}

theorem passesFilter_eq_some {t : Ticker} {vol : ℚ} (h : pool.passesFilter stats t = some vol) :
    vol = volume24h stats t := by
  unfold passesFilter at h
  split at h
  · exact absurd h (by simp)
  · split at h
    · exact (Option.some.inj h).symm
    · cases hstats : stats t with
      | none =>
          rw [hstats] at h
          rw [volume24h, hstats]
          exact (Option.some.inj h).symm
      | some s =>
          simp only [hstats, Option.ite_none_left_eq_some, Option.some.injEq] at h
          rw [volume24h, hstats]
          exact h.2.2.symm

/-- The entries are the passing tickers with their volumes. -/
theorem entries_eq : ((available.map toInternalTicker).filterMap (fun t =>
      (pool.passesFilter stats (toInternalTicker t)).map (fun vol => (toInternalTicker t, vol))))
    = (pool.passing stats available).map (fun t => (t, volume24h stats t)) := by
  induction available with
  | nil => rfl
  | cons raw available ih =>
      rw [List.map_cons, List.filterMap_cons, ih, toInternalTicker_idem]
      simp only [passing, List.map_cons, List.filter_cons]
      cases hpasses : pool.passesFilter stats (toInternalTicker raw) with
      | none => rfl
      | some vol =>
          rw [passesFilter_eq_some hpasses]
          rfl

theorem refreshPool_active (now : TimePoint) (volumeSort : VolumeSort) :
    ({ pool with volumeSort := volumeSort }.refreshPool stats available now).active
      = (((volumeSort.sort ((pool.passing stats available).map (fun t => (t, volume24h stats t)))).map
          Prod.fst).take pool.cfg.maxPoolSize) := by
  rw [← List.map_take, ← entries_eq]
  rfl

/-- A sort ranks the tickers by volume. -/
theorem ranking_sort (volumeSort : VolumeSort) (tickers : List Ticker) :
    Ranking (volume24h stats) tickers
      ((volumeSort.sort (tickers.map (fun t => (t, volume24h stats t)))).map Prod.fst) where
  perm := by
    have hperm := (volumeSort.perm (tickers.map (fun t => (t, volume24h stats t)))).map Prod.fst
    rwa [List.map_map, Function.comp_def, List.map_id'] at hperm
  sorted := by
    rw [List.pairwise_map]
    refine (volumeSort.sorted _).imp_of_mem fun {p q} hp hq hle => ?_
    have hentry : ∀ r ∈ volumeSort.sort (tickers.map (fun t => (t, volume24h stats t))),
        volume24h stats r.1 = r.2 := by
      intro r hr
      obtain ⟨t, _, rfl⟩ := List.mem_map.1 ((volumeSort.perm _).mem_iff.1 hr)
      rfl
    rw [hentry p hp, hentry q hq]
    exact hle

/-- Every ranking is one that `std::sort` may give. -/
theorem exists_sort {tickers l : List Ticker} (h : Ranking (volume24h stats) tickers l) :
    ∃ volumeSort : VolumeSort,
      (volumeSort.sort (tickers.map (fun t => (t, volume24h stats t)))).map Prod.fst = l := by
  let entries := tickers.map (fun t => (t, volume24h stats t))
  let ranked := l.map (fun t => (t, volume24h stats t))
  refine ⟨⟨fun x => if x = entries then ranked else VolumeSort.stable.sort x, ?_, ?_⟩, ?_⟩
  · intro x
    by_cases hx : x = entries
    · rw [if_pos hx, hx]
      exact h.perm.map _
    · rw [if_neg hx]
      exact VolumeSort.stable.perm x
  · intro x
    by_cases hx : x = entries
    · rw [if_pos hx]
      exact List.pairwise_map.2 h.sorted
    · rw [if_neg hx]
      exact VolumeSort.stable.sorted x
  · simp [entries, ranked, Function.comp_def]

/-! ## The selection -/

/-- Of the tickers of a ranking the right ones are chosen, if none is chosen twice. -/
theorem selects_iff_nodup {l : List Ticker}
    (h : Ranking (volume24h stats) (pool.passing stats available) l) :
    pool.Selects stats available (l.take pool.cfg.maxPoolSize) ↔ (l.take pool.cfg.maxPoolSize).Nodup := by
  refine ⟨Selects.nodup, fun hnodup => ⟨hnodup, ?_, h.length_take_of_nodup hnodup, ?_, ?_⟩⟩
  · exact fun t ht => h.perm.mem_iff.1 (List.mem_of_mem_take ht)
  · exact h.sorted.sublist (List.take_sublist _ _)
  · intro t ht hout kept hkept
    rw [← h.perm.mem_iff, ← List.take_append_drop pool.cfg.maxPoolSize l, List.mem_append] at ht
    exact h.le_of_mem_take_drop hkept (ht.resolve_left hout)

variable (pool stats available)

/-- However equal volumes are ordered, `refresh_pool` chooses the right tickers, if and only if a passing
    ticker that is listed more than once has one place at most behind those with larger volumes. -/
theorem refreshPool_selects_iff (now : TimePoint) :
    (∀ volumeSort : VolumeSort, pool.Selects stats available
        ({ pool with volumeSort := volumeSort }.refreshPool stats available now).active) ↔
      ∀ t, 2 ≤ (pool.passing stats available).count t →
        pool.cfg.maxPoolSize < (pool.passing stats available).countP
          (fun other => decide (volume24h stats t < volume24h stats other)) + 2 := by
  rw [← forall_nodup_take_iff]
  constructor
  · intro h l hranking
    obtain ⟨volumeSort, hsort⟩ := exists_sort hranking
    have hselects := h volumeSort
    rw [refreshPool_active, hsort] at hselects
    exact hselects.nodup
  · intro h volumeSort
    have hranking := @ranking_sort stats volumeSort (pool.passing stats available)
    rw [refreshPool_active]
    exact (selects_iff_nodup hranking).2 (h _ hranking)

/-- BTC is listed in two spellings, with the largest volume. -/
def btcTwice : List Ticker := ["BTC_USDT", "btcusdt", "ETH_USDT"]

/-- One ticker with more volume than the others. -/
def btcVolumes : StatsLookup := fun t =>
  some { volume24hUsd := if t = "BTC_USDT" then 3000000 else 2000000 }

/-- A pool of two tickers. -/
def twoPlaces : TickerPool := { cfg := { maxPoolSize := 2 } }

theorem twoPlaces_active : (twoPlaces.refreshPool btcVolumes btcTwice 0).active
    = ["BTC_USDT", "BTC_USDT"] := by
  have hactive := @refreshPool_active twoPlaces btcVolumes btcTwice 0 .stable
  have hpassing : twoPlaces.passing btcVolumes btcTwice = ["BTC_USDT", "BTC_USDT", "ETH_USDT"] := by
    decide +kernel
  -- the entries are sorted already
  have hsort : VolumeSort.stable.sort (["BTC_USDT", "BTC_USDT", "ETH_USDT"].map
        (fun t => (t, volume24h btcVolumes t)))
      = ["BTC_USDT", "BTC_USDT", "ETH_USDT"].map (fun t => (t, volume24h btcVolumes t)) :=
    List.mergeSort_of_pairwise (by decide +kernel)
  rw [hpassing, hsort] at hactive
  exact hactive

/-- It is twice in a pool of two tickers, from which ETH is left out. -/
theorem btc_selected_twice :
    (twoPlaces.refreshPool btcVolumes btcTwice 0).active = ["BTC_USDT", "BTC_USDT"] ∧
      ¬ twoPlaces.Selects btcVolumes btcTwice
        (twoPlaces.refreshPool btcVolumes btcTwice 0).active := by
  refine ⟨twoPlaces_active, fun h => ?_⟩
  have hnodup := h.nodup
  rw [twoPlaces_active] at hnodup
  exact absurd hnodup (by decide)

end TickerPool

end TradeBot
