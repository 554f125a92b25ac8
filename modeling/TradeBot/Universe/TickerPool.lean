import Mathlib.Data.List.Sort
import TradeBot.Universe.Affinity

set_option autoImplicit false

/-! # The pool and its affinity layer

`universe/TickerUniverse.{hpp,cpp}` as a state machine: the pool that `refresh_pool` and
`on_screener_new_coin` build from the candidates, the timers of its tickers, and the affinity map with
the changes that are reported about it. Strategies are registered under any names, and every operation
brings the statistics and the scores of its moment.

The static filter is any predicate, and so is the order among equal volumes, which `std::sort` leaves
open. Scale factors, tiers and order book settings are left out. -/

namespace TradeBot

/-- `std::sort` of the survivors: the largest volume first, equal volumes in any order. -/
structure VolumeSort where
  sort : List (Ticker × ℚ) → List (Ticker × ℚ)
  perm : ∀ l, (sort l).Perm l
  sorted : ∀ l, (sort l).Pairwise (fun a b => b.2 ≤ a.2)

/-- A stable sort. -/
def VolumeSort.stable : VolumeSort where
  sort := fun l => l.mergeSort (fun a b => decide (b.2 ≤ a.2))
  perm := fun l => List.mergeSort_perm l _
  sorted := fun l => by
    have h : (l.mergeSort (fun a b => decide (b.2 ≤ a.2))).Pairwise
        (fun a b => decide (b.2 ≤ a.2) = true) := List.pairwise_mergeSort
      (fun a b c hab hbc => by
        simp only [decide_eq_true_eq] at hab hbc ⊢
        exact hbc.trans hab)
      (fun a b => by simpa using le_total b.2 a.2) l
    exact h.imp (fun hab => of_decide_eq_true hab)

/-- `TickerUniverse::Config`. -/
structure PoolConfig where
  maxPoolSize : ℕ := 30
  minVolume24hUsd : ℚ := 1000000
  maxAvgSpreadBps : ℚ := 20
  exchangeVolumeMultiplier : ℚ := 1

/-- The scores of the registered strategies; a strategy without a score function scores `false`. -/
abbrev AffinityScores := String → Ticker → Bool

/-- The universe with the fields that only the pool uses. -/
structure TickerPool extends TickerUniverse where
  cfg : PoolConfig := {}
  /-- `filters_.accepts`. -/
  accepts : Ticker → Bool := fun _ => true
  volumeSort : VolumeSort := .stable
  /-- The keys of `strategies_`. -/
  strategies : List String := []
  active : List Ticker := []
  screenerApproved : List Ticker := []
  allCandidates : List Ticker := []

namespace TickerPool

variable (pool : TickerPool) (stats : StatsLookup) (scores : AffinityScores)

/-! ## The pool -/

/-- `passes_filter_locked`: the volume of a ticker that passes. A coin that the screener approved, and
    one without statistics, passes the dynamic gate. -/
def passesFilter (ticker : Ticker) : Option ℚ :=
  if ¬ pool.accepts ticker then none
  else if ticker ∈ pool.screenerApproved then
    some (((stats ticker).map TickerStats.volume24hUsd).getD 0)
  else
    match stats ticker with
    | none => some 0
    | some s =>
        if s.volume24hUsd < pool.cfg.minVolume24hUsd * pool.cfg.exchangeVolumeMultiplier then none
        else if pool.cfg.maxAvgSpreadBps < s.avgSpreadBps then none
        else some s.volume24hUsd

/-- The tickers that `refresh_pool_locked` makes the pool of. -/
def survivors (available : List Ticker) : List Ticker :=
  ((pool.volumeSort.sort (available.filterMap (fun t =>
    (pool.passesFilter stats (toInternalTicker t)).map (fun vol => (toInternalTicker t, vol))))).take
      pool.cfg.maxPoolSize).map Prod.fst

/-- Erase what belongs to tickers that fell out of the pool. -/
def keepActive {β : Type} (active : List Ticker) (m : AList (fun _ : Ticker => β)) :
    AList (fun _ : Ticker => β) :=
  eraseKeys m (m.keys.filter (fun t => t ∉ active))

/-- `active_since_.emplace(t, now)`: it does nothing if the key exists. -/
def emplace (now : TimePoint) (m : AList (fun _ : Ticker => TimePoint)) (t : Ticker) :
    AList (fun _ : Ticker => TimePoint) :=
  if (m.lookup t).isSome then m else m.insert t now

/-- `refresh_pool_locked`. -/
def refreshPoolLocked (available : List Ticker) (now : TimePoint) : TickerPool :=
  let active := pool.survivors stats available
  { pool with
    active := active
    affinity := keepActive active pool.affinity
    activeSince := active.foldl (emplace now) (keepActive active pool.activeSince) }

/-- `refresh_pool`. -/
def refreshPool (available : List Ticker) (now : TimePoint) : TickerPool :=
  pool.refreshPoolLocked stats (available.map toInternalTicker) now

/-! ## The affinity layer -/

/-- The inner loop of `collect_affinity_changes_` at one strategy, for a ticker's entry of
    `affinity_`. -/
def collectStrategy (ticker : Ticker) (r : AList (fun _ : String => Bool) × List AffinityChange)
    (strategy : String) : AList (fun _ : String => Bool) × List AffinityChange :=
  let enabled := scores strategy ticker
  match r.1.lookup strategy with
  | none =>
      (r.1.insert strategy enabled, if enabled then r.2 ++ [⟨ticker, strategy, enabled⟩] else r.2)
  | some prev =>
      if prev ≠ enabled then
        (r.1.insert strategy enabled, r.2 ++ [⟨ticker, strategy, enabled⟩])
      else r

/-- The outer loop at one ticker. -/
def collectTicker (r : AffinityMap × List AffinityChange) (ticker : Ticker) :
    AffinityMap × List AffinityChange :=
  let entry := pool.strategies.foldl (collectStrategy scores ticker)
    ((r.1.lookup ticker).getD ∅, r.2)
  (r.1.insert ticker entry.1, entry.2)

/-- `collect_affinity_changes_`, and the changes that are fired afterwards. -/
def collectAffinityChanges : TickerPool × List AffinityChange :=
  let r := pool.active.foldl (pool.collectTicker scores) (pool.affinity, [])
  ({ pool with affinity := r.1 }, r.2)

/-- `refresh_affinity`. -/
def refreshAffinity : TickerPool × List AffinityChange := pool.collectAffinityChanges scores

/-- `override_affinity`. -/
def overrideAffinity (ticker : Ticker) (strategy : String) (enabled : Bool) :
    TickerPool × List AffinityChange :=
  let key := toInternalTicker ticker
  let entry := (pool.affinity.lookup key).getD ∅
  let prev := (entry.lookup strategy).getD false
  ({ pool with affinity := pool.affinity.insert key (entry.insert strategy enabled) },
    if prev ≠ enabled then [⟨key, strategy, enabled⟩] else [])

/-- `on_big_tick`, `on_big_amount` and `on_big_event`. -/
def onBigEvent (ticker : Ticker) (now : TimePoint) : TickerPool × List AffinityChange :=
  let expired := pool.boosts.keys.filter
    (fun t => decide (∃ boostedAt ∈ pool.boosts.lookup t, pool.boostTtl < now - boostedAt))
  { pool with
    boosts := (eraseKeys pool.boosts expired).insert (toInternalTicker ticker) now
    }.collectAffinityChanges scores

/-- The candidates among which a new screener coin rebuilds the pool: the approved ones and the coin
    itself. -/
def poolCandidates (key : Ticker) : List Ticker :=
  let added := pool.allCandidates.filter (fun t => decide (t ∈ pool.screenerApproved ∨ t = key))
  added ++ pool.screenerApproved.filter (fun t => t ∉ added) ++ if key ∈ added then [] else [key]

/-- The coin passes the static filter and is not approved yet. -/
def rebuildsFor (key : Ticker) : Bool :=
  pool.accepts key && decide (key ∉ pool.screenerApproved)

/-- `on_screener_new_coin`. -/
def onScreenerNewCoin (ticker : Ticker) (now : TimePoint) : TickerPool × List AffinityChange :=
  let key := toInternalTicker ticker
  if pool.rebuildsFor key then
    ({ pool with screenerApproved := pool.screenerApproved.orderedInsert (· ≤ ·) key
      }.refreshPoolLocked stats (pool.poolCandidates key) now).collectAffinityChanges scores
  else (pool, [])

/-- `register_strategy`. -/
def registerStrategy (name : String) : TickerPool :=
  if name ∈ pool.strategies then pool
  else { pool with strategies := pool.strategies.orderedInsert (· ≤ ·) name }

/-- `seed_candidates`. -/
def seedCandidates (candidates : List Ticker) : TickerPool :=
  { pool with allCandidates := candidates.map toInternalTicker }

/-! ## Runs -/

/-- A call of the universe. -/
inductive Op
  | refreshPool (stats : StatsLookup) (available : List Ticker) (now : TimePoint)
  | refreshAffinity (scores : AffinityScores)
  | overrideAffinity (ticker : Ticker) (strategy : String) (enabled : Bool)
  | onBigEvent (ticker : Ticker) (scores : AffinityScores) (now : TimePoint)
  | onScreenerNewCoin (ticker : Ticker) (stats : StatsLookup) (scores : AffinityScores)
      (now : TimePoint)
  | registerStrategy (name : String)
  | seedCandidates (candidates : List Ticker)

/-- An operation, and the changes it reports. -/
def step (pool : TickerPool) : Op → TickerPool × List AffinityChange
  | .refreshPool stats available now => (pool.refreshPool stats available now, [])
  | .refreshAffinity scores => pool.refreshAffinity scores
  | .overrideAffinity ticker strategy enabled => pool.overrideAffinity ticker strategy enabled
  | .onBigEvent ticker scores now => pool.onBigEvent scores ticker now
  | .onScreenerNewCoin ticker stats scores now => pool.onScreenerNewCoin stats scores ticker now
  | .registerStrategy name => (pool.registerStrategy name, [])
  | .seedCandidates candidates => (pool.seedCandidates candidates, [])

/-- The pool at the start: no tickers yet. -/
def init (boostTtl : TimePoint) (cfg : PoolConfig) (accepts : Ticker → Bool)
    (volumeSort : VolumeSort) : TickerPool :=
  { boostTtl := boostTtl, cfg := cfg, accepts := accepts, volumeSort := volumeSort }

/-- The pool after some operations. -/
def run (pool : TickerPool) (ops : List Op) : TickerPool := ops.foldl (fun pool op => (pool.step op).1) pool

/-- The changes that a run reports, oldest first. -/
def changes : TickerPool → List Op → List AffinityChange
  | _, [] => []
  | pool, op :: ops => (pool.step op).2 ++ changes (pool.step op).1 ops

/-- When the operation refreshes the pool, and with which tickers. -/
def refreshOf (pool : TickerPool) : Op → Option (TimePoint × List Ticker)
  | .refreshPool stats available now =>
      some (now, pool.survivors stats (available.map toInternalTicker))
  | .onScreenerNewCoin ticker stats _ now =>
      let key := toInternalTicker ticker
      if pool.rebuildsFor key then
        some (now, { pool with screenerApproved := pool.screenerApproved.orderedInsert (· ≤ ·) key
          }.survivors stats (pool.poolCandidates key))
      else none
  | _ => none

/-- The refreshes of a run, oldest first. -/
def refreshes : TickerPool → List Op → List (TimePoint × List Ticker)
  | _, [] => []
  | pool, op :: ops => (pool.refreshOf op).toList ++ refreshes (pool.step op).1 ops

/-! ## Lemmas -/

/-- `affinity_` as a function; what it has no entry for is disabled. -/
def enabledAt (affinity : AffinityMap) (k : Ticker × String) : Bool :=
  ((affinity.lookup k.1).bind (fun entry => entry.lookup k.2)).getD false

theorem isStrategyEnabled_eq (ticker : Ticker) (strategy : String) :
    pool.isStrategyEnabled ticker strategy
      = enabledAt pool.affinity (toInternalTicker ticker, strategy) := by
  unfold TickerUniverse.isStrategyEnabled enabledAt
  cases pool.affinity.lookup (toInternalTicker ticker) <;> rfl

theorem enabledAt_insert (affinity : AffinityMap) (ticker : Ticker)
    (entry : AList (fun _ : String => Bool)) (k : Ticker × String) :
    enabledAt (affinity.insert ticker entry) k
      = if k.1 = ticker then (entry.lookup k.2).getD false else enabledAt affinity k := by
  by_cases hk : k.1 = ticker
  · rw [if_pos hk, enabledAt, hk, AList.lookup_insert]
    rfl
  · rw [if_neg hk, enabledAt, AList.lookup_insert_ne hk]
    rfl

theorem lookup_eraseKeys {β : Type} (m : AList (fun _ : Ticker => β)) (tickers : List Ticker)
    (t : Ticker) : (eraseKeys m tickers).lookup t = if t ∈ tickers then none else m.lookup t := by
  induction tickers generalizing m with
  | nil => rfl
  | cons x tickers ih =>
      refine (ih (m.erase x)).trans ?_
      by_cases ht : t = x
      · subst ht
        have hnone : (m.erase t).lookup t = none := AList.lookup_erase ..
        rw [hnone, ite_self, if_pos (List.mem_cons_self ..)]
      · rw [AList.lookup_erase_ne ht]
        simp [ht]

/-- Only the entries of the pool's tickers are left. -/
theorem lookup_keepActive {β : Type} (active : List Ticker) (m : AList (fun _ : Ticker => β))
    (t : Ticker) : (keepActive active m).lookup t = if t ∈ active then m.lookup t else none := by
  rw [keepActive, lookup_eraseKeys]
  by_cases hactive : t ∈ active
  · simp [hactive]
  · by_cases hkey : t ∈ m.keys
    · simp [hactive, hkey]
    · simp [hactive, hkey, AList.lookup_eq_none.2 (mt AList.mem_keys.1 hkey)]

theorem enabledAt_keepActive (active : List Ticker) (affinity : AffinityMap) (k : Ticker × String) :
    enabledAt (keepActive active affinity) k
      = if k.1 ∈ active then enabledAt affinity k else false := by
  rw [enabledAt, lookup_keepActive]
  by_cases hk : k.1 ∈ active
  · rw [if_pos hk, if_pos hk]
    rfl
  · rw [if_neg hk, if_neg hk]
    rfl

/-! ## Tickers in the maps -/

theorem mem_keepActive {β : Type} {active : List Ticker} {m : AList (fun _ : Ticker => β)}
    {t : Ticker} : t ∈ keepActive active m ↔ t ∈ active ∧ t ∈ m := by
  rw [← AList.lookup_isSome, lookup_keepActive, ← AList.lookup_isSome]
  by_cases hactive : t ∈ active
  · simp [hactive]
  · simp [hactive]

/-- The affinity pass adds an entry for every ticker of the pool, and none else. -/
theorem mem_collectAffinityChanges {t : Ticker} :
    t ∈ (pool.collectAffinityChanges scores).1.affinity ↔ t ∈ pool.active ∨ t ∈ pool.affinity := by
  have hfold : ∀ (l : List Ticker) (r : AffinityMap × List AffinityChange),
      t ∈ (l.foldl (pool.collectTicker scores) r).1 ↔ t ∈ l ∨ t ∈ r.1 := by
    intro l
    induction l with
    | nil => simp
    | cons x l ih =>
        intro r
        rw [List.foldl_cons, ih, List.mem_cons]
        simp only [collectTicker, AList.mem_insert]
        tauto
  exact hfold pool.active (pool.affinity, [])

theorem registerStrategy_active (name : String) :
    (pool.registerStrategy name).active = pool.active := by
  unfold registerStrategy
  split <;> rfl

theorem registerStrategy_affinity (name : String) :
    (pool.registerStrategy name).affinity = pool.affinity := by
  unfold registerStrategy
  split <;> rfl

/-- Only a refresh changes the pool, and its tickers are the pool then. -/
theorem step_active (op : Op) :
    (pool.step op).1.active = ((pool.refreshOf op).map Prod.snd).getD pool.active := by
  cases op with
  | onScreenerNewCoin ticker stats scores now =>
      by_cases hrebuilds : pool.rebuildsFor (toInternalTicker ticker) = true
      · simp only [step, onScreenerNewCoin, refreshOf, if_pos hrebuilds]
        rfl
      · simp only [step, onScreenerNewCoin, refreshOf, if_neg hrebuilds]
        rfl
  | registerStrategy name => exact pool.registerStrategy_active name
  | _ => rfl

/-- Nor does anything else touch the timers. -/
theorem step_activeSince (op : Op) :
    (pool.step op).1.activeSince = ((pool.refreshOf op).map (fun refresh =>
      refresh.2.foldl (emplace refresh.1) (keepActive refresh.2 pool.activeSince))).getD
        pool.activeSince := by
  cases op with
  | onScreenerNewCoin ticker stats scores now =>
      by_cases hrebuilds : pool.rebuildsFor (toInternalTicker ticker) = true
      · simp only [step, onScreenerNewCoin, refreshOf, if_pos hrebuilds]
        rfl
      · simp only [step, onScreenerNewCoin, refreshOf, if_neg hrebuilds]
        rfl
  | registerStrategy name =>
      show (pool.registerStrategy name).activeSince = pool.activeSince
      unfold registerStrategy
      split <;> rfl
  | _ => rfl

/-- A timer that runs goes on, and every other one starts now. -/
theorem lookup_foldl_emplace (now : TimePoint) (active : List Ticker)
    (m : AList (fun _ : Ticker => TimePoint)) (t : Ticker) :
    (active.foldl (emplace now) m).lookup t
      = (m.lookup t).or (if t ∈ active then some now else none) := by
  induction active generalizing m with
  | nil => simp
  | cons x active ih =>
      rw [List.foldl_cons, ih]
      unfold emplace
      by_cases hx : (m.lookup x).isSome = true
      · rw [if_pos hx]
        by_cases ht : t = x
        · obtain ⟨since, hsince⟩ := Option.isSome_iff_exists.1 hx
          rw [ht, hsince, Option.some_or, Option.some_or]
        · simp [ht]
      · rw [if_neg hx]
        by_cases ht : t = x
        · rw [ht, AList.lookup_insert, Option.not_isSome_iff_eq_none.1 hx]
          simp
        · rw [AList.lookup_insert_ne ht]
          simp [ht]

theorem survivors_normalized {available : List Ticker} {t : Ticker}
    (h : t ∈ pool.survivors stats available) : toInternalTicker t = t := by
  obtain ⟨p, hp, rfl⟩ := List.mem_map.1 h
  have hp := (pool.volumeSort.perm _).mem_iff.1 (List.mem_of_mem_take hp)
  obtain ⟨raw, _, hraw⟩ := List.mem_filterMap.1 hp
  obtain ⟨vol, _, rfl⟩ := Option.map_eq_some_iff.1 hraw
  dsimp only
  exact toInternalTicker_idem raw

/-- The tickers that the pool keeps are normalized. -/
structure Normalized (pool : TickerPool) : Prop where
  active : ∀ t ∈ pool.active, toInternalTicker t = t
  affinity : ∀ t ∈ pool.affinity, toInternalTicker t = t

variable {pool : TickerPool}

theorem Normalized.congr (h : Normalized pool) {pool' : TickerPool}
    (hactive : pool'.active = pool.active) (haffinity : pool'.affinity = pool.affinity) :
    Normalized pool' :=
  ⟨by rw [hactive]; exact h.active, by rw [haffinity]; exact h.affinity⟩

theorem Normalized.refreshPoolLocked (h : Normalized pool) (stats : StatsLookup)
    (available : List Ticker) (now : TimePoint) :
    Normalized (pool.refreshPoolLocked stats available now) where
  active _ ht := pool.survivors_normalized stats ht
  affinity t ht := h.affinity t (mem_keepActive.1 ht).2

theorem Normalized.collectAffinityChanges (h : Normalized pool) (scores : AffinityScores) :
    Normalized (pool.collectAffinityChanges scores).1 where
  active := h.active
  affinity t ht := ((pool.mem_collectAffinityChanges scores).1 ht).elim (h.active t) (h.affinity t)

theorem Normalized.step (h : Normalized pool) (op : Op) : Normalized (pool.step op).1 := by
  cases op with
  | refreshPool stats available now => exact h.refreshPoolLocked ..
  | refreshAffinity scores => exact h.collectAffinityChanges scores
  | overrideAffinity ticker strategy enabled =>
      have hidem := toInternalTicker_idem ticker
      refine ⟨h.active, fun t ht => ?_⟩
      simp only [TickerPool.step, overrideAffinity] at ht
      generalize toInternalTicker ticker = key at hidem ht
      rcases (AList.mem_insert _).1 ht with rfl | ht
      · exact hidem
      · exact h.affinity t ht
  | onBigEvent ticker scores now =>
      show Normalized (TickerPool.collectAffinityChanges _ scores).1
      refine Normalized.collectAffinityChanges ?_ scores
      exact h.congr rfl rfl
  | onScreenerNewCoin ticker stats scores now =>
      by_cases hrebuilds : pool.rebuildsFor (toInternalTicker ticker) = true
      · simp only [TickerPool.step, onScreenerNewCoin, if_pos hrebuilds]
        refine Normalized.collectAffinityChanges ?_ scores
        refine Normalized.refreshPoolLocked ?_ stats _ now
        exact h.congr rfl rfl
      · simp only [TickerPool.step, onScreenerNewCoin, if_neg hrebuilds]
        exact h
  | registerStrategy name =>
      exact h.congr (pool.registerStrategy_active name) (pool.registerStrategy_affinity name)
  | seedCandidates candidates => exact h.congr rfl rfl

theorem normalized_init (boostTtl : TimePoint) (cfg : PoolConfig) (accepts : Ticker → Bool)
    (volumeSort : VolumeSort) : Normalized (init boostTtl cfg accepts volumeSort) where
  active := by simp [init]
  affinity t ht := absurd ht (AList.notMem_empty t)

end TickerPool

end TradeBot
