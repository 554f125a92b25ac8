import TradeBot.Lib.Runs
import TradeBot.Universe.TickerUniverse

set_option autoImplicit false

/-! # The affinity layer

How a strategy gets to trade a ticker: the affinity scores of `register_strategy_affinities_`
(`app/BotAppInit.cpp`), the updates of `affinity_` in `universe/TickerUniverse.cpp`, and the handler
of `setup_affinity_handler_`, which adds strategies to the engine and removes them. The layer speaks
of a strategy by its key; its instances have the name of their class.

Which tickers pass the pool's filters is an input, and so are the statistics that the scores read.
Controllers, feeds and the strategies' own configurations are left out. -/

namespace TradeBot

/-- The strategy classes. -/
inductive Strategy
  | bounceFromDensity
  | breakoutEatThrough
  | leaderLag
  | flushReversal
  deriving DecidableEq, Repr

namespace Strategy

/-- `name()` of an instance, and the `strategy_name` of its plans. -/
def name : Strategy → String
  | bounceFromDensity => "BounceFromDensity"
  | breakoutEatThrough => "BreakoutEatThrough"
  | leaderLag => "LeaderLag"
  | flushReversal => "FlushReversal"

/-- The key that `register_strategy_affinities_` registers. -/
def key : Strategy → String
  | bounceFromDensity => "bounce"
  | breakoutEatThrough => "breakout"
  | leaderLag => "leaderlag"
  | flushReversal => "flushreversal"

/-- `strategies_`, in the order of its keys. -/
def registered : List Strategy := [bounceFromDensity, breakoutEatThrough, flushReversal, leaderLag]

/-- The strategy whose key the affinity handler is called with. -/
def ofKey (k : String) : Option Strategy := registered.find? (fun s => s.key == k)

/-- `to_short`: from the name of a class to its key; anything else passes through. -/
def toShort (cls : String) : String :=
  match registered.find? (fun s => s.name == cls) with
  | some s => s.key
  | none => cls

theorem mem_registered (s : Strategy) : s ∈ registered := by
  cases s <;> decide

theorem key_ne_name (s s' : Strategy) : s.key ≠ s'.name := by
  cases s <;> cases s' <;> decide

theorem toShort_ne_name (cls : String) (s : Strategy) : toShort cls ≠ s.name := by
  unfold toShort
  split
  case h_1 s' _ => exact key_ne_name s' s
  case h_2 hnone =>
    intro heq
    have hno := List.find?_eq_none.1 hnone s (mem_registered s)
    simp [heq] at hno

end Strategy

/-! ## Scores -/

/-- What a score reads of a ticker. -/
structure TickerStats where
  volume24hUsd : ℚ := 0
  avgSpreadBps : ℚ := 0
  fundingRateBps : ℚ := 0
  volatility1minBps : ℚ := 0

/-- The limits that every strategy has in `[universe.affinity]`. -/
structure AffinityLimits where
  minVolume24hUsd : ℚ
  maxAvgSpreadBps : ℚ
  maxFundingRateBps : ℚ

/-- The limits of each strategy, with the defaults of the source. -/
structure AffinityConfig where
  exchangeMult : ℚ := 1
  live : Bool := true
  bounce : AffinityLimits := ⟨100000000, 3, 2⟩
  bounceMaxVolatility1minBps : ℚ := 30
  breakout : AffinityLimits := ⟨100000000, 4, 5⟩
  leaderlag : AffinityLimits := ⟨50000000, 3, 3⟩
  leaderlagMinVolatility1minBps : ℚ := 3
  flushreversal : AffinityLimits := ⟨50000000, 4, 4⟩

namespace AffinityConfig

variable (cfg : AffinityConfig)

/-- The conditions that all scores share. -/
def withinLimits (limits : AffinityLimits) (stats : TickerStats) : Bool :=
  !decide (0 < stats.volume24hUsd ∧ stats.volume24hUsd < limits.minVolume24hUsd * cfg.exchangeMult) &&
    !decide (0 < stats.avgSpreadBps ∧ limits.maxAvgSpreadBps < stats.avgSpreadBps) &&
    !decide (limits.maxFundingRateBps < |stats.fundingRateBps|)

/-- The affinity score that a strategy is registered with. Without statistics a ticker is allowed. -/
def score (strategy : Strategy) (stats : Option TickerStats) : Bool :=
  match strategy, stats with
  | .flushReversal, none => !cfg.live
  | _, none => true
  | .bounceFromDensity, some stats =>
      cfg.withinLimits cfg.bounce stats &&
        !decide (0 < stats.volatility1minBps ∧
          cfg.bounceMaxVolatility1minBps < stats.volatility1minBps)
  | .breakoutEatThrough, some stats => cfg.withinLimits cfg.breakout stats
  | .leaderLag, some stats =>
      cfg.withinLimits cfg.leaderlag stats &&
        !decide (0 < stats.volatility1minBps ∧
          stats.volatility1minBps < cfg.leaderlagMinVolatility1minBps)
  | .flushReversal, some stats => !cfg.live && cfg.withinLimits cfg.flushreversal stats

end AffinityConfig

/-! ## The layer -/

/-- The type of `affinity_`. -/
abbrev AffinityMap := AList (fun _ : Ticker => AList (fun _ : String => Bool))

/-- An element of `PendingChanges`. -/
structure AffinityChange where
  ticker : Ticker
  strategy : String
  enabled : Bool

/-- The pool with its affinity map, and the strategies that the engine has for its tickers. -/
structure AffinityLayer where
  cfg : AffinityConfig := {}
  univ : TickerUniverse := {}
  active : List Ticker := []
  /-- The engine's `ticker_strategies_`. -/
  tickerStrategies : AList (fun _ : Ticker => List Strategy) := ∅

/-- What the affinity scores read: `get_stats`. -/
abbrev StatsLookup := Ticker → Option TickerStats

/-- Erase the keys one by one. -/
def eraseKeys {β : Type} (m : AList (fun _ : Ticker => β)) (tickers : List Ticker) :
    AList (fun _ : Ticker => β) :=
  tickers.foldl (fun m t => m.erase t) m

namespace AffinityLayer

variable (layer : AffinityLayer)

/-- The strategies that the engine has for a ticker. -/
def strategiesOf (ticker : Ticker) : List Strategy :=
  (layer.tickerStrategies.lookup ticker).getD []

/-- The handler of `setup_affinity_handler_`: `add_strategy` or `remove_strategy`. -/
def onAffinityChange (change : AffinityChange) : AffinityLayer :=
  match Strategy.ofKey change.strategy with
  | none => layer
  | some s =>
      if change.enabled then
        { layer with
          tickerStrategies :=
            layer.tickerStrategies.insert change.ticker (layer.strategiesOf change.ticker ++ [s]) }
      else
        { layer with
          tickerStrategies :=
            match (layer.strategiesOf change.ticker).filter (fun s' => s'.name != s.name) with
            | [] => layer.tickerStrategies.erase change.ticker
            | rest => layer.tickerStrategies.insert change.ticker rest }

/-- `fire_affinity_changes_`. -/
def fireAffinityChanges (changes : List AffinityChange) : AffinityLayer :=
  changes.foldl onAffinityChange layer

/-- The inner loop of `collect_affinity_changes_` at one strategy, for a ticker's entry of
    `affinity_`. -/
def collectStrategy (stats : StatsLookup) (ticker : Ticker)
    (r : AList (fun _ : String => Bool) × List AffinityChange) (s : Strategy) :
    AList (fun _ : String => Bool) × List AffinityChange :=
  let enabled := layer.cfg.score s (stats (toInternalTicker ticker))
  if r.1.lookup s.key = some enabled then r
  else
    (r.1.insert s.key enabled,
      if r.1.lookup s.key = none ∧ enabled = false then r.2 else r.2 ++ [⟨ticker, s.key, enabled⟩])

/-- The outer loop of `collect_affinity_changes_` at one ticker. -/
def collectTicker (stats : StatsLookup) (r : AffinityMap × List AffinityChange) (ticker : Ticker) :
    AffinityMap × List AffinityChange :=
  let entry := Strategy.registered.foldl (layer.collectStrategy stats ticker)
    ((r.1.lookup ticker).getD ∅, r.2)
  (r.1.insert ticker entry.1, entry.2)

/-- `refresh_affinity`. -/
def refreshAffinity (stats : StatsLookup) : AffinityLayer :=
  let r := layer.active.foldl (layer.collectTicker stats) (layer.univ.affinity, [])
  { layer with univ := { layer.univ with affinity := r.1 } }.fireAffinityChanges r.2

/-- `refresh_pool_locked` from the survivors of the filters on, of which there are at most
    `max_pool_size`, the largest volume first. It drops the entries of tickers that fell out of the pool
    without telling the handler. -/
def refreshPool (survivors : List Ticker) (scale : Ticker → ℚ) (now : TimePoint) : AffinityLayer :=
  let left {β : Type} (m : AList (fun _ : Ticker => β)) : AList (fun _ : Ticker => β) :=
    eraseKeys m (m.keys.filter (fun t => t ∉ survivors))
  { layer with
    active := survivors
    univ :=
      { layer.univ with
        affinity := left layer.univ.affinity
        activeSince := survivors.foldl
          (fun m t => if (m.lookup t).isSome then m else m.insert t now)
          (left layer.univ.activeSince)
        invSqrtScale := scale } }

/-- `on_big_tick`, `on_big_amount` and `on_big_event`. -/
def onBigEvent (ticker : Ticker) (stats : StatsLookup) (now : TimePoint) : AffinityLayer :=
  let expired := layer.univ.boosts.keys.filter
    (fun t => decide (∃ boostedAt ∈ layer.univ.boosts.lookup t,
      layer.univ.boostTtl < now - boostedAt))
  { layer with
    univ :=
      { layer.univ with
        boosts := (eraseKeys layer.univ.boosts expired).insert (toInternalTicker ticker) now }
    }.refreshAffinity stats

/-- `override_affinity`. -/
def overrideAffinity (ticker : Ticker) (strategy : String) (enabled : Bool) : AffinityLayer :=
  let t := toInternalTicker ticker
  let entry := (layer.univ.affinity.lookup t).getD ∅
  let overridden : AffinityLayer :=
    { layer with
      univ :=
        { layer.univ with affinity := layer.univ.affinity.insert t (entry.insert strategy enabled) } }
  if (entry.lookup strategy).getD false ≠ enabled then
    overridden.onAffinityChange ⟨t, strategy, enabled⟩
  else overridden

/-- The dashboard's command `strategy`: one class, or all four keys. -/
def strategyCommand (enabled : Bool) (ticker : Ticker) (className : String) : AffinityLayer :=
  if className = "" then
    ["bounce", "breakout", "leaderlag", "flushreversal"].foldl
      (fun layer k => layer.overrideAffinity ticker k enabled) layer
  else layer.overrideAffinity ticker (Strategy.toShort className) enabled

/-! ## Runs -/

/-- What the application does with the layer. -/
inductive Op
  | refreshPool (survivors : List Ticker) (scale : Ticker → ℚ) (now : TimePoint)
  | refreshAffinity (stats : StatsLookup)
  | onBigEvent (ticker : Ticker) (stats : StatsLookup) (now : TimePoint)
  /-- A new coin of the screener that rebuilds the pool. -/
  | onScreenerNewCoin (survivors : List Ticker) (scale : Ticker → ℚ) (stats : StatsLookup)
      (now : TimePoint)
  | strategyCommand (enabled : Bool) (ticker : Ticker) (className : String)
  | cacheMeta (ticker : Ticker) (tm : TickerMeta)

/-- The layer after an operation. -/
def step (layer : AffinityLayer) : Op → AffinityLayer
  | .refreshPool survivors scale now => layer.refreshPool survivors scale now
  | .refreshAffinity stats => layer.refreshAffinity stats
  | .onBigEvent ticker stats now => layer.onBigEvent ticker stats now
  | .onScreenerNewCoin survivors scale stats now =>
      (layer.refreshPool survivors scale now).refreshAffinity stats
  | .strategyCommand enabled ticker className => layer.strategyCommand enabled ticker className
  | .cacheMeta ticker tm =>
      { layer with
        univ :=
          { layer.univ with
            metaCache := layer.univ.metaCache.insert (toInternalTicker ticker) tm } }

/-- The layer after some operations. -/
def run (layer : AffinityLayer) (ops : List Op) : AffinityLayer := ops.foldl step layer

/-! ## Keys and names -/

/-- No strategy of the map is spelled like a class. -/
def KeysOnly (entry : AList (fun _ : String => Bool)) : Prop :=
  ∀ s : Strategy, entry.lookup s.name = none

/-- The affinity layer does not know the names of the classes. -/
def NamesUnknown (affinity : AffinityMap) : Prop :=
  ∀ ticker, ∀ entry ∈ affinity.lookup ticker, KeysOnly entry

theorem KeysOnly.insert {entry : AList (fun _ : String => Bool)} (h : KeysOnly entry) {k : String}
    (hk : ∀ s : Strategy, k ≠ s.name) (enabled : Bool) : KeysOnly (entry.insert k enabled) := by
  intro s
  rw [AList.lookup_insert_ne (hk s).symm]
  exact h s

namespace NamesUnknown

variable {affinity : AffinityMap}

theorem entry (h : NamesUnknown affinity) (ticker : Ticker) :
    KeysOnly ((affinity.lookup ticker).getD ∅) := by
  cases hlookup : affinity.lookup ticker with
  | none => exact fun s => AList.lookup_empty _
  | some entry => exact h ticker entry hlookup

theorem insert (h : NamesUnknown affinity) (ticker : Ticker)
    {entry : AList (fun _ : String => Bool)} (hentry : KeysOnly entry) :
    NamesUnknown (affinity.insert ticker entry) := by
  intro t e hmem
  by_cases ht : t = ticker
  · rw [ht, AList.lookup_insert, Option.mem_some_iff] at hmem
    exact hmem ▸ hentry
  · rw [AList.lookup_insert_ne ht] at hmem
    exact h t e hmem

theorem erase (h : NamesUnknown affinity) (ticker : Ticker) :
    NamesUnknown (affinity.erase ticker) := by
  intro t e hmem
  by_cases ht : t = ticker
  · rw [ht, AList.lookup_erase] at hmem
    cases hmem
  · rw [AList.lookup_erase_ne ht] at hmem
    exact h t e hmem

theorem eraseKeys (h : NamesUnknown affinity) (tickers : List Ticker) :
    NamesUnknown (TradeBot.eraseKeys affinity tickers) := by
  induction tickers generalizing affinity with
  | nil => exact h
  | cons t tickers ih => exact ih (h.erase t)

end NamesUnknown

variable {layer}

theorem onAffinityChange_univ (change : AffinityChange) :
    (layer.onAffinityChange change).univ = layer.univ := by
  unfold onAffinityChange
  split
  · rfl
  · split <;> rfl

theorem fireAffinityChanges_univ (changes : List AffinityChange) :
    (layer.fireAffinityChanges changes).univ = layer.univ :=
  Runs.invariant (fun l : AffinityLayer => l.univ = layer.univ)
    (fun _ change h => (onAffinityChange_univ change).trans h) changes rfl

theorem collectStrategy_keysOnly {stats : StatsLookup} {ticker : Ticker}
    {r : AList (fun _ : String => Bool) × List AffinityChange} (h : KeysOnly r.1) (s : Strategy) :
    KeysOnly (layer.collectStrategy stats ticker r s).1 := by
  unfold collectStrategy
  dsimp only
  split
  · exact h
  · exact h.insert s.key_ne_name _

theorem collectTicker_namesUnknown {stats : StatsLookup} {r : AffinityMap × List AffinityChange}
    (h : NamesUnknown r.1) (ticker : Ticker) :
    NamesUnknown (layer.collectTicker stats r ticker).1 :=
  h.insert ticker (Runs.invariant
    (fun r : AList (fun _ : String => Bool) × List AffinityChange => KeysOnly r.1)
    (fun _ s hr => collectStrategy_keysOnly hr s) Strategy.registered (h.entry ticker))

theorem refreshAffinity_namesUnknown (h : NamesUnknown layer.univ.affinity) (stats : StatsLookup) :
    NamesUnknown (layer.refreshAffinity stats).univ.affinity := by
  unfold refreshAffinity
  rw [fireAffinityChanges_univ]
  exact Runs.invariant (fun r : AffinityMap × List AffinityChange => NamesUnknown r.1)
    (fun _ t hr => collectTicker_namesUnknown hr t) layer.active h

theorem overrideAffinity_namesUnknown (h : NamesUnknown layer.univ.affinity) (ticker : Ticker)
    {strategy : String} (hk : ∀ s : Strategy, strategy ≠ s.name) (enabled : Bool) :
    NamesUnknown (layer.overrideAffinity ticker strategy enabled).univ.affinity := by
  have hnew := h.insert (toInternalTicker ticker)
    ((h.entry (toInternalTicker ticker)).insert hk enabled)
  unfold overrideAffinity
  dsimp only
  split
  · rw [onAffinityChange_univ]
    exact hnew
  · exact hnew

theorem overrideAffinity_foldl_namesUnknown (h : NamesUnknown layer.univ.affinity)
    (ticker : Ticker) {keys : List String} (hkeys : ∀ k ∈ keys, ∀ s : Strategy, k ≠ s.name)
    (enabled : Bool) :
    NamesUnknown
      (keys.foldl (fun l k => l.overrideAffinity ticker k enabled) layer).univ.affinity := by
  induction keys generalizing layer with
  | nil => exact h
  | cons k keys ih =>
      rw [List.forall_mem_cons] at hkeys
      exact ih (overrideAffinity_namesUnknown h ticker hkeys.1 enabled) hkeys.2

theorem strategyCommand_namesUnknown (h : NamesUnknown layer.univ.affinity) (enabled : Bool)
    (ticker : Ticker) (className : String) :
    NamesUnknown (layer.strategyCommand enabled ticker className).univ.affinity := by
  unfold strategyCommand
  split
  · refine overrideAffinity_foldl_namesUnknown h ticker ?_ enabled
    intro k hk s
    obtain ⟨s', rfl⟩ : ∃ s' : Strategy, k = s'.key := by
      simp only [List.mem_cons, List.not_mem_nil, or_false] at hk
      obtain rfl | rfl | rfl | rfl := hk
      exacts [⟨.bounceFromDensity, rfl⟩, ⟨.breakoutEatThrough, rfl⟩, ⟨.leaderLag, rfl⟩,
        ⟨.flushReversal, rfl⟩]
    exact s'.key_ne_name s
  · exact overrideAffinity_namesUnknown h ticker (Strategy.toShort_ne_name className) enabled

/-- Whatever the pool, the scores and the overrides do, the layer does not learn a class's name. -/
theorem step_namesUnknown (h : NamesUnknown layer.univ.affinity) (op : Op) :
    NamesUnknown (layer.step op).univ.affinity := by
  cases op with
  | refreshPool survivors scale now => exact h.eraseKeys _
  | refreshAffinity stats => exact refreshAffinity_namesUnknown h stats
  | onBigEvent ticker stats now =>
      show NamesUnknown (layer.onBigEvent ticker stats now).univ.affinity
      refine refreshAffinity_namesUnknown ?_ stats
      exact h
  | onScreenerNewCoin survivors scale stats now =>
      exact refreshAffinity_namesUnknown (h.eraseKeys _) stats
  | strategyCommand enabled ticker className =>
      exact strategyCommand_namesUnknown h enabled ticker className
  | cacheMeta ticker tm => exact h

theorem run_namesUnknown (h : NamesUnknown layer.univ.affinity) (ops : List Op) :
    NamesUnknown (layer.run ops).univ.affinity :=
  Runs.invariant (fun l : AffinityLayer => NamesUnknown l.univ.affinity)
    (fun _ op hl => step_namesUnknown hl op) ops h

/-- So no class is enabled under its own name. -/
theorem NamesUnknown.isStrategyEnabled {univ : TickerUniverse} (h : NamesUnknown univ.affinity)
    (ticker : Ticker) (s : Strategy) : univ.isStrategyEnabled ticker s.name = false := by
  unfold TickerUniverse.isStrategyEnabled
  split
  case h_1 entry hlookup => rw [h _ entry hlookup s, Option.getD_none]
  case h_2 => rfl

end AffinityLayer

end TradeBot
