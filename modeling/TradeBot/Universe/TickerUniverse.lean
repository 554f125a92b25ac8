import Mathlib.Data.List.AList
import TradeBot.Utils.TickerSymbol

set_option autoImplicit false

/-! # TickerUniverse

The queries of `universe/TickerUniverse.{hpp,cpp}` that gate a plan: pool membership, strategy
affinity, boosts, how long a ticker has been in the pool, and the instruments' precision.

The queries are those of the risk rules and of the threshold tables. How the maps come to hold what
they do is the subject of `TickerPool` and `Affinity`, which extend this structure. -/

namespace TradeBot

/-- The maps that the queries look into, all of them by the internal spelling of a ticker. -/
structure TickerUniverse where
  /-- Ticker to strategy to "enabled". -/
  affinity : AList (fun _ : Ticker => AList (fun _ : String => Bool)) := ∅
  boosts : AList (fun _ : Ticker => TimePoint) := ∅
  boostTtl : TimePoint := 300 * nsPerSec
  activeSince : AList (fun _ : Ticker => TimePoint) := ∅
  metaCache : AList (fun _ : Ticker => TickerMeta) := ∅
  /-- `1.0 / std::sqrt(volume_scale_factor(ticker))`. -/
  invSqrtScale : Ticker → ℚ := fun _ => 1

namespace TickerUniverse

/-- `is_in_pool`. -/
def isInPool (u : TickerUniverse) (ticker : Ticker) : Bool :=
  (u.affinity.lookup (toInternalTicker ticker)).isSome

/-- `is_boosted`. -/
def isBoosted (u : TickerUniverse) (ticker : Ticker) (now : TimePoint) : Bool :=
  match u.boosts.lookup (toInternalTicker ticker) with
  | some boostedAt => decide (now - boostedAt ≤ u.boostTtl)
  | none => false

/-- `is_strategy_enabled`. -/
def isStrategyEnabled (u : TickerUniverse) (ticker : Ticker) (strategy : String) : Bool :=
  match u.affinity.lookup (toInternalTicker ticker) with
  | some strategies => (strategies.lookup strategy).getD false
  | none => false

/-- `enabled_strategies`. -/
def enabledStrategies (u : TickerUniverse) (ticker : Ticker) : List String :=
  match u.affinity.lookup (toInternalTicker ticker) with
  | some strategies =>
      ((strategies.entries.filter (fun entry => entry.2)).map Sigma.fst).mergeSort
        (fun a b => decide (a ≤ b))
  | none => []

/-- `is_affinity_stable`. -/
def isAffinityStable (u : TickerUniverse) (ticker : Ticker) (minStable now : TimePoint) : Bool :=
  match u.activeSince.lookup (toInternalTicker ticker) with
  | some since => decide (minStable ≤ now - since)
  | none => false

/-- `meta(ticker).value_or(...)`. -/
def metaOrFallback (u : TickerUniverse) (ticker : Ticker) : TickerMeta :=
  (u.metaCache.lookup (toInternalTicker ticker)).getD .fallback

theorem mem_enabledStrategies {u : TickerUniverse} {ticker : Ticker} {strategy : String} :
    strategy ∈ u.enabledStrategies ticker ↔ u.isStrategyEnabled ticker strategy = true := by
  unfold enabledStrategies isStrategyEnabled
  cases u.affinity.lookup (toInternalTicker ticker) with
  | none => simp
  | some strategies =>
      simp only [List.mem_mergeSort, List.mem_map, List.mem_filter]
      constructor
      · rintro ⟨⟨name, on⟩, ⟨hentry, hon⟩, rfl⟩
        rw [AList.mem_lookup_iff.2 hentry]
        exact hon
      · intro henabled
        cases hlookup : strategies.lookup strategy with
        | none => simp [hlookup] at henabled
        | some on =>
            rw [hlookup] at henabled
            exact ⟨⟨strategy, on⟩, ⟨AList.mem_lookup_iff.1 hlookup, henabled⟩, rfl⟩

theorem enabledStrategies_isEmpty {u : TickerUniverse} {ticker : Ticker} :
    (u.enabledStrategies ticker).isEmpty = true ↔
      ∀ strategy, u.isStrategyEnabled ticker strategy = false := by
  rw [List.isEmpty_iff, List.eq_nil_iff_forall_not_mem]
  simp only [mem_enabledStrategies, Bool.not_eq_true]

end TickerUniverse

end TradeBot
