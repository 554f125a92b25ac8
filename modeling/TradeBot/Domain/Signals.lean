import TradeBot.Domain.Types

set_option autoImplicit false

/-! # Signals and feature frames

What the detectors and the feature extraction hand to the strategies (`signals/Signal.hpp`,
`features/FeatureFrame.hpp`), and the plan as the strategies make it (`strategy/TradePlan.hpp`): the
executor's fields of `TradePlan` together with those that only strategies, the paper executor and the
engine read. Fields that no modelled function reads or writes are left out. -/

namespace TradeBot

/-- `perf/LatencyTracer.hpp`: `0` means "no trace". -/
abbrev TraceId := ℕ

/-- `SignalKind`. -/
inductive SignalKind
  | densityDetected
  | densityRemoved
  | densityEating
  | icebergSuspected
  | tapeBurst
  | tapeFade
  | tapeFlush
  | tapeDistribution
  | levelFormed
  | levelApproach
  | levelRejection
  | levelBreak
  | leaderMove
  | densityStack
  deriving DecidableEq, Repr

/-- The payload. Each kind of signal fills its own fields. -/
structure SignalPayload where
  /-- "Bid", "Ask", "Buy", "Sell" -/
  side : String := ""
  size : ℚ := 0
  sizeUsd : ℚ := 0
  totalEatenUsd : ℚ := 0
  originalSize : ℚ := 0
  remainingSize : ℚ := 0
  eatenRatio : ℚ := 0
  remainingRatio : ℚ := 0
  firstPrice : ℚ := 0
  lastPrice : ℚ := 0
  widthBps : ℚ := 0
  totalSizeUsd : ℚ := 0
  stopAnchorPrice : ℚ := 0
  lagPct : ℚ := 0
  correlation : ℚ := 0
  distBps : ℚ := 0
  deltaBps : ℚ := 0
  leaderMovePct : ℚ := 0
  ourMovePct : ℚ := 0
  expectedMovePct : ℚ := 0
  lagMs : ℚ := 0
  ratio : ℚ := 0
  intensity : ℚ := 0
  peakRate : ℚ := 0
  currentRate : ℚ := 0
  cusum : ℚ := 0
  volatilityBps : ℚ := 0
  volumeUsd30s : ℚ := 0
  maxRangeBps : ℚ := 0
  speedBps : ℚ := 0
  approachType : String := ""
  touches : ℤ := 0
  prints : ℤ := 0
  ageMs : ℤ := 0
  refillEvents : ℤ := 0
  fake : Bool := false
  id : String := ""
  source : String := ""
  deriving DecidableEq

/-- `Signal`. -/
structure Signal where
  kind : SignalKind
  timestamp : TimePoint
  ticker : Ticker
  price : ℚ
  confidence : ℚ := 0
  payload : SignalPayload := {}
  triggerTraceId : TraceId := 0
  deriving DecidableEq

/-- `FeatureFrame`. -/
structure FeatureFrame where
  timestamp : TimePoint := 0
  ticker : Ticker := ""
  bestBid : ℚ := 0
  bestAsk : ℚ := 0
  mid : ℚ := 0
  spreadBps : ℚ := 0
  bidDepth10 : ℚ := 0
  askDepth10 : ℚ := 0
  buyVol1s : ℚ := 0
  buyVol5s : ℚ := 0
  buyVol30s : ℚ := 0
  sellVol1s : ℚ := 0
  sellVol5s : ℚ := 0
  sellVol30s : ℚ := 0
  tapeAggression : ℚ := 0
  priceChange1s : ℚ := 0
  priceChange2s : ℚ := 0
  priceChange5s : ℚ := 0
  priceChange30s : ℚ := 0
  volatility1minBps : ℚ := 0
  leaderChange1s : ℚ := 0
  leaderChange5s : ℚ := 0
  leaderCorrelation : ℚ := 0
  nearestSupport : Option ℚ := none
  nearestResistance : Option ℚ := none
  fundingRate : ℚ := 0
  markPrice : ℚ := 0
  valid : Bool := false
  derivedFrom : TraceId := 0
  deriving DecidableEq

/-- `TradePlan`, as a strategy makes it. -/
structure StrategyPlan extends TradePlan where
  reason : String := ""
  evidence : List Signal := []
  validUntil : TimePoint := 0
  entryCorrelation : ℚ := 0
  leaderEntryLagPct : ℚ := 0
  correlationExitThreshold : ℚ := 0
  leaderExitReversalBps : ℚ := 0
  densityPriceForStop : ℚ := 0
  approachCount : ℤ := 0
  frameAtEntry : FeatureFrame := {}
  traceId : TraceId := 0
  deriving DecidableEq

end TradeBot
