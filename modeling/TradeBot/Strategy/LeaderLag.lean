import TradeBot.Strategy.StrategyContext

set_option autoImplicit false

/-! # LeaderLag

`strategy/LeaderLag.{hpp,cpp}`: a coin that has not followed its leader yet is traded in the leader's
direction. It plans in `tick`, and its close rules look at frames.

The stop looks for the last swing in the history of prices, which a strategy of this kind alone
keeps, and the target follows from the lag. The conditions are on the last frame, on the last move
and on the densities seen, and have no effects. -/

namespace TradeBot

/-- The thresholds of the strategy, with the defaults of the source. -/
structure LeaderLag.Config where
  minCorrelation : ℚ := 3 / 5
  maxSpreadBps : ℚ := 3
  stopDistanceBps : ℚ := 8
  tp1CatchupRatio : ℚ := 7 / 10
  tp1SizeRatio : ℚ := 3 / 5
  maxOurChange2sPct : ℚ := 1 / 10
  densityOnPathSearchBps : ℚ := 25
  tierMaxOurChange2sPct : List ℚ := [1 / 20, 1 / 10, 3 / 20]
  tierDensityOnPathSearchBps : List ℚ := [40, 30, 20]
  tierStopDistanceBps : List ℚ := [12, 8, 6]
  /-- In milliseconds. -/
  lagMaxAge : ℤ := 3000
  /-- In seconds. -/
  entryTimeout : ℤ := 5
  correlationExitThreshold : ℚ := 3 / 10
  leaderExitReversalBps : ℚ := 5
  swingLookbackTicks : ℤ := 30
  noProgressTimeoutSec : ℚ := 15

/-- The strategy with a history of prices of its own. -/
structure LeaderLag extends StrategyBase where
  cfg : LeaderLag.Config := {}
  /-- The ring of mid prices, newest first. -/
  priceHistory : List ℚ := []

namespace LeaderLag

/-- How many prices are kept. -/
def kPriceHistorySize : ℕ := 120

variable (l : LeaderLag)

/-- A frame of another ticker is passed over, and one without a mid leaves no price. -/
def onFrame (frame : FeatureFrame) : LeaderLag :=
  { l with
    toStrategyBase := l.toStrategyBase.onFrame frame
    priceHistory :=
      if frame.ticker = l.ticker ∧ 0 < frame.mid then
        (frame.mid :: l.priceHistory).take kPriceHistorySize
      else l.priceHistory }

/-- Signals are taken note of, and nothing is planned on them. -/
def onSignal (signal : Signal) : LeaderLag :=
  if signal.ticker = l.ticker then { l with toStrategyBase := l.notice signal } else l

/-- The lowest of the last prices; zero if there are too few. -/
def findSwingLow (lookback : ℕ) : ℚ :=
  if l.priceHistory.length < 3 then 0
  else (((l.priceHistory.take lookback).filter (fun price => decide (0 < price))).min?).getD 0

/-- The highest of the last prices; zero if there are too few. -/
def findSwingHigh (lookback : ℕ) : ℚ :=
  if l.priceHistory.length < 3 then 0 else (l.priceHistory.take lookback).foldl max 0

/-- C5: a density on the way of the trade, among those seen in the last 15 seconds. -/
def densityOnPath (now : TimePoint) (mid : ℚ) (side : Side) : Bool :=
  let range := l.threshold l.cfg.tierDensityOnPathSearchBps l.cfg.densityOnPathSearchBps
  ((l.ctx.signalHistory.reverse.filter (fun sig => decide (sig.kind = .densityDetected))).takeWhile
    (fun sig => decide (now - sig.timestamp ≤ seconds 15))).any (fun sig =>
      let distBps := (sig.price - mid) / mid * 10000
      if side = .buy then decide (sig.payload.side = "Ask" ∧ 0 < distBps ∧ distBps ≤ range)
      else decide (sig.payload.side = "Bid" ∧ distBps < 0 ∧ -distBps ≤ range))

/-- The stop: at the last swing if that is nearer than 1.5 times the default distance. -/
def stopPrice (mid : ℚ) (side : Side) : ℚ :=
  let dist := mid * (l.threshold l.cfg.tierStopDistanceBps l.cfg.stopDistanceBps / 10000)
  let lookback := toSizeT l.cfg.swingLookbackTicks
  if side = .buy then
    let swing := l.findSwingLow lookback
    let furthest := mid - dist * (3 / 2)
    if 0 < swing ∧ furthest < swing ∧ swing < mid then max swing furthest else mid - dist
  else
    let swing := l.findSwingHigh lookback
    let furthest := mid + dist * (3 / 2)
    if 0 < swing ∧ mid < swing ∧ swing < furthest then min swing furthest else mid + dist

/-- The prices of a plan on a move of the leader. -/
def planOn (now : TimePoint) (move : Signal) (side : Side) : StrategyPlan :=
  let mid := l.ctx.lastFrame.mid
  let tp1Offset := mid * (|move.payload.lagPct| * 100 * l.cfg.tp1CatchupRatio / 10000)
  l.traced
    { ticker := l.ticker
      side := side
      entryType := .market
      entryPrice := roundToTick mid l.priceIncrement
      stopPrice := roundToTick (l.stopPrice mid side) l.priceIncrement
      tp1Price := roundToTick (if side = .buy then mid + tp1Offset else mid - tp1Offset)
        l.priceIncrement
      tp1SizeRatio := l.cfg.tp1SizeRatio
      strategyName := "LeaderLag"
      reason := "Leader lag detected"
      evidence := [move]
      validUntil := now + seconds l.cfg.entryTimeout
      noProgressTimeoutSec := l.cfg.noProgressTimeoutSec
      entryCorrelation := move.payload.correlation
      leaderEntryLagPct := move.payload.lagPct
      correlationExitThreshold := l.cfg.correlationExitThreshold
      leaderExitReversalBps := l.cfg.leaderExitReversalBps }

/-- The conditions C1 to C6. -/
def plan? (now : TimePoint) : Option StrategyPlan := do
  let frame := l.ctx.lastFrame
  let move ← l.ctx.recent? .leaderMove (l.cfg.lagMaxAge * 1000000) now
  let side := if 0 < move.payload.lagPct then Side.buy else Side.sell
  guard (l.cfg.minCorrelation ≤ |move.payload.correlation|)
  let ourChange2s := frame.priceChange1s + (frame.priceChange5s - frame.priceChange1s) * (1 / 4)
  guard (|ourChange2s| * 100 ≤ l.threshold l.cfg.tierMaxOurChange2sPct l.cfg.maxOurChange2sPct)
  guard (0 < frame.mid)
  guard (!l.densityOnPath now frame.mid side)
  guard (frame.spreadBps ≤ l.cfg.maxSpreadBps)
  return l.planOn now move side

/-- A plan that expires takes the monitored trade with it. -/
def tick (now : TimePoint) : LeaderLag × Option StrategyPlan :=
  let expired := l.activePlan.any (fun plan => decide (plan.validUntil < now))
  if l.activePlan.isSome ∧ ¬expired then (l, none)
  else
    let l := { l with
      activePlan := none
      activeTradeInfo := if expired then none else l.activeTradeInfo }
    match l.plan? now with
    | some plan => ({ l with activePlan := some plan }, some plan)
    | none => (l, none)

/-- The correlation has broken down, or the leader has turned against the trade. -/
def closeRule (frame : FeatureFrame) (plan : StrategyPlan) : Option String :=
  let reversal := if plan.side = .buy then -frame.leaderChange1s else frame.leaderChange1s
  if 0 < plan.correlationExitThreshold ∧ frame.leaderCorrelation < plan.correlationExitThreshold then
    some "CorrelationBreakdown"
  else if 0 < plan.leaderExitReversalBps ∧
      0 < reversal ∧ plan.leaderExitReversalBps < reversal * kBpsBase then
    some "LeaderReversal"
  else none

end LeaderLag

end TradeBot
