import TradeBot.Strategy.StrategyContext

set_option autoImplicit false

/-! # BreakoutEatThrough

`strategy/BreakoutEatThrough.{hpp,cpp}`: a density that is being eaten up is traded through.

The comments of the source number its conditions, and the lines of `plan?` keep the numbers. A long
buys through an ask that is being eaten, so the side of the trade is the other side of the density,
and the density that backs it is on its own side. -/

namespace TradeBot

/-- The thresholds of the strategy, with the defaults of the source. -/
structure BreakoutEatThrough.Config where
  maxAvgSpreadBps : ℚ := 4
  aggressiveOffsetBps : ℚ := 2
  stopBufferBps : ℚ := 5
  tp1R : ℚ := 3 / 2
  tp1SizeRatio : ℚ := 1 / 2
  supportSearchRangeBps : ℚ := 20
  minDistanceFromBestBps : ℚ := 2
  minLeaderCorrelation : ℚ := 3 / 5
  leaderNeutralMaxPct : ℚ := 1 / 10
  minTapeAggression : ℚ := 3 / 10
  minRelativeVolume : ℚ := 3 / 2
  maxResistanceClusterRatio : ℚ := 7 / 10
  leaderPreEntryContraPct : ℚ := 1 / 10
  tierMinTapeAggression : List ℚ := [7 / 20, 1 / 5, 3 / 25]
  tierMinDistanceFromBestBps : List ℚ := [8, 5, 3]
  tierSupportSearchRangeBps : List ℚ := [40, 30, 20]
  /-- In seconds, as the other durations. -/
  entryTimeout : ℤ := 10
  fadeContraExitSec : ℤ := 5
  leaderContraExitSec : ℤ := 5
  leaderExitContraPct : ℚ := 3 / 20
  noProgressTimeoutSec : ℚ := 60
  postEntryGraceSec : ℚ := 5
  minFollowThroughBps : ℚ := 10

namespace BreakoutEatThrough

open StrategyBase (forall_mem_bind documents_traced)

variable (cfg : Config) (now : TimePoint) (s : StrategyBase)

/-- What is left of the density. -/
def remainingSize (eating : Signal) : ℚ :=
  if 0 < eating.payload.originalSize then eating.payload.remainingSize else eating.payload.size

/-- C2 to C4: the tape, the volume and the leader go with the breakout. -/
def isDriven (side : Side) : Bool :=
  let frame := s.ctx.lastFrame
  let aggression := if side = .buy then frame.tapeAggression else -frame.tapeAggression
  let currentVol := if side = .buy then frame.buyVol5s else frame.sellVol5s
  let avgVol := (if side = .buy then frame.buyVol30s else frame.sellVol30s) / 6
  let leaderDir := if side = .buy then frame.leaderChange5s else -frame.leaderChange5s
  decide (s.threshold cfg.tierMinTapeAggression cfg.minTapeAggression ≤ aggression ∧
    (0 < currentVol ∧ 0 < avgVol) ∧
    cfg.minRelativeVolume ≤ currentVol / avgVol ∧
    ¬(cfg.minLeaderCorrelation ≤ frame.leaderCorrelation ∧ leaderDir < -cfg.leaderNeutralMaxPct))

/-- C5: the size of the densities behind the one being eaten. -/
def resistanceVol (eating : Signal) (side : Side) : ℚ :=
  ((s.ctx.signalHistory.filter (fun sig =>
    decide (now - sig.timestamp ≤ seconds 10) && decide (sig.kind = .densityDetected) &&
      ((decide (side = .buy ∧ sig.payload.side = "Ask" ∧ eating.price < sig.price)) ||
        (decide (side = .sell ∧ sig.payload.side = "Bid" ∧ sig.price < eating.price))))).map
    (fun sig => sig.payload.size)).sum

/-- A fade on the side of the trade. A fade without a side is one on both. -/
def fadesOn (side : Side) (fade : Signal) : Bool :=
  decide (fade.payload.side = "") || side.isText fade.payload.side "Buy" "Sell"

/-- The leader moves against the trade by more than `limit` percent. -/
def leaderContra (side : Side) (limit : ℚ) (move : Signal) : Bool :=
  decide (limit < |move.payload.lagPct| ∧
    ((side = .buy ∧ move.payload.lagPct < 0) ∨ (side = .sell ∧ 0 < move.payload.lagPct)))

/-- C6: a density or an iceberg close behind the breakout, the newest one. -/
def support? (eating : Signal) (side : Side) : Option Signal :=
  s.ctx.signalHistory.reverse.find? (fun sig =>
    decide (now - sig.timestamp ≤ seconds 30) &&
      decide (sig.kind = .densityDetected ∨ sig.kind = .icebergSuspected) &&
      side.isText sig.payload.side "Bid" "Ask" &&
      decide ((side = .buy ∧ sig.price < eating.price) ∨ (side = .sell ∧ eating.price < sig.price)) &&
      withinBps sig.price eating.price
        (s.threshold cfg.tierSupportSearchRangeBps cfg.supportSearchRangeBps))

/-- C5-distance: the density is not yet at the best price. -/
def awayFromBest (eating : Signal) (side : Side) : Bool :=
  let best := if side = .buy then s.ctx.lastFrame.bestAsk else s.ctx.lastFrame.bestBid
  decide (0 < best → s.threshold cfg.tierMinDistanceFromBestBps cfg.minDistanceFromBestBps ≤
    |eating.price - best| / best * kBpsBase)

/-- The level of the frame on the way of the trade. Zero stands for none. -/
def directionalObstaclePrice (frame : FeatureFrame) (side : Side) : ℚ :=
  match side with
  | .buy => frame.nearestResistance.getD 0
  | .sell => frame.nearestSupport.getD 0
  | .none => 0

/-- A price of zero or less is taken for one that is not there. -/
def obstacleBeforeTarget (entryPrice tp1Price obstaclePrice : ℚ) (side : Side) : Bool :=
  if entryPrice ≤ 0 ∨ obstaclePrice ≤ 0 then false
  else
    match side with
    | .buy => decide (entryPrice < obstaclePrice ∧ obstaclePrice < tp1Price)
    | .sell => decide (obstaclePrice < entryPrice ∧ tp1Price < obstaclePrice)
    | .none => false

/-- The oldest density or level of the history on the way to the target, else the frame's level. -/
def obstaclePrice (entryPrice tp1Price : ℚ) (side : Side) : ℚ :=
  ((s.ctx.signalHistory.find? (fun sig =>
    decide (now - sig.timestamp ≤ seconds 30) &&
      decide (sig.kind = .densityDetected ∨ sig.kind = .levelFormed) &&
      (decide (side = .buy ∧ entryPrice < sig.price ∧ sig.price < tp1Price ∧
          (sig.kind = .levelFormed ∨ sig.payload.side = "Ask")) ||
        decide (side = .sell ∧ sig.price < entryPrice ∧ tp1Price < sig.price ∧
          (sig.kind = .levelFormed ∨ sig.payload.side = "Bid"))))).map Signal.price).getD
    (directionalObstaclePrice s.ctx.lastFrame side)

/-- The prices of a plan. It fails if rounding leaves too little of the risk or of the reward. -/
def planOn (eating burst support : Signal) (side : Side) : Option StrategyPlan := do
  let offset := eating.price * (cfg.aggressiveOffsetBps / kBpsBase)
  let buffer := support.price * (cfg.stopBufferBps / kBpsBase)
  let entryPrice := roundToTick
    (if side = .buy then eating.price + offset else eating.price - offset) s.priceIncrement
  let stopPrice := roundToTick
    (if side = .buy then support.price - buffer else support.price + buffer) s.priceIncrement
  let risk := |entryPrice - stopPrice|
  guard (0 < risk)
  let tp1Price := roundToTick
    (if side = .buy then entryPrice + cfg.tp1R * risk else entryPrice - cfg.tp1R * risk)
    s.priceIncrement
  -- Rounding must leave a reward of 1R.
  guard (risk ≤ |tp1Price - entryPrice| + 1 / 10 ^ 12)
  guard (!obstacleBeforeTarget entryPrice tp1Price (obstaclePrice now s entryPrice tp1Price side) side)
  return s.traced
    { ticker := s.ticker
      side := side
      entryType := .market
      entryPrice := entryPrice
      stopPrice := stopPrice
      tp1Price := tp1Price
      tp1SizeRatio := cfg.tp1SizeRatio
      strategyName := "BreakoutEatThrough"
      -- The formatter knows `{}` and leaves this as it is.
      reason := "Breakout through %.*s density"
      evidence := [eating, burst]
      validUntil := now + seconds cfg.entryTimeout
      noProgressTimeoutSec := cfg.noProgressTimeoutSec
      postEntryGraceSec := cfg.postEntryGraceSec
      minFollowThroughBps := cfg.minFollowThroughBps }

/-- The checks in the order of the source, and the plan that passes all of them. -/
def plan? : Option StrategyPlan := do
  let frame := s.ctx.lastFrame
  guard (frame.ticker ≠ "")
  guard (frame.spreadBps ≤ cfg.maxAvgSpreadBps)
  -- C1: the density is at least half eaten
  let eating ← s.ctx.recentSignals .densityEating
  let original := eating.payload.originalSize
  guard (0 < original → remainingSize eating / original ≤ 1 / 2)
  let side := if eating.payload.side = "Ask" then Side.buy else Side.sell
  -- C2: a burst on the side of the breakout
  let burst ← s.ctx.recent? .tapeBurst (seconds 3) now
  guard (side.isText burst.payload.side "Buy" "Sell")
  guard (isDriven cfg s side)
  guard (0 < original → resistanceVol now s eating side / original ≤ cfg.maxResistanceClusterRatio)
  guard (¬(remainingSize eating ≤ 0 ∧ 0 < original))
  guard (!(s.ctx.recent? .tapeFade (seconds 3) now).any (fadesOn side))
  guard (!(s.ctx.recent? .leaderMove (seconds 3) now).any
    (leaderContra side cfg.leaderPreEntryContraPct))
  let support ← support? cfg now s eating side
  guard (awayFromBest cfg s eating side)
  planOn cfg now s eating burst support side

theorem plan?_documents : ∀ plan ∈ plan? cfg now s, s.Documents plan := by
  refine forall_mem_bind fun _ _ => forall_mem_bind fun _ _ => forall_mem_bind fun eating heating =>
    forall_mem_bind fun _ _ => forall_mem_bind fun burst hburst => forall_mem_bind fun _ _ =>
    forall_mem_bind fun _ _ => forall_mem_bind fun _ _ => forall_mem_bind fun _ _ =>
    forall_mem_bind fun _ _ => forall_mem_bind fun _ _ => forall_mem_bind fun support _ =>
    forall_mem_bind fun _ _ => forall_mem_bind fun _ _ => forall_mem_bind fun _ _ =>
    forall_mem_bind fun _ _ => ?_
  rintro _ ⟨⟩
  refine documents_traced fun e he => ?_
  rcases List.mem_pair.1 he with rfl | rfl
  · exact Or.inl ⟨_, heating⟩
  · exact StrategyContext.received_of_mem_recent? hburst

/-- The tape fades on the side of the trade. -/
def fadeOnOurSide : ExitRule where
  reason := "FadeOnOurSidePostEntry"
  kind := .tapeFade
  window _ := seconds cfg.fadeContraExitSec
  counts plan := fadesOn plan.side

/-- The leader moves against the trade. -/
def leaderContraExit : ExitRule where
  reason := "LeaderContraPostEntry"
  kind := .leaderMove
  window _ := seconds cfg.leaderContraExitSec
  counts plan := leaderContra plan.side cfg.leaderExitContraPct

/-- The strategy as one that plans on eaten densities. -/
def playbook : Playbook where
  name := "BreakoutEatThrough"
  priority := 2
  trigger := .densityEating
  oneTrade := false
  plan? := plan? cfg
  exits := [fadeOnOurSide cfg, leaderContraExit cfg]
  documents := plan?_documents cfg

end BreakoutEatThrough

end TradeBot
