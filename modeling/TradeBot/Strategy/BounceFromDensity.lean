import TradeBot.Strategy.StrategyContext

set_option autoImplicit false

/-! # BounceFromDensity

`strategy/BounceFromDensity.{hpp,cpp}`: an approach to a level that a large density holds is traded
back.

Each check is a line of `plan?`, in the order of the source. A function of its own is what the source
computes in a loop or with fall-backs, such as the density that is looked for near the approach and
the anchor of the stop. Times are in nanoseconds throughout. -/

namespace TradeBot

/-- The thresholds of the strategy, with the defaults of the source. -/
structure BounceFromDensity.Config where
  maxSpreadBps : ℚ := 3
  entryOffsetBps : ℚ := 3
  stopBufferBps : ℚ := 5
  tp1R : ℚ := 3 / 2
  tp1SizeRatio : ℚ := 1 / 2
  minApproachSpeedBps1s : ℚ := 5
  maxTapeSpeedRatio : ℚ := 3 / 5
  minDriverReversalBps : ℚ := 2
  minRelativeDensity : ℚ := 2
  tierMinApproachSpeedBps1s : List ℚ := [50, 15, 8]
  tierMinRelativeDensity : List ℚ := [1 / 4, 3 / 20, 1 / 10]
  tierMinDriverReversalBps : List ℚ := [30, 20, 12]
  requireTapeFade : Bool := true
  /-- In seconds, as the other durations. -/
  approachSignalMaxAge : ℤ := 5
  tapeFadeMaxAge : ℤ := 5
  leaderContraMaxPct : ℚ := 1 / 5
  leaderContraLookback : ℤ := 3
  /-- In milliseconds. -/
  minDensityAgeMs : ℤ := 5000
  maxLevelTouchesForBounce : ℤ := 2
  burstContraExitSec : ℤ := 5
  maxLevelAge : ℤ := 60
  entryTimeout : ℤ := 10
  stopAnchorMaxBps : ℚ := 15
  noProgressTimeoutSec : ℚ := 120
  densityClusterEnabled : Bool := true
  densityClusterMaxBps : ℚ := 15
  maxFundingAgainstBps : ℚ := 5
  maxMarkMidBps : ℚ := 20

namespace BounceFromDensity

open StrategyBase (forall_mem_bind documents_traced)

variable (cfg : Config) (now : TimePoint) (s : StrategyBase)

/-- `static_cast<int>` of the milliseconds since a signal. -/
def elapsedMs (sig : Signal) : ℤ := ((now - sig.timestamp).tdiv 1000000).bmod (2 ^ 32)

/-- The newest signal of a kind that is no older than `maxAge` and that a predicate picks. -/
def newest? (kind : SignalKind) (maxAge : TimePoint) (p : Signal → Bool) : Option Signal :=
  s.ctx.signalHistory.reverse.find? (fun sig =>
    decide (sig.kind = kind) && decide (now - sig.timestamp ≤ maxAge) && p sig)

/-- C1, the age of the level, its touches, and C2. -/
def approach? : Option Signal := do
  let approach ← s.ctx.recent? .levelApproach (seconds cfg.approachSignalMaxAge) now
  guard (approach.payload.ageMs + elapsedMs now approach ≤ (cfg.maxLevelAge * 1000).bmod (2 ^ 32))
  guard (0 < cfg.maxLevelTouchesForBounce → approach.payload.touches ≤ cfg.maxLevelTouchesForBounce)
  guard (s.threshold cfg.tierMinApproachSpeedBps1s cfg.minApproachSpeedBps1s ≤ approach.payload.speedBps
    ∨ approach.payload.approachType = "impulse")
  return approach

/-- C3: a density on the level, old enough to count. -/
def density? (levelPrice : ℚ) : Option Signal := do
  let density ← newest? now s .densityDetected (seconds cfg.maxLevelAge)
    (fun sig => withinBps sig.price levelPrice (3 / 2))
  guard (cfg.minDensityAgeMs ≤ density.payload.ageMs + elapsedMs now density)
  return density

/-- The funding rate is against the trade. -/
def fundingAgainst (frame : FeatureFrame) (side : Side) : Bool :=
  let rateBps := frame.fundingRate * 10000
  decide (0 < cfg.maxFundingAgainstBps ∧ frame.fundingRate ≠ 0 ∧
    ((side = .buy ∧ cfg.maxFundingAgainstBps < rateBps) ∨
      (side = .sell ∧ rateBps < -cfg.maxFundingAgainstBps)))

/-- The mark price is away from the middle of the book. -/
def markDiverges (frame : FeatureFrame) : Bool :=
  decide (0 < cfg.maxMarkMidBps ∧ 0 < frame.markPrice ∧ 0 < frame.mid ∧
    cfg.maxMarkMidBps < |frame.markPrice - frame.mid| / frame.mid * kBpsBase)

/-- The density is large for the depth of its side of the book. -/
def isRelativelyLarge (density : Signal) : Bool :=
  let depth := if density.payload.side = "Bid" then s.ctx.lastFrame.bidDepth10
    else s.ctx.lastFrame.askDepth10
  decide (0 < depth →
    s.threshold cfg.tierMinRelativeDensity cfg.minRelativeDensity ≤ density.payload.size / depth)

/-- C4: the tape has slowed down. -/
def isStalling (frame : FeatureFrame) : Bool :=
  let vol1s := frame.buyVol1s + frame.sellVol1s
  let vol5s := frame.buyVol5s + frame.sellVol5s
  decide (0 < vol5s → vol1s / max 1 (vol5s / 5) ≤ cfg.maxTapeSpeedRatio)

/-- C5: the leader still moves towards the density. -/
def leaderAgainst (side : Side) : Bool :=
  let change := s.ctx.lastFrame.leaderChange1s
  let move := if side = .buy then change else -change
  decide (move < 0 ∧
    s.threshold cfg.tierMinDriverReversalBps cfg.minDriverReversalBps < |move * kBpsBase|)

/-- C6: a `LeaderMove` against the trade. -/
def leaderMoveContra (side : Side) (move : Signal) : Bool :=
  let lagPct := move.payload.lagPct
  decide (((side = .buy ∧ lagPct < 0) ∨ (side = .sell ∧ 0 < lagPct)) ∧
    cfg.leaderContraMaxPct < |lagPct| * 100)

/-- The furthest density of a cluster around the one that is traded; the stop goes beyond it. -/
def stopAnchorPrice (density : Signal) (side : Side) : ℚ :=
  let inCluster (sig : Signal) : Bool :=
    let distBps := |sig.price - density.price| / density.price * kBpsBase
    decide (sig.kind = .densityDetected) && decide (now - sig.timestamp ≤ seconds cfg.maxLevelAge) &&
      decide (sig.payload.side = density.payload.side) &&
      decide (1 / 2 ≤ distBps ∧ distBps ≤ cfg.densityClusterMaxBps)
  if cfg.densityClusterEnabled then
    (s.ctx.signalHistory.reverse.filter inCluster).foldl
      (fun far sig => if side = .buy then min far sig.price else max far sig.price) density.price
  else density.price

/-- C-Anchor: a level stands close to the stop, where the frame knows one on that side. -/
def isAnchored (frame : FeatureFrame) (stopPrice : ℚ) (side : Side) : Bool :=
  if cfg.stopAnchorMaxBps ≤ 0 then true
  else
    match if side = .buy then frame.nearestSupport else frame.nearestResistance with
    | some level => withinBps level stopPrice cfg.stopAnchorMaxBps
    | none => true

/-- The prices of a plan. It fails if rounding leaves no risk. -/
def planOn (approach density : Signal) (side : Side) : Option StrategyPlan := do
  let offset := approach.price * (cfg.entryOffsetBps / kBpsBase)
  let anchor := stopAnchorPrice cfg now s density side
  let buffer := anchor * (cfg.stopBufferBps / kBpsBase)
  let entryPrice := roundToTick
    (if side = .buy then approach.price + offset else approach.price - offset) s.priceIncrement
  let stopPrice := roundToTick
    (if side = .buy then anchor - buffer else anchor + buffer) s.priceIncrement
  guard (isAnchored cfg s.ctx.lastFrame stopPrice side)
  let risk := |entryPrice - stopPrice|
  guard (0 < risk)
  let tp1Price := roundToTick
    (if side = .buy then entryPrice + cfg.tp1R * risk else entryPrice - cfg.tp1R * risk)
    s.priceIncrement
  return s.traced
    { ticker := s.ticker
      side := side
      entryType := .limit
      entryPrice := entryPrice
      stopPrice := stopPrice
      tp1Price := tp1Price
      tp1SizeRatio := cfg.tp1SizeRatio
      strategyName := "BounceFromDensity"
      -- The formatter knows `{}` and leaves this as it is.
      reason := "Bounce from %.*s density (Impulse + Stalling)"
      evidence := [density, approach]
      validUntil := now + seconds cfg.entryTimeout
      noProgressTimeoutSec := cfg.noProgressTimeoutSec
      minFollowThroughBps := 0
      densityPriceForStop := density.price
      approachCount := approach.payload.touches }

/-- The checks in the order of the source, and the plan that passes all of them. -/
def plan? : Option StrategyPlan := do
  let frame := s.ctx.lastFrame
  guard (frame.spreadBps ≤ cfg.maxSpreadBps)
  let approach ← approach? cfg now s
  let density ← density? cfg now s approach.price
  let side := if density.payload.side = "Bid" then Side.buy else Side.sell
  guard (!fundingAgainst cfg frame side)
  guard (!markDiverges cfg frame)
  -- C-Invalidation
  guard (newest? now s .densityRemoved (seconds 30)
    (fun sig => withinBps sig.price density.price (3 / 2))).isNone
  guard (!(s.ctx.recent? .tapeBurst (seconds 3) now).any
    (fun burst => side.isText burst.payload.side "Sell" "Buy"))
  guard (isRelativelyLarge cfg s density)
  guard (isStalling cfg frame)
  guard (!leaderAgainst cfg s side)
  guard (cfg.requireTapeFade = true →
    (s.ctx.recent? .tapeFade (seconds cfg.tapeFadeMaxAge) now).isSome)
  guard (!(s.ctx.recent? .leaderMove (seconds cfg.leaderContraLookback) now).any
    (leaderMoveContra cfg side))
  -- C-Iceberg
  guard (newest? now s .icebergSuspected (seconds 30) (fun sig =>
    decide (sig.payload.side = density.payload.side) && withinBps sig.price approach.price 2)).isNone
  planOn cfg now s approach density side

theorem received_approach? : ∀ approach ∈ approach? cfg now s, s.ctx.Received approach := by
  refine forall_mem_bind fun approach happroach => forall_mem_bind fun _ _ =>
    forall_mem_bind fun _ _ => forall_mem_bind fun _ _ => ?_
  rintro _ ⟨⟩
  exact StrategyContext.received_of_mem_recent? happroach

theorem received_density? (levelPrice : ℚ) :
    ∀ density ∈ density? cfg now s levelPrice, s.ctx.Received density := by
  refine forall_mem_bind fun density hdensity => forall_mem_bind fun _ _ => ?_
  rintro _ ⟨⟩
  exact Or.inr (List.mem_reverse.1 (List.mem_of_find?_eq_some hdensity))

theorem plan?_documents : ∀ plan ∈ plan? cfg now s, s.Documents plan := by
  refine forall_mem_bind fun _ _ => forall_mem_bind fun approach happroach =>
    forall_mem_bind fun density hdensity => forall_mem_bind fun _ _ => forall_mem_bind fun _ _ =>
    forall_mem_bind fun _ _ => forall_mem_bind fun _ _ => forall_mem_bind fun _ _ =>
    forall_mem_bind fun _ _ => forall_mem_bind fun _ _ => forall_mem_bind fun _ _ =>
    forall_mem_bind fun _ _ => forall_mem_bind fun _ _ => forall_mem_bind fun _ _ =>
    forall_mem_bind fun _ _ => ?_
  rintro _ ⟨⟩
  refine documents_traced fun e he => ?_
  rcases List.mem_pair.1 he with rfl | rfl
  · exact received_density? cfg now s _ _ hdensity
  · exact received_approach? cfg now s _ happroach

/-- The density the stop was put behind is gone. -/
def densityRemoved : ExitRule where
  reason := "DensityRemovedPostEntry"
  kind := .densityRemoved
  scans := true
  window plan := seconds (truncToInt plan.noProgressTimeoutSec)
  counts plan removed :=
    decide (0 < plan.densityPriceForStop) &&
      withinBps removed.price plan.densityPriceForStop (3 / 2)

/-- A burst against the trade ends it. -/
def burstContra : ExitRule where
  reason := "BurstContraPostEntry"
  kind := .tapeBurst
  window _ := seconds cfg.burstContraExitSec
  counts plan burst := plan.side.isText burst.payload.side "Sell" "Buy"

/-- The strategy as one that plans on approaches. -/
def playbook : Playbook where
  name := "BounceFromDensity"
  priority := 3
  trigger := .levelApproach
  oneTrade := true
  plan? := plan? cfg
  exits := [densityRemoved, burstContra cfg]
  documents := plan?_documents cfg

end BounceFromDensity

end TradeBot
