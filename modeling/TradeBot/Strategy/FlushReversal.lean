import TradeBot.Strategy.StrategyContext

set_option autoImplicit false

/-! # FlushReversal

`strategy/FlushReversal.{hpp,cpp}`: a break of a strong level that aggressive prints made and that
fades at once is traded back.

The comments of the source number its conditions, and the lines of `plan?` keep the numbers. The
trade goes against the break: after a break downwards it is a long. Most conditions look for signals
of the last seconds on the side of the flush, which are found in the context. -/

namespace TradeBot

/-- The thresholds of the strategy, with the defaults of the source. -/
structure FlushReversal.Config where
  maxSpreadBps : ℚ := 4
  entryOffsetBps : ℚ := 2
  stopBufferBps : ℚ := 8
  tp1R : ℚ := 2
  tp1SizeRatio : ℚ := 3 / 5
  /-- In seconds, as the other durations. -/
  tapeFlushMaxAge : ℤ := 8
  minFlushDistBps : ℚ := 3
  minLevelTouches : ℤ := 2
  minFlushCount : ℤ := 2
  flushCountWindow : ℤ := 120
  maxVolFadeRatio : ℚ := 1 / 2
  minPriceReversalBps : ℚ := 3 / 2
  tierMinFlushDistBps : List ℚ := [25, 15, 10]
  tierMinPriceReversalBps : List ℚ := [8, 5, 3]
  tierEntryOffsetBps : List ℚ := [5, 3, 2]
  entryTimeout : ℤ := 8
  noProgressTimeoutSec : ℚ := 30
  postEntryGraceSec : ℚ := 3
  minFollowThroughBps : ℚ := 5

namespace FlushReversal

open StrategyBase (forall_mem_bind documents_traced)

variable (cfg : Config) (now : TimePoint) (s : StrategyBase)

/-- C4: a `TapeFlush` confirms the break, and it is not the only one. -/
def tapeFlush? (brk : Signal) : Option Signal := do
  let flush ← s.ctx.recent? .tapeFlush (seconds cfg.tapeFlushMaxAge) now
  guard (brk.timestamp - seconds 3 ≤ flush.timestamp)
  guard (cfg.minFlushCount ≤ 1 ∨ cfg.minFlushCount ≤ s.ctx.signalHistory.countP (fun sig =>
    decide (now - seconds cfg.flushCountWindow ≤ sig.timestamp) && decide (sig.kind = .tapeFlush)))
  return flush

/-- C5: the volume of the last second over the average of the last five, on the side of the flush. -/
def volFadeRatio (frame : FeatureFrame) (flushedDown : Bool) : ℚ :=
  let vol1s := if flushedDown then frame.sellVol1s else frame.buyVol1s
  let vol5s := if flushedDown then frame.sellVol5s else frame.buyVol5s
  vol1s / max 1 (if 0 < vol5s then vol5s / 5 else 1)

/-- C7 and C8: the tape or the book goes on in the direction of the flush. -/
def isContinued (side : Side) : Bool :=
  (s.ctx.recent? .tapeBurst (seconds 5) now).any
      (fun burst => side.isText burst.payload.side "Sell" "Buy") ||
    (s.ctx.recent? .densityEating (seconds 5) now).any
      (fun eating => side.isText eating.payload.side "Ask" "Bid")

/-- The plan on a break that meets C1 to C8. Entry and stop stand on the same side of the level. -/
def planOn (brk flush : Signal) (side : Side) : Option StrategyPlan := do
  let offset := brk.price * (s.threshold cfg.tierEntryOffsetBps cfg.entryOffsetBps / kBpsBase)
  let buffer := brk.price * (cfg.stopBufferBps / kBpsBase)
  let entry := if side = .buy then brk.price - offset else brk.price + offset
  let stop := if side = .buy then brk.price - buffer else brk.price + buffer
  let tp1 := if side = .buy then entry + cfg.tp1R * (entry - stop)
    else entry - cfg.tp1R * (stop - entry)
  guard (roundToTick entry s.priceIncrement ≠ roundToTick stop s.priceIncrement)
  return s.traced
    { ticker := s.ticker
      side := side
      entryType := .limit
      entryPrice := roundToTick entry s.priceIncrement
      stopPrice := roundToTick stop s.priceIncrement
      tp1Price := roundToTick tp1 s.priceIncrement
      tp1SizeRatio := cfg.tp1SizeRatio
      strategyName := "FlushReversal"
      -- The formatter knows `{}` and leaves these as they are.
      reason := "Flush %s at %.4f (fade=%.2f, rev=%.1fbps)"
      evidence := [brk, flush]
      validUntil := now + seconds cfg.entryTimeout
      noProgressTimeoutSec := cfg.noProgressTimeoutSec
      postEntryGraceSec := cfg.postEntryGraceSec
      minFollowThroughBps := cfg.minFollowThroughBps }

/-- The checks in the order of the source, and the plan that passes all of them. -/
def plan? : Option StrategyPlan := do
  let frame := s.ctx.lastFrame
  guard (frame.ticker ≠ "")
  -- C1
  guard (frame.spreadBps ≤ cfg.maxSpreadBps)
  -- C2: the break, and which way it went
  let brk ← s.ctx.recentSignals .levelBreak
  let flushedDown := decide (brk.payload.distBps < 0)
  let side := if flushedDown then Side.buy else Side.sell
  guard (s.threshold cfg.tierMinFlushDistBps cfg.minFlushDistBps ≤ |brk.payload.distBps|)
  -- C3
  guard (cfg.minLevelTouches ≤ brk.payload.touches)
  let flush ← tapeFlush? cfg now s brk
  guard (volFadeRatio frame flushedDown < cfg.maxVolFadeRatio)
  -- C6: the price has turned
  guard (s.threshold cfg.tierMinPriceReversalBps cfg.minPriceReversalBps ≤
    (if flushedDown then frame.priceChange1s else -frame.priceChange1s) * 100)
  guard (!isContinued now s side)
  planOn cfg now s brk flush side

theorem received_tapeFlush? (brk : Signal) :
    ∀ flush ∈ tapeFlush? cfg now s brk, s.ctx.Received flush := by
  refine forall_mem_bind fun flush hflush => forall_mem_bind fun _ _ => forall_mem_bind fun _ _ => ?_
  rintro _ ⟨⟩
  exact StrategyContext.received_of_mem_recent? hflush

theorem plan?_documents : ∀ plan ∈ plan? cfg now s, s.Documents plan := by
  refine forall_mem_bind fun _ _ => forall_mem_bind fun _ _ => forall_mem_bind fun brk hbrk =>
    forall_mem_bind fun _ _ => forall_mem_bind fun _ _ => forall_mem_bind fun flush hflush =>
    forall_mem_bind fun _ _ => forall_mem_bind fun _ _ => forall_mem_bind fun _ _ =>
    forall_mem_bind fun _ _ => ?_
  rintro _ ⟨⟩
  refine documents_traced fun e he => ?_
  rcases List.mem_pair.1 he with rfl | rfl
  · exact Or.inl ⟨_, hbrk⟩
  · exact received_tapeFlush? cfg now s _ _ hflush

/-- Any `TapeFlush` is a second one. -/
def secondFlush : ExitRule where
  reason := "SecondFlushPostEntry"
  kind := .tapeFlush
  window _ := seconds 5
  counts _ _ := true

/-- A burst against the trade ends it. -/
def burstContra : ExitRule where
  reason := "BurstContraPostEntry"
  kind := .tapeBurst
  window _ := seconds 5
  counts plan burst := plan.side.isText burst.payload.side "Sell" "Buy"

/-- The strategy as one that plans on level breaks. -/
def playbook : Playbook where
  name := "FlushReversal"
  priority := 4
  trigger := .levelBreak
  oneTrade := false
  plan? := plan? cfg
  exits := [secondFlush, burstContra]
  documents := plan?_documents cfg

end FlushReversal

end TradeBot
