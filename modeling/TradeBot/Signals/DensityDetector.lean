import TradeBot.Domain.Signals
import TradeBot.MarketData.OrderBook

set_option autoImplicit false

/-! # DensityDetector

`signals/DensityDetector.{hpp,cpp}`: the large resting orders of a book, which are tracked by their
ticks from the book updates, and reported when they persist, when they are eaten, when they are
removed, and when several stand close together. What is published is returned as a list.

A call of the detector is a function from its state to the new one and the signals it publishes, in
their order. The book is read and never written. Passes over the tracked levels are folds over their
entries, so each of them has a lemma about one entry and one about the fold (`DensityWatch`). -/

namespace TradeBot

/-! ## Averages -/

/-- `numeric/Ema.hpp`. -/
structure Ema where
  alpha : ℚ
  value : ℚ := 0
  initialized : Bool := false

/-- The first value is taken as it is. -/
def Ema.update (ema : Ema) (x : ℚ) : Ema :=
  if ema.initialized then { ema with value := ema.alpha * x + (1 - ema.alpha) * ema.value }
  else { ema with value := x, initialized := true }

/-- `numeric/Dema.hpp`. -/
structure Dema where
  ema1 : Ema
  ema2 : Ema

/-- Both averages with the smoothing of the period. -/
def Dema.fromPeriod (n : ℤ) : Dema := ⟨{ alpha := 2 / (n + 1) }, { alpha := 2 / (n + 1) }⟩

/-- The second average is one of the first. -/
def Dema.update (dema : Dema) (x : ℚ) : Dema :=
  let ema1 := dema.ema1.update x
  ⟨ema1, dema.ema2.update ema1.value⟩

/-- Twice the first average without the second. -/
def Dema.value (dema : Dema) : ℚ := 2 * dema.ema1.value - dema.ema2.value

/-! ## The state -/

/-- `DensityDetector::Config`; durations are in milliseconds. -/
structure DensityConfig where
  minSizeVsAvg : ℚ := 10
  minSizeUsd : ℚ := 50000
  minDistanceBps : ℚ := 5
  maxDistanceBps : ℚ := 150
  stickyDuration : ℤ := 2000
  fakeThreshold : ℤ := 300
  eatingWindow : ℤ := 3000
  eatingRatioThreshold : ℚ := 1 / 2
  eatingMinPrints : ℤ := 5
  demaPeriod : ℤ := 100
  stackMinLevels : ℤ := 2
  stackMaxWidthBps : ℚ := 20
  stackMinSizeUsd : ℚ := 100000

/-- `LevelMeta`. -/
structure LevelMeta where
  side : Side
  initialSize : ℚ
  firstSeen : TimePoint
  emitted : Bool := false
  eatenVolume : ℚ := 0
  printCount : ℤ := 0
  lastHit : TimePoint := 0
  eatingEmitted : Bool := false
  deriving DecidableEq

/-- `StackSignature`. -/
structure StackSignature where
  side : Side := .buy
  firstTick : ℤ := 0
  lastTick : ℤ := 0
  totalSizeUsd : ℚ := 0
  valid : Bool := false

/-- The levels that are tracked, by their ticks, and the trades of the last moments. -/
structure DensityDetector where
  ticker : Ticker
  cfg : DensityConfig := {}
  /-- `universe_.density_min_size_usd` of the ticker, by the default that it scales. -/
  densityMinSizeUsd : ℚ → ℚ
  avgLevelSize : Dema := Dema.fromPeriod cfg.demaPeriod
  tracked : SortedMap (fun a b : ℤ => a < b) LevelMeta := ∅
  lastStack : StackSignature := {}

/-- The label of the side on which a level rests. -/
def restingSide (side : Side) : String := if side = .buy then "Bid" else "Ask"

/-- `duration_cast<milliseconds>` of an age. -/
def ageMs (now since : TimePoint) : ℤ := (now - since).tdiv 1000000

namespace DensityDetector

variable (d : DensityDetector) (traceId : TraceId) (book : OrderBook)

/-- `min_size_calibrated`. -/
def minSizeCalibrated : ℚ := d.densityMinSizeUsd d.cfg.minSizeUsd

/-- A signal of the detector, in the current trace. -/
def signal (kind : SignalKind) (now : TimePoint) (price confidence : ℚ) (payload : SignalPayload) :
    Signal :=
  { kind := kind, timestamp := now, ticker := d.ticker, price := price, confidence := confidence,
    payload := payload, triggerTraceId := traceId }

/-! ## Trades -/

/-- The level that a trade hits: at its tick, else one tick below it, else one above, if it rests on
    the other side. -/
def hit? (trade : Trade) : Option (ℤ × LevelMeta) :=
  let baseTick := priceTickOf trade.price book.inc.price
  [baseTick, baseTick - 1, baseTick + 1].findSome? (fun tick =>
    ((d.tracked.lookup tick).filter (fun level => decide (level.side ≠ trade.side))).map
      (fun level => (tick, level)))

end DensityDetector

namespace LevelMeta

variable (cfg : DensityConfig) (level : LevelMeta)

/-- A hit; a gap of more than `eating_window` starts a new burst. -/
def hit (size : ℚ) (now : TimePoint) : LevelMeta :=
  let level :=
    if level.lastHit ≠ 0 ∧ cfg.eatingWindow * 1000000 < now - level.lastHit then
      { level with eatenVolume := 0, printCount := 0, eatingEmitted := false }
    else level
  { level with
    eatenVolume := level.eatenVolume + size
    printCount := level.printCount + 1
    lastHit := now }

/-- Which part of a level has been eaten. -/
def eatenRatio : ℚ := level.eatenVolume / level.initialSize

/-- The condition for `DensityEating`. -/
def isEaten : Bool :=
  !level.eatingEmitted && decide (cfg.eatingRatioThreshold ≤ level.eatenRatio ∧
    cfg.eatingMinPrints ≤ level.printCount)

/-- A tracked level of another size: a level that grew starts anew, one that shrank only starts its
    eating statistics anew. -/
def resize (size : ℚ) (now : TimePoint) : LevelMeta :=
  if level.initialSize ≤ size then
    { level with
      initialSize := size, firstSeen := now, emitted := false, eatenVolume := 0, printCount := 0
      eatingEmitted := false }
  else { level with initialSize := size, eatenVolume := 0, printCount := 0 }

/-- The level persisted and was not reported yet. -/
def isSticky (now : TimePoint) : Bool :=
  !level.emitted && decide (cfg.stickyDuration ≤ ageMs now level.firstSeen)

end LevelMeta

namespace DensityDetector

variable (d : DensityDetector) (traceId : TraceId) (book : OrderBook)

/-- What is published when enough of a level has been eaten. -/
def eatingSignal (trade : Trade) (level : LevelMeta) : Signal :=
  let remaining := level.initialSize - level.eatenVolume
  d.signal traceId .densityEating trade.timestamp trade.price (min 1 level.eatenRatio)
    { side := restingSide level.side
      size := remaining
      originalSize := level.initialSize
      remainingSize := remaining
      eatenRatio := level.eatenRatio
      remainingRatio :=
        if 0 < level.initialSize then max 0 (remaining / level.initialSize) else 0
      prints := level.printCount }

/-- `on_trade`. -/
def onTrade (trade : Trade) : DensityDetector × List Signal :=
  match d.hit? book trade with
  | none => (d, [])
  | some (tick, level) =>
      let level := level.hit d.cfg trade.size trade.timestamp
      if level.isEaten d.cfg then
        ({ d with tracked := d.tracked.insert tick { level with eatingEmitted := true } },
          [d.eatingSignal traceId trade level])
      else ({ d with tracked := d.tracked.insert tick level }, [])

/-! ## Book updates -/

/-- Pass 1 at one change. -/
def withdraw (now : TimePoint) (r : DensityDetector × List Signal) (c : PriceLevel) :
    DensityDetector × List Signal :=
  if 0 < c.size then r
  else
    let tick := priceTickOf c.price book.inc.price
    match r.1.tracked.lookup tick with
    | none => r
    | some level =>
        let age := ageMs now level.firstSeen
        ({ r.1 with
            tracked := r.1.tracked.erase tick
            lastStack := { r.1.lastStack with valid := false } },
          r.2 ++ [r.1.signal traceId .densityRemoved now c.price 1
            { ageMs := age.bmod (2 ^ 32), fake := decide (age < r.1.cfg.fakeThreshold) }])

/-- Levels of some value enter the average size. -/
def averageSize (changes : List PriceLevel) : Dema :=
  changes.foldl (fun avg c =>
    if 0 < c.size ∧ 0 < c.price ∧ d.minSizeCalibrated * (5 / 100) ≤ c.size * c.price then
      avg.update c.size
    else avg) d.avgLevelSize

/-- The change reports a large level, at the right distance. -/
def qualifies (mid : ℚ) (c : PriceLevel) : Bool :=
  let distBps := |c.price - mid| / mid * 10000
  decide (d.cfg.minSizeVsAvg * d.avgLevelSize.value ≤ c.size ∧
    d.minSizeCalibrated ≤ c.size * c.price ∧
    d.cfg.minDistanceBps ≤ distBps ∧ distBps ≤ d.cfg.maxDistanceBps)

/-- Pass 2 at one change. -/
def track (mid : ℚ) (now : TimePoint) (d : DensityDetector) (c : PriceLevel) : DensityDetector :=
  if c.size ≠ 0 ∧ d.qualifies mid c then
    let tick := priceTickOf c.price book.inc.price
    { d with
      tracked := d.tracked.insert tick
        (match d.tracked.lookup tick with
        | none => { side := c.side, initialSize := c.size, firstSeen := now }
        | some level => level.resize c.size now) }
  else d

/-- `on_book_update`. -/
def onBookUpdate (upd : OrderBookUpdate) : DensityDetector × List Signal :=
  if upd.ticker ≠ d.ticker then (d, [])
  else
    let r := upd.changes.foldl (withdraw traceId book upd.ts) (d, [])
    match book.mid with
    | none => r
    | some mid =>
        (upd.changes.foldl (track book mid upd.ts)
          { r.1 with avgLevelSize := r.1.averageSize upd.changes }, r.2)

/-! ## Stacks -/

/-- `ClusterEntry`. -/
structure ClusterEntry where
  tick : ℤ
  price : ℚ
  size : ℚ

/-- `StackSignature::matches`. -/
def sameStack (last : StackSignature) (side : Side) (firstTick lastTick : ℤ) (totalUsd : ℚ) : Bool :=
  last.valid && decide (last.side = side ∧ last.firstTick = firstTick ∧ last.lastTick = lastTick ∧
    |last.totalSizeUsd - totalUsd| < 1)

/-- The level of a stack that is nearest to the mid price: the lowest ask, or the highest bid. -/
def nearest (side : Side) (low high : ClusterEntry) : ClusterEntry :=
  if side = .sell then low else high

/-- Of the two ends of a cluster the one farther from the mid price. -/
def farthest (side : Side) (low high : ClusterEntry) : ClusterEntry :=
  if side = .sell then high else low

/-- The value of a cluster. -/
def totalUsd (cluster : List ClusterEntry) : ℚ := (cluster.map (fun e => e.size * e.price)).sum

/-- What is published of a stack. -/
def stackSignal (now : TimePoint) (side : Side) (cluster : List ClusterEntry) (width : ℚ)
    (first last : ClusterEntry) : Signal :=
  d.signal traceId .densityStack now first.price 1
    { side := if side = .sell then "Ask" else "Bid"
      size := (cluster.map ClusterEntry.size).sum
      sizeUsd := totalUsd cluster
      firstPrice := first.price
      lastPrice := last.price
      widthBps := width
      totalSizeUsd := totalUsd cluster
      stopAnchorPrice := last.price }

/-- `emit_if_qualified`, for a cluster with its lowest price first. -/
def emitIfQualified (now : TimePoint) (mid : ℚ) (side : Side) (cluster : List ClusterEntry)
    (r : DensityDetector × List Signal) : DensityDetector × List Signal :=
  match cluster.head?, cluster.getLast? with
  | some low, some high =>
      let width := |high.price - low.price| / mid * 10000
      let first := nearest side low high
      let last := farthest side low high
      if (cluster.length : ℤ) < r.1.cfg.stackMinLevels ∨ r.1.cfg.stackMaxWidthBps < width ∨
          totalUsd cluster < r.1.cfg.stackMinSizeUsd then r
      else if sameStack r.1.lastStack side first.tick last.tick (totalUsd cluster) then r
      else
        ({ r.1 with
            lastStack :=
              { side := side, firstTick := first.tick, lastTick := last.tick,
                totalSizeUsd := totalUsd cluster, valid := true } },
          r.2 ++ [r.1.stackSignal traceId now side cluster width first last])
  | _, _ => r

/-- The cluster that is being collected, if any, and what was published before it. -/
structure ClusterScan where
  current : Option (Side × List ClusterEntry) := none
  result : DensityDetector × List Signal

/-- End the current cluster. -/
def ClusterScan.flush (now : TimePoint) (mid : ℚ) (scan : ClusterScan) :
    DensityDetector × List Signal :=
  match scan.current with
  | some (side, cluster) => emitIfQualified traceId now mid side cluster scan.result
  | none => scan.result

/-- The scan at one tracked level; only those that were reported count. -/
def clusterStep (now : TimePoint) (mid : ℚ) (scan : ClusterScan) (tracked : ℤ × LevelMeta) :
    ClusterScan :=
  let (tick, level) := tracked
  if !level.emitted then scan
  else
    let entry : ClusterEntry :=
      ⟨tick.bmod (2 ^ 32), book.inc.toPrice tick, level.initialSize⟩
    match scan.current with
    | some (side, low :: rest) =>
        if level.side = side ∧
            |entry.price - low.price| / mid * 10000 ≤ d.cfg.stackMaxWidthBps then
          { scan with current := some (side, low :: rest ++ [entry]) }
        else ⟨some (level.side, [entry]), scan.flush traceId now mid⟩
    | _ => { scan with current := some (level.side, [entry]) }

/-- `check_density_stacks_`. -/
def checkDensityStacks (now : TimePoint) (mid : ℚ) : DensityDetector × List Signal :=
  (d.tracked.entries.foldl (d.clusterStep traceId book now mid) { result := (d, []) }).flush
    traceId now mid

/-! ## Frames -/

/-- "Evict levels that drifted outside the detection range". -/
def inRange (tick : ℤ) : Bool :=
  match book.mid with
  | some mid =>
      !decide (0 < mid ∧ d.cfg.maxDistanceBps < |book.inc.toPrice tick - mid| / mid * 10000)
  | none => true

/-- What is published of a level that has stood long enough. Its age is a 32 bit number. -/
def detectedSignal (now : TimePoint) (tick : ℤ) (level : LevelMeta) : Signal :=
  d.signal traceId .densityDetected now (book.inc.toPrice tick) 1
    { side := restingSide level.side
      size := level.initialSize
      ageMs := (ageMs now level.firstSeen).bmod (2 ^ 32) }

/-- The levels in range; the sticky ones are marked as reported. -/
def refreshTracked (now : TimePoint) : DensityDetector :=
  { d with
    tracked := d.tracked.filterMap (fun tick level =>
      if d.inRange book tick then
        some (if level.isSticky d.cfg now then { level with emitted := true } else level)
      else none) }

/-- The reports of the sticky levels in range. -/
def stickySignals (now : TimePoint) : List Signal :=
  (d.tracked.entries.filter (fun e => d.inRange book e.1 && e.2.isSticky d.cfg now)).map
    (fun e => d.detectedSignal traceId book now e.1 e.2)

/-- `check_sticky_levels_`. -/
def checkStickyLevels (now : TimePoint) : DensityDetector × List Signal :=
  if d.tracked.entries.isEmpty then (d, [])
  else
    let signals := d.stickySignals traceId book now
    let d := d.refreshTracked book now
    match book.mid with
    | some mid =>
        if 0 < mid then
          let r := d.checkDensityStacks traceId book now mid
          (r.1, signals ++ r.2)
        else (d, signals)
    | none => (d, signals)

/-- `on_frame`. -/
def onFrame (frame : FeatureFrame) : DensityDetector × List Signal :=
  if frame.ticker ≠ d.ticker then (d, [])
  else if !frame.valid then (d, [])
  else d.checkStickyLevels traceId book frame.timestamp

end DensityDetector

end TradeBot
