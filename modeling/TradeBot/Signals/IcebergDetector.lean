import TradeBot.Signals.DensityDetector
import TradeBot.Utils.CircularBuffer

set_option autoImplicit false

/-! # IcebergDetector

`signals/IcebergDetector.{hpp,cpp}`: levels that are refilled after trades took from them. Trades and
book updates are joined by their times; every refill is evidence for hidden liquidity. What is
published is returned as a list.

A book update is joined with the trades of the last moments at the price of each of its changes. The
posterior goes up or down with every change that trades are joined with, and is kept away from zero
and from one; it is computed exactly. A frame forgets levels that have grown old. -/

namespace TradeBot

/-- `IcebergDetector::Config`; `event_join_window` is in milliseconds. -/
structure IcebergConfig where
  prior : ℚ := 5 / 100
  likelihoodIceberg : ℚ := 85 / 100
  likelihoodNotIceberg : ℚ := 10 / 100
  posteriorThreshold : ℚ := 80 / 100
  evidenceCountMin : ℤ := 3
  icebergMinSizeUsd : ℚ := 100000
  sizeRetentionRatio : ℚ := 1 / 2
  eventJoinWindow : ℤ := 100

/-- `LevelStats`. -/
structure LevelStats where
  posterior : ℚ := 0
  refillCount : ℤ := 0
  totalEatenVol : ℚ := 0
  lastRefill : TimePoint := 0
  emitted : Bool := false

/-- The recent trades, and what is known of the levels by their ticks. -/
structure IcebergDetector where
  ticker : Ticker
  cfg : IcebergConfig := {}
  /-- `price_increment` of the book. -/
  priceIncrement : ℚ
  /-- `universe_.calibrated_min_size_usd` of the ticker, by the default that it scales. -/
  calibratedMinSizeUsd : ℚ → ℚ
  lastSizes : SortedMap (fun a b : ℤ => a < b) ℚ := ∅
  levels : SortedMap (fun a b : ℤ => a < b) LevelStats := ∅
  tradeHistory : CircularBuffer Trade 1024 := ∅
  lastPrune : TimePoint

/-- Trades of this side take from levels of that side. -/
def opposes (levelSide tradeSide : Side) : Bool := decide (levelSide = .sell ↔ tradeSide = .buy)

/-- The entries, the oldest one first, within `event_join_window` of a time: from the newest one down to
    the first that is too old, without those that are too new. -/
def joinWindow {α : Type*} (window : ℤ) (now : TimePoint) (ts : α → TimePoint) (entries : List α) :
    List α :=
  (entries.reverse.takeWhile (fun e => !decide (window < ageMs now (ts e)))).filter
    (fun e => !decide (ageMs now (ts e) < -window))

namespace LevelStats

variable (cfg : IcebergConfig) (stats : LevelStats)

/-- `update_bayesian_`. -/
def updateBayesian (isRefill : Bool) : LevelStats :=
  let l1 := if isRefill then cfg.likelihoodIceberg else 1 - cfg.likelihoodIceberg
  let l0 := if isRefill then cfg.likelihoodNotIceberg else 1 - cfg.likelihoodNotIceberg
  let p := stats.posterior
  let denom := p * l1 + (1 - p) * l0
  let posterior :=
    if denom < 1 / 10 ^ 12 then
      if isRefill then p + 5 / 100 * (1 - p) else p - 5 / 100 * p
    else p * l1 / denom
  { stats with posterior := max (1 / 10000) (min posterior (9999 / 10000)) }

/-- The evidence of a change at a level. -/
def refill (isRefill : Bool) (tradeSize : ℚ) (ts : TimePoint) : LevelStats :=
  let stats := if stats.posterior = 0 then { stats with posterior := cfg.prior } else stats
  let stats := stats.updateBayesian cfg isRefill
  if isRefill then
    { stats with
      refillCount := stats.refillCount + 1
      totalEatenVol := stats.totalEatenVol + tradeSize
      lastRefill := ts }
  else stats

/-- By the posterior if there is a threshold for it, and else by the number of refills. -/
def shouldEmit : Bool :=
  if 0 < cfg.posteriorThreshold then decide (cfg.posteriorThreshold ≤ stats.posterior)
  else decide (cfg.evidenceCountMin ≤ stats.refillCount)

end LevelStats

namespace IcebergDetector

variable (d : IcebergDetector) (traceId : TraceId)

/-- The tick of a price. -/
def tickOf (price : ℚ) : ℤ := priceTickOf price d.priceIncrement

/-- `on_trade`. -/
def onTrade (trade : Trade) : IcebergDetector :=
  { d with tradeHistory := d.tradeHistory.pushBack trade }

/-- The trades that a book update is joined with. -/
def joined (now : TimePoint) : List Trade :=
  joinWindow d.cfg.eventJoinWindow now Trade.timestamp d.tradeHistory.entries

/-- The trade was made against the level of a change. -/
def isMatch (c : PriceLevel) (trade : Trade) : Bool :=
  opposes c.side trade.side && decide (d.tickOf trade.price = d.tickOf c.price)

/-- The volume of the joined trades at the tick of a change: what `buy_vol_by_tick_` holds for an ask,
    `sell_vol_by_tick_` for a bid. -/
def matchedTradeVol (trades : List Trade) (c : PriceLevel) : ℚ :=
  ((trades.filter (d.isMatch c)).map Trade.size).sum

/-- The level went down by less than what was traded, and most of it is still there. -/
def isRefill (tradeSize sizeBefore sizeAfter : ℚ) : Bool :=
  let visibleDecrease := sizeBefore - sizeAfter
  let baseline := if 0 < sizeBefore then sizeBefore else sizeAfter
  decide (visibleDecrease < tradeSize ∧ baseline * d.cfg.sizeRetentionRatio ≤ sizeAfter)

/-- What is published of a level. -/
def icebergSignal (c : PriceLevel) (stats : LevelStats) (ts : TimePoint) : Signal :=
  { kind := .icebergSuspected, timestamp := ts, ticker := d.ticker, price := c.price
    confidence := stats.posterior
    payload :=
      { side := restingSide c.side
        totalEatenUsd := stats.totalEatenVol * c.price
        refillEvents := stats.refillCount }
    triggerTraceId := traceId }

/-- `process_refill_`. -/
def processRefill (c : PriceLevel) (tradeSize sizeBefore : ℚ) (ts : TimePoint) :
    IcebergDetector × List Signal :=
  if sizeBefore ≤ 0 ∧ c.size ≤ 0 then (d, [])
  else
    let tick := d.tickOf c.price
    let stats := ((d.levels.lookup tick).getD {}).refill d.cfg (d.isRefill tradeSize sizeBefore c.size)
      tradeSize ts
    if stats.shouldEmit d.cfg && !stats.emitted &&
        decide (d.calibratedMinSizeUsd d.cfg.icebergMinSizeUsd ≤ stats.totalEatenVol * c.price) then
      ({ d with levels := d.levels.insert tick { stats with emitted := true } },
        [d.icebergSignal traceId c stats ts])
    else ({ d with levels := d.levels.insert tick stats }, [])

/-- `on_book_update` at one change; the first one at a tick only records the size. -/
def onChange (now : TimePoint) (trades : List Trade) (c : PriceLevel) : IcebergDetector × List Signal :=
  let recorded := { d with lastSizes := d.lastSizes.insert (d.tickOf c.price) c.size }
  match d.lastSizes.lookup (d.tickOf c.price) with
  | none => (recorded, [])
  | some sizeBefore =>
      if 0 < d.matchedTradeVol trades c then
        recorded.processRefill traceId c (d.matchedTradeVol trades c) sizeBefore now
      else (recorded, [])

/-- `on_book_update`. -/
def onBookUpdate (upd : OrderBookUpdate) : IcebergDetector × List Signal :=
  if upd.ticker ≠ d.ticker then (d, [])
  else
    upd.changes.foldl (fun r c =>
      let r' := r.1.onChange traceId upd.ts (d.joined upd.ts) c
      (r'.1, r.2 ++ r'.2)) (d, [])

/-- `on_frame`: levels without a refill for five minutes are forgotten, at most once a minute. -/
def onFrame (frame : FeatureFrame) : IcebergDetector :=
  if frame.ticker ≠ d.ticker then d
  else if !frame.valid then d
  else if !d.levels.entries.isEmpty && decide (60 * nsPerSec < frame.timestamp - d.lastPrune) then
    { d with
      levels := d.levels.filterMap (fun _ stats =>
        if 5 * 60 * nsPerSec < frame.timestamp - stats.lastRefill then none else some stats)
      lastSizes := if 1000 < d.lastSizes.entries.length then ∅ else d.lastSizes
      lastPrune := frame.timestamp }
  else d

end IcebergDetector

end TradeBot
