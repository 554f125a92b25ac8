import Mathlib.Data.Rat.Cast.Defs
import Mathlib.Algebra.Order.Group.Abs
import TradeBot.Domain.Signals
import TradeBot.MarketData.TradeStream
import TradeBot.Utils.CircularBuffer

set_option autoImplicit false

/-! # TapeAnalyzer

`signals/TapeAnalyzer.{hpp,cpp}`, with the Hawkes intensities of `marketdata/TradeStream` and
`numeric/Ema.hpp`, `numeric/Cusum.hpp`: bursts, fades, flushes and distributions of the tape. The
intensities are numbers of an ordered field, as decay factors need not be rational. What is published is
returned as a list.

Each detection is a function of its own, which is given what a frame shows of the tape and returns
the new state and its signals; `onFrame` chains them in the order of the source. Decay factors of the
intensities are an argument of each step, as they depend on the time that has passed. -/

namespace TradeBot

namespace Tape

variable (K : Type*)

/-- The Hawkes intensities of a `TradeStream`. -/
structure Hawkes [Zero K] where
  alpha : K
  buy : K := 0
  sell : K := 0
  /-- `last_hawkes_update_` has a value. -/
  updated : Bool := false

/-- `numeric/Ema.hpp`. -/
structure Ema where
  alpha : K
  value : K
  initialized : Bool

/-- The smoothing that belongs to a period. -/
def Ema.fromPeriod {K : Type*} [Field K] (n : ℤ) : Ema K :=
  ⟨((2 : ℤ) : K) / ((n : K) + 1), 0, false⟩

/-- `TapeAnalyzer::Config`; `flush_cooldown` is in nanoseconds. -/
structure Config [Field K] where
  burstRatio : K := 3
  burstTotalIntensityK : K := 3
  burstMinDenominator : K := 1 / 10
  backgroundIntensityPeriod : ℤ := 300
  fadePeakGate : K := 5
  fadeResetRatio : K := 3 / 2
  fadeRatio : K := 1 / 5
  fadeCusumH : K := 5
  flushMinSizeUsd : K := 200000
  flushMinMoveBps : K := 15
  flushCooldown : ℤ := 1000 * 1000000
  distributionMaxRangeBps : K := 20
  distributionMinVolumeUsd : K := 500000

/-- `TradeStream::Stats`, as far as the analyzer reads it. -/
structure Stats where
  buyVol30s : K
  sellVol30s : K
  q99Size : K
  hawkesIntensityBuy : K
  hawkesIntensitySell : K

/-- The payload of a published signal. -/
inductive Payload
  | burst (side : String) (ratio intensity : K)
  | fade (peakRate currentRate cusum : K)
  | flush (sizeUsd deltaBps : K)
  | distribution (volatilityBps volumeUsd30s maxRangeBps : K)

/-- A signal whose numbers are of the field. -/
structure Signal where
  timestamp : TimePoint
  ticker : Ticker
  price : K
  confidence : K
  payload : Payload K
  triggerTraceId : TraceId

end Tape

/-- What the four detections remember from frame to frame. -/
structure TapeAnalyzer (K : Type*) [Field K] where
  ticker : Ticker
  cfg : Tape.Config K := {}
  /-- `universe_.calibrated_min_size_usd` of the ticker, by the default that it scales. -/
  calibratedMinSizeUsd : K → K
  backgroundIntensity : Tape.Ema K := .fromPeriod cfg.backgroundIntensityPeriod
  intensityHistory : CircularBuffer (TimePoint × K) 600 := ∅
  peakIntensity60s : K := 0
  fadeCusum : K := 0
  burstSignalActive : Bool := false
  fadeSignalActive : Bool := false
  distributionSignalActive : Bool := false
  lastFlushTs : TimePoint := 0
  lastPreTradeMid : K := 0

namespace Tape

variable {K : Type*} [Field K]

/-- The jump of `TradeStream::on_trade`. -/
def Hawkes.onTrade (hawkes : Hawkes K) (side : Side) : Hawkes K :=
  match side with
  | .buy => { hawkes with buy := hawkes.buy + hawkes.alpha }
  | .sell => { hawkes with sell := hawkes.sell + hawkes.alpha }
  | .none => hawkes

/-- The decay of `TradeStream::update`; there is none at the first update. -/
def Hawkes.update (hawkes : Hawkes K) (decay : K) : Hawkes K :=
  if hawkes.updated then { hawkes with buy := hawkes.buy * decay, sell := hawkes.sell * decay }
  else { hawkes with updated := true }

/-- The first value is taken as it is. -/
def Ema.update (ema : Ema K) (x : K) : Ema K :=
  if ema.initialized then { ema with value := ema.alpha * x + (1 - ema.alpha) * ema.value }
  else { ema with value := x, initialized := true }

/-- The intensity of both sides. -/
def Stats.hawkesIntensityTotal (stats : Stats K) : K :=
  stats.hawkesIntensityBuy + stats.hawkesIntensitySell

/-- `TradeStream::get_stats`; the quantile comes from the T-digest. -/
def getStats (stream : TradeStream) (hawkes : Hawkes K) (q99Size : K) : Stats K where
  buyVol30s := (stream.windows .w30s).buyVol
  sellVol30s := (stream.windows .w30s).sellVol
  q99Size := q99Size
  hawkesIntensityBuy := hawkes.buy
  hawkesIntensitySell := hawkes.sell

end Tape

namespace TapeAnalyzer

variable {K : Type*} [Field K] [LinearOrder K] (a : TapeAnalyzer K) (traceId : TraceId)
  (frame : FeatureFrame) (stats : Tape.Stats K)

/-- A signal at a frame, in the current trace. -/
def signal (confidence : K) (payload : Tape.Payload K) : Tape.Signal K :=
  { timestamp := frame.timestamp, ticker := a.ticker, price := frame.mid, confidence := confidence
    payload := payload, triggerTraceId := traceId }

/-- What `on_frame` keeps up to date before it looks for anything: the background intensity, the mid
    price, and the peak of the last sixty seconds. -/
def track : TapeAnalyzer K :=
  let rate := stats.hawkesIntensityTotal
  let history := (a.intensityHistory.pushBack (frame.timestamp, rate)).popWhile
    (fun sample => decide (60 * nsPerSec < frame.timestamp - sample.1))
  { a with
    backgroundIntensity := a.backgroundIntensity.update rate
    lastPreTradeMid :=
      if 0 < frame.mid ∧ a.lastPreTradeMid = 0 then (frame.mid : K) else a.lastPreTradeMid
    intensityHistory := history
    peakIntensity60s :=
      history.entries.foldl (fun peak sample => if peak < sample.2 then sample.2 else peak) 0 }

/-- The side that dominates, and by how much; with equal claims it is the buyers. -/
def dominant (cfg : Tape.Config K) : Option (Side × K) :=
  if stats.hawkesIntensitySell * cfg.burstRatio ≤ stats.hawkesIntensityBuy then
    some (.buy, stats.hawkesIntensityBuy / max cfg.burstMinDenominator stats.hawkesIntensitySell)
  else if stats.hawkesIntensityBuy * cfg.burstRatio ≤ stats.hawkesIntensitySell then
    some (.sell, stats.hawkesIntensitySell / max cfg.burstMinDenominator stats.hawkesIntensityBuy)
  else none

/-- The burst condition, with the side of the burst. -/
def burstNow : Option (Side × K) :=
  (dominant stats a.cfg).filter (fun _ =>
    decide (a.cfg.burstTotalIntensityK * a.backgroundIntensity.value ≤ stats.hawkesIntensityTotal))

/-- "1. TapeBurst Detection". -/
def detectBurst : TapeAnalyzer K × List (Tape.Signal K) :=
  match a.burstNow stats with
  | some (side, ratio) =>
      if a.burstSignalActive then (a, [])
      else
        ({ a with burstSignalActive := true },
          [a.signal traceId frame (min 1 (ratio / 10))
            (.burst (if side = .buy then "Buy" else "Sell") ratio stats.hawkesIntensityTotal)])
  | none => ({ a with burstSignalActive := false }, [])

/-- "2. TapeFade Detection (CUSUM)". -/
def detectFade : TapeAnalyzer K × List (Tape.Signal K) :=
  let rate := stats.hawkesIntensityTotal
  let target := a.peakIntensity60s * a.cfg.fadeRatio
  let drift := 5 / 100 * a.peakIntensity60s
  let cusum := max 0 (a.fadeCusum + (target - rate) - drift)
  if a.cfg.fadeCusumH ≤ cusum ∧ a.cfg.fadePeakGate < a.peakIntensity60s then
    if a.fadeSignalActive then ({ a with fadeCusum := cusum }, [])
    else
      ({ a with fadeCusum := cusum, fadeSignalActive := true },
        [a.signal traceId frame 1 (.fade a.peakIntensity60s rate cusum)])
  else if target * a.cfg.fadeResetRatio < rate then
    ({ a with fadeCusum := 0, fadeSignalActive := false }, [])
  else ({ a with fadeCusum := cusum }, [])

/-- "4. TapeDistribution Detection". -/
def detectDistribution : TapeAnalyzer K × List (Tape.Signal K) :=
  let volatility : K := frame.volatility1minBps
  let volumeUsd30s := (stats.buyVol30s + stats.sellVol30s) * frame.mid
  if 0 < volatility ∧ volatility ≤ a.cfg.distributionMaxRangeBps ∧
      a.calibratedMinSizeUsd a.cfg.distributionMinVolumeUsd ≤ volumeUsd30s then
    if a.distributionSignalActive then (a, [])
    else
      ({ a with distributionSignalActive := true },
        [a.signal traceId frame 1
          (.distribution volatility volumeUsd30s a.cfg.distributionMaxRangeBps)])
  else ({ a with distributionSignalActive := false }, [])

/-- `on_frame`. -/
def onFrame : TapeAnalyzer K × List (Tape.Signal K) :=
  if frame.ticker ≠ a.ticker then (a, [])
  else if !frame.valid then (a, [])
  else
    let (a, bursts) := (a.track frame stats).detectBurst traceId frame stats
    let (a, fades) := a.detectFade traceId frame stats
    let (a, distributions) := a.detectDistribution traceId frame stats
    (a, bursts ++ fades ++ distributions)

/-- `on_trade`, "3. TapeFlush Detection". -/
def onTrade (trade : Trade) : TapeAnalyzer K × List (Tape.Signal K) :=
  let price : K := trade.price
  let sizeUsd : K := trade.size * price
  let minThreshold := max (a.calibratedMinSizeUsd a.cfg.flushMinSizeUsd) (stats.q99Size * price)
  let mid := a.lastPreTradeMid
  let deltaBps := |price - mid| / mid * 10000
  if minThreshold ≤ sizeUsd ∧ 0 < mid ∧ a.cfg.flushMinMoveBps ≤ deltaBps ∧
      (a.lastFlushTs = 0 ∨ a.cfg.flushCooldown ≤ trade.timestamp - a.lastFlushTs) then
    ({ a with lastFlushTs := trade.timestamp },
      [{ timestamp := trade.timestamp, ticker := a.ticker, price := price, confidence := 1
         payload := .flush sizeUsd deltaBps, triggerTraceId := traceId }])
  else (a, [])

/-- `on_book_update`, with the mid price of the book. -/
def onBookUpdate (mid : Option ℚ) : TapeAnalyzer K :=
  match mid with
  | some mid => { a with lastPreTradeMid := mid }
  | none => a

end TapeAnalyzer

end TradeBot
