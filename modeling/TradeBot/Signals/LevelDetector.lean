import Mathlib.Algebra.Order.Group.Abs
import TradeBot.Lib.BackwardSearch
import TradeBot.Signals.DensityDetector
import TradeBot.Utils.CircularBuffer
import TradeBot.Utils.Clustering

set_option autoImplicit false

/-! # LevelDetector

`signals/LevelDetector.{hpp,cpp}`: the turning points of the mid price, the levels that are made from
clusters of them every minute, and the approaches to a level and what comes of them.

What comes from other components is handed in with each call, as `Inputs`: the volatility, the
cluster snapshot and the kind of an approach. A frame rebuilds the levels once a minute has passed
and then looks at each level under its tick, one after the other (`checkLevel`). -/

namespace TradeBot

/-- What `update_extremes_` reads of `LevelDetector::Config`. -/
structure ExtremesConfig where
  minReversalBps : ℚ := 15
  extremeHalfWindows : List ℕ := [5, 25, 75]

/-- `Extreme`. -/
structure Extreme where
  price : ℚ
  ts : TimePoint
  isHigh : Bool
  deriving DecidableEq

/-- `mid_history_` and `extremes_`. -/
structure LevelExtremes where
  midHistory : CircularBuffer (TimePoint × ℚ) 4096 := ∅
  extremes : CircularBuffer Extreme 1024 := ∅

namespace LevelExtremes

variable (cfg : ExtremesConfig) (s : LevelExtremes)

/-- The middle of the last `2 * hw + 1` samples, if it is above or below all others of them, and by
    enough of its distance to the first or the last one. -/
def turningPoint? (hw : ℕ) (samples : List (TimePoint × ℚ)) : Option Extreme :=
  if samples.length < 2 * hw + 1 then none
  else
    let window := samples.rtake (2 * hw + 1)
    match window.drop hw with
    | [] => none
    | (ts, cur) :: after =>
        let others := window.take hw ++ after
        let isMax := others.all (fun sample => !decide (cur ≤ sample.2))
        let isMin := others.all (fun sample => !decide (sample.2 ≤ cur))
        let start := (window.head?.map Prod.snd).getD cur
        let stop := (window.getLast?.map Prod.snd).getD cur
        let magnitudeBps := max |cur - start| |cur - stop| / cur * 10000
        if (isMax || isMin) && decide (cfg.minReversalBps ≤ magnitudeBps) then some ⟨cur, ts, isMax⟩
        else none

/-- The body of the loop over the scales. -/
def recordAt (hw : ℕ) : LevelExtremes :=
  match turningPoint? cfg hw s.midHistory.entries with
  | none => s
  | some e =>
      if BackwardSearch.finds Extreme.ts e.ts s.extremes.entries then s
      else { s with extremes := s.extremes.pushBack e }

/-- The sample of a frame. -/
def sample (frame : FeatureFrame) : LevelExtremes :=
  { s with midHistory := s.midHistory.pushBack (frame.timestamp, frame.mid) }

/-- `update_extremes_`. -/
def updateExtremes (frame : FeatureFrame) : LevelExtremes :=
  cfg.extremeHalfWindows.foldl (recordAt cfg) (s.sample frame)

end LevelExtremes

/-! ## Levels -/

/-- `LevelDetector::Config`, without what no code reads. -/
structure LevelConfig extends ExtremesConfig where
  clusterToleranceBps : ℚ := 10
  touchesMin : ℕ := 2
  approachTriggerBps : ℚ := 10

/-- `ApproachAnalyzer::ApproachType`. -/
inductive ApproachType
  | impulse
  | slow
  | consolidation
  | unknown

/-- What is published for a type. -/
def ApproachType.text : ApproachType → String
  | .impulse => "impulse"
  | .slow => "slow"
  | .consolidation => "consolidation"
  | .unknown => "unknown"

/-- What the detector reads of `ApproachAnalyzer::Analysis`. -/
structure ApproachAnalysis where
  type : ApproachType
  speedBpsSec : ℚ

/-- A level that was made from a cluster. -/
structure Level where
  price : ℚ
  touches : ℤ
  kdeScore : ℚ
  lastTouch : TimePoint
  createdAt : TimePoint
  source : String
  confidence : ℚ
  deriving DecidableEq

/-- The price is near a level, since `startTs`. -/
structure ApproachState where
  levelPrice : ℚ
  startTs : TimePoint
  aboveLevel : Bool
  entryMid : ℚ
  deriving DecidableEq

/-- The levels of the last rebuild, and the approaches under their ticks. -/
structure LevelDetector extends LevelExtremes where
  ticker : Ticker
  cfg : LevelConfig := {}
  lastRebuild : TimePoint := 0
  activeLevels : List Level := []
  currentApproaches : ℤ → Option ApproachState := fun _ => none

namespace LevelDetector

/-- What a call reads besides its argument. -/
structure Inputs where
  traceId : TraceId := 0
  /-- `book_.mid()`. -/
  bookMid : Option ℚ := none
  /-- `Kde::estimate` at one price over the snapshot of the ticker, `0` without data. -/
  density : ℚ → ℚ := fun _ => 0
  /-- `analyzer_->analyze` at the time of the frame, for the price of a level. -/
  analyze : Option (ℚ → ApproachAnalysis) := none

/-- A cluster, with the density and the newest extreme at its centroid. -/
structure Pending where
  centroid : ℚ
  clusterSize : ℕ
  kdeVal : ℚ
  lastTs : TimePoint

variable (exp : ℚ → ℚ) (priceIncrement : ℚ) (d : LevelDetector) (inputs : Inputs)

/-- A signal of the detector, in the current trace. -/
def signal (kind : SignalKind) (now : TimePoint) (level : Level) (payload : SignalPayload) : Signal :=
  { kind := kind, timestamp := now, ticker := d.ticker, price := level.price,
    confidence := level.confidence, payload := payload, triggerTraceId := inputs.traceId }

/-! ### Rebuilding the levels -/

/-- The mid price of the book, or else that of the last frame. -/
def rebuildMid : ℚ :=
  let mid := inputs.bookMid.getD 0
  if mid = 0 then (d.midHistory.entries.getLast?.map Prod.snd).getD mid else mid

/-- `eps`, if there are levels to be made. -/
def tolerance? : Option ℚ :=
  if d.extremes.entries.length < d.cfg.touchesMin then none
  else
    let mid := d.rebuildMid inputs
    if mid = 0 then none else some (mid * (d.cfg.clusterToleranceBps / 10000))

/-- The clusters of the prices of the extremes. -/
def clusters (eps : ℚ) : List (List ℚ) :=
  Dbscan1D.cluster id (d.extremes.entries.map Extreme.price) eps d.cfg.touchesMin

/-- The mean of a cluster. -/
def centroid (c : List ℚ) : ℚ := c.sum / c.length

/-- The newest extreme from `lo` to `hi`. -/
def lastTouch (lo hi : ℚ) : TimePoint :=
  (d.extremes.entries.filter (fun e => decide (lo ≤ e.price ∧ e.price ≤ hi))).foldl
    (fun last e => max last e.ts) 0

/-- Pass 1 at one cluster. -/
def pend (eps : ℚ) (c : List ℚ) : Pending where
  centroid := centroid c
  clusterSize := c.length
  kdeVal := inputs.density (centroid c)
  lastTs := d.lastTouch (centroid c - eps) (centroid c + eps)

/-- Pass 2 at one cluster. -/
def makeLevel (now : TimePoint) (maxKde : ℚ) (p : Pending) : Level :=
  let ageMin : ℤ := (now - p.lastTs).tdiv 60000000000
  let recencyScore := exp (-ageMin / 60)
  let touchesScore := min 1 ((p.clusterSize : ℚ) / 5)
  let kdeScore := if 0 < maxKde then p.kdeVal / maxKde else 0
  { price := p.centroid
    touches := p.clusterSize
    kdeScore := kdeScore
    lastTouch := p.lastTs
    createdAt := now
    source := "extreme"
    confidence := 4 / 10 * touchesScore + 4 / 10 * kdeScore + 2 / 10 * recencyScore }

/-- `new_levels`. -/
def newLevels (now : TimePoint) (eps : ℚ) : List Level :=
  let pending := (d.clusters eps).map (d.pend inputs eps)
  let maxKde := pending.foldl (fun m p => max m p.kdeVal) 0
  pending.map (makeLevel exp now maxKde)

/-- Both prices are within the tolerance. -/
def near (eps p q : ℚ) : Bool := decide (|p - q| < eps)

/-- The `LevelFormed` signals, for the levels that were not there before. -/
def formedSignals (now : TimePoint) (eps : ℚ) (levels : List Level) : List Signal :=
  (levels.filter (fun nl => !d.activeLevels.any (fun ol => near eps nl.price ol.price))).map
    (fun nl => d.signal inputs .levelFormed now nl { touches := nl.touches })

/-- The approaches to levels that are still there. -/
def prune (eps : ℚ) (levels : List Level) (tick : ℤ) : Option ApproachState :=
  (d.currentApproaches tick).filter (fun st => levels.any (fun lv => near eps lv.price st.levelPrice))

/-- `rebuild_levels_`. -/
def rebuildLevels (now : TimePoint) : LevelDetector × List Signal :=
  match d.tolerance? inputs with
  | none => (d, [])
  | some eps =>
      let levels := d.newLevels exp inputs now eps
      ({ d with activeLevels := levels, currentApproaches := d.prune eps levels },
        d.formedSignals inputs now eps levels)

/-! ### Approaches -/

/-- How far the price is above a level. -/
def distBps (mid price : ℚ) : ℚ := (mid - price) / mid * 10000

/-- The mid price is in the approach zone of a level. -/
def inZone (mid : ℚ) (level : Level) : Bool :=
  decide (|distBps mid level.price| ≤ d.cfg.approachTriggerBps)

/-- What is published when a level is approached. -/
def approachPayload (frame : FeatureFrame) (level : Level) : SignalPayload :=
  let payload : SignalPayload :=
    { distBps := distBps frame.mid level.price
      touches := level.touches
      ageMs := (ageMs frame.timestamp level.createdAt).bmod (2 ^ 32) }
  match inputs.analyze with
  | none => payload
  | some analyze =>
      { payload with
        speedBps := (analyze level.price).speedBpsSec
        approachType := (analyze level.price).type.text }

/-- The loop over the levels at one of them, with the approach that is kept under its tick. -/
def turn (frame : FeatureFrame) (level : Level) (state : Option ApproachState) :
    Option ApproachState × List Signal :=
  if d.inZone frame.mid level then
    match state with
    | some st => (some st, [])
    | none =>
        (some
          { levelPrice := level.price
            startTs := frame.timestamp
            aboveLevel := decide (level.price < frame.mid)
            entryMid := frame.mid },
          [d.signal inputs .levelApproach frame.timestamp level (approachPayload inputs frame level)])
  else
    match state with
    | none => (none, [])
    | some st =>
        -- back to the side that it came from, or through to the other one
        let kind : SignalKind :=
          if decide (st.levelPrice < frame.mid) = st.aboveLevel then .levelRejection else .levelBreak
        (none,
          [d.signal inputs kind frame.timestamp level
            { distBps := distBps frame.mid level.price, touches := level.touches }])

/-- The body of the loop over the levels. -/
def checkLevel (frame : FeatureFrame) (r : LevelDetector × List Signal) (level : Level) :
    LevelDetector × List Signal :=
  let tick := priceTickOf level.price priceIncrement
  let (state, signals) := r.1.turn inputs frame level (r.1.currentApproaches tick)
  ({ r.1 with currentApproaches := Function.update r.1.currentApproaches tick state },
    r.2 ++ signals)

/-- `check_approaches_`, after what was published before. -/
def checkApproaches (frame : FeatureFrame) (r : LevelDetector × List Signal) :
    LevelDetector × List Signal :=
  if frame.mid ≤ 0 then r
  else r.1.activeLevels.foldl (checkLevel priceIncrement inputs frame) r

/-! ### Frames -/

/-- `update_extremes_`. -/
def observe (frame : FeatureFrame) : LevelDetector :=
  { d with toLevelExtremes := d.updateExtremes d.cfg.toExtremesConfig frame }

/-- "Rebuild levels every minute". -/
def refresh (frame : FeatureFrame) : LevelDetector × List Signal :=
  if 60000000000 ≤ frame.timestamp - d.lastRebuild then
    let r := d.rebuildLevels exp inputs frame.timestamp
    ({ r.1 with lastRebuild := frame.timestamp }, r.2)
  else (d, [])

/-- `on_frame`. -/
def onFrame (frame : FeatureFrame) : LevelDetector × List Signal :=
  if frame.ticker ≠ d.ticker ∨ frame.valid = false then (d, [])
  else checkApproaches priceIncrement inputs frame ((d.observe frame).refresh exp inputs frame)

end LevelDetector

end TradeBot
