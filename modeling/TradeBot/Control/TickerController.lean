import TradeBot.Domain.Signals

set_option autoImplicit false

/-! # TickerController

`control/TickerController.hpp`, over any book, trade stream, feature extraction and detectors of a
ticker. What the detectors publish in a call is returned as a list: they do not see what the
subscribers of the bus do with it. The histories for the dashboard are left out.

The book and the detectors are a type `δ` of class `Detection`, so that the models of single
detectors plug in below, and the pipeline and the strategies above. -/

namespace TradeBot

/-- The signal carries the id of the event that is being processed, or none. -/
def Signal.TracedBy (traceId : TraceId) (s : Signal) : Prop :=
  s.triggerTraceId = traceId ∨ s.triggerTraceId = 0

/-- The market data of one ticker and what looks at it, with the trace id of the calling thread. -/
class Detection (δ : Type) where
  onBookUpdate : TraceId → OrderBookUpdate → δ → δ × List Signal
  onTrade : TraceId → Trade → δ → δ × List Signal
  /-- `stream->update`. -/
  updateStream : TimePoint → δ → δ
  extract : TraceId → TimePoint → δ → δ × FeatureFrame
  onFrame : TraceId → FeatureFrame → δ → δ × List Signal
  /-- `leader_detector->on_leader_frame`. -/
  onLeaderFrame : FeatureFrame → δ → δ
  /-- `leader_tracker->update`. -/
  updateLeader : ℚ → ℚ → δ → δ
  extract_timestamp : ∀ traceId now d, (extract traceId now d).2.timestamp = now
  onBookUpdate_traced : ∀ traceId upd d, ∀ s ∈ (onBookUpdate traceId upd d).2, s.TracedBy traceId
  onTrade_traced : ∀ traceId trade d, ∀ s ∈ (onTrade traceId trade d).2, s.TracedBy traceId
  onFrame_traced : ∀ traceId frame d, ∀ s ∈ (onFrame traceId frame d).2, s.TracedBy traceId

/-- What a controller keeps beside the book and the detectors. -/
structure TickerController (δ : Type) where
  detection : δ
  /-- `dirty_flags_ != 0`. -/
  dirty : Bool := true
  lastFrame : FeatureFrame := {}
  lastLeaderFrame : FeatureFrame := {}
  lastExtract : TimePoint := 0

namespace TickerController

variable {δ : Type} [Detection δ]

/-- `on_orderbook_update`. -/
def onBookUpdate (traceId : TraceId) (upd : OrderBookUpdate) (ctrl : TickerController δ) :
    TickerController δ × List Signal :=
  let (d, signals) := Detection.onBookUpdate traceId upd ctrl.detection
  ({ ctrl with detection := d, dirty := true }, signals)

/-- `on_trade`. -/
def onTrade (traceId : TraceId) (trade : Trade) (ctrl : TickerController δ) :
    TickerController δ × List Signal :=
  let (d, signals) := Detection.onTrade traceId trade ctrl.detection
  ({ ctrl with detection := d, dirty := true }, signals)

/-- `on_leader_frame`: the frame is kept, and compared with the last one of the ticker. -/
def onLeaderFrame (frame : FeatureFrame) (ctrl : TickerController δ) : TickerController δ :=
  let d := Detection.onLeaderFrame frame ctrl.detection
  { ctrl with
    lastLeaderFrame := frame
    detection :=
      if 0 < ctrl.lastFrame.mid ∧ 0 < frame.mid then
        Detection.updateLeader frame.mid ctrl.lastFrame.mid d
      else d }

/-- A frame gets the leader's changes, if there has been a frame of the leader. -/
def withLeader (leader frame : FeatureFrame) : FeatureFrame :=
  if 0 < leader.mid then
    { frame with
      leaderChange1s := leader.priceChange1s
      leaderChange5s := leader.priceChange5s }
  else frame

/-- The frame, and the signals that are published while it is produced. Without new data a frame is
    only extracted when the last one is older than half a second. -/
def tick (traceId : TraceId) (now : TimePoint) (ctrl : TickerController δ) :
    TickerController δ × FeatureFrame × List Signal :=
  let d := Detection.updateStream now ctrl.detection
  if !ctrl.dirty ∧ ¬ 500000000 < now - ctrl.lastExtract then
    ({ ctrl with detection := d }, ctrl.lastFrame, [])
  else
    let (d, extracted) := Detection.extract traceId now d
    let frame := withLeader ctrl.lastLeaderFrame extracted
    let (d, signals) := Detection.onFrame traceId frame d
    ({ ctrl with detection := d, dirty := false, lastFrame := frame, lastExtract := now },
      frame, signals)

theorem withLeader_timestamp (leader frame : FeatureFrame) :
    (withLeader leader frame).timestamp = frame.timestamp := by
  unfold withLeader
  split <;> rfl

/-- Signals are published with the trace id of the tick, and for a frame of the time of the tick. -/
theorem tick_signals (traceId : TraceId) (now : TimePoint) (ctrl : TickerController δ) :
    ∀ s ∈ (ctrl.tick traceId now).2.2,
      s.TracedBy traceId ∧ (ctrl.tick traceId now).2.1.timestamp = now := by
  intro s hs
  unfold tick at hs ⊢
  dsimp only at hs ⊢
  split at hs
  · exact absurd hs List.not_mem_nil
  · next hfresh =>
      rw [if_neg hfresh]
      exact ⟨Detection.onFrame_traced traceId _ _ s hs,
        (withLeader_timestamp _ _).trans (Detection.extract_timestamp traceId now _)⟩

end TickerController

end TradeBot
