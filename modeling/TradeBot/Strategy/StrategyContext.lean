import Mathlib.Logic.Function.Basic
import TradeBot.Domain.Signals
import TradeBot.Utils.Numeric

set_option autoImplicit false

/-! # StrategyContext

`strategy/StrategyContext.hpp`, and what the four strategies have in common: a ticker, a context, the
universe their thresholds may come from, a pending plan and the plan of the trade they monitor. Their
reject reasons and dashboard states are left out.

Three of them plan as soon as a signal of one kind arrives and look at signals again to close a
trade; what they do not share is a `Playbook`. -/

namespace TradeBot

/-- What a strategy has seen of its ticker. -/
structure StrategyContext where
  lastFrame : FeatureFrame := {}
  /-- The last signal of each kind. -/
  recentSignals : SignalKind → Option Signal := fun _ => none
  signalHistory : List Signal := []
  /-- Where the part of the history that is less than 180 seconds old begins. -/
  historyHeadOffset : ℕ := 0
  /-- The ring of frames, newest first. -/
  frameHistory : List FeatureFrame := []

/-- `std::chrono::seconds`. -/
def seconds (n : ℤ) : TimePoint := n * nsPerSec

namespace StrategyContext

/-- How many frames are kept. -/
def kFrameHistorySize : ℕ := 16

/-- The hard cap of the signal history. -/
def kMaxHistorySize : ℕ := 1024

/-- The newest frame comes first. -/
def updateFrame (frame : FeatureFrame) (ctx : StrategyContext) : StrategyContext :=
  { ctx with
    lastFrame := frame
    frameHistory := (frame :: ctx.frameHistory).take kFrameHistorySize }

/-- The frame that a signal was derived from, if it is still kept. -/
def getFrameByTraceId (traceId : TraceId) (ctx : StrategyContext) : Option FeatureFrame :=
  ctx.frameHistory.find? (fun frame => decide (frame.derivedFrom = traceId))

/-- The physical compaction: the head has left more than 32 entries and half of the history behind. -/
def compact (history : List Signal) (head : ℕ) : List Signal × ℕ :=
  if 32 < head ∧ history.length / 2 < head then (history.drop head, 0) else (history, head)

/-- The hard cap. -/
def cap (history : List Signal) (head : ℕ) : List Signal × ℕ :=
  if kMaxHistorySize < history.length then
    (history.drop (history.length - kMaxHistorySize / 2), 0)
  else (history, head)

/-- A signal is appended, the head moves past what is 180 seconds older, and the history is compacted
    and capped. -/
def updateSignal (signal : Signal) (ctx : StrategyContext) : StrategyContext :=
  let history := ctx.signalHistory ++ [signal]
  let cutoff := signal.timestamp - seconds 180
  let head := ctx.historyHeadOffset +
    ((history.drop ctx.historyHeadOffset).takeWhile (fun s => decide (s.timestamp ≤ cutoff))).length
  let (history, head) := compact history head
  let (history, head) := cap history head
  { ctx with
    recentSignals := Function.update ctx.recentSignals signal.kind (some signal)
    signalHistory := history
    historyHeadOffset := head }

/-- The part of the history behind the head offset. -/
def kept (ctx : StrategyContext) : List Signal := ctx.signalHistory.drop ctx.historyHeadOffset

/-- How many of the kept signals are younger than a window. -/
def recentSignalCountLocked (ctx : StrategyContext) (now : TimePoint) (window : ℤ) : ℕ :=
  ctx.kept.countP fun s => decide (now - seconds window ≤ s.timestamp)

/-- A signal that the context holds. -/
def Received (ctx : StrategyContext) (s : Signal) : Prop :=
  (∃ kind, ctx.recentSignals kind = some s) ∨ s ∈ ctx.signalHistory

/-- The last signal of a kind, if it is no older than `maxAge`. -/
def recent? (ctx : StrategyContext) (kind : SignalKind) (maxAge now : TimePoint) : Option Signal :=
  (ctx.recentSignals kind).filter (fun s => decide (now - s.timestamp ≤ maxAge))

/-! ## Lemmas -/

theorem compact_sublist (history : List Signal) (head : ℕ) :
    (compact history head).1.Sublist history := by
  unfold compact
  split
  · exact List.drop_sublist _ _
  · exact List.Sublist.refl _

theorem cap_sublist (history : List Signal) (head : ℕ) : (cap history head).1.Sublist history := by
  by_cases h : kMaxHistorySize < history.length
  · simp only [cap, if_pos h, List.drop_sublist]
  · rw [cap, if_neg h]

/-- The history only ever loses signals, apart from the new one. -/
theorem mem_updateSignal {signal s : Signal} {ctx : StrategyContext}
    (h : s ∈ (ctx.updateSignal signal).signalHistory) : s ∈ ctx.signalHistory ∨ s = signal := by
  have hin := (compact_sublist _ _).subset ((cap_sublist _ _).subset h)
  exact (List.mem_append.1 hin).imp_right List.mem_singleton.1

theorem updateSignal_recent (signal : Signal) (ctx : StrategyContext) (kind : SignalKind) :
    (ctx.updateSignal signal).recentSignals kind
      = if kind = signal.kind then some signal else ctx.recentSignals kind := by
  by_cases h : kind = signal.kind
  · rw [if_pos h, h]
    exact Function.update_self ..
  · rw [if_neg h]
    exact Function.update_of_ne h ..

theorem recent?_eq_some {ctx : StrategyContext} {kind : SignalKind} {maxAge now : TimePoint}
    {s : Signal} :
    ctx.recent? kind maxAge now = some s ↔
      ctx.recentSignals kind = some s ∧ now - s.timestamp ≤ maxAge := by
  rw [recent?, Option.filter_eq_some_iff, decide_eq_true_eq]

theorem received_of_mem_recent? {ctx : StrategyContext} {kind : SignalKind} {maxAge now : TimePoint}
    {s : Signal} (h : s ∈ ctx.recent? kind maxAge now) : ctx.Received s :=
  Or.inl ⟨kind, (recent?_eq_some.1 h).1⟩

theorem received_updateSignal {ctx : StrategyContext} {signal s : Signal}
    (h : (ctx.updateSignal signal).Received s) : ctx.Received s ∨ s = signal := by
  rcases h with ⟨kind, hkind⟩ | hmem
  · rw [updateSignal_recent] at hkind
    by_cases hk : kind = signal.kind
    · rw [if_pos hk] at hkind
      exact Or.inr (Option.some.inj hkind).symm
    · rw [if_neg hk] at hkind
      exact Or.inl (Or.inl ⟨kind, hkind⟩)
  · exact (mem_updateSignal hmem).imp_left Or.inr

end StrategyContext

/-- `std::abs(price - reference) / reference * kBpsBase <= limit`, which is false for a reference of
    zero. -/
def withinBps (price reference limit : ℚ) : Bool :=
  decide (reference ≠ 0) && decide (|price - reference| / reference * kBpsBase ≤ limit)

/-! ## What the strategies share -/

/-- The state that the four strategies have in common. -/
structure StrategyBase where
  ticker : Ticker
  priceIncrement : ℚ := 0
  ctx : StrategyContext := {}
  /-- `universe_->get_tiered_threshold(ticker_, ·)`, if there is a universe. -/
  tieredThreshold : Option (List ℚ → ℚ) := none
  activePlan : Option StrategyPlan := none
  activeTradeInfo : Option StrategyPlan := none

namespace StrategyBase

variable (s : StrategyBase)

/-- `universe_ ? universe_->get_tiered_threshold(ticker_, tiers) : flat`. -/
def threshold (tiers : List ℚ) (flat : ℚ) : ℚ :=
  match s.tieredThreshold with
  | some tiered => tiered tiers
  | none => flat

/-- Frames of other tickers are passed over. -/
def onFrame (frame : FeatureFrame) : StrategyBase :=
  if frame.ticker = s.ticker then { s with ctx := s.ctx.updateFrame frame } else s

/-- The context part of `on_signal`. -/
def notice (signal : Signal) : StrategyBase := { s with ctx := s.ctx.updateSignal signal }

/-- The frame a plan takes with it. -/
def frameAtEntry (traceId : TraceId) : FeatureFrame :=
  if traceId ≠ 0 then (s.ctx.getFrameByTraceId traceId).getD s.ctx.lastFrame else s.ctx.lastFrame

/-- The trace id and the frame of a plan are those of its last evidence. -/
def traced (plan : StrategyPlan) : StrategyPlan :=
  let traceId := (plan.evidence.getLast?.map Signal.triggerTraceId).getD 0
  { plan with traceId := traceId, frameAtEntry := s.frameAtEntry traceId }

/-- The plan is one of a strategy in state `s`: made from signals it has received, and traced. -/
structure Documents (plan : StrategyPlan) : Prop where
  received : ∀ e ∈ plan.evidence, s.ctx.Received e
  traced : s.traced plan = plan

/-- The TTL check for pending plans. -/
def expirePlan (now : TimePoint) : StrategyBase :=
  if s.activePlan.any (fun plan => decide (plan.validUntil < now)) then { s with activePlan := none }
  else s

/-- The trade of an accepted plan of this name is monitored from now on. -/
def onPlanAccepted (name : String) (plan : StrategyPlan) : StrategyBase :=
  if plan.strategyName = name then { s with activeTradeInfo := some plan } else s

/-- The pending plan and the monitored trade are forgotten. -/
def resetActivePlan : StrategyBase := { s with activePlan := none, activeTradeInfo := none }

/-- The first of a strategy's close rules that fires for the monitored trade ends the monitoring. -/
def checkClose (rule : StrategyPlan → Option String) : StrategyBase × Option String :=
  match s.activeTradeInfo with
  | none => (s, none)
  | some plan =>
      match rule plan with
      | some reason => ({ s with activeTradeInfo := none }, some reason)
      | none => (s, none)

/-- A check keeps the trade or ends it. -/
theorem checkClose_fst (rule : StrategyPlan → Option String) :
    (s.checkClose rule).1.ctx = s.ctx ∧
      ∀ plan ∈ (s.checkClose rule).1.activeTradeInfo, plan ∈ s.activeTradeInfo := by
  unfold StrategyBase.checkClose
  cases htrade : s.activeTradeInfo with
  | none => exact ⟨rfl, fun plan h => by rw [htrade] at h; exact h⟩
  | some plan =>
      cases hrule : rule plan with
      | none => exact ⟨by simp [hrule], fun p h => by simpa [hrule, htrade] using h⟩
      | some reason => exact ⟨by simp [hrule], fun p h => by simp [hrule] at h⟩

variable {s}

theorem documents_traced {plan : StrategyPlan} (h : ∀ e ∈ plan.evidence, s.ctx.Received e) :
    s.Documents (s.traced plan) :=
  ⟨h, rfl⟩

/-- What holds of the results of a computation that may fail, step by step. -/
theorem forall_mem_bind {α β : Type} {P : β → Prop} {o : Option α} {f : α → Option β}
    (h : ∀ a ∈ o, ∀ b ∈ f a, P b) : ∀ b ∈ o >>= f, P b := by
  intro b hb
  obtain ⟨a, ha, hab⟩ := Option.bind_eq_some_iff.1 hb
  exact h a ha b hab

end StrategyBase

/-! ## Strategies that plan on a signal -/

/-- `(side == Buy && text == buy) || (side == Sell && text == sell)`. -/
def Side.isText (side : Side) (text buy sell : String) : Bool :=
  (decide (side = .buy) && decide (text = buy)) || (decide (side = .sell) && decide (text = sell))

/-- A block of `check_close_conditions`: a signal of its kind that is in its window and counts against
    the plan closes the trade. -/
structure ExitRule where
  reason : String
  kind : SignalKind
  /-- It scans the history, from the newest signal to the first that is too old. -/
  scans : Bool := false
  window : StrategyPlan → TimePoint
  counts : StrategyPlan → Signal → Bool

namespace ExitRule

variable (rule : ExitRule)

/-- The signals a block looks at, newest first. -/
def candidates (ctx : StrategyContext) : List Signal :=
  if rule.scans then ctx.signalHistory.reverse.filter (fun s => decide (s.kind = rule.kind))
  else (ctx.recentSignals rule.kind).toList

/-- The signal that closes the trade. -/
def evidence? (now : TimePoint) (ctx : StrategyContext) (plan : StrategyPlan) : Option Signal :=
  ((rule.candidates ctx).takeWhile
    (fun s => decide (now - s.timestamp ≤ rule.window plan))).find? (rule.counts plan)

end ExitRule

/-- What BounceFromDensity, BreakoutEatThrough and FlushReversal do not share. -/
structure Playbook where
  name : String
  priority : ℤ
  /-- The kind of signal it plans on. -/
  trigger : SignalKind
  /-- It makes no plan while it monitors a trade. -/
  oneTrade : Bool
  /-- The entry conditions, and the plan where they are met. -/
  plan? : TimePoint → StrategyBase → Option StrategyPlan
  exits : List ExitRule
  documents : ∀ now s, ∀ plan ∈ plan? now s, s.Documents plan

namespace Playbook

variable (book : Playbook)

/-- A plan or a trade that keeps it from planning. -/
def blocked (s : StrategyBase) : Bool :=
  s.activePlan.isSome || (book.oneTrade && s.activeTradeInfo.isSome)

/-- A signal of the ticker is taken note of; one of the trigger is planned on, unless the strategy is
    blocked. -/
def onSignal (signal : Signal) (now : TimePoint) (s : StrategyBase) :
    StrategyBase × Option StrategyPlan :=
  if signal.ticker ≠ s.ticker then (s, none)
  else if signal.kind ≠ book.trigger ∨ book.blocked s then (s.notice signal, none)
  else
    match book.plan? now (s.notice signal) with
    | some plan => ({ s.notice signal with activePlan := some plan }, some plan)
    | none => (s.notice signal, none)

/-- The signal that closes the trade of a plan, and the reason. -/
def exit? (now : TimePoint) (ctx : StrategyContext) (plan : StrategyPlan) :
    Option (String × Signal) :=
  book.exits.findSome? (fun rule => (rule.evidence? now ctx plan).map (fun s => (rule.reason, s)))

/-- The exit rules in their order; the first that applies ends the trade. -/
def checkCloseConditions (now : TimePoint) (s : StrategyBase) : StrategyBase × Option String :=
  s.checkClose (fun plan => (book.exit? now s.ctx plan).map Prod.fst)

theorem onSignal_snd {signal : Signal} {now : TimePoint} {s : StrategyBase} {plan : StrategyPlan}
    (h : (book.onSignal signal now s).2 = some plan) :
    book.plan? now (s.notice signal) = some plan := by
  unfold onSignal at h
  split at h
  · exact absurd h (by simp)
  · split at h
    · exact absurd h (by simp)
    · cases hplan : book.plan? now (s.notice signal) with
      | none => exact absurd h (by simp [hplan])
      | some plan' => simpa [hplan] using h

theorem kind_of_onSignal {signal : Signal} {now : TimePoint} {s : StrategyBase} {plan : StrategyPlan}
    (h : (book.onSignal signal now s).2 = some plan) : signal.kind = book.trigger := by
  unfold onSignal at h
  split at h
  · exact absurd h (by simp)
  · split at h
    · exact absurd h (by simp)
    · next hkind => exact not_not.1 (not_or.1 hkind).1

/-- The signal a plan is made on is the latest of its kind. -/
theorem recentSignals_of_onSignal {signal : Signal} {now : TimePoint} {s : StrategyBase}
    {plan : StrategyPlan} (h : (book.onSignal signal now s).2 = some plan) :
    (s.notice signal).ctx.recentSignals book.trigger = some signal := by
  rw [StrategyBase.notice, StrategyContext.updateSignal_recent, if_pos (book.kind_of_onSignal h).symm]

/-- What a signal does to the strategy's trade and context. -/
theorem onSignal_fst (signal : Signal) (now : TimePoint) (s : StrategyBase) :
    (book.onSignal signal now s).1.activeTradeInfo = s.activeTradeInfo ∧
      ((book.onSignal signal now s).1.ctx = s.ctx ∨
        (book.onSignal signal now s).1.ctx = s.ctx.updateSignal signal) := by
  unfold Playbook.onSignal
  split
  · exact ⟨rfl, Or.inl rfl⟩
  · split
    · exact ⟨rfl, Or.inr rfl⟩
    · cases book.plan? now (s.notice signal) with
      | none => exact ⟨rfl, Or.inr rfl⟩
      | some plan => exact ⟨rfl, Or.inr rfl⟩

end Playbook

end TradeBot
