import TradeBot.Strategy.BounceFromDensity
import TradeBot.Strategy.BreakoutEatThrough
import TradeBot.Strategy.EngineSteps
import TradeBot.Strategy.FlushReversal
import TradeBot.Strategy.LeaderLag

set_option autoImplicit false

/-! # The strategies of the engine

The three strategies that plan on signals, each by its playbook, and LeaderLag.

The engine calls its strategies through the interface of the source, which is the class `IStrategy`.
The methods of a strategy are those of its playbook or of LeaderLag, so a result about playbooks
covers three strategies at once. -/

namespace TradeBot

/-- A strategy of the engine. -/
inductive AnyStrategy
  | eventDriven (book : Playbook) (base : StrategyBase)
  | leaderLag (l : LeaderLag)

namespace AnyStrategy

/-- What all strategies have. -/
def base : AnyStrategy → StrategyBase
  | eventDriven _ base => base
  | leaderLag l => l.toStrategyBase

/-- Change what the strategies share. -/
def mapBase (f : StrategyBase → StrategyBase) : AnyStrategy → AnyStrategy
  | eventDriven book base => eventDriven book (f base)
  | leaderLag l => leaderLag { l with toStrategyBase := f l.toStrategyBase }

/-- The name under which a strategy plans. -/
def name : AnyStrategy → String
  | eventDriven book _ => book.name
  | leaderLag _ => "LeaderLag"

/-- A new frame. -/
def onFrame (frame : FeatureFrame) : AnyStrategy → AnyStrategy
  | eventDriven book base => eventDriven book (base.onFrame frame)
  | leaderLag l => leaderLag (l.onFrame frame)

/-- A new signal, on which LeaderLag never plans. -/
def onSignal (signal : Signal) (now : TimePoint) : AnyStrategy → AnyStrategy × Option StrategyPlan
  | eventDriven book base => (book.onSignal signal now base).map (eventDriven book) id
  | leaderLag l => (leaderLag (l.onSignal signal), none)

/-- Time passes: a plan may expire, and only LeaderLag makes one. -/
def tick (now : TimePoint) : AnyStrategy → AnyStrategy × Option StrategyPlan
  | eventDriven book base => (eventDriven book (base.expirePlan now), none)
  | leaderLag l => (l.tick now).map leaderLag id

/-- Whether the trade is to be closed, and for what reason. -/
def checkCloseConditions (now : TimePoint) (frame : FeatureFrame) :
    AnyStrategy → AnyStrategy × Option String
  | eventDriven book base => (book.checkCloseConditions now base).map (eventDriven book) id
  | leaderLag l =>
      (l.checkClose (LeaderLag.closeRule frame)).map
        (fun base => leaderLag { l with toStrategyBase := base }) id

/-- Smaller numbers come first. -/
def priority : AnyStrategy → ℤ
  | eventDriven book _ => book.priority
  | leaderLag _ => 1

instance : IStrategy AnyStrategy where
  name := name
  ticker s := s.base.ticker
  onFrame := onFrame
  onSignal := onSignal
  tick := tick
  hasActivePlan s := s.base.activePlan.isSome
  resetActivePlan := mapBase StrategyBase.resetActivePlan
  onPlanAccepted plan s := s.mapBase (fun base => base.onPlanAccepted s.name plan)
  checkCloseConditions := checkCloseConditions
  priority := priority

/-! ## Contexts -/

theorem mapBase_base (f : StrategyBase → StrategyBase) (s : AnyStrategy) :
    (s.mapBase f).base = f s.base := by
  cases s <;> rfl

theorem base_onFrame (frame : FeatureFrame) (s : AnyStrategy) :
    (s.onFrame frame).base = s.base.onFrame frame := by
  cases s <;> rfl

theorem onSignal_ctx (signal : Signal) (now : TimePoint) (s : AnyStrategy) :
    (s.onSignal signal now).1.base.ctx = s.base.ctx ∨
      (s.onSignal signal now).1.base.ctx = s.base.ctx.updateSignal signal := by
  cases s with
  | eventDriven book base => exact (book.onSignal_fst signal now base).2
  | leaderLag l =>
      by_cases h : signal.ticker = l.ticker
      · exact Or.inr (by simp only [onSignal, LeaderLag.onSignal, if_pos h]; rfl)
      · exact Or.inl (by simp only [onSignal, LeaderLag.onSignal, if_neg h])

theorem expirePlan_ctx (now : TimePoint) (s : StrategyBase) : (s.expirePlan now).ctx = s.ctx := by
  unfold StrategyBase.expirePlan
  split <;> rfl

theorem tick_ctx (now : TimePoint) (s : AnyStrategy) : (s.tick now).1.base.ctx = s.base.ctx := by
  cases s with
  | eventDriven book base => exact expirePlan_ctx now base
  | leaderLag l =>
      simp only [tick, LeaderLag.tick]
      split
      · rfl
      · split <;> rfl

theorem onPlanAccepted_ctx (name : String) (plan : StrategyPlan) (s : StrategyBase) :
    (s.onPlanAccepted name plan).ctx = s.ctx := by
  unfold StrategyBase.onPlanAccepted
  split <;> rfl

theorem checkCloseConditions_ctx (now : TimePoint) (frame : FeatureFrame) (s : AnyStrategy) :
    (s.checkCloseConditions now frame).1.base.ctx = s.base.ctx := by
  cases s with
  | eventDriven book base => exact (base.checkClose_fst _).1
  | leaderLag l => exact (l.toStrategyBase.checkClose_fst _).1

/-- What frames and signals do to a context, the engine does to the contexts of all strategies. -/
theorem methods_of_ctx {frames : FeatureFrame → Prop} {signals : Signal → Prop}
    {Q : StrategyContext → StrategyContext → Prop} (hrefl : ∀ c, Q c c)
    (htrans : ∀ c c' c'', Q c c' → Q c' c'' → Q c c'')
    (hframe : ∀ frame c, frames frame → Q c (c.updateFrame frame))
    (hsignal : ∀ signal c, signals signal → Q c (c.updateSignal signal)) :
    StrategyEngine.Methods frames signals
      (fun s s' : AnyStrategy => Q s.base.ctx s'.base.ctx) where
  refl s := hrefl _
  trans _ _ _ := htrans _ _ _
  onFrame frame s hf := by
    have hbase : (IStrategy.onFrame frame s).base = s.base.onFrame frame := base_onFrame frame s
    rw [hbase, StrategyBase.onFrame]
    split
    · exact hframe frame _ hf
    · exact hrefl _
  onSignal signal now s hs := by
    rcases onSignal_ctx signal now s with h | h
    · exact h ▸ hrefl _
    · exact h ▸ hsignal signal _ hs
  tick now s := (tick_ctx now s) ▸ hrefl _
  resetActivePlan s := by
    have hbase := mapBase_base StrategyBase.resetActivePlan s
    exact (congrArg StrategyBase.ctx hbase) ▸ hrefl _
  onPlanAccepted plan s := by
    have hbase := mapBase_base (fun base => base.onPlanAccepted s.name plan) s
    exact ((congrArg StrategyBase.ctx hbase).trans (onPlanAccepted_ctx _ _ _)) ▸ hrefl _
  checkCloseConditions now frame s := (checkCloseConditions_ctx now frame s) ▸ hrefl _

end AnyStrategy

end TradeBot
