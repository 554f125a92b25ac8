import Mathlib.Data.List.AList
import Mathlib.Data.Rat.Defs
import Mathlib.Data.String.Basic
import TradeBot.Domain.Signals
import TradeBot.Lib.BucketMap

set_option autoImplicit false

/-! # StrategyEngine

`strategy/StrategyEngine.{hpp,cpp}` over any strategies with the interface of `strategy/IStrategy.hpp`.
A registered strategy is an object at an address; the engine's lists hold addresses, as the plans it
collects do.

The callbacks are the engine's parameters. What `on_plan_` does with a plan is given by a gate on the
state of the world outside the engine: it accepts the plan, perhaps changed, and notifies the engine,
or has the engine reset the strategy's plan. `offers` and `closeRequests`, what was handed to the
callbacks, are not in the source. -/

namespace TradeBot

/-- `IStrategy`, for strategies with states in `σ`. Times are what the clock shows during the call. -/
class IStrategy (σ : Type) where
  name : σ → String
  ticker : σ → Ticker
  onFrame : FeatureFrame → σ → σ
  onSignal : Signal → TimePoint → σ → σ × Option StrategyPlan
  tick : TimePoint → σ → σ × Option StrategyPlan
  hasActivePlan : σ → Bool
  resetActivePlan : σ → σ
  onPlanAccepted : StrategyPlan → σ → σ
  checkCloseConditions : TimePoint → FeatureFrame → σ → σ × Option String
  priority : σ → ℤ

/-- How the market of a ticker behaves. -/
inductive MarketRegime
  | unknown
  | trend
  | range
  | news
  deriving DecidableEq, Repr

/-- The address of a strategy. -/
abbrev Address := ℕ

/-- A plan handed to `on_plan_`, with the strategy it came from and its ticker's regime at that moment. -/
structure Offer where
  plan : StrategyPlan
  strategy : Address
  regime : MarketRegime
  accepted : Bool

/-- The registered strategies, and the regime of each ticker. -/
structure StrategyEngine (σ : Type) where
  objects : Address → Option σ := fun _ => none
  tickerStrategies : BucketMap Ticker Address := []
  globalStrategies : List Address := []
  regimes : AList (fun _ : Ticker => MarketRegime) := ∅
  /-- The address the next strategy gets. -/
  nextAddress : Address := 0
  offers : List Offer := []
  closeRequests : List (Ticker × String) := []

/-- What `on_plan_` decides about a plan: `none` if it is rejected, else the plan that was submitted. -/
abbrev Gate (ω : Type) := StrategyPlan → ω → ω × Option StrategyPlan

/-- `PlanWithPriority`. -/
structure PlanWithPriority where
  priority : ℤ
  plan : StrategyPlan
  strategy : Address
  deriving DecidableEq

/-- `std::sort` by priority, which may put plans of one priority in any order. -/
structure PlanSort where
  sort : List PlanWithPriority → List PlanWithPriority
  perm : ∀ plans, (sort plans).Perm plans
  sorted : ∀ plans, (sort plans).Pairwise (fun a b => a.priority ≤ b.priority)

namespace StrategyEngine

variable {σ ω : Type} [IStrategy σ]

/-! ## Objects -/

/-- Replace the object at an address. -/
def store (address : Address) (s : σ) (eng : StrategyEngine σ) : StrategyEngine σ :=
  { eng with objects := Function.update eng.objects address (some s) }

/-- Change the object at an address. -/
def modify (address : Address) (f : σ → σ) (eng : StrategyEngine σ) : StrategyEngine σ :=
  match eng.objects address with
  | some s => eng.store address (f s)
  | none => eng

/-- Call a method that changes the object and returns something. -/
def call {α : Type} (address : Address) (f : σ → σ × Option α) (eng : StrategyEngine σ) :
    StrategyEngine σ × Option α :=
  match eng.objects address with
  | some s => (eng.store address (f s).1, (f s).2)
  | none => (eng, none)

/-- The strategies registered for a ticker. -/
def strategiesOf (ticker : Ticker) (eng : StrategyEngine σ) : List Address :=
  (eng.tickerStrategies.find? ticker).getD []

/-- All registered strategies, in the order of the engine's loops. -/
def addresses (eng : StrategyEngine σ) : List Address :=
  eng.tickerStrategies.values ++ eng.globalStrategies

/-- `strat->name() == name`. -/
def isNamed (name : String) (eng : StrategyEngine σ) (address : Address) : Bool :=
  (eng.objects address).any (fun s => decide (IStrategy.name s = name))

/-- Change the strategies of that name and ticker. -/
def modifyNamed (ticker : Ticker) (name : String) (f : σ → σ) (eng : StrategyEngine σ) :
    StrategyEngine σ :=
  ((eng.strategiesOf ticker).filter (eng.isNamed name)).foldl (fun eng a => eng.modify a f) eng

/-! ## Registration -/

/-- A strategy without a ticker is a global one. -/
def addStrategy (s : σ) (eng : StrategyEngine σ) : StrategyEngine σ :=
  let a := eng.nextAddress
  let eng := { eng.store a s with nextAddress := a + 1 }
  if IStrategy.ticker s = "" then { eng with globalStrategies := eng.globalStrategies ++ [a] }
  else { eng with tickerStrategies := eng.tickerStrategies.push (IStrategy.ticker s) a }

/-- Strategies of this name leave the list of the ticker. -/
def removeStrategy (ticker : Ticker) (name : String) (eng : StrategyEngine σ) : StrategyEngine σ :=
  if ticker = "" then
    { eng with globalStrategies := eng.globalStrategies.filter (fun a => !eng.isNamed name a) }
  else
    match eng.tickerStrategies.find? ticker with
    | none => eng
    | some as =>
        if as.filter (fun a => !eng.isNamed name a) = [] then
          { eng with
              tickerStrategies := eng.tickerStrategies.filter (fun e => decide (e.1 ≠ ticker))
              regimes := eng.regimes.erase ticker }
        else
          { eng with
              tickerStrategies := (eng.tickerStrategies.forKey ticker
                (fun (_ : Unit) as => ((), as.filter (fun a => !eng.isNamed name a))) ()).2 }

/-! ## Plans and their callback -/

/-- The plan of a strategy is reset, by its name. -/
def resetStrategyPlan (ticker : Ticker) (name : String) (eng : StrategyEngine σ) :
    StrategyEngine σ :=
  eng.modifyNamed ticker name IStrategy.resetActivePlan

/-- The strategy that a plan names monitors its trade. -/
def notifyPlanAccepted (plan : StrategyPlan) (eng : StrategyEngine σ) : StrategyEngine σ :=
  eng.modifyNamed plan.ticker plan.strategyName (IStrategy.onPlanAccepted plan)

/-- A ticker without frames has no known regime. -/
def currentRegime (ticker : Ticker) (eng : StrategyEngine σ) : MarketRegime :=
  (eng.regimes.lookup ticker).getD .unknown

/-- `if (on_plan_) on_plan_(plan)`. -/
def offer (onPlan : Option (Gate ω)) (strategy : Address) (plan : StrategyPlan)
    (st : StrategyEngine σ × ω) : StrategyEngine σ × ω :=
  match onPlan with
  | none => st
  | some gate =>
      let (eng, w) := st
      let (w, decision) := gate plan w
      let offer : Offer :=
        { plan := plan
          strategy := strategy
          regime := eng.currentRegime plan.ticker
          accepted := decision.isSome }
      let eng := { eng with offers := eng.offers ++ [offer] }
      match decision with
      | some accepted => (eng.notifyPlanAccepted accepted, w)
      | none => (eng.resetStrategyPlan plan.ticker plan.strategyName, w)

/-! ## Signals -/

/-- One strategy gets a signal. -/
def deliver (onPlan : Option (Gate ω)) (s : Signal) (now : TimePoint)
    (st : StrategyEngine σ × ω) (address : Address) : StrategyEngine σ × ω :=
  let (eng, plan?) := st.1.call address (IStrategy.onSignal s now)
  match plan? with
  | some plan => offer onPlan address plan (eng, st.2)
  | none => (eng, st.2)

/-- The strategies a signal goes to. -/
def recipients (s : Signal) (eng : StrategyEngine σ) : List Address :=
  (if s.ticker = "" then [] else eng.strategiesOf s.ticker) ++ eng.globalStrategies

/-- The subscription to the signal bus. -/
def onSignal (onPlan : Option (Gate ω)) (s : Signal) (now : TimePoint)
    (st : StrategyEngine σ × ω) : StrategyEngine σ × ω :=
  (st.1.recipients s).foldl (deliver onPlan s now) st

/-! ## Frames -/

/-- By volatility first, then by the change of price. The source leaves the news regime only below
    its lower bound. -/
def classifyRegime (frame : FeatureFrame) (eng : StrategyEngine σ) : MarketRegime :=
  if eng.currentRegime frame.ticker = .news ∧ 60 < frame.volatility1minBps then .news
  else if 80 < frame.volatility1minBps then .news
  else if 3 / 10 < |frame.priceChange30s| ∧
      (frame.leaderCorrelation = 0 ∨ 6 / 10 < frame.leaderCorrelation) then .trend
  else .range

/-- One strategy is asked whether its trade should be closed. -/
def checkClose (now : TimePoint) (frame : FeatureFrame) (eng : StrategyEngine σ)
    (address : Address) : StrategyEngine σ :=
  let (eng, reason?) := eng.call address (IStrategy.checkCloseConditions now frame)
  match reason?, eng.objects address with
  | some reason, some s =>
      { eng with closeRequests := eng.closeRequests ++ [(IStrategy.ticker s, reason)] }
  | _, _ => eng

/-- `on_frame`; `closing` says whether `close_cb_` is set. -/
def onFrame (closing : Bool) (now : TimePoint) (frame : FeatureFrame) (eng : StrategyEngine σ) :
    StrategyEngine σ :=
  let eng := (eng.strategiesOf frame.ticker ++ eng.globalStrategies).foldl
    (fun eng a => eng.modify a (IStrategy.onFrame frame)) eng
  let eng :=
    if closing then (eng.strategiesOf frame.ticker).foldl (checkClose now frame) eng else eng
  { eng with regimes := eng.regimes.insert frame.ticker (eng.classifyRegime frame) }

/-! ## The tick -/

/-- One strategy ticks; a plan is collected under its ticker. -/
def collect (now : TimePoint) (st : StrategyEngine σ × BucketMap Ticker PlanWithPriority)
    (address : Address) : StrategyEngine σ × BucketMap Ticker PlanWithPriority :=
  let (eng, plan?) := st.1.call address (IStrategy.tick now)
  match plan?, eng.objects address with
  | some plan, some s =>
      (eng, st.2.push plan.ticker
        { priority := IStrategy.priority s, plan := plan, strategy := address })
  | _, _ => (eng, st.2)

/-- `pw.strategy->reset_active_plan()` for each of the plans. -/
def resetPlans (plans : List PlanWithPriority) (eng : StrategyEngine σ) : StrategyEngine σ :=
  plans.foldl (fun eng pw => eng.modify pw.strategy IStrategy.resetActivePlan) eng

/-- The strategies whose plans a regime suppresses. -/
def suppresses (regime : MarketRegime) (plan : StrategyPlan) : Bool :=
  match regime with
  | .news => true
  | .trend => decide (plan.strategyName = "BounceFromDensity")
  | .range => decide (plan.strategyName = "LeaderLag")
  | .unknown => false

/-- `std::remove_if` and the loop over the tail it leaves. The tail still holds the plans that stood
    at its places, whose addresses a move does not change. -/
def suppress (regime : MarketRegime) (plans : List PlanWithPriority) (eng : StrategyEngine σ) :
    StrategyEngine σ × List PlanWithPriority :=
  let kept := plans.filter (fun pw => !suppresses regime pw.plan)
  (eng.resetPlans (plans.drop kept.length), kept)

/-- `pw.strategy->has_active_plan()`. -/
def hasActivePlan (eng : StrategyEngine σ) (address : Address) : Bool :=
  (eng.objects address).any IStrategy.hasActivePlan

/-- The loop over the plans until one is accepted. -/
def tryPlans (gate : Gate ω) : List PlanWithPriority → StrategyEngine σ × ω → StrategyEngine σ × ω
  | [], st => st
  | pw :: plans, st =>
      let st := offer (some gate) pw.strategy pw.plan st
      if st.1.hasActivePlan pw.strategy then st else tryPlans gate plans st

/-- The plans of one ticker. For `News` the tail is all of them. -/
def choose (ps : PlanSort) (onPlan : Option (Gate ω)) (st : StrategyEngine σ × ω)
    (group : Ticker × List PlanWithPriority) : StrategyEngine σ × ω :=
  let (eng, kept) := st.1.suppress (st.1.currentRegime group.1) group.2
  match onPlan with
  | some gate => tryPlans gate (ps.sort kept) (eng, st.2)
  | none => (eng, st.2)

/-- All strategies are asked for plans, and then the plans are gone through ticker by ticker. -/
def tick (ps : PlanSort) (onPlan : Option (Gate ω)) (now : TimePoint)
    (st : StrategyEngine σ × ω) : StrategyEngine σ × ω :=
  let (eng, groups) := st.1.addresses.foldl (collect now) (st.1, [])
  groups.foldl (choose ps onPlan) (eng, st.2)

/-! ## Runs -/

/-- What can happen to an engine, with the callbacks that are set at the time. -/
inductive Op (σ ω : Type)
  | addStrategy (s : σ)
  | removeStrategy (ticker : Ticker) (name : String)
  | onFrame (closing : Bool) (now : TimePoint) (frame : FeatureFrame)
  | signal (onPlan : Option (Gate ω)) (s : Signal) (now : TimePoint)
  | tick (ps : PlanSort) (onPlan : Option (Gate ω)) (now : TimePoint)
  | resetStrategyPlan (ticker : Ticker) (name : String)
  | notifyPlanAccepted (plan : StrategyPlan)

/-- The engine and its world after an operation. -/
def step (st : StrategyEngine σ × ω) : Op σ ω → StrategyEngine σ × ω
  | .addStrategy s => (st.1.addStrategy s, st.2)
  | .removeStrategy ticker name => (st.1.removeStrategy ticker name, st.2)
  | .onFrame closing now frame => (st.1.onFrame closing now frame, st.2)
  | .signal onPlan s now => onSignal onPlan s now st
  | .tick ps onPlan now => tick ps onPlan now st
  | .resetStrategyPlan ticker name => (st.1.resetStrategyPlan ticker name, st.2)
  | .notifyPlanAccepted plan => (st.1.notifyPlanAccepted plan, st.2)

/-- A new engine, in a world `w`, after a list of operations. -/
def run (w : ω) (ops : List (Op σ ω)) : StrategyEngine σ × ω := ops.foldl step ({}, w)

end StrategyEngine

end TradeBot
