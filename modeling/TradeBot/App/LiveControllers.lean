import TradeBot.Domain.Types
import TradeBot.Lib.Histories
import TradeBot.Universe.TickerPool

set_option autoImplicit false

/-! # The controllers and the pipeline

The handler of `setup_affinity_handler_` creates a ticker's controller with its first strategy, with
one for the leader beside it, and removes it when the ticker is idle. The executor's books and the
pipeline have pointers to what a controller owns; a controller is a number here that no other one had
before. The pipeline exists before the first change is reported.

Feeds and order book settings are left out, and the strategies are the subject of
`AffinityLayer.onAffinityChange`.

`Consistent` says that the pipeline has the live controllers. Creating one keeps it, with or without
the leader beside it (`Consistent.onEnabled`), and removing one breaks it, because nothing tells the
pipeline (`onDisabled_consistent_iff`). The executor's books are told, so they never name a
controller that is gone (`booksForExecutor_run`).

So a run keeps the two alike exactly as long as it removes nothing (`live_controllers_iff`). -/

namespace TradeBot

open Histories

/-- The controllers, and the maps that point into them. -/
structure LiveControllers where
  /-- `universe.affinity.leaderlag.require_leader`, normalized. -/
  leader : Ticker
  controllers : AList (fun _ : Ticker => ℕ) := ∅
  booksForExecutor : AList (fun _ : Ticker => ℕ) := ∅
  /-- `PipelineProcessor::tickers_`. -/
  tickers : AList (fun _ : Ticker => ℕ) := ∅
  created : ℕ := 0

/-- A reported change, the universe that reports it, and the trades of the executor then. -/
structure AffinityCallback where
  change : AffinityChange
  univ : TickerUniverse
  trades : List ActiveTrade

namespace LiveControllers

variable (app : LiveControllers)

/-- `register_ticker`. -/
def registerTicker (ticker : Ticker) (controller : ℕ) : LiveControllers :=
  { app with tickers := app.tickers.insert ticker controller }

/-- A new controller, and whom it is shown to. -/
def addController (ticker : Ticker) : LiveControllers :=
  { app with
    controllers := app.controllers.insert ticker app.created
    booksForExecutor := app.booksForExecutor.insert ticker app.created
    created := app.created + 1 }.registerTicker ticker app.created

/-- The branch of an enabled strategy. -/
def onEnabled (ticker : Ticker) : LiveControllers :=
  if ticker ∈ app.controllers then app
  else
    let added := app.addController ticker
    if added.leader ≠ ticker ∧ added.leader ∉ added.controllers then added.addController added.leader
    else added

/-- `has_position`. -/
def hasPosition (trades : List ActiveTrade) (ticker : Ticker) : Bool :=
  trades.any (fun t => decide (t.plan.ticker = ticker ∧ t.state ≠ .closed))

/-- The branch of a disabled strategy. -/
def onDisabled (univ : TickerUniverse) (trades : List ActiveTrade) (ticker : Ticker) :
    LiveControllers :=
  if (univ.enabledStrategies ticker).isEmpty then
    if hasPosition trades ticker then app
    else
      { app with
        booksForExecutor := app.booksForExecutor.erase ticker
        controllers := app.controllers.erase ticker }
  else app

/-- The handler. -/
def step (cb : AffinityCallback) : LiveControllers :=
  if cb.change.enabled then app.onEnabled cb.change.ticker
  else app.onDisabled cb.univ cb.trades cb.change.ticker

/-- The application after some callbacks. -/
def run (cbs : List AffinityCallback) : LiveControllers := cbs.foldl step app

/-- The pipeline has the controllers that there are, and none trades without the leader's. -/
structure Consistent (app : LiveControllers) : Prop where
  registered : ∀ ticker, app.tickers.lookup ticker = app.controllers.lookup ticker
  leader : ∀ ticker ∈ app.controllers, ticker ≠ app.leader → app.leader ∈ app.controllers

/-- The change leaves its ticker idle, and the ticker has a controller. -/
def Removes (app : LiveControllers) (cb : AffinityCallback) : Prop :=
  cb.change.enabled = false ∧
    (∀ strategy, cb.univ.isStrategyEnabled cb.change.ticker strategy = false) ∧
    hasPosition cb.trades cb.change.ticker = false ∧ cb.change.ticker ∈ app.controllers

variable {app}

theorem mem_addController {ticker t : Ticker} :
    t ∈ (app.addController ticker).controllers ↔ t = ticker ∨ t ∈ app.controllers :=
  AList.mem_insert _

theorem addController_registered
    (h : ∀ t, app.tickers.lookup t = app.controllers.lookup t) (ticker t : Ticker) :
    (app.addController ticker).tickers.lookup t = (app.addController ticker).controllers.lookup t := by
  show (app.tickers.insert ticker app.created).lookup t
    = (app.controllers.insert ticker app.created).lookup t
  by_cases ht : t = ticker
  · rw [ht, AList.lookup_insert, AList.lookup_insert]
  · rw [AList.lookup_insert_ne ht, AList.lookup_insert_ne ht, h t]

/-- The leader's controller is created beside the first one. -/
theorem Consistent.onEnabled (h : Consistent app) (ticker : Ticker) :
    Consistent (app.onEnabled ticker) := by
  unfold LiveControllers.onEnabled
  by_cases hin : ticker ∈ app.controllers
  · rw [if_pos hin]
    exact h
  · rw [if_neg hin]
    dsimp only
    have hregistered := addController_registered h.registered ticker
    by_cases hleader : (app.addController ticker).leader ≠ ticker ∧
        (app.addController ticker).leader ∉ (app.addController ticker).controllers
    · rw [if_pos hleader]
      exact ⟨addController_registered hregistered _,
        fun _ _ _ => mem_addController.2 (Or.inl rfl)⟩
    · rw [if_neg hleader]
      refine ⟨hregistered, fun _ _ _ => ?_⟩
      by_contra hout
      refine hleader ⟨fun heq => hout ?_, hout⟩
      rw [heq]
      exact mem_addController.2 (Or.inl rfl)

/-- The pipeline is not told that a controller is removed. -/
theorem onDisabled_consistent_iff (h : Consistent app) {cb : AffinityCallback}
    (hoff : cb.change.enabled = false) :
    Consistent (app.onDisabled cb.univ cb.trades cb.change.ticker) ↔ ¬ Removes app cb := by
  unfold onDisabled
  by_cases hidle : (cb.univ.enabledStrategies cb.change.ticker).isEmpty = true
  swap
  · rw [if_neg hidle]
    exact iff_of_true h (fun hremoves => hidle (TickerUniverse.enabledStrategies_isEmpty.2 hremoves.2.1))
  rw [if_pos hidle]
  by_cases hposition : hasPosition cb.trades cb.change.ticker = true
  · rw [if_pos hposition]
    refine iff_of_true h (fun hremoves => ?_)
    rw [hremoves.2.2.1] at hposition
    exact Bool.false_ne_true hposition
  rw [if_neg hposition]
  rw [Bool.not_eq_true] at hposition
  by_cases hin : cb.change.ticker ∈ app.controllers
  · refine iff_of_false (fun hconsistent => ?_)
      (not_not_intro ⟨hoff, TickerUniverse.enabledStrategies_isEmpty.1 hidle, hposition, hin⟩)
    have hgone : app.tickers.lookup cb.change.ticker = none :=
      (hconsistent.registered cb.change.ticker).trans (AList.lookup_erase ..)
    rw [h.registered] at hgone
    exact AList.lookup_eq_none.1 hgone hin
  · have hsame : app.controllers.erase cb.change.ticker = app.controllers :=
      AList.ext (List.kerase_of_notMem_keys (mt AList.mem_keys.1 hin))
    refine iff_of_true ?_ (fun hremoves => hin hremoves.2.2.2)
    rw [hsame]
    exact ⟨h.registered, h.leader⟩

theorem step_consistent_iff (h : Consistent app) (cb : AffinityCallback) :
    Consistent (app.step cb) ↔ ¬ Removes app cb := by
  unfold step
  by_cases hon : cb.change.enabled = true
  · rw [if_pos hon]
    refine iff_of_true (h.onEnabled cb.change.ticker) (fun hremoves => ?_)
    rw [hremoves.1] at hon
    exact Bool.false_ne_true hon
  · rw [if_neg hon]
    exact onDisabled_consistent_iff h (Bool.not_eq_true _ ▸ hon)

/-- The executor's books, unlike the pipeline, are told of every removal. -/
theorem booksForExecutor_run (leader : Ticker) (cbs : List AffinityCallback) :
    (run { leader := leader } cbs).booksForExecutor = (run { leader := leader } cbs).controllers := by
  refine Runs.invariant (fun app : LiveControllers => app.booksForExecutor = app.controllers)
    (fun app cb h => ?_) cbs rfl
  unfold step LiveControllers.onEnabled onDisabled addController registerTicker
  dsimp only
  split_ifs <;> simp only [h]

/-- After every callback of a run the pipeline has the live controllers, and the leader's is among them,
    if and only if no callback removes a controller. -/
theorem live_controllers_iff (leader : Ticker) (cbs : List AffinityCallback) :
    Throughout (fun pre => Consistent (run { leader := leader } pre)) cbs ↔
      Runs.Along step (fun app cb => ¬ Removes app cb) { leader := leader } cbs := by
  refine throughout_iff_along Consistent (fun _ cb h => step_consistent_iff h cb) ?_
  exact ⟨fun _ => rfl, fun _ hin => absurd hin (AList.notMem_empty _)⟩

/-- A strategy is enabled for ETH and disabled again. -/
def idleRun : List AffinityCallback :=
  let pool := (TickerPool.init 0 {} (fun _ => true) .stable).run
    [.refreshPool (fun _ => none) ["ETH_USDT"] 0, .registerStrategy "bounce"]
  let enabled := pool.step (.refreshAffinity (fun _ _ => true))
  let disabled := enabled.1.step (.refreshAffinity (fun _ _ => false))
  enabled.2.map (fun c => ⟨c, enabled.1.toTickerUniverse, []⟩) ++
    disabled.2.map (fun c => ⟨c, disabled.1.toTickerUniverse, []⟩)

/-- The pipeline goes on with the controller that was destroyed. -/
theorem removed_controller_still_registered :
    ¬ ∀ leader cbs, Consistent (run { leader := leader } cbs) := by
  intro hall
  have hregistered := (hall "BTC_USDT" idleRun).registered "ETH_USDT"
  have hdangling : (run { leader := "BTC_USDT" } idleRun).tickers.lookup "ETH_USDT" = some 0 := by
    decide +kernel
  have hgone : (run { leader := "BTC_USDT" } idleRun).controllers.lookup "ETH_USDT" = none := by
    decide +kernel
  rw [hdangling, hgone] at hregistered
  exact Option.some_ne_none 0 hregistered

end LiveControllers

end TradeBot
