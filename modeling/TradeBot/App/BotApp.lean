import TradeBot.App.KillSwitch
import TradeBot.Risk.RiskManager

set_option autoImplicit false

/-! # BotApp

The running program (`app/BotAppRun.cpp`, and the callback of `setup_strategy_engine_callbacks_` in
`app/BotAppInit.cpp`) as a machine that takes one step at a time. The main thread runs the timers: a
slow tick in its parts, or, once the kill switch is triggered, `handle_kill_switch_` in its steps. The
processor thread takes the strategies' plans through the `on_plan` callback; between a plan's
acceptance and its submission any other thread may run. The feeds' threads and the dashboard call
the executor at any time, and anything may trigger the kill switch.

What the exchange, the clocks, the configuration, the universe and the calendar answer is the input
of a step. The strategies themselves, the journal, persistence and the dashboard are left out.

`main` is the place that the main thread has come to, and an accepted plan that is not submitted yet
is the place of the processor thread. An event that is not the next step of its thread changes
nothing, so every list of events is a run, and what holds of every run holds of every schedule of the
threads.

With nothing in between, the steps of the kill sequence are the function of `KillSwitch`
(`run_killSwitch`). -/

namespace TradeBot

/-- `FinresHandler::Snapshot`. -/
structure FinresSnapshot where
  balance : ℚ
  equity : ℚ

/-- The part of `tick` that comes next. The last two hold the trades that were copied before them. -/
inductive TickStage
  | exchange
  | dailyReset
  | strategies
  | executor
  | closedTrades
  | positions
  | killSwitch (active : List ActiveTrade)
  | markPrices (active : List ActiveTrade)

/-- Where the main thread is. -/
inductive MainThread
  /-- It waits for a timer. -/
  | idle
  | ticking (stage : TickStage)
  /-- In `strategy_engine_->tick`: a plan is accepted and not submitted yet. -/
  | submitting (plan : TradePlan)
  /-- `handle_kill_switch_`, step 2, with the tickers to come. -/
  | cancelling (rest : List Ticker)
  /-- `handle_kill_switch_`, step 4, with the positions to come. -/
  | closing (rest : List PositionUpdate)
  /-- `handle_kill_switch_`, step 5, with the closes sent again so far. -/
  | polling (retries : AList (fun _ : Ticker => ℕ))
  | exited

/-- Has `handle_kill_switch_` begun? -/
def MainThread.killing : MainThread → Bool
  | .cancelling _ | .closing _ | .polling _ | .exited => true
  | _ => false

/-- The state of the program that its threads share. -/
structure BotApp where
  /-- Is the executor a `LiveExecutor`? -/
  liveExecutor : Bool := true
  executor : LiveExecutor := .init {}
  riskManager : RiskManager := {}
  accountState : AccountState := {}
  realizedPnlAccumulator : ℚ := 0
  equityAccumulator : ℚ := 0
  freeBalanceAccumulator : ℚ := 0
  /-- The processor's queue of closed trades. -/
  closedTradeQueue : List ClosedTrade := []
  killSwitchTriggered : Bool := false
  shutdownInitiated : Bool := false
  main : MainThread := .idle
  /-- The plan that the processor thread has accepted and not submitted yet. -/
  processor : Option TradePlan := none
  /-- The plans that the callback has passed to `submit`, oldest first. Not in the source. -/
  submitted : List TradePlan := []

/-- The threads that run the `on_plan` callback. -/
inductive Caller
  | processor
  | main
  deriving DecidableEq

/-- The surroundings of one call of the `on_plan` callback: the universe, the calendar, and the
    readings of the clock for the affinity gate and in `evaluate`. -/
structure PlanInput where
  univ : TickerUniverse
  news : NewsCalendar
  stableAt : TimePoint
  now : TimePoint
  later : TimePoint

/-- What the `on_plan` callback does with a plan. -/
inductive Verdict
  /-- A gate before the risk manager drops the plan. -/
  | dropped
  | rejected (d : RiskDecision)
  /-- The plan goes to `submit`. -/
  | accepted (plan : TradePlan)
  deriving DecidableEq

/-- The plan that is handed on. -/
def Verdict.plan? : Verdict → Option TradePlan
  | .accepted plan => some plan
  | _ => none

namespace BotApp

/-! ## The `on_plan` callback -/

/-- `FlushReversal::live_gate_satisfied`. -/
def liveGateSatisfied (_plan : TradePlan) : Bool := false

/-- For how long a ticker must have been active: five minutes. -/
def kAffinityStableMin : TimePoint := 300 * nsPerSec

/-- `round_p`. -/
def roundToIncrement (increment price : ℚ) : ℚ := (stdRound (price / increment) : ℤ) * increment

/-- The accepted plan: the risk manager's size, and prices on the ticker's grid. -/
def acceptedPlan (univ : TickerUniverse) (d : RiskDecision) (plan : TradePlan) : TradePlan :=
  let sized := { plan with sizeCoin := d.adjustedSizeCoin, riskUsd := d.riskUsd }
  let increment := (univ.metaOrFallback plan.ticker).priceIncrement
  if 0 < increment then
    { sized with
      entryPrice := roundToIncrement increment plan.entryPrice
      stopPrice := roundToIncrement increment plan.stopPrice
      tp1Price := roundToIncrement increment plan.tp1Price
      tp2Price := plan.tp2Price.map (roundToIncrement increment) }
  else sized

/-- The callback up to the decision. -/
def onPlan (inp : PlanInput) (plan : TradePlan) (app : BotApp) : RiskManager × Verdict :=
  if app.liveExecutor ∧ plan.strategyName = "FlushReversal" ∧ liveGateSatisfied plan = false then
    (app.riskManager, .dropped)
  else if inp.univ.isAffinityStable plan.ticker kAffinityStableMin inp.stableAt = false then
    (app.riskManager, .dropped)
  else
    let (rm, d) :=
      app.riskManager.evaluate inp.now inp.univ inp.news inp.later plan app.accountState
    if d.accepted then (rm, .accepted (acceptedPlan inp.univ d plan)) else (rm, .rejected d)

/-- A thread that is free runs the callback on a plan, up to the call of `submit`. -/
def offer (caller : Caller) (inp : PlanInput) (plan : TradePlan) (app : BotApp) : BotApp :=
  let (rm, verdict) := app.onPlan inp plan
  match caller, app.processor, app.main with
  | .processor, none, _ => { app with riskManager := rm, processor := verdict.plan? }
  | .main, _, .ticking .strategies =>
      { app with
        riskManager := rm
        main := (verdict.plan?.map MainThread.submitting).getD app.main }
  | _, _, _ => app

/-- The call of `submit` in the callback. -/
def submit (caller : Caller) (env : Env) (ns : ℕ) (now : TimePoint) (app : BotApp) : BotApp :=
  match caller, app.processor, app.main with
  | .processor, some plan, _ =>
      { app with
        executor := app.executor.submit env ns now plan
        processor := none
        submitted := app.submitted ++ [plan] }
  | .main, _, .submitting plan =>
      { app with
        executor := app.executor.submit env ns now plan
        main := .ticking .strategies
        submitted := app.submitted ++ [plan] }
  | _, _, _ => app

/-! ## The slow tick -/

/-- What the parts of `tick` read from outside. -/
structure TickInput where
  env : Env
  now : TimePoint
  finres : Option FinresSnapshot
  isNewDay : Bool
  marks : AList (fun _ : Ticker => ℚ)

/-- `update_account_from_exchange_`. -/
def updateAccountFromExchange (finres : Option FinresSnapshot) (app : BotApp) : BotApp :=
  match finres with
  | none => app
  | some finres =>
      if app.liveExecutor ∧ 0 < finres.equity then
        { app with
          freeBalanceAccumulator := finres.balance
          accountState :=
            { app.accountState with freeBalanceUsd := finres.balance, equityUsd := finres.equity } }
      else app

/-- `check_daily_reset_`. -/
def checkDailyReset (isNewDay : Bool) (app : BotApp) : BotApp :=
  if isNewDay then
    { app with
      accountState :=
        { app.accountState with
          startingEquityUsd := app.accountState.equityUsd, realizedPnlTodayUsd := 0 }
      realizedPnlAccumulator := 0
      equityAccumulator := app.accountState.equityUsd }
  else app

/-- One turn of `process_closed_trades_`'s loop. -/
def processClosedTrade (now : TimePoint) (app : BotApp) (ct : ClosedTrade) : BotApp :=
  let realized := app.realizedPnlAccumulator + ct.pnlUsd
  let equity := app.equityAccumulator + ct.pnlUsd
  let free := app.freeBalanceAccumulator + ct.pnlUsd
  { app with
    realizedPnlAccumulator := realized
    equityAccumulator := equity
    freeBalanceAccumulator := free
    accountState :=
      { app.accountState with
        realizedPnlTodayUsd := realized, equityUsd := equity, freeBalanceUsd := free }
    riskManager := app.riskManager.recordTradeEnd (decide (ct.pnlUsd < 0)) now }

/-- `process_closed_trades_`. -/
def processClosedTrades (now : TimePoint) (app : BotApp) : BotApp :=
  app.closedTradeQueue.foldl (processClosedTrade now) { app with closedTradeQueue := [] }

/-- The trades that count as positions. -/
def positionTrades (active : List ActiveTrade) : List ActiveTrade :=
  active.filter (fun t => decide (t.state = .opened ∨ t.state = .exiting))

/-- One part of `tick`. -/
def tickPart (inp : TickInput) (app : BotApp) : TickStage → BotApp
  | .exchange => { app.updateAccountFromExchange inp.finres with main := .ticking .dailyReset }
  | .dailyReset => { app.checkDailyReset inp.isNewDay with main := .ticking .strategies }
  | .strategies => { app with main := .ticking .executor }
  | .executor =>
      { app with executor := app.executor.tick inp.env inp.now, main := .ticking .closedTrades }
  | .closedTrades => { app.processClosedTrades inp.now with main := .ticking .positions }
  | .positions =>
      let active := app.executor.getActiveTrades
      { app with
        accountState :=
          { app.accountState with
            activePositions := ((positionTrades active).length : ℕ)
            activeTickers := (positionTrades active).map (fun t => t.plan.ticker) }
        main := .ticking (.killSwitch active) }
  | .killSwitch active =>
      { app with
        accountState := { app.accountState with killSwitchTriggered := app.killSwitchTriggered }
        main := .ticking (.markPrices active) }
  | .markPrices active =>
      { app with
        executor := app.executor.setMarkPrices inp.marks
        accountState :=
          { app.accountState with
            unrealizedPnlUsd := (active.map ActiveTrade.unrealizedPnl).sum }
        main := .idle }

/-! ## The kill switch -/

/-- What the steps of `handle_kill_switch_` read from outside: with `deadlineOk` there is time left,
    and `fetched` is what `get_positions` answers, or `none` if it throws. -/
structure KillInput where
  env : Env
  deadlineOk : Bool
  fetched : Option (List PositionUpdate)

/-- `handle_kill_switch_` up to step 2. -/
def beginKillSwitch (controllers : List Ticker) (app : BotApp) : BotApp :=
  if app.shutdownInitiated then app
  else { app with shutdownInitiated := true, main := .cancelling controllers }

/-- One turn of step 5's loop over the positions: close again, at most three times per ticker. -/
def retryClose (env : Env) (r : LiveExecutor × AList (fun _ : Ticker => ℕ)) (pos : PositionUpdate) :
    LiveExecutor × AList (fun _ : Ticker => ℕ) :=
  let tries := (r.2.lookup pos.ticker).getD 0
  if pos.isFlat = false ∧ tries < 3 then
    (r.1.closeTrade env pos.ticker "KillSwitch", r.2.insert pos.ticker (tries + 1))
  else r

/-- One step of `handle_kill_switch_`. -/
def killPart (inp : KillInput) (app : BotApp) : MainThread → BotApp
  | .cancelling (ticker :: rest) =>
      if inp.deadlineOk then
        { app with executor := (app.executor.cancelAll inp.env ticker).1, main := .cancelling rest }
      else { app with main := .cancelling [] }
  | .cancelling [] =>
      let fetched := if app.liveExecutor ∧ inp.deadlineOk then inp.fetched else none
      { app with main := .closing (fetched.getD (openPositions app.executor)) }
  | .closing (pos :: rest) =>
      if pos.isFlat then { app with main := .closing rest }
      else if inp.deadlineOk then
        { app with
          executor := app.executor.closeTrade inp.env pos.ticker "KillSwitch"
          main := .closing rest }
      else { app with main := .closing [] }
  | .closing [] => { app with main := .polling ∅ }
  | .polling retries =>
      if app.liveExecutor ∧ inp.deadlineOk then
        match inp.fetched with
        | none => app
        | some positions =>
            if positions.all PositionUpdate.isFlat then { app with main := .exited }
            else
              let r := positions.foldl (retryClose inp.env) (app.executor, retries)
              { app with executor := r.1, main := .polling r.2 }
      else { app with main := .exited }
  | _ => app

/-! ## Runs -/

/-- What can happen next, on any of the threads. -/
inductive AppEvent
  /-- `KillSwitch::trigger`. -/
  | trigger
  | slowTimer (controllers : List Ticker)
  /-- With a dashboard session, `dashboard_tick` passes mark prices to the executor. -/
  | dashboardTimer (controllers : List Ticker) (marks : Option (AList (fun _ : Ticker => ℚ)))
  | tick (inp : TickInput)
  | kill (inp : KillInput)
  | offer (caller : Caller) (inp : PlanInput) (plan : TradePlan)
  | submit (caller : Caller) (env : Env) (ns : ℕ) (now : TimePoint)
  /-- The processor thread moves the executor's closed trades to its queue. -/
  | drainClosedTrades
  /-- A call of the executor by a feed's thread, a strategy's close callback or the dashboard. -/
  | executorOp (op : LiveExecutor.Op)

/-- One step. An event that is not due changes nothing. -/
def step (app : BotApp) : AppEvent → BotApp
  | .trigger => { app with killSwitchTriggered := true }
  | .slowTimer controllers =>
      match app.main, app.killSwitchTriggered with
      | .idle, true => app.beginKillSwitch controllers
      | .idle, false => { app with main := .ticking .exchange }
      | _, _ => app
  | .dashboardTimer controllers marks =>
      match app.main, app.killSwitchTriggered with
      | .idle, true => app.beginKillSwitch controllers
      | .idle, false =>
          { app with executor := (marks.map app.executor.setMarkPrices).getD app.executor }
      | _, _ => app
  | .tick inp =>
      match app.main with
      | .ticking stage => app.tickPart inp stage
      | _ => app
  | .kill inp => app.killPart inp app.main
  | .offer caller inp plan => app.offer caller inp plan
  | .submit caller env ns now => app.submit caller env ns now
  | .drainClosedTrades =>
      let (executor, closed) := app.executor.popClosedTrades
      { app with executor := executor, closedTradeQueue := app.closedTradeQueue ++ closed }
  | .executorOp op => { app with executor := app.executor.step op }

/-- The state after some events. -/
def run (app : BotApp) (events : List AppEvent) : BotApp := events.foldl step app

theorem run_append (app : BotApp) (events events' : List AppEvent) :
    app.run (events ++ events') = (app.run events).run events' :=
  List.foldl_append

/-! ## The kill sequence undisturbed -/

section

variable {inp : KillInput}

theorem run_cancelling (hok : inp.deadlineOk = true) (rest : List Ticker) (app : BotApp)
    (hmain : app.main = .cancelling rest) :
    app.run (List.replicate rest.length (.kill inp)) =
      { app with
        executor := cancelOrders inp.env rest app.executor
        main := .cancelling [] } := by
  induction rest generalizing app with
  | nil =>
      rw [← hmain]
      rfl
  | cons ticker rest ih =>
      have hstep : app.step (.kill inp) =
          { app with
            executor := (app.executor.cancelAll inp.env ticker).1
            main := .cancelling rest } := by
        simp only [step, hmain, killPart, hok, if_true]
      rw [List.length_cons, List.replicate_succ, run, List.foldl_cons, hstep]
      exact ih _ rfl

theorem run_closing (hok : inp.deadlineOk = true) (rest : List PositionUpdate) (app : BotApp)
    (hmain : app.main = .closing rest) :
    app.run (List.replicate rest.length (.kill inp)) =
      { app with
        executor := closePositions inp.env rest app.executor
        main := .closing [] } := by
  induction rest generalizing app with
  | nil =>
      rw [← hmain]
      rfl
  | cons pos rest ih =>
      rw [List.length_cons, List.replicate_succ, run, List.foldl_cons]
      cases hflat : pos.isFlat with
      | true =>
          rw [closePositions_flat _ hflat]
          have hstep : app.step (.kill inp) = { app with main := .closing rest } := by
            simp only [step, hmain, killPart, hflat, if_true]
          rw [hstep]
          exact ih _ rfl
      | false =>
          rw [closePositions_cons _ hflat]
          have hstep : app.step (.kill inp) =
              { app with
                executor := app.executor.closeTrade inp.env pos.ticker "KillSwitch"
                main := .closing rest } := by
            simp only [step, hmain, killPart, hflat, hok, if_true, Bool.false_eq_true, if_false]
          rw [hstep]
          exact ih _ rfl

/-- With time enough and no other thread in between, steps 2 to 4 do to the executor what
    `handleKillSwitch` says. -/
theorem run_killSwitch (hok : inp.deadlineOk = true) {controllers : List Ticker} {app : BotApp}
    (hmain : app.main = .cancelling controllers) (hlive : app.liveExecutor = true) :
    ∃ n, app.run (List.replicate n (.kill inp)) =
      { app with
        executor := handleKillSwitch inp.env controllers inp.fetched app.executor
        main := .closing [] } := by
  set app₁ : BotApp :=
    { app with executor := cancelOrders inp.env controllers app.executor, main := .cancelling [] }
    with happ₁
  set positions := inp.fetched.getD (openPositions app₁.executor) with hpositions
  have hfetch : app₁.step (.kill inp) = { app₁ with main := .closing positions } := by
    simp only [step, happ₁, killPart, hlive, hok, and_self, if_true, hpositions]
  refine ⟨controllers.length + (1 + positions.length), ?_⟩
  rw [List.replicate_add, run_append, run_cancelling hok _ _ hmain, ← happ₁, List.replicate_add,
    run_append]
  have hone : app₁.run (List.replicate 1 (.kill inp)) = { app₁ with main := .closing positions } :=
    hfetch
  rw [hone, run_closing hok positions _ rfl, happ₁]
  rfl

end

end BotApp

end TradeBot
