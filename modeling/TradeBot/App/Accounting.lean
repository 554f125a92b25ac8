import TradeBot.App.PlanGate

set_option autoImplicit false

/-! # The account

Three parts of the slow tick write the account: the exchange's snapshots, the reset of the trading
day and the closed trades. The abstract account is what they should come to: the last equity the
exchange has named, and what the trades have earned since then and since the day began. The program
keeps an accumulator beside the equity that a snapshot does not seed again, and the equity follows
the exchange as long as every closed trade finds the two in agreement.

A closed trade is the only thing that can bring the two apart, and it does so exactly if the
accumulator and the equity differ when it is booked (`follows_step_iff`). From the start of the
program on they agree, so a run stays in step if and only if none of its trades is booked after a
snapshot that the accumulator has not seen (`startAccount_follows_iff`).

The program itself has many more steps. None of them touches the money except through these three, so
a run of the program has the account of the operations in it (`money_run`). -/

namespace TradeBot

namespace BotApp

/-- `load_account_state_`: the persisted account, which seeds the accumulators, or 10000. -/
def loadAccountState (persisted : Option AccountState) (app : BotApp) : BotApp :=
  let accountState :=
    match persisted with
    | some acc =>
        -- a zeroed equity is recovered from the starting one
        if acc.equityUsd ≤ 0 ∧ 0 < acc.startingEquityUsd then
          { acc with equityUsd := acc.startingEquityUsd, freeBalanceUsd := acc.startingEquityUsd }
        else acc
    | none =>
        { app.accountState with
          equityUsd := 10000, startingEquityUsd := 10000, freeBalanceUsd := 10000 }
  { app with
    accountState := accountState
    realizedPnlAccumulator := app.realizedPnlAccumulator + accountState.realizedPnlTodayUsd
    equityAccumulator := app.equityAccumulator + accountState.equityUsd
    freeBalanceAccumulator := app.freeBalanceAccumulator + accountState.freeBalanceUsd }

/-- What is done to the account. -/
inductive AccountOp
  | exchange (finres : Option FinresSnapshot)
  | dailyReset (isNewDay : Bool)
  | closed (now : TimePoint) (ct : ClosedTrade)

/-- What a part of the slow tick does to the program. -/
def account (app : BotApp) : AccountOp → BotApp
  | .exchange finres => app.updateAccountFromExchange finres
  | .dailyReset isNewDay => app.checkDailyReset isNewDay
  | .closed now ct => app.processClosedTrade now ct

/-! ## The abstract account -/

/-- What the account should come to. -/
structure AccountBooks where
  exchangeEquity : ℚ
  pnlSinceSnapshot : ℚ := 0
  pnlToday : ℚ

/-- `authoritative` is the equity of a snapshot that counts. -/
def AccountBooks.record (books : AccountBooks) (authoritative : Option ℚ) : AccountOp → AccountBooks
  | .exchange _ =>
      match authoritative with
      | some equity => { books with exchangeEquity := equity, pnlSinceSnapshot := 0 }
      | none => books
  | .dailyReset isNewDay => if isNewDay then { books with pnlToday := 0 } else books
  | .closed _ ct =>
      { books with
        pnlSinceSnapshot := books.pnlSinceSnapshot + ct.pnlUsd
        pnlToday := books.pnlToday + ct.pnlUsd }

/-- The equity of a snapshot in live mode, if it is positive. -/
def authoritativeEquity (live : Bool) : AccountOp → Option ℚ
  | .exchange (some finres) => if live ∧ 0 < finres.equity then some finres.equity else none
  | _ => none

/-! ## The program beside it -/

/-- The program and the abstract account, one operation at a time. -/
def accountStep (s : BotApp × AccountBooks) (op : AccountOp) : BotApp × AccountBooks :=
  (s.1.account op, s.2.record (authoritativeEquity s.1.liveExecutor op) op)

/-- After `load_account_state_`, when the books begin. -/
def startAccount (live : Bool) (persisted : Option AccountState) : BotApp × AccountBooks :=
  let app := loadAccountState persisted { liveExecutor := live }
  (app,
    { exchangeEquity := app.accountState.equityUsd
      pnlToday := app.accountState.realizedPnlTodayUsd })

/-- The account the risk manager sees is the abstract one. -/
def Follows (s : BotApp × AccountBooks) : Prop :=
  s.1.accountState.equityUsd = s.2.exchangeEquity + s.2.pnlSinceSnapshot ∧
    s.1.accountState.realizedPnlTodayUsd = s.2.pnlToday

/-- A closed trade finds the equity's accumulator in agreement with the equity. -/
def Synced (s : BotApp × AccountBooks) : AccountOp → Prop
  | .closed _ _ => s.1.equityAccumulator = s.1.accountState.equityUsd
  | _ => True

/-- The accumulator of the realized PnL is never out of step. -/
def RealizedSynced (s : BotApp × AccountBooks) : Prop :=
  s.1.realizedPnlAccumulator = s.1.accountState.realizedPnlTodayUsd

theorem RealizedSynced.step {s : BotApp × AccountBooks} (h : RealizedSynced s) (op : AccountOp) :
    RealizedSynced (accountStep s op) := by
  cases op with
  | exchange finres =>
      simp only [RealizedSynced, accountStep, account, updateAccountFromExchange]
      split
      · exact h
      · split <;> exact h
  | dailyReset isNewDay =>
      simp only [RealizedSynced, accountStep, account, checkDailyReset]
      split
      · rfl
      · exact h
  | closed now ct => rfl

/-- One operation keeps the account in step exactly if it is no trade closed out of step. -/
theorem follows_step_iff {s : BotApp × AccountBooks} (h : Follows s) (hrealized : RealizedSynced s)
    (op : AccountOp) : Follows (accountStep s op) ↔ Synced s op := by
  obtain ⟨hequity, htoday⟩ := h
  cases op with
  | exchange finres =>
      refine iff_of_true ?_ trivial
      cases finres with
      | none => exact ⟨hequity, htoday⟩
      | some finres =>
          simp only [Follows, accountStep, account, updateAccountFromExchange, authoritativeEquity]
          by_cases hcounts : s.1.liveExecutor = true ∧ 0 < finres.equity
          · rw [if_pos hcounts, if_pos hcounts]
            exact ⟨(add_zero finres.equity).symm, htoday⟩
          · rw [if_neg hcounts, if_neg hcounts]
            exact ⟨hequity, htoday⟩
  | dailyReset isNewDay =>
      refine iff_of_true ?_ trivial
      cases isNewDay with
      | false => exact ⟨hequity, htoday⟩
      | true => exact ⟨hequity, rfl⟩
  | closed now ct =>
      have hreal : s.1.realizedPnlAccumulator + ct.pnlUsd = s.2.pnlToday + ct.pnlUsd := by
        rw [hrealized, htoday]
      show (s.1.equityAccumulator + ct.pnlUsd =
          s.2.exchangeEquity + (s.2.pnlSinceSnapshot + ct.pnlUsd) ∧
          s.1.realizedPnlAccumulator + ct.pnlUsd = s.2.pnlToday + ct.pnlUsd) ↔
        s.1.equityAccumulator = s.1.accountState.equityUsd
      rw [and_iff_left hreal, hequity, ← add_assoc]
      exact add_left_inj ct.pnlUsd

/-- From a state in step on, the account stays in step exactly as long as every trade is closed in
    step. -/
theorem follows_run_iff {s : BotApp × AccountBooks} (h : Follows s) (hrealized : RealizedSynced s)
    (ops : List AccountOp) :
    (∀ n, Follows ((ops.take n).foldl accountStep s)) ↔ Runs.Along accountStep Synced s ops := by
  induction ops generalizing s with
  | nil => simp [Runs.Along, h]
  | cons op ops ih =>
      constructor
      · intro hall
        have hnext : Follows (accountStep s op) := hall 1
        exact ⟨(follows_step_iff h hrealized op).1 hnext,
          (ih hnext (hrealized.step op)).1 fun n => hall (n + 1)⟩
      · rintro ⟨hsynced, hrest⟩ n
        have hnext := (follows_step_iff h hrealized op).2 hsynced
        cases n with
        | zero => exact h
        | succ n => exact (ih hnext (hrealized.step op)).2 hrest n

/-- From the start of the program on, whatever was persisted: the equity is the exchange's and what
    has been earned since, and the realized PnL is that of the day, in every state of a run, if and
    only if every trade of the run is closed in step. -/
theorem startAccount_follows_iff (live : Bool) (persisted : Option AccountState)
    (ops : List AccountOp) :
    (∀ n, Follows ((ops.take n).foldl accountStep (startAccount live persisted))) ↔
      Runs.Along accountStep Synced (startAccount live persisted) ops := by
  have hrealized : RealizedSynced (startAccount live persisted) := zero_add _
  exact follows_run_iff ⟨(add_zero _).symm, rfl⟩ hrealized ops

/-- A snapshot below the accumulator and a trade after it: the snapshot is forgotten. -/
theorem startAccount_snapshotForgotten :
    let ops : List AccountOp :=
      [.exchange (some { balance := 9000, equity := 9000 }),
        .closed 0 { plan := { ticker := "BTC_USDT" }, pnlUsd := 10 }]
    let s := ops.foldl accountStep (startAccount true none)
    s.1.accountState.equityUsd = 10010 ∧
      s.2.exchangeEquity + s.2.pnlSinceSnapshot = 9010 ∧ ¬ Follows s := by
  refine ⟨by decide +kernel, by decide +kernel, fun h => ?_⟩
  revert h
  unfold Follows
  decide +kernel

/-! ## Runs of the program -/

/-- What the program keeps of the account. -/
structure Money where
  live : Bool
  equity : ℚ
  startingEquity : ℚ
  realizedToday : ℚ
  free : ℚ
  equityAccumulator : ℚ
  realizedAccumulator : ℚ
  freeAccumulator : ℚ

/-- The money of the program, apart from everything else in it. -/
def money (app : BotApp) : Money :=
  { live := app.liveExecutor
    equity := app.accountState.equityUsd
    startingEquity := app.accountState.startingEquityUsd
    realizedToday := app.accountState.realizedPnlTodayUsd
    free := app.accountState.freeBalanceUsd
    equityAccumulator := app.equityAccumulator
    realizedAccumulator := app.realizedPnlAccumulator
    freeAccumulator := app.freeBalanceAccumulator }

/-- What an event does to the account. -/
def accountOps (app : BotApp) : AppEvent → List AccountOp
  | .tick inp =>
      match app.main with
      | .ticking .exchange => [.exchange inp.finres]
      | .ticking .dailyReset => [.dailyReset inp.isNewDay]
      | .ticking .closedTrades => app.closedTradeQueue.map (.closed inp.now)
      | _ => []
  | _ => []

/-- The operations on the account in a run of the program. -/
def runOps : BotApp → List AppEvent → List AccountOp
  | _, [] => []
  | app, ev :: events => accountOps app ev ++ runOps (app.step ev) events

theorem money_account {app app' : BotApp} (h : app.money = app'.money) (op : AccountOp) :
    (app.account op).money = (app'.account op).money := by
  simp only [money, Money.mk.injEq] at h
  obtain ⟨hlive, hequity, hstarting, hrealized, hfree, hequityAcc, hrealizedAcc, hfreeAcc⟩ := h
  cases op with
  | exchange finres =>
      cases finres with
      | none =>
          simp only [account, updateAccountFromExchange, money, hlive, hequity, hstarting,
            hrealized, hfree, hequityAcc, hrealizedAcc, hfreeAcc]
      | some finres =>
          simp only [account, updateAccountFromExchange, hlive]
          split <;> simp only [money, hlive, hequity, hstarting, hrealized, hfree, hequityAcc,
            hrealizedAcc, hfreeAcc]
  | dailyReset isNewDay =>
      simp only [account, checkDailyReset]
      split <;> simp only [money, hlive, hequity, hstarting, hrealized, hfree, hequityAcc,
        hrealizedAcc, hfreeAcc]
  | closed now ct =>
      simp only [account, processClosedTrade, money, hlive, hstarting, hequityAcc, hrealizedAcc,
        hfreeAcc]

theorem money_ops {app app' : BotApp} (h : app.money = app'.money) (ops : List AccountOp) :
    (ops.foldl account app).money = (ops.foldl account app').money := by
  induction ops generalizing app app' with
  | nil => exact h
  | cons op ops ih => exact ih (money_account h op)

theorem money_offer (caller : Caller) (inp : PlanInput) (plan : TradePlan) (app : BotApp) :
    (app.offer caller inp plan).money = app.money := by
  unfold offer
  dsimp only
  split <;> rfl

theorem money_submit (caller : Caller) (env : Env) (ns : ℕ) (now : TimePoint) (app : BotApp) :
    (app.submit caller env ns now).money = app.money := by
  unfold submit
  split <;> rfl

theorem money_killPart (inp : KillInput) (app : BotApp) :
    (app.killPart inp app.main).money = app.money := by
  obtain ⟨executor, main, -, heq⟩ := killPart_cases inp app
  rw [heq]
  rfl

theorem money_beginKillSwitch (controllers : List Ticker) (app : BotApp) :
    (app.beginKillSwitch controllers).money = app.money := by
  unfold beginKillSwitch
  split <;> rfl

/-- An event does to the account what its operations do. -/
theorem money_step (app : BotApp) (ev : AppEvent) :
    (app.step ev).money = ((accountOps app ev).foldl account app).money := by
  cases ev with
  | trigger => rfl
  | slowTimer controllers =>
      simp only [step]
      split
      · exact money_beginKillSwitch controllers app
      · rfl
      · rfl
  | dashboardTimer controllers marks =>
      simp only [step]
      split
      · exact money_beginKillSwitch controllers app
      · rfl
      · rfl
  | tick inp =>
      simp only [step, accountOps]
      cases app.main with
      | ticking stage =>
          cases stage with
          | closedTrades =>
              have hqueue := @money_ops { app with closedTradeQueue := [] } app rfl
                (app.closedTradeQueue.map (.closed inp.now))
              rw [List.foldl_map] at hqueue
              exact hqueue
          | _ => rfl
      | _ => rfl
  | kill inp => exact money_killPart inp app
  | offer caller inp plan => exact money_offer caller inp plan app
  | submit caller env ns now => exact money_submit caller env ns now app
  | drainClosedTrades => rfl
  | executorOp op => rfl

/-- A run of the program keeps the account of its operations, so that what holds of these holds of
    the program. -/
theorem money_run (app : BotApp) (events : List AppEvent) :
    (app.run events).money = ((runOps app events).foldl account app).money := by
  induction events generalizing app with
  | nil => rfl
  | cons ev events ih =>
      rw [runOps, List.foldl_append]
      exact (ih (app.step ev)).trans (money_ops (money_step app ev) _)

end BotApp

end TradeBot
