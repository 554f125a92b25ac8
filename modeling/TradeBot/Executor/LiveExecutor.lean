import Mathlib.Data.String.Basic
import TradeBot.Lib.BucketMap
import TradeBot.Executor.OrderUpdates

set_option autoImplicit false

/-! # LiveExecutor

`executor/LiveExecutor.{hpp,cpp}`: the public operations of the executor as functions on its state,
`Op`, the list of these operations with their arguments, and `run`, which performs a list of them.
Each operation holds the executor's mutex (or, in `tick` and `submit`, calls the gateway between two
locked sections); they are atomic here, except that `submit` is also given in its three parts, for
the interleavings with the WebSocket thread.

Logging, metrics and latency tracing are left out. -/

namespace TradeBot

open KeyedPass

/-- The executor: its members, the trades by ticker and the published snapshot. -/
structure LiveExecutor extends Members where
  trades : BucketMap Ticker ActiveTrade := []
  activeSnapshot : List ActiveTrade := []

namespace LiveExecutor

/-- A newly constructed executor. -/
def init (cfg : ExecutorConfig) : LiveExecutor := { cfg := cfg }

/-- All trades, in ticker order and then list order. -/
def allTrades (ex : LiveExecutor) : List ActiveTrade := ex.trades.values

/-- A trade as `get_active_trades` shows it. -/
def withUnrealizedPnl (m : Members) (t : ActiveTrade) : ActiveTrade :=
  match m.markPrices.lookup t.plan.ticker with
  | some mark =>
      if t.state = .opened then
        { t with unrealizedPnl := realizedPnl t.plan.side t.avgEntryPrice mark t.executedSize }
      else t
  | none => t

/-- `rebuild_active_snapshot_`. -/
def rebuildActiveSnapshot (ex : LiveExecutor) : LiveExecutor :=
  { ex with activeSnapshot := ex.allTrades.map (withUnrealizedPnl ex.toMembers) }

/-- `get_active_trades`. -/
def getActiveTrades (ex : LiveExecutor) : List ActiveTrade := ex.activeSnapshot

/-- The state after a loop that returned new members and trades. -/
def ofPass (ex : LiveExecutor) (r : Members × BucketMap Ticker ActiveTrade) : LiveExecutor :=
  { ex with toMembers := r.1, trades := r.2 }

/-! ## Submitting -/

/-- `generate_client_order_id`: `tb-<nanoseconds>-<sequence>`. -/
def generateClientOrderId (ns seq : ℕ) : String :=
  let hex (width n : ℕ) : String :=
    let digits := Nat.toDigits 16 n
    .ofList (List.replicate (width - digits.length) '0' ++ digits)
  "tb-" ++ hex 16 ns ++ "-" ++ hex 8 seq

/-- The locals of `submit` that outlive its first locked section. -/
structure InFlight where
  trade : ActiveTrade
  req : PlaceOrderRequest

/-- First locked section of `submit`: reserve the balance and prepare the request. -/
def submitReserve (ns : ℕ) (plan : TradePlan) (ex : LiveExecutor) : LiveExecutor × InFlight :=
  let clientId := generateClientOrderId ns ex.clientSeq
  ({ ex with
      clientSeq := ex.clientSeq + 1
      nextUid := ex.nextUid + 1
      reservedBalanceUsd := ex.reservedBalanceUsd + plan.sizeCoin * plan.entryPrice },
    { trade := { plan := plan, entryClientOrderId := clientId, uid := ex.nextUid }
      req := { ticker := plan.ticker, side := plan.side, price := plan.entryPrice,
               size := plan.sizeCoin, type := plan.entryType, clientOrderId := clientId } })

/-- The unlocked `place_order` of `submit`. -/
def submitPlace (env : Env) (f : InFlight) (ex : LiveExecutor) :
    LiveExecutor × Except String PlaceOrderResult :=
  let r := ex.toMembers.placeOrder env f.trade.uid f.req
  ({ ex with toMembers := r.1 }, r.2)

/-- `++error_streak_` and its alert, in `submit`'s catch block. -/
def countError (uid : ℕ) (m : Members) : Members :=
  let m := { m with errorStreak := m.errorStreak + 1 }
  if m.cfg.exchangeErrorStreakLimit ≤ m.errorStreak then
    m.alert uid ("Exchange error streak hit: " ++ toString m.errorStreak ++ " errors in a row.")
  else m

/-- Last locked section of `submit`, on success and in the catch block. -/
def submitPush (now : TimePoint) (f : InFlight) (res : Except String PlaceOrderResult)
    (ex : LiveExecutor) : LiveExecutor :=
  match res with
  | .ok _ =>
      rebuildActiveSnapshot
        { ex with errorStreak := 0, trades := ex.trades.push f.trade.plan.ticker f.trade }
  | .error _ =>
      let plan := f.trade.plan
      let m := (countError f.trade.uid ex.toMembers).releaseReservation plan
      -- every intent carries local id 0
      let intent : OrderIntent :=
        { localOrderId := 0, ticker := plan.ticker, side := plan.side, type := plan.entryType,
          price := plan.entryPrice, size := plan.sizeCoin }
      let m := { m with reconciliator := (m.reconciliator.enterSubmitUnknown intent now).1 }
      rebuildActiveSnapshot
        { ex with
            toMembers := m
            trades := ex.trades.push plan.ticker { f.trade with state := .submitUnknown } }

/-- `submit`. -/
def submit (env : Env) (ns : ℕ) (now : TimePoint) (plan : TradePlan) (ex : LiveExecutor) :
    LiveExecutor :=
  let (ex, f) := submitReserve ns plan ex
  let (ex, res) := submitPlace env f ex
  submitPush now f res ex

/-! ## Cancelling, recovering, draining -/

/-- One turn of `cancel_all`'s loop. -/
def cancelTrade (m : Members) (t : ActiveTrade) : Members × ActiveTrade :=
  if t.state = .closed then (m, t)
  else
    (if t.state = .pendingEntry then m.releaseReservation t.plan else m,
      { t with state := .cancelling })

/-- `cancel_all`. If the gateway throws, so does `cancel_all`, having changed nothing. -/
def cancelAll (env : Env) (ticker : Ticker) (ex : LiveExecutor) : LiveExecutor × Except String Unit :=
  let res := env.cancelAllOrders ex.trace.length ticker
  let ex := { ex with toMembers := ex.emit (.cancelledAll ticker res) }
  match res with
  | .error e => (ex, .error e)
  | .ok _ =>
      ((ex.ofPass (ex.trades.forKey ticker (mapAccum cancelTrade) ex.toMembers)).rebuildActiveSnapshot,
        .ok ())

/-- `trades_[t.plan.ticker].push_back(t)` for one recovered trade. -/
def injectOne (ex : LiveExecutor) (t : ActiveTrade) : LiveExecutor :=
  { ex with
      nextUid := ex.nextUid + 1
      trades := ex.trades.push t.plan.ticker { t with uid := ex.nextUid } }

/-- `inject_recovered_trades`. -/
def injectRecoveredTrades (ts : List ActiveTrade) (ex : LiveExecutor) : LiveExecutor :=
  (ts.foldl injectOne ex).rebuildActiveSnapshot

/-- `pop_closed_trades`: hand out the closed-trade buffer and purge the closed trades. -/
def popClosedTrades (ex : LiveExecutor) : LiveExecutor × List ClosedTrade :=
  (rebuildActiveSnapshot
    { ex with
        closedTrades := []
        trades := BucketMap.filterValues (fun t => decide (t.state ≠ .closed)) ex.trades },
    ex.closedTrades)

/-! ## Market and account data -/

/-- `set_mark_prices`. -/
def setMarkPrices (marks : AList (fun _ : Ticker => ℚ)) (ex : LiveExecutor) : LiveExecutor :=
  rebuildActiveSnapshot { ex with markPrices := marks }

/-- `set_mark_price`. -/
def setMarkPrice (ticker : Ticker) (price : ℚ) (ex : LiveExecutor) : LiveExecutor :=
  rebuildActiveSnapshot { ex with markPrices := ex.markPrices.insert ticker price }

/-- One turn of `on_position_update`'s loop. -/
def applyPositionUpdate (upd : PositionUpdate) (m : Members) (t : ActiveTrade) :
    Members × ActiveTrade :=
  (m, if t.state ≠ .closed ∧ t.plan.side = upd.side then { t with avgPriceFix := upd.avgPriceFix }
      else t)

/-- `on_position_update`. -/
def onPositionUpdate (upd : PositionUpdate) (ex : LiveExecutor) : LiveExecutor :=
  (ex.ofPass (ex.trades.forKey upd.ticker (mapAccum (applyPositionUpdate upd))
    ex.toMembers)).rebuildActiveSnapshot

/-- `on_balance_update`. -/
def onBalanceUpdate (now : TimePoint) (ex : LiveExecutor) : LiveExecutor :=
  { ex with lastBalanceUpdate := now }

/-- The trade of the ticker that takes an update, with the role the update has for it. -/
def route (upd : OrderUpdate) (ex : LiveExecutor) : Option (ActiveTrade × OrderMatch) :=
  (ex.trades.find? upd.ticker).bind
    (fun ts => ts.findSome? (fun t => (selectTrade upd t).map (fun om => (t, om))))

/-- `on_order_update`: the first trade of the ticker that takes the update handles it. -/
def onOrderUpdate (env : Env) (upd : OrderUpdate) (ex : LiveExecutor) : LiveExecutor :=
  let ex := { ex with toMembers := ex.emit (.reported upd) }
  let pass (m : Members) (ts : List ActiveTrade) : Members × List ActiveTrade :=
    (updateFirst? (selectTrade upd) (applyOrderUpdate env upd) m ts).getD (m, ts)
  (ex.ofPass (ex.trades.forKey upd.ticker pass ex.toMembers)).rebuildActiveSnapshot

/-! ## Closing -/

/-- One turn of `close_trade`'s loop. -/
def closeTradeTurn (env : Env) (reason : String) (m : Members) (t : ActiveTrade) :
    Members × ActiveTrade :=
  if t.state = .opened ∧ 0 < t.executedSize then closeAndRecord env reason m t else (m, t)

/-- `close_trade`. -/
def closeTrade (env : Env) (ticker : Ticker) (reason : String) (ex : LiveExecutor) : LiveExecutor :=
  (ex.ofPass (ex.trades.forKey ticker (mapAccum (closeTradeTurn env reason))
    ex.toMembers)).rebuildActiveSnapshot

/-! ## The timer -/

/-- The reservation timeout at the head of `tick`. -/
def expireReservation (now : TimePoint) (m : Members) : Members :=
  if 0 < m.reservedBalanceUsd ∧ m.cfg.balanceReservationTimeout < now - m.lastBalanceUpdate then
    { m with reservedBalanceUsd := 0 }
  else m

/-- Phase 1 of `tick`: note down a close action for every trade that a post-entry rule closes, and
    mark these trades. -/
def tickCollect (now : TimePoint) (ex : LiveExecutor) : LiveExecutor × List CloseAction :=
  let m := expireReservation now ex.toMembers
  let mark (t : ActiveTrade) : ActiveTrade :=
    if (closeAction? m now t).isSome then t.markClosing else t
  (rebuildActiveSnapshot
    { ex with toMembers := m, trades := BucketMap.mapValues mark ex.trades },
    ex.allTrades.filterMap (closeAction? m now))

/-- Phase 2 of `tick`. -/
def tickClose (env : Env) (acts : List CloseAction) (ex : LiveExecutor) : LiveExecutor :=
  { ex with toMembers := acts.foldl (execCloseAction env) ex.toMembers }

/-- One turn of the re-arm loop. -/
def rearmTurn (env : Env) (now : TimePoint) (m : Members) (t : ActiveTrade) :
    Members × ActiveTrade :=
  if rearmDue now t then placeStops env m t else (m, t)

/-- Does a reconciliation result for `intent` concern the trade? -/
def selectUnknown (intent : OrderIntent) (t : ActiveTrade) : Option Unit :=
  if t.state = .submitUnknown ∧ intent.side = t.plan.side ∧
      |intent.size - t.plan.sizeCoin| ≤ max intent.size t.plan.sizeCoin * (1 / 10000) then some ()
  else none

/-- The record of a submission that was never found: zero prices and size. -/
def timeoutRecord (m : Members) (t : ActiveTrade) : ClosedTrade :=
  { emergencyRecord m t "SubmitUnknownTimeout" with entryPrice := 0, exitPrice := 0, sizeFilled := 0 }

/-- What a reconciliation result does to the trade it concerns. -/
def applyReconciled (res : ReconcileResult) (m : Members) (t : ActiveTrade) (_ : Unit) :
    Members × ActiveTrade :=
  match res.outcome with
  | .pending => (m, t)
  | .resolved =>
      (m, { t with entryOrderId := res.serverOrderId.getD t.entryOrderId, state := .pendingEntry })
  | .notFoundTimeout =>
      let m := m.alert t.uid ("SubmitUnknown timed out on " ++ t.plan.ticker ++ " — manual ack needed")
      let m := m.releaseReservation t.plan
      let t := { t with state := .closed }
      (m.pushClosed t.uid (timeoutRecord m t), t)

/-- `handle_reconciled_`. -/
def handleReconciled (ex : LiveExecutor) (res : ReconcileResult) : LiveExecutor :=
  if res.outcome = .pending then ex
  else
    match res.intent with
    | none => ex
    | some intent =>
        rebuildActiveSnapshot (ex.ofPass
          ((ex.trades.updateFirst? (selectUnknown intent) (applyReconciled res) ex.toMembers).getD
            (ex.toMembers, ex.trades)))

/-- `reconciliator_.poll_open_orders`, fetching through the gateway. -/
def pollOpenOrders (env : Env) (ticker : Ticker) (now : TimePoint) (m : Members) :
    Members × List ReconcileResult :=
  let key := toInternalTicker ticker
  let (out, due) := m.reconciliator.pollDue key now
  if due = [] then (m, out)
  else
    let orders := (env.getOpenOrders m.trace.length key).toOption
    let (r, results) := m.reconciliator.pollSettle key now due orders out
    ({ m.emit (.fetched key) with reconciliator := r }, results)

/-- One turn of `tick`'s last loop: re-arm the ticker's missing stops, or poll its unknown
    submissions. -/
def tickTicker (env : Env) (now : TimePoint) (ex : LiveExecutor) (ticker : Ticker) : LiveExecutor :=
  if ex.reconciliator.hasPending ticker then
    let r := pollOpenOrders env ticker now ex.toMembers
    r.2.foldl handleReconciled { ex with toMembers := r.1 }
  else
    rebuildActiveSnapshot
      (ex.ofPass (ex.trades.forKey ticker (mapAccum (rearmTurn env now)) ex.toMembers))

/-- `tick`. -/
def tick (env : Env) (now : TimePoint) (ex : LiveExecutor) : LiveExecutor :=
  let tickers := ex.trades.map Prod.fst
  let (ex, acts) := tickCollect now ex
  tickers.foldl (tickTicker env now) (tickClose env acts ex)

/-! ## Runs -/

/-- The public operations. -/
inductive Op
  | submit (env : Env) (ns : ℕ) (now : TimePoint) (plan : TradePlan)
  | cancelAll (env : Env) (ticker : Ticker)
  | injectRecoveredTrades (ts : List ActiveTrade)
  | popClosedTrades
  | setMarkPrices (marks : AList (fun _ : Ticker => ℚ))
  | setMarkPrice (ticker : Ticker) (price : ℚ)
  | onOrderUpdate (env : Env) (upd : OrderUpdate)
  | onPositionUpdate (upd : PositionUpdate)
  | onBalanceUpdate (now : TimePoint)
  | tick (env : Env) (now : TimePoint)
  | closeTrade (env : Env) (ticker : Ticker) (reason : String)

/-- The executor after an operation. -/
def step (ex : LiveExecutor) : Op → LiveExecutor
  | .submit env ns now plan => ex.submit env ns now plan
  | .cancelAll env ticker => (ex.cancelAll env ticker).1
  | .injectRecoveredTrades ts => ex.injectRecoveredTrades ts
  | .popClosedTrades => ex.popClosedTrades.1
  | .setMarkPrices marks => ex.setMarkPrices marks
  | .setMarkPrice ticker price => ex.setMarkPrice ticker price
  | .onOrderUpdate env upd => ex.onOrderUpdate env upd
  | .onPositionUpdate upd => ex.onPositionUpdate upd
  | .onBalanceUpdate now => ex.onBalanceUpdate now
  | .tick env now => ex.tick env now
  | .closeTrade env ticker reason => ex.closeTrade env ticker reason

/-- Perform a list of operations. -/
def run (ex : LiveExecutor) (ops : List Op) : LiveExecutor := ops.foldl step ex

/-- A long trade is opened through a working gateway: stop 3 and target 4 rest on the exchange. -/
def openedRun : LiveExecutor :=
  (init {}).run [.submit .accepting 0 0 samplePlan, .onOrderUpdate .accepting (sampleFill 1)]

/-- The trade of `openedRun`. -/
def openedTrade : ActiveTrade :=
  { plan := samplePlan, entryOrderId := 1, stopOrderId := 3, tp1OrderId := 4,
    entryClientOrderId := generateClientOrderId 0 0, state := .opened, executedSize := 1,
    avgEntryPrice := 100 }

example : openedRun.allTrades = [openedTrade] := by decide +kernel

/-- The states some sequence of operations leads to. -/
def Reachable (ex : LiveExecutor) : Prop := ∃ cfg ops, (init cfg).run ops = ex

end LiveExecutor

end TradeBot
