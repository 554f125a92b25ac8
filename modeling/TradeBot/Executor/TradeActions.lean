import TradeBot.Executor.Trace
import TradeBot.Trading.OrderReconciliator

set_option autoImplicit false

/-! # What the executor does to a single trade

The private helpers of `LiveExecutor` that act on one `ActiveTrade`: `place_stops_`,
`emergency_close_trade_`, `record_emergency_close_`, and the market close that `tick` sends in its
second phase. Each takes the executor's other members and the trade and returns both.

`Members` holds the members of `LiveExecutor` apart from `trades_` and the published snapshot.

A call of the gateway appends its request and the answer to the trace, and so does a record or an
alert. An answer that is an exception ends an action where the source catches it, with what was done
before left standing. -/

namespace TradeBot

/-- `LiveExecutor::Config`. -/
structure ExecutorConfig where
  exchangeErrorStreakLimit : ℕ := 5
  balanceReservationTimeout : ℤ := 1000 * nsPerMs
  maxEntrySlippageBps : ℚ := 5
  maxSinglePositionLossPct : ℚ := 3 / 2

/-- The members of `LiveExecutor` besides `trades_`. `nextUid` and `trace` are not in the source. -/
structure Members where
  cfg : ExecutorConfig := {}
  closedTrades : List ClosedTrade := []
  markPrices : AList (fun _ : Ticker => ℚ) := ∅
  reconciliator : OrderReconciliator := {}
  errorStreak : ℕ := 0
  reservedBalanceUsd : ℚ := 0
  lastBalanceUpdate : TimePoint := 0
  clientSeq : ℕ := 0
  nextUid : ℕ := 0
  trace : List Event := []

namespace Members

variable (m : Members)

/-- An event is added to the trace. -/
def emit (e : Event) : Members := { m with trace := m.trace ++ [e] }

@[simp] theorem emit_trace (e : Event) : (m.emit e).trace = m.trace ++ [e] := rfl

/-- `alert_cb_(msg)`. -/
def alert (uid : ℕ) (msg : String) : Members := m.emit (.alerted uid msg)

/-- `gateway_.place_order(connection_id_, req)` on behalf of trade `uid`. -/
def placeOrder (env : Env) (uid : ℕ) (req : PlaceOrderRequest) :
    Members × Except String PlaceOrderResult :=
  (m.emit (.placed uid req (env.placeOrder m.trace.length req)),
    env.placeOrder m.trace.length req)

/-- `gateway_.cancel_order(connection_id_, id, ticker)` on behalf of trade `uid`. -/
def cancelOrder (env : Env) (uid : ℕ) (id : OrderId) (ticker : Ticker) :
    Members × Except String Unit :=
  (m.emit (.cancelled uid id ticker (env.cancelOrder m.trace.length id ticker)),
    env.cancelOrder m.trace.length id ticker)

/-- `closed_trades_.push_back(ct)`. -/
def pushClosed (uid : ℕ) (ct : ClosedTrade) : Members :=
  { m.emit (.recorded uid ct) with closedTrades := m.closedTrades ++ [ct] }

/-- `reserved_balance_usd_ = max(0, reserved_balance_usd_ - size_coin * entry_price)`. -/
def releaseReservation (plan : TradePlan) : Members :=
  { m with reservedBalanceUsd := max 0 (m.reservedBalanceUsd - plan.sizeCoin * plan.entryPrice) }

@[simp] theorem releaseReservation_trace (plan : TradePlan) :
    (m.releaseReservation plan).trace = m.trace := rfl

/-- The exchange mark of `ticker` if there is a positive one, else `fallback`. -/
def estimatedExit (ticker : Ticker) (fallback : ℚ) : ℚ :=
  match m.markPrices.lookup ticker with
  | some mark => if 0 < mark then mark else fallback
  | none => fallback

end Members

/-- The reduce-only order on the closing side that every exit order of a trade is. -/
def ActiveTrade.exitRequest (t : ActiveTrade) (type : OrderType) (price size : ℚ) :
    PlaceOrderRequest :=
  { ticker := t.plan.ticker, side := t.plan.side.opposite, price := price, size := size,
    type := type, reduceOnly := true }

/-- The market order that closes what the trade has executed. -/
def ActiveTrade.marketClose (t : ActiveTrade) : PlaceOrderRequest :=
  t.exitRequest .market 0 t.executedSize

/-! ## Stops and targets -/

/-- Cancel the stop the trade knows of; `none` if the gateway refuses. -/
def cancelOldStop (env : Env) (m : Members) (t : ActiveTrade) : Members × Option ActiveTrade :=
  if t.stopOrderId ≠ 0 then
    let (m, res) := m.cancelOrder env t.uid t.stopOrderId t.plan.ticker
    match res with
    | .ok _ => (m, some { t with stopOrderId := 0 })
    | .error _ => (m, none)
  else (m, some t)

/-- Cancel the TP1 order the trade knows of; the flag is `tp1_cancel_failed`. -/
def cancelOldTp1 (env : Env) (m : Members) (t : ActiveTrade) : Members × ActiveTrade × Bool :=
  if t.tp1OrderId ≠ 0 then
    let (m, res) := m.cancelOrder env t.uid t.tp1OrderId t.plan.ticker
    match res with
    | .ok _ => (m, { t with tp1OrderId := 0 }, false)
    | .error _ => (m, t, true)
  else (m, t, false)

/-- The stop of `place_stops_`. Its id is kept if the answer has one. -/
def placeStopLoss (env : Env) (m : Members) (t : ActiveTrade) : Members × ActiveTrade :=
  let (m, res) := m.placeOrder env t.uid (t.exitRequest .stopLoss t.plan.stopPrice t.executedSize)
  match res with
  | .ok r => (m, { t with stopOrderId := r.orderId })
  | .error e =>
      (m.alert t.uid ("CRITICAL: SL placement failed for " ++ t.plan.ticker ++ ": " ++ e), t)

/-- The TP1 share of the executed size, rounded down to the exchange's size increment. -/
def tp1Size (instrument : TickerMeta) (t : ActiveTrade) : ℚ :=
  let raw := t.executedSize * t.plan.tp1SizeRatio
  if 0 < instrument.sizeIncrement then
    ⌊raw / instrument.sizeIncrement + 1 / 1000000000⌋ * instrument.sizeIncrement
  else raw

/-- The target of `place_stops_`. -/
def placeTp1 (env : Env) (tp1CancelFailed : Bool) (m : Members) (t : ActiveTrade) :
    Members × ActiveTrade :=
  if 0 < t.plan.tp1Price ∧ tp1CancelFailed = false then
    let instrument := (env.tickerMeta t.plan.ticker).getD .fallback
    if instrument.minSize ≤ tp1Size instrument t then
      let (m, res) := m.placeOrder env t.uid
        (t.exitRequest .takeProfit t.plan.tp1Price (tp1Size instrument t))
      match res with
      | .ok r => (m, { t with tp1OrderId := r.orderId })
      | .error e =>
          (m.alert t.uid ("CRITICAL: TP1 placement failed for " ++ t.plan.ticker ++ ": " ++ e), t)
    else (m, t)
  else (m, t)

/-- `place_stops_`. -/
def placeStops (env : Env) (m : Members) (t : ActiveTrade) : Members × ActiveTrade :=
  if t.state ≠ .opened then (m, t)
  else if t.executedSize ≤ 0 then
    (m.alert t.uid
      ("CRITICAL: Cannot place stops for " ++ t.plan.ticker ++ " — executed_size is zero"), t)
  else
    match cancelOldStop env m t with
    | (m, none) => (m, t)
    | (m, some t) =>
        let (m, t, tp1CancelFailed) := cancelOldTp1 env m t
        let (m, t) := placeStopLoss env m t
        placeTp1 env tp1CancelFailed m t

/-! ## Closing at market -/

/-- Cancel the order `id` if it is known, ignoring a refusal. -/
def dropOrder (env : Env) (uid : ℕ) (ticker : Ticker) (id : OrderId) (m : Members) : Members :=
  if id ≠ 0 then (m.cancelOrder env uid id ticker).1 else m

/-- `emergency_close_trade_`. -/
def emergencyCloseTrade (env : Env) (m : Members) (t : ActiveTrade) : Members × ActiveTrade :=
  let m := dropOrder env t.uid t.plan.ticker t.stopOrderId m
  let m := dropOrder env t.uid t.plan.ticker t.tp1OrderId m
  let t := { t with stopOrderId := 0, tp1OrderId := 0 }
  let (m, res) := m.placeOrder env t.uid t.marketClose
  match res with
  | .ok _ => (m, { t with state := .closed })
  | .error _ => (m, t)

/-- The record `record_emergency_close_` makes. -/
def emergencyRecord (m : Members) (t : ActiveTrade) (reason : String) : ClosedTrade :=
  let exit := m.estimatedExit t.plan.ticker t.avgEntryPrice
  { plan := t.plan, entryPrice := t.avgEntryPrice, exitPrice := exit, sizeFilled := t.executedSize,
    pnlUsd := realizedPnl t.plan.side t.avgEntryPrice exit t.executedSize, reason := reason }

/-- `record_emergency_close_`. -/
def recordEmergencyClose (m : Members) (t : ActiveTrade) (reason : String) : Members :=
  m.pushClosed t.uid (emergencyRecord m t reason)

/-- `emergency_close_trade_` followed by `record_emergency_close_`, as `close_trade` and the failed
    break-even stop run them. The record is made whether or not the close was sent. -/
def closeAndRecord (env : Env) (reason : String) (m : Members) (t : ActiveTrade) :
    Members × ActiveTrade :=
  let (m, t) := emergencyCloseTrade env m t
  (recordEmergencyClose m t reason, t)

/-! ## Post-entry invalidation -/

/-- Seconds since the trade opened. -/
def ActiveTrade.elapsedSec (t : ActiveTrade) (now : TimePoint) : ℚ :=
  (now - t.openedAt : ℤ) / nsPerSec

/-- `no_progress_timeout_sec`: the price has not moved in the trade's favour. -/
def noProgress (t : ActiveTrade) (mark : ℚ) : Bool :=
  decide ((t.plan.side = .buy ∧ mark ≤ t.avgEntryPrice * (10001 / 10000)) ∨
    (t.plan.side = .sell ∧ t.avgEntryPrice * (9999 / 10000) ≤ mark))

/-- The move in the trade's favour, in basis points of the entry price. -/
def moveBps (t : ActiveTrade) (mark : ℚ) : ℚ :=
  if t.plan.side = .buy then (mark - t.avgEntryPrice) / t.avgEntryPrice * kBpsBase
  else (t.avgEntryPrice - mark) / t.avgEntryPrice * kBpsBase

/-- R14: the loss of the position in percent of the entry price. -/
def lossPct (t : ActiveTrade) (mark : ℚ) : ℚ :=
  if t.plan.side = .buy then (t.avgEntryPrice - mark) / t.avgEntryPrice * 100
  else (mark - t.avgEntryPrice) / t.avgEntryPrice * 100

/-- The first of `tick`'s post-entry rules that fires for a trade, by the name it records. `tick`
    looks the mark up under the map key, which is the plan's ticker (`LiveExecutor.WF`). -/
def closeReason? (m : Members) (now : TimePoint) (t : ActiveTrade) : Option String :=
  if t.state ≠ .opened then none
  else if t.executedSize ≤ 0 ∨ t.avgEntryPrice ≤ 0 then none
  else
    match m.markPrices.lookup t.plan.ticker with
    | none => none
    | some mark =>
        if mark ≤ 0 then none
        else if t.plan.noProgressTimeoutSec < t.elapsedSec now ∧ noProgress t mark then
          some "NoProgress"
        else if t.plan.postEntryGraceSec < t.elapsedSec now ∧ 0 < t.plan.minFollowThroughBps ∧
            moveBps t mark < t.plan.minFollowThroughBps then
          some "FollowThrough"
        else if m.cfg.maxSinglePositionLossPct < lossPct t mark then some "R14"
        else none

/-- `CloseAction`: what phase 1 of `tick` notes down for phase 2. -/
structure CloseAction where
  trade : ActiveTrade
  reason : String
  estExitPrice : ℚ

/-- The record phase 2 makes of an action. -/
def CloseAction.record (act : CloseAction) : ClosedTrade :=
  let t := act.trade
  { plan := t.plan, entryPrice := t.avgEntryPrice, exitPrice := act.estExitPrice,
    sizeFilled := t.executedSize,
    pnlUsd := realizedPnl t.plan.side t.avgEntryPrice act.estExitPrice t.executedSize,
    reason := act.reason }

/-- Phase 1 of `tick` for one trade. -/
def closeAction? (m : Members) (now : TimePoint) (t : ActiveTrade) : Option CloseAction :=
  (closeReason? m now t).map (fun reason =>
    { trade := t, reason := reason,
      estExitPrice := m.estimatedExit t.plan.ticker t.avgEntryPrice })

/-- Phase 2 of `tick` for one action: cancel the exits, send the market close, and record it whether
    or not it was sent. -/
def execCloseAction (env : Env) (m : Members) (act : CloseAction) : Members :=
  let t := act.trade
  let m := dropOrder env t.uid t.plan.ticker t.stopOrderId m
  let m := dropOrder env t.uid t.plan.ticker t.tp1OrderId m
  let (m, _) := m.placeOrder env t.uid t.marketClose
  m.pushClosed t.uid act.record

/-- The state phase 1 leaves a trade with an action in. -/
def ActiveTrade.markClosing (t : ActiveTrade) : ActiveTrade := { t with state := .emergencyClosing }

/-- `tick`'s re-arm test: an open trade without a known stop, more than five seconds old. -/
def rearmDue (now : TimePoint) (t : ActiveTrade) : Bool :=
  decide (t.state = .opened) && decide (t.stopOrderId = 0) &&
    decide (5 * nsPerSec < now - t.openedAt)

end TradeBot
