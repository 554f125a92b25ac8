import Mathlib.Data.List.Sort
import Mathlib.Data.String.Basic
import TradeBot.Domain.Types
import TradeBot.Utils.Numeric

set_option autoImplicit false

/-! # Startup recovery

`executor/StartupRecovery.{hpp,cpp}`: at startup the persisted trades are compared with the positions
and open orders on the exchange. Trades with a position are recovered, positions without a trade get
an emergency stop, and open orders that belong to no recovered trade are adopted by one or cancelled.
The exchange is what the gateway answers from: its positions, and its open orders under unique nonzero
ids; `run` returns the orders it leaves open beside the result.

The loop over the tickers is a fold over `RecoveryState`, which collects the recovered trades, the
log and whether there was any drift, and carries the open orders along. A gateway call that throws
has no effect on the orders and is noted in the log. -/

namespace TradeBot

/-- `PositionUpdate` with the fields recovery reads besides. -/
structure ServerPosition extends PositionUpdate where
  avgPrice : ℚ := 0
  priceIncrement : ℚ := 0
  deriving DecidableEq

/-- `StartupRecovery::Config`. -/
structure RecoveryConfig where
  maxRecoveryStopBps : ℚ := 30
  autoAckOnClean : Bool := true
  orphanCancelPolicy : String := "cancel"
  positionDriftCoin : ℚ := 1 / 100000000

/-- What a recovery works on. -/
structure StartupRecovery where
  cfg : RecoveryConfig := {}
  /-- The active trades of `persister_.load()`, `none` if there is no persisted state. -/
  persisted : Option (List ActiveTrade) := none
  positions : List ServerPosition := []
  orders : List RestOrder := []
  /-- What `place_order` answers to a request, or throws. -/
  placeOrder : PlaceOrderRequest → Except String PlaceOrderResult
  ids_nodup : (orders.map RestOrder.id).Nodup
  ids_ne_zero : ∀ o ∈ orders, o.id ≠ 0

/-- Where the run stands, with the orders open on the exchange. -/
structure RecoveryState where
  recovered : List ActiveTrade := []
  driftDetected : Bool := false
  log : List String := []
  orders : List RestOrder

/-- `StartupRecovery::Result`, with the orders left open on the exchange. -/
structure RecoveryResult where
  autoAck : Bool
  recoveredTrades : List ActiveTrade
  logEntries : List String
  orders : List RestOrder

/-- The order is a stop. -/
def RestOrder.isStop (o : RestOrder) : Bool := decide (o.type = .stopLoss) || decide (o.type = .stop)

/-- One of the trade's order ids is the order's. -/
def ActiveTrade.names (t : ActiveTrade) (o : RestOrder) : Bool :=
  decide (o.id = t.entryOrderId) || decide (o.id = t.stopOrderId) || decide (o.id = t.tp1OrderId) ||
    decide (o.id = t.tp2OrderId)

/-- `is_used`. -/
def RestOrder.usedBy (o : RestOrder) (trades : List ActiveTrade) : Bool :=
  trades.any (fun t => decide (o.id ≠ 0) && t.names o)

namespace StartupRecovery

variable (env : StartupRecovery)

/-- The persisted trades. -/
def activeTrades : List ActiveTrade := env.persisted.getD []

/-- The tickers of the persisted trades and the positions, in order. -/
def tickers : List Ticker :=
  ((env.activeTrades.map (fun t => t.plan.ticker) ++
    env.positions.map (fun p => p.ticker)).dedup).insertionSort (· ≤ ·)

/-- `gateway_.get_open_orders`. -/
def ordersOf (ticker : Ticker) : List RestOrder :=
  env.orders.filter (fun o => decide (o.ticker = ticker))

/-- `pit`: the first position of the ticker that is not below the threshold. -/
def position? (ticker : Ticker) : Option ServerPosition :=
  env.positions.find? (fun p =>
    decide (p.ticker = ticker) && decide (env.cfg.positionDriftCoin < |p.size|))

/-- `ptit`: the first persisted trade of the ticker. -/
def trade? (ticker : Ticker) : Option ActiveTrade :=
  env.activeTrades.find? (fun t => decide (t.plan.ticker = ticker))

/-! ## Positions -/

/-- The recorded size differs from the server's. -/
def sizeDrift (t : ActiveTrade) (p : ServerPosition) : Bool :=
  decide (0 < t.plan.sizeCoin) &&
    decide (env.cfg.positionDriftCoin < |(|p.size| - t.plan.sizeCoin)|)

/-- The price of the emergency stop. -/
def emergencyStopPrice (p : ServerPosition) : ℚ :=
  let stopDist := p.avgPrice * env.cfg.maxRecoveryStopBps / 10000
  roundToTick (p.avgPrice + if p.side = .buy then -stopDist else stopDist) p.priceIncrement

/-- The trade made up for an orphan position, before its stop is placed. -/
def emergencyTrade (ticker : Ticker) (p : ServerPosition) : ActiveTrade where
  plan :=
    { ticker := ticker
      side := p.side
      entryPrice := p.avgPrice
      stopPrice := env.emergencyStopPrice p
      sizeCoin := |p.size| }

/-- The stop for a position without a trade. -/
def emergencyStop (ticker : Ticker) (p : ServerPosition) : PlaceOrderRequest where
  ticker := ticker
  side := p.side.opposite
  type := .stopLoss
  price := env.emergencyStopPrice p
  size := |p.size|
  reduceOnly := true

/-- The order a request leaves open on the exchange. -/
def placed (req : PlaceOrderRequest) (res : PlaceOrderResult) : RestOrder where
  id := res.exchangeId
  ticker := req.ticker
  side := req.side
  type := req.type
  price := req.price
  size := req.size

/-- A persisted trade is taken up. -/
def adoptTrade (ticker : Ticker) (t : ActiveTrade) (p : ServerPosition) (s : RecoveryState) :
    RecoveryState × ActiveTrade :=
  let s := { s with log := s.log ++ ["Recovering active trade for " ++ ticker] }
  if env.sizeDrift t p then
    ({ s with
        driftDetected := true
        log := s.log ++ ["Size drift for " ++ ticker ++ ": server=" ++ stdToString |p.size| ++
          " persisted=" ++ stdToString t.plan.sizeCoin] }, t)
  else (s, t)

/-- An orphan position gets a trade and an emergency stop. -/
def adoptPosition (ticker : Ticker) (p : ServerPosition) (s : RecoveryState) :
    RecoveryState × ActiveTrade :=
  let s := { s with
    driftDetected := true
    log := s.log ++ ["Found orphan position for " ++ ticker ++ ", creating emergency trade"] }
  let t := env.emergencyTrade ticker p
  let req := env.emergencyStop ticker p
  match env.placeOrder req with
  | .ok res =>
      ({ s with
          orders := s.orders ++ [placed req res]
          log := s.log ++ ["Placed emergency stop for " ++ ticker ++ " at " ++
            stdToString t.plan.stopPrice ++ " (id=" ++ toString res.orderId ++ ")"] },
        { t with stopOrderId := res.orderId })
  | .error e =>
      ({ s with
          log := s.log ++ ["ERROR: Failed to place emergency stop for " ++ ticker ++ ": " ++ e] }, t)

/-- What a recovered trade takes from the server. -/
def fromServer (t : ActiveTrade) (p : ServerPosition) : ActiveTrade :=
  { t with
    state := .opened
    executedSize := |p.size|
    avgEntryPrice := p.avgPrice
    avgPriceFix := if 0 < p.avgPriceFix then p.avgPriceFix else p.avgPrice }

/-- The positions part of a round: the trade recovered for the ticker, if any. -/
def recoverPosition (ticker : Ticker) (s : RecoveryState) : RecoveryState × Option ActiveTrade :=
  match env.position? ticker, env.trade? ticker with
  | some p, t? =>
      let (s, t) := match t? with
        | some t => env.adoptTrade ticker t p s
        | none => env.adoptPosition ticker p s
      if (env.ordersOf ticker).any RestOrder.isStop then (s, some (fromServer t p))
      else
        ({ s with
            log := s.log ++ ["WARNING: No stop-loss on exchange for recovered " ++ ticker ++
              " — will be re-armed by executor tick"] }, some (fromServer t p))
  | none, some _ =>
      ({ s with
          driftDetected := true
          log := s.log ++ ["Persisted trade for " ++ ticker ++
            " but no position on server. Closing locally."] }, none)
  | none, none => (s, none)

/-! ## Orders -/

/-- `gateway_.cancel_order`. -/
def cancelOrder (o : RestOrder) (s : RecoveryState) : RecoveryState :=
  { s with orders := s.orders.filter (fun o' => decide (o'.id ≠ o.id)) }

/-- An order that belongs to nothing is cancelled, if the policy says so. -/
def cancelOrphan (ticker : Ticker) (o : RestOrder) (s : RecoveryState) : RecoveryState :=
  if env.cfg.orphanCancelPolicy = "cancel" then
    cancelOrder o
      { s with log := s.log ++ ["Cancelling orphan order " ++ toString o.id ++ " for " ++ ticker] }
  else s

/-- One round of the loop over the ticker's open orders. `st.2` is the trade recovered for the ticker,
    which stands after those in `st.1.recovered`. -/
def handleOrder (ticker : Ticker) (st : RecoveryState × Option ActiveTrade) (o : RestOrder) :
    RecoveryState × Option ActiveTrade :=
  let (s, t?) := st
  if o.usedBy (s.recovered ++ t?.toList) then (s, t?)
  else
    match t? with
    | some t =>
        if o.isStop ∧ t.stopOrderId = 0 then
          ({ s with
              log := s.log ++ ["Assigned existing SL id=" ++ toString o.id ++ " to recovered " ++
                ticker] }, some { t with stopOrderId := o.id })
        else if o.type = .takeProfit ∧ t.tp1OrderId = 0 then
          ({ s with
              log := s.log ++ ["Assigned existing TP id=" ++ toString o.id ++ " to recovered " ++
                ticker] }, some { t with tp1OrderId := o.id })
        else (env.cancelOrphan ticker o s, some t)
    | none => (env.cancelOrphan ticker o s, none)

/-- One round of the loop over the tickers. The open orders were fetched before the loop. -/
def recoverTicker (s : RecoveryState) (ticker : Ticker) : RecoveryState :=
  let (s, t?) := (env.ordersOf ticker).foldl (env.handleOrder ticker) (env.recoverPosition ticker s)
  { s with recovered := s.recovered ++ t?.toList }

/-! ## The run -/

/-- The state before the first ticker. -/
def start : RecoveryState where
  log := match env.persisted with
    | some _ => []
    | none => ["No persisted state found, checking for orphans"]
  orders := env.orders

/-- `run`: ticker by ticker, then the summary. -/
def run : RecoveryResult :=
  let s := env.tickers.foldl env.recoverTicker env.start
  { autoAck := env.cfg.autoAckOnClean && !s.driftDetected
    recoveredTrades := s.recovered
    logEntries :=
      if s.driftDetected then
        s.log ++ ["Significant drift detected between persisted and server state. " ++
          "Manual ack required."]
      else s.log
    orders := s.orders }

end StartupRecovery

end TradeBot
