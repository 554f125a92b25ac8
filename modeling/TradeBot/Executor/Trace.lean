import TradeBot.Domain.Types

set_option autoImplicit false

/-! # The executor's surroundings and its trace

`Env` is what `LiveExecutor` calls out to during one operation: the order gateway, which may answer
anything or throw at each call, and the ticker universe's metadata. A call is numbered by the length
of the trace at that moment, so an `Env` covers every pattern of answers and failures.

The trace is the history of one executor: every gateway call with its answer, every order update the
exchange reported, every alert and every `ClosedTrade` record. It is not in the source; `uid` says
for which trade a call was made. From it we read off the exchange's side of the story: which orders
of a trade are live (`liveOrders`). -/

namespace TradeBot

/-- The gateway and the universe as one operation sees them; `.error` is a thrown exception carrying
    its `what()`. -/
structure Env where
  placeOrder : ℕ → PlaceOrderRequest → Except String PlaceOrderResult
  cancelOrder : ℕ → OrderId → Ticker → Except String Unit
  cancelAllOrders : ℕ → Ticker → Except String Unit
  getOpenOrders : ℕ → Ticker → Except String (List RestOrder)
  tickerMeta : Ticker → Option TickerMeta

/-- The gateway answers every call. -/
structure Env.NeverThrows (env : Env) : Prop where
  placeOrder : ∀ n req, ∃ res, env.placeOrder n req = .ok res
  cancelOrder : ∀ n id ticker, env.cancelOrder n id ticker = .ok ()
  cancelAllOrders : ∀ n ticker, env.cancelAllOrders n ticker = .ok ()

/-- The gateway accepts every reduce-only market order. -/
def Env.AcceptsCloses (env : Env) : Prop :=
  ∀ n req, req.type = .market → req.reduceOnly = true → ∃ res, env.placeOrder n req = .ok res

/-- A gateway that refuses the placements `refuse` picks and accepts everything else, answering the
    number of the call (from one on) as order id. -/
def Env.refusing (refuse : PlaceOrderRequest → Bool) : Env where
  placeOrder := fun n req =>
    if refuse req then .error "HTTP 500"
    else .ok { orderId := n + 1, exchangeId := n + 1,
               exchangeId_ne_zero := by exact_mod_cast Nat.succ_ne_zero n, orderId_eq := Or.inr rfl }
  cancelOrder := fun _ _ _ => .ok ()
  cancelAllOrders := fun _ _ => .ok ()
  getOpenOrders := fun _ _ => .ok []
  tickerMeta := fun _ => none

/-- A gateway that accepts everything but answers no order ids, as the documented answer to
    `POST /orders` may. -/
def Env.anonymous : Env :=
  { Env.refusing (fun _ => false) with
    placeOrder := fun n _ =>
      .ok { orderId := 0, exchangeId := n + 1,
            exchangeId_ne_zero := by exact_mod_cast Nat.succ_ne_zero n, orderId_eq := Or.inl rfl } }

/-- A gateway that accepts everything. -/
def Env.accepting : Env := .refusing (fun _ => false)

theorem Env.accepting_neverThrows : Env.accepting.NeverThrows :=
  ⟨fun _ _ => ⟨_, rfl⟩, fun _ _ _ => rfl, fun _ _ => rfl⟩

theorem Env.NeverThrows.acceptsCloses {env : Env} (h : env.NeverThrows) : env.AcceptsCloses :=
  fun n req _ _ => h.placeOrder n req

/-- What happened between the executor and its surroundings. -/
inductive Event
  | placed (uid : ℕ) (req : PlaceOrderRequest) (res : Except String PlaceOrderResult)
  | cancelled (uid : ℕ) (orderId : OrderId) (ticker : Ticker) (res : Except String Unit)
  | cancelledAll (ticker : Ticker) (res : Except String Unit)
  | fetched (ticker : Ticker)
  | reported (upd : OrderUpdate)
  | recorded (uid : ℕ) (ct : ClosedTrade)
  | alerted (uid : ℕ) (msg : String)

namespace Event

/-- The trade an event belongs to. -/
def owner : Event → Option ℕ
  | placed uid .. => some uid
  | cancelled uid .. => some uid
  | recorded uid _ => some uid
  | alerted uid _ => some uid
  | cancelledAll .. => none
  | fetched _ => none
  | reported _ => none

end Event

/-- The `ClosedTrade` records in a list of events, oldest first. -/
def recordsIn (evs : List Event) : List ClosedTrade :=
  evs.filterMap (fun
    | .recorded _ ct => some ct
    | _ => none)

/-! A long plan and the fill of its entry, to run the executor on. -/

/-- A long plan from 100 to 102, with the stop at 99. -/
def samplePlan : TradePlan :=
  { ticker := "BTC_USDT", side := .buy, entryPrice := 100, stopPrice := 99, tp1Price := 102,
    tp1SizeRatio := 1 / 2, sizeCoin := 1 }

/-- Its entry is filled at 100. -/
def sampleFill (orderId : OrderId) : OrderUpdate :=
  { orderId := orderId, ticker := "BTC_USDT", side := .buy, type := .limit, filledPrice := 100,
    size := 1, filledSize := 1, status := .closed }

/-- The fill of an exit order of that trade. -/
def sampleExit (orderId : OrderId) (type : OrderType) (price size : ℚ) : OrderUpdate :=
  { orderId := orderId, ticker := "BTC_USDT", side := .sell, type := type, filledPrice := price,
    size := size, filledSize := size, status := .closed }

/-- The records made for trade `uid`, oldest first. -/
def recordsOf (uid : ℕ) (evs : List Event) : List ClosedTrade :=
  evs.filterMap (fun
    | .recorded v ct => if v = uid then some ct else none
    | _ => none)

/-- The reduce-only market orders placed for trade `uid`: with `accepted = true` those the gateway
    accepted, else those it refused. -/
def marketCloses (accepted : Bool) (uid : ℕ) (evs : List Event) : List PlaceOrderRequest :=
  evs.filterMap (fun
    | .placed v req res =>
        if v = uid ∧ req.type = .market ∧ req.reduceOnly = true ∧ res.isOk = accepted then some req
        else none
    | _ => none)

/-! ## The exchange's orders -/

/-- An order resting on the exchange, with the trade it was placed for. -/
structure LiveOrder where
  uid : ℕ
  exchangeId : OrderId
  req : PlaceOrderRequest
  deriving DecidableEq

/-- How one event changes the set of resting orders: an accepted placement adds one; an accepted
    cancel, and a report that the order is closed (filled or not), remove it. -/
def stepLive (live : List LiveOrder) : Event → List LiveOrder
  | .placed uid req (.ok res) => live ++ [{ uid := uid, exchangeId := res.exchangeId, req := req }]
  | .cancelled _ orderId _ (.ok _) => live.filter (fun o => o.exchangeId ≠ orderId)
  | .cancelledAll ticker (.ok _) => live.filter (fun o => o.req.ticker ≠ ticker)
  | .reported upd =>
      if upd.status = .closed then live.filter (fun o => o.exchangeId ≠ upd.orderId) else live
  | _ => live

/-- The orders resting on the exchange after a trace. -/
def liveOrders (evs : List Event) : List LiveOrder := evs.foldl stepLive []

/-- Is this a protective stop of trade `uid`? -/
def LiveOrder.isStopOf (uid : ℕ) (o : LiveOrder) : Bool :=
  decide (o.uid = uid) && decide (o.req.type = .stopLoss) && o.req.reduceOnly

/-- The reduce-only StopLoss orders placed for trade `uid` and neither cancelled nor filled. -/
def liveStops (uid : ℕ) (evs : List Event) : List LiveOrder :=
  (liveOrders evs).filter (LiveOrder.isStopOf uid)

end TradeBot
