import Mathlib.Data.Rat.Floor

set_option autoImplicit false

/-! # Domain types

The exchange-facing records of `domain/Types.hpp`, the proposal a strategy hands to the executor
(`strategy/TradePlan.hpp`) and the executor's own record of a trade (`trading/ActiveTrade.hpp`,
`IExecutor::ClosedTrade`). Field names and defaults are the source's; fields that no modelled
function reads or writes are left out.

A C++ `double` is a rational number here, so arithmetic is exact; a `time_point` and a duration are
integers counting nanoseconds. -/

namespace TradeBot

/-- A ticker in its internal spelling. -/
abbrev Ticker := String

/-- `int64_t` server order id. `0` means "not yet observed". -/
abbrev OrderId := ℤ

/-- `system_clock::time_point` (and durations), in nanoseconds. -/
abbrev TimePoint := ℤ

/-- Nanoseconds in a second. -/
def nsPerSec : ℤ := 1000000000

/-- `kBpsBase`. -/
def kBpsBase : ℚ := 10000

/-- `Side`. -/
inductive Side
  | none
  | buy
  | sell
  deriving DecidableEq, Repr

/-- The side that closes a position: `side == Side::Buy ? Side::Sell : Side::Buy`. -/
def Side.opposite : Side → Side
  | .buy => .sell
  | _ => .buy

/-- `OrderType`. -/
inductive OrderType
  | limit
  | stop
  | stopLoss
  | takeProfit
  | market
  deriving DecidableEq, Repr

/-- `OrderStatus`. -/
inductive OrderStatus
  | new
  | opened
  | closed
  deriving DecidableEq, Repr

/-- The fields of `OrderUpdate` the executor reads. -/
structure OrderUpdate where
  orderId : OrderId
  ticker : Ticker
  side : Side
  type : OrderType
  filledPrice : ℚ := 0
  size : ℚ
  filledSize : ℚ := 0
  status : OrderStatus
  time : TimePoint := 0
  clientOrderId : String := ""
  deriving DecidableEq

/-- The fields of `PositionUpdate` the executor and the kill switch read. -/
structure PositionUpdate where
  ticker : Ticker
  side : Side := .none
  size : ℚ := 0
  avgPriceFix : ℚ := 0
  deriving DecidableEq

/-- The fields of `RestOrder` that order reconciliation compares. -/
structure RestOrder where
  id : OrderId
  ticker : Ticker
  side : Side
  type : OrderType
  price : ℚ
  size : ℚ
  deriving DecidableEq

/-- `PlaceOrderRequest`. -/
structure PlaceOrderRequest where
  ticker : Ticker
  side : Side
  price : ℚ
  size : ℚ
  type : OrderType
  reduceOnly : Bool := false
  clientOrderId : String := ""
  deriving DecidableEq

/-- The answer to an accepted `place_order`. `orderId` is what the REST answer decodes to, and a
    documented answer without an id decodes to `0`; `exchangeId` is the id under which the exchange
    keeps the order and reports it in later order updates. It is not in the source (the executor
    only ever sees `orderId`) and serves to say which orders are live on the exchange. -/
structure PlaceOrderResult where
  orderId : OrderId
  exchangeId : OrderId
  exchangeId_ne_zero : exchangeId ≠ 0
  orderId_eq : orderId = 0 ∨ orderId = exchangeId

/-- `TickerMeta`: precision and size limits of one instrument. -/
structure TickerMeta where
  priceIncrement : ℚ := 0
  sizeIncrement : ℚ := 0
  minSize : ℚ := 0
  maxSize : ℚ := 0
  deriving DecidableEq

/-- The fallback at every `universe_.meta(ticker).value_or(...)`. -/
def TickerMeta.fallback : TickerMeta :=
  { priceIncrement := 1 / 100, sizeIncrement := 1 / 1000000, minSize := 0, maxSize := 0 }

/-! ## Plans and trades -/

/-- `TradePlan`, as far as the executor reads it. -/
structure TradePlan where
  ticker : Ticker
  side : Side := .none
  entryType : OrderType := .limit
  entryPrice : ℚ := 0
  stopPrice : ℚ := 0
  tp1Price : ℚ := 0
  tp2Price : Option ℚ := none
  tp1SizeRatio : ℚ := 0
  sizeCoin : ℚ := 0
  riskUsd : ℚ := 0
  strategyName : String := ""
  noProgressTimeoutSec : ℚ := 120
  postEntryGraceSec : ℚ := 0
  minFollowThroughBps : ℚ := 0
  deriving DecidableEq

/-- `TradeState`. -/
inductive TradeState
  | pendingEntry
  | opened
  | exiting
  | closed
  | cancelling
  | submitUnknown
  | emergencyClosing
  deriving DecidableEq, Repr

/-- `ActiveTrade`. -/
structure ActiveTrade where
  plan : TradePlan
  entryOrderId : OrderId := 0
  stopOrderId : OrderId := 0
  entryClientOrderId : String := ""
  tp1OrderId : OrderId := 0
  tp2OrderId : OrderId := 0
  state : TradeState := .pendingEntry
  executedSize : ℚ := 0
  avgEntryPrice : ℚ := 0
  avgPriceFix : ℚ := 0
  tp1Filled : Bool := false
  openedAt : TimePoint := 0
  unrealizedPnl : ℚ := 0
  /-- Names the trade in the executor's trace. Not in the source: no modelled function branches
      on it. -/
  uid : ℕ := 0
  deriving DecidableEq

/-- `IExecutor::ClosedTrade`. -/
structure ClosedTrade where
  plan : TradePlan
  entryPrice : ℚ := 0
  exitPrice : ℚ := 0
  sizeFilled : ℚ := 0
  pnlUsd : ℚ := 0
  reason : String := ""
  deriving DecidableEq

/-- The PnL of closing `size` of a position entered at `entry` on `side` at `exit`. -/
def realizedPnl (side : Side) (entry exit size : ℚ) : ℚ :=
  if side = .buy then (exit - entry) * size else (entry - exit) * size

/-! ## Market data -/

/-- `PriceLevel`. -/
structure PriceLevel where
  price : ℚ
  size : ℚ
  side : Side
  deriving DecidableEq

/-- `Trade`. -/
structure Trade where
  price : ℚ
  size : ℚ
  side : Side
  timestamp : TimePoint
  deriving DecidableEq

/-- `OrderBookSnapshot`. -/
structure OrderBookSnapshot where
  ticker : Ticker
  asks : List PriceLevel
  bids : List PriceLevel
  ts : TimePoint := 0
  deriving DecidableEq

/-- `OrderBookUpdate`. -/
structure OrderBookUpdate where
  ticker : Ticker
  changes : List PriceLevel
  ts : TimePoint := 0
  deriving DecidableEq

end TradeBot
