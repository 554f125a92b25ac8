import TradeBot.Lib.Json
import TradeBot.Utils.TickerSymbol
import TradeBot.Utils.Timestamp

set_option autoImplicit false

/-! # Decoding the exchange's messages

`transport/MetaScalpCodec.cpp`: how the payload of a WebSocket message becomes one of the records of
`domain/Types.hpp`. A field is looked up under its name and then with its first letter in the other
case. `clock` is what `system_clock::now()` returns.

A decoder never fails because of an optional field: a field that is missing, and one of another type,
has its default. Which fields are required is checked first, and named in the error. Times are
decoded by `Utils/Timestamp`, and tickers are brought into the spelling of the program. -/

namespace TradeBot

/-! ## The records a listener is called with

An order or position update as it comes off the wire has fields that the executor does not read. -/

/-- An order update with the fields that only the records of the listeners have. -/
structure WireOrderUpdate extends OrderUpdate where
  price : ℚ
  fee : ℚ
  feeCurrency : String
  deriving DecidableEq

/-- What has become of a position. -/
inductive PositionStatus
  | new
  | opened
  | closed
  deriving DecidableEq, Repr

/-- A position update with the fields that only the records of the listeners have. -/
structure WirePositionUpdate extends PositionUpdate where
  connectionId : ℤ
  positionId : ℤ
  avgPrice : ℚ
  avgPriceDyn : ℚ
  priceIncrement : ℚ := 0
  status : PositionStatus
  deriving DecidableEq

/-- The balance of one coin. -/
structure BalanceEntry where
  coin : String
  total : ℚ
  free : ℚ
  locked : ℚ
  deriving DecidableEq

/-- The balances of a connection. -/
structure BalanceUpdate where
  connectionId : ℤ
  balances : List BalanceEntry
  deriving DecidableEq

/-- The financial result in one currency. -/
structure FinresEntry where
  currency : String
  result : ℚ
  fee : ℚ
  funds : ℚ
  available : ℚ
  blocked : ℚ
  deriving DecidableEq

/-- The financial results of a connection. -/
structure FinresUpdate where
  connectionId : ℤ
  finreses : List FinresEntry
  deriving DecidableEq

namespace MetaScalpCodec

/-- Why an update is not decoded. -/
inductive CodecError
  /-- `"Missing required field: " + field`. -/
  | missingField (field : String)
  /-- `"Unknown OrderType: " + v.dump()`. -/
  | unknownOrderType (v : Json)

/-! ## Fields -/

/-- `islower` and `isupper` of a letter say which way its case is toggled. -/
def toggleCase (c : Char) : Char := if c.isUpper then c.toLower else c.toUpper

/-- The other spelling of a field's name. -/
def altKey (key : String) : String :=
  match key.toList with
  | [] => key
  | c :: cs => .ofList (toggleCase c :: cs)

/-- The value of a field under its name or, if there is none, under the other spelling. -/
def field? (j : Json) (key : String) : Option Json := (j.find? key).or (j.find? (altKey key))

/-- A required field is there under either of its names. -/
def hasRequired (j : Json) (field : String) : Bool := j.contains field || j.contains (altKey field)

/-- `get_val<T>`: a null and a value of another type are the default too. -/
def getVal {α : Type} (read : Json → Option α) (j : Json) (key : String) (default : α) : α :=
  match field? j key with
  | some v => if v.isNull then default else (read v).getD default
  | none => default

/-- A text field; empty where it is missing. -/
abbrev getString (j : Json) (key : String) : String := getVal Json.string? j key ""

/-- A number; zero where it is missing. -/
abbrev getDouble (j : Json) (key : String) : ℚ := getVal Json.double? j key 0

/-- `get_val<nlohmann::json>`. -/
abbrev getJson (j : Json) (key : String) : Json := getVal some j key .null

/-- The items of an array field. What is no array has none. -/
def getItems (j : Json) (key : String) : List Json := ((field? j key).bind Json.array?).getD []

/-! ## Enumerations, as strings or as numbers -/

/-- The names and numbers of sides that the exchange uses. -/
def parseSide (v : Json) : Side :=
  match v with
  | .str s =>
      if s ∈ ["Buy", "buy", "Bid", "bid", "BestBid", "bestbid"] then .buy
      else if s ∈ ["Sell", "sell", "Ask", "ask", "BestAsk", "bestask"] then .sell
      else .none
  | v =>
      match v.integer? 32 with
      | some 1 => .buy
      | some 2 => .sell
      | _ => .none

/-- The names and numbers of order types. Any other is an error. -/
def parseOrderType (v : Json) : Except CodecError OrderType :=
  match v with
  | .str s =>
      if s = "Limit" then .ok .limit
      else if s = "Stop" then .ok .stop
      else if s = "StopLoss" then .ok .stopLoss
      else if s = "TakeProfit" then .ok .takeProfit
      else if s = "Market" then .ok .market
      else .error (.unknownOrderType v)
  | v =>
      match v.integer? 32 with
      | some 0 => .ok .limit
      | some 1 => .ok .stop
      | some 2 => .ok .stopLoss
      | some 3 => .ok .takeProfit
      | some 4 => .ok .market
      | _ => .error (.unknownOrderType v)

/-- What `parse_order_status` and `parse_position_status` have in common: an unknown status is
    closed. -/
def parseStatus {α : Type} (new opened closed : α) (v : Json) : α :=
  match v with
  | .str s => if s = "New" then new else if s = "Open" then opened else closed
  | v =>
      match v.integer? 32 with
      | some 0 => new
      | some 1 => opened
      | _ => closed

/-- The status of an order. -/
def parseOrderStatus : Json → OrderStatus := parseStatus .new .opened .closed

/-- The status of a position. -/
def parsePositionStatus : Json → PositionStatus := parseStatus .new .opened .closed

/-- `normalize_ticker`. -/
abbrev normalizeTicker (raw : String) : Ticker := toInternalTicker raw

/-! ## Updates of the account -/

/-- The record `parse_order_update` returns once its checks have passed. -/
def orderUpdateOf (j : Json) (type : OrderType) : WireOrderUpdate :=
  { orderId := getVal (Json.integer? 64) j "OrderId" 0
    ticker := normalizeTicker (getString j "Ticker")
    side := parseSide (getJson j "Side")
    type := type
    price := getDouble j "Price"
    filledPrice := getDouble j "FilledPrice"
    size := getDouble j "Size"
    filledSize := getDouble j "FilledSize"
    fee := getDouble j "Fee"
    feeCurrency := getString j "FeeCurrency"
    status := parseOrderStatus (getJson j "Status")
    time := parseTimestamp (getString j "Time")
    clientOrderId := getString j "ClientId" }

/-- An update without an id or a ticker is an error. -/
def parseOrderUpdate (j : Json) : Except CodecError WireOrderUpdate :=
  if !hasRequired j "OrderId" then .error (.missingField "OrderId")
  else if !hasRequired j "Ticker" then .error (.missingField "Ticker")
  else (parseOrderType (getJson j "Type")).map (orderUpdateOf j)

/-- The fields of a position update, past the required ones. -/
def positionUpdateOf (j : Json) : WirePositionUpdate :=
  { connectionId := getVal Json.int32? j "ConnectionId" 0
    positionId := getVal (Json.integer? 64) j "Id" 0
    ticker := normalizeTicker (getString j "Ticker")
    side := parseSide (getJson j "Side")
    size := getDouble j "Size"
    avgPrice := getDouble j "AvgPrice"
    avgPriceFix := getDouble j "AvgPriceFix"
    avgPriceDyn := getDouble j "AvgPriceDyn"
    priceIncrement := getDouble j "PriceIncrement"
    status := parsePositionStatus (getJson j "Status") }

/-- An update without an id or a ticker is an error. -/
def parsePositionUpdate (j : Json) : Except CodecError WirePositionUpdate :=
  if !hasRequired j "Id" then .error (.missingField "Id")
  else if !hasRequired j "Ticker" then .error (.missingField "Ticker")
  else .ok (positionUpdateOf j)

/-- One item of the balances. -/
def parseBalanceEntry (item : Json) : BalanceEntry :=
  { coin := getString item "Coin"
    total := getDouble item "Total"
    free := getDouble item "Free"
    locked := getDouble item "Locked" }

/-- An update without balances is an empty one. -/
def parseBalanceUpdate (j : Json) : BalanceUpdate :=
  { connectionId := getVal Json.int32? j "ConnectionId" 0
    balances := (getItems j "Balances").map parseBalanceEntry }

/-- One item of the results. -/
def parseFinresEntry (item : Json) : FinresEntry :=
  { currency := getString item "Currency"
    result := getDouble item "Result"
    fee := getDouble item "Fee"
    funds := getDouble item "Funds"
    available := getDouble item "Available"
    blocked := getDouble item "Blocked" }

/-- An update without results is an empty one. -/
def parseFinresUpdate (j : Json) : FinresUpdate :=
  { connectionId := getVal Json.int32? j "ConnectionId" 0
    finreses := (getItems j "Finreses").map parseFinresEntry }

/-! ## Market data -/

/-- One item of a trade update. -/
def parseTrade (item : Json) : Trade :=
  { price := getDouble item "Price"
    size := getDouble item "Size"
    side := parseSide (getJson item "Side")
    timestamp := parseTimestamp (getString item "Time") }

/-- The trades in the order of the message. -/
def parseTradeUpdate (j : Json) : List Trade := (getItems j "Trades").map parseTrade

/-- The server's time of a book message, or the local one. -/
def messageTime (clock : TimePoint) (j : Json) : TimePoint :=
  if getString j "Time" = "" then clock else parseTimestamp (getString j "Time")

/-- One item of a side of the book. -/
def parseLevel (side : Side) (item : Json) : PriceLevel :=
  { price := getDouble item "Price", size := getDouble item "Size", side := side }

/-- Both sides in the order of the message. -/
def parseOrderbookSnapshot (clock : TimePoint) (j : Json) (ticker : Ticker) : OrderBookSnapshot :=
  { ticker := normalizeTicker ticker
    asks := (getItems j "Asks").map (parseLevel .sell)
    bids := (getItems j "Bids").map (parseLevel .buy)
    ts := messageTime clock j }

/-- A changed level carries its side in `Type`. -/
def parseChange (item : Json) : PriceLevel :=
  parseLevel (parseSide (getJson item "Type")) item

/-- The changes in the order of the message, with the sides that they name. -/
def parseOrderbookUpdate (clock : TimePoint) (j : Json) (ticker : Ticker) : OrderBookUpdate :=
  { ticker := normalizeTicker ticker
    changes := (getItems j "Updates").map parseChange
    ts := messageTime clock j }

/-! ## What the decoders rely on -/

/-- A decoded order update has the fields that are checked first, and its ticker is normalized. -/
theorem parseOrderUpdate_ok {j : Json} {upd : WireOrderUpdate} (h : parseOrderUpdate j = .ok upd) :
    hasRequired j "OrderId" = true ∧ hasRequired j "Ticker" = true ∧
      ∃ type, upd = orderUpdateOf j type := by
  unfold parseOrderUpdate at h
  split at h
  · cases h
  · next hid =>
      split at h
      · cases h
      · next hticker =>
          cases htype : parseOrderType (getJson j "Type") with
          | error e => rw [htype] at h; cases h
          | ok type =>
              rw [htype] at h
              exact ⟨by simpa using hid, by simpa using hticker, type, (Except.ok.inj h).symm⟩

theorem parsePositionUpdate_ok {j : Json} {upd : WirePositionUpdate}
    (h : parsePositionUpdate j = .ok upd) :
    hasRequired j "Id" = true ∧ hasRequired j "Ticker" = true ∧ upd = positionUpdateOf j := by
  unfold parsePositionUpdate at h
  split at h
  · cases h
  · next hid =>
      split at h
      · cases h
      · next hticker =>
          exact ⟨by simpa using hid, by simpa using hticker, (Except.ok.inj h).symm⟩

end MetaScalpCodec

end TradeBot
