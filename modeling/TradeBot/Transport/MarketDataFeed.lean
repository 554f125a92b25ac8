import Mathlib.Data.List.Basic
import TradeBot.Transport.MetaScalpCodec

set_option autoImplicit false

/-! # The market data feed

`transport/MarketDataFeed.cpp`: the registered listeners, and what `handle_message` does with a
message of the exchange: it calls the listeners of the message's ticker, or stores a funding time or
a mark price. Listeners are of an arbitrary type `L`.

`handleMessage` returns the calls it makes in their order, each with its listener and its callback,
which is the decoded message. Messages that do not decode lead to no call. With `skipHotPath`, the
messages that the processor thread takes are left to it. -/

namespace TradeBot

/-- What the feed knows of the funding of a ticker. -/
structure FundingData where
  rate : ℚ := 0
  nextFundingTime : TimePoint := 0
  updatedAt : TimePoint := 0
  deriving DecidableEq

/-- One call of an `IMarketDataListener`. -/
inductive Callback
  | trades (ticker : Ticker) (trades : List Trade)
  | orderbookSnapshot (snapshot : OrderBookSnapshot)
  | orderbookUpdate (update : OrderBookUpdate)
  | orderUpdate (update : WireOrderUpdate)
  | positionUpdate (update : WirePositionUpdate)
  | balanceUpdate (update : BalanceUpdate)
  | finresUpdate (update : FinresUpdate)
  | error (msg : String)
  deriving DecidableEq

/-- The listeners, and what was announced last for each ticker. -/
structure MarketDataFeed (L : Type) where
  /-- `m_listeners`. -/
  listeners : List L := []
  /-- `m_ticker_listeners`, whose lists are erased when they get empty. -/
  tickerListeners : Ticker → List L := fun _ => []
  skipHotPath : Bool := false
  funding : Ticker → Option FundingData := fun _ => none
  markPrices : Ticker → Option ℚ := fun _ => none

/-- `from_ms`. -/
def fromMs (t : String) : Ticker := if t = "" then "" else toInternalTicker t

namespace MarketDataFeed

open MetaScalpCodec

variable {L : Type} [DecidableEq L]

/-! ## Registration -/

/-- The calls of `add_listener` and `remove_listener`, for all tickers or for one. -/
inductive Registration (L : Type)
  | add (l : L)
  | addFor (ticker : Ticker) (l : L)
  | remove (l : L)
  | removeFor (ticker : Ticker) (l : L)
  deriving DecidableEq

/-- For all tickers. The source does not look whether it is registered. -/
def addListener (feed : MarketDataFeed L) (l : L) : MarketDataFeed L :=
  { feed with listeners := feed.listeners ++ [l] }

/-- For one ticker, in any spelling. -/
def addListenerFor (feed : MarketDataFeed L) (ticker : Ticker) (l : L) : MarketDataFeed L :=
  { feed with
    tickerListeners := fun t =>
      if t = fromMs ticker then feed.tickerListeners t ++ [l] else feed.tickerListeners t }

/-- From all lists. -/
def removeListener (feed : MarketDataFeed L) (l : L) : MarketDataFeed L :=
  { feed with
    listeners := feed.listeners.filter (· ≠ l)
    tickerListeners := fun t => (feed.tickerListeners t).filter (· ≠ l) }

/-- From the list of one ticker. -/
def removeListenerFor (feed : MarketDataFeed L) (ticker : Ticker) (l : L) : MarketDataFeed L :=
  { feed with
    tickerListeners := fun t =>
      if t = fromMs ticker then (feed.tickerListeners t).filter (· ≠ l)
      else feed.tickerListeners t }

/-- The feed after a registration. -/
def register (feed : MarketDataFeed L) : Registration L → MarketDataFeed L
  | .add l => feed.addListener l
  | .addFor ticker l => feed.addListenerFor ticker l
  | .remove l => feed.removeListener l
  | .removeFor ticker l => feed.removeListenerFor ticker l

/-- The own listeners of a ticker, then the global ones that are not among them. -/
def mergeListeners (own globals : List L) : List L :=
  globals.foldl (fun targets l => if l ∈ targets then targets else targets ++ [l]) own

/-- The entry of `m_merged_snapshot` for a ticker. The snapshot is rebuilt by every registration. -/
def mergedSnapshot (feed : MarketDataFeed L) (ticker : Ticker) : Option (List L) :=
  if ticker = "" then some feed.listeners
  else if feed.tickerListeners ticker = [] then none
  else some (mergeListeners (feed.tickerListeners ticker) feed.listeners)

/-- `get_target_listeners`. -/
def getTargetListeners (feed : MarketDataFeed L) (ticker : Ticker) : List L :=
  (feed.mergedSnapshot ticker).getD feed.listeners

/-! ## Messages -/

/-- The callback a message leads to, with the ticker whose listeners get it. -/
def callbackOf (clock : TimePoint) (type : String) (data : Json) : Option (Ticker × Callback) :=
  if type = "trade_update" then
    let ticker := fromMs (getString data "Ticker")
    some (ticker, .trades ticker (parseTradeUpdate data))
  else if type = "orderbook_snapshot" then
    let snap := parseOrderbookSnapshot clock data (fromMs (getString data "Ticker"))
    -- `dispatch_orderbook_snapshot_` normalizes the ticker once more
    let ticker := fromMs snap.ticker
    some (ticker, .orderbookSnapshot { snap with ticker := ticker })
  else if type = "orderbook_update" then
    let ticker := fromMs (getString data "Ticker")
    some (ticker, .orderbookUpdate (parseOrderbookUpdate clock data ticker))
  else if type = "order_update" then
    match parseOrderUpdate data with
    | .ok upd =>
        let ticker := fromMs upd.ticker
        some (ticker, .orderUpdate { upd with ticker := ticker })
    | .error _ => none
  else if type = "position_update" then
    match parsePositionUpdate data with
    | .ok upd =>
        let ticker := fromMs upd.ticker
        some (ticker, .positionUpdate { upd with ticker := ticker })
    | .error _ => none
  else if type = "balance_update" then some ("", .balanceUpdate (parseBalanceUpdate data))
  else if type = "finres_update" then some ("", .finresUpdate (parseFinresUpdate data))
  else if type = "error" then some ("", .error (getVal Json.string? data "Message" "Unknown error"))
  else none

/-- The branch of `funding_update`: nothing without a ticker. -/
def fundingOf (data : Json) : Option (Ticker × FundingData) :=
  let ticker := fromMs (getString data "Ticker")
  let time := parseTimestamp (getString data "FundingTime")
  if ticker = "" then none
  else
    some (ticker,
      { rate := getDouble data "FundingRate", nextFundingTime := time, updatedAt := time })

/-- The branch of `mark_price_update`: nothing without a ticker and a positive price. -/
def markPriceOf (data : Json) : Option (Ticker × ℚ) :=
  let ticker := fromMs (getString data "Ticker")
  let price := getDouble data "MarkPrice"
  if ticker ≠ "" ∧ 0 < price then some (ticker, price) else none

/-- The branches that store what they read. -/
def store (feed : MarketDataFeed L) (type : String) (data : Json) : MarketDataFeed L :=
  if type = "funding_update" then
    match fundingOf data with
    | some (ticker, fd) =>
        { feed with funding := fun t => if t = ticker then some fd else feed.funding t }
    | none => feed
  else if type = "mark_price_update" then
    match markPriceOf data with
    | some (ticker, price) =>
        { feed with markPrices := fun t => if t = ticker then some price else feed.markPrices t }
    | none => feed
  else feed

/-- `Type`, if it is a string. -/
def messageType (j : Json) : Option String := (j.find? "Type").bind Json.string?

/-- `Data`, or an empty object. -/
def messageData (j : Json) : Json := (j.find? "Data").getD (.obj [])

/-- The messages that are left to the pipeline processor while `m_skip_hot_path_` is set. -/
def isHotType (type : String) : Bool := type = "trade_update" || type = "orderbook_update"

/-- The callback of a message, with its ticker. A message of another shape has none. -/
def dispatched (clock : TimePoint) (skipHotPath : Bool) (j : Json) : Option (Ticker × Callback) :=
  match messageType j with
  | none => none
  | some type =>
      if skipHotPath && isHotType type then none else callbackOf clock type (messageData j)

/-- `handle_message`: the feed after it and the calls it makes, in their order. -/
def handleMessage (clock : TimePoint) (feed : MarketDataFeed L) (j : Json) :
    MarketDataFeed L × List (L × Callback) :=
  match messageType j with
  | none => (feed, [])
  | some type =>
      if feed.skipHotPath && isHotType type then (feed, [])
      else
        match callbackOf clock type (messageData j) with
        | some (ticker, cb) => (feed, (feed.getTargetListeners ticker).map (fun l => (l, cb)))
        | none => (feed.store type (messageData j), [])

/-! ## What one message does -/

theorem fromMs_eq (t : String) : fromMs t = toInternalTicker t := by
  unfold fromMs
  split
  · next h =>
      rw [h]
      decide +kernel
  · rfl

/-- The calls of a message are the target listeners' of its ticker, each with its callback. -/
theorem handleMessage_calls (clock : TimePoint) (feed : MarketDataFeed L) (j : Json) :
    (handleMessage clock feed j).2 =
      match dispatched clock feed.skipHotPath j with
      | some (ticker, cb) => (feed.getTargetListeners ticker).map (fun l => (l, cb))
      | none => [] := by
  unfold handleMessage dispatched
  cases messageType j with
  | none => rfl
  | some type =>
      dsimp only
      split
      · rfl
      · split <;> rfl

omit [DecidableEq L] in
theorem store_listeners (feed : MarketDataFeed L) (type : String) (data : Json) :
    (feed.store type data).listeners = feed.listeners ∧
      (feed.store type data).tickerListeners = feed.tickerListeners ∧
      (feed.store type data).skipHotPath = feed.skipHotPath := by
  unfold store
  split
  · split <;> exact ⟨rfl, rfl, rfl⟩
  · split
    · split <;> exact ⟨rfl, rfl, rfl⟩
    · exact ⟨rfl, rfl, rfl⟩

/-- No message changes who is registered. -/
theorem handleMessage_listeners (clock : TimePoint) (feed : MarketDataFeed L) (j : Json) :
    (handleMessage clock feed j).1.listeners = feed.listeners ∧
      (handleMessage clock feed j).1.tickerListeners = feed.tickerListeners ∧
      (handleMessage clock feed j).1.skipHotPath = feed.skipHotPath := by
  unfold handleMessage
  split
  · exact ⟨rfl, rfl, rfl⟩
  · split
    · exact ⟨rfl, rfl, rfl⟩
    · split
      · exact ⟨rfl, rfl, rfl⟩
      · exact store_listeners feed _ _

end MarketDataFeed

end TradeBot
