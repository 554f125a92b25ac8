import Mathlib.Data.List.Sort
import Mathlib.Data.String.Basic
import TradeBot.Domain.Signals
import TradeBot.MarketData.OrderBook

set_option autoImplicit false

/-! # Paper executor

`executor/PaperExecutor.{hpp,cpp}`: plans are filled and positions closed against the local order
books. The books are an input of each operation. The mark prices, which only the listing of active
trades reads, are left out, and so is the lock, which every operation holds.

A position is one lot, under the number of its fill. Fills and records are kept by that number,
although the source does not number them, so that what becomes of each fill can be followed over a
run. -/

namespace TradeBot

/-- The order book of each ticker that has one. -/
abbrev OrderBooks := Ticker → Option OrderBook

/-- Best bid and ask of a ticker's book, `0` for an empty side. -/
def OrderBooks.quote (books : OrderBooks) (ticker : Ticker) : Option (ℚ × ℚ) :=
  (books ticker).map (fun book => (book.bestBid.getD 0, book.bestAsk.getD 0))

/-! ## Positions -/

/-- `PaperExecutor::Position`. -/
structure PaperPosition where
  plan : TradePlan
  executedSize : ℚ
  avgPrice : ℚ
  openedAt : TimePoint
  /-- Numbers the fill that opened the position. Not in the source: no modelled function branches
      on it. -/
  fill : ℕ

namespace PaperPosition

variable (pos : PaperPosition) (bid ask : ℚ) (now : TimePoint)

/-- Stop loss, with gap protection. -/
def stopLoss? : Option (ℚ × String) :=
  if pos.plan.side = .buy then
    if bid ≤ pos.plan.stopPrice then some (min pos.plan.stopPrice bid, "Stop Loss") else none
  else if pos.plan.stopPrice ≤ ask then some (max pos.plan.stopPrice ask, "Stop Loss")
  else none

/-- Take profit at TP1, if the plan still has one. -/
def takeProfit? : Option (ℚ × String) :=
  if 0 < pos.plan.tp1Price then
    if pos.plan.side = .buy then
      if pos.plan.tp1Price ≤ ask then some (max pos.plan.tp1Price ask, "Take Profit") else none
    else if bid ≤ pos.plan.tp1Price then some (min pos.plan.tp1Price bid, "Take Profit")
    else none
  else none

/-- The side of the book the position can be closed against. -/
def executable : ℚ := if pos.plan.side = .buy then bid else ask

/-- The seconds since the position was opened. -/
def elapsedSec : ℚ := (now - pos.openedAt : ℤ) / nsPerSec

/-- `no_progress_timeout`. -/
def noProgress? : Option (ℚ × String) :=
  let mid := (bid + ask) * (1 / 2)
  if pos.plan.noProgressTimeoutSec < pos.elapsedSec now ∧
      ((pos.plan.side = .buy ∧ mid ≤ pos.avgPrice * (10001 / 10000)) ∨
        (pos.plan.side = .sell ∧ pos.avgPrice * (9999 / 10000) ≤ mid)) then
    some (pos.executable bid ask, "NoProgress")
  else none

/-- Whether the move since the entry is below the plan's minimum. Of an average price of zero the
    quotient is infinite, and negative for a short. -/
def moveTooSmall : Bool :=
  let mid := (bid + ask) * (1 / 2)
  if pos.avgPrice = 0 then decide (pos.plan.side ≠ .buy)
  else if pos.plan.side = .buy then
    decide ((mid - pos.avgPrice) / pos.avgPrice * 10000 < pos.plan.minFollowThroughBps)
  else decide ((pos.avgPrice - mid) / pos.avgPrice * 10000 < pos.plan.minFollowThroughBps)

/-- Follow-through after the grace period. -/
def followThrough? : Option (ℚ × String) :=
  if pos.plan.postEntryGraceSec < pos.elapsedSec now ∧ 0 < pos.plan.minFollowThroughBps ∧
      pos.moveTooSmall bid ask then
    some (pos.executable bid ask, "FollowThrough")
  else none

/-- The first exit rule of `tick` that fires: exit price before slippage, and reason. -/
def exit? : Option (ℚ × String) :=
  ((pos.stopLoss? bid ask).or (pos.takeProfit? bid ask)).or
    ((pos.noProgress? bid ask now).or (pos.followThrough? bid ask now))

/-- The record of closing `size` of the position. -/
def closed (exitPrice size : ℚ) (reason : String) : ClosedTrade :=
  { plan := pos.plan, entryPrice := pos.avgPrice, exitPrice := exitPrice, sizeFilled := size,
    pnlUsd := realizedPnl pos.plan.side pos.avgPrice exitPrice size, reason := reason }

/-- `is_tp1_partial`. -/
def isTp1Partial (reason : String) : Bool :=
  decide (reason = "Take Profit") && decide (0 < pos.plan.tp1SizeRatio) &&
    decide (pos.plan.tp1SizeRatio < 1)

/-- What a partial exit at TP1 leaves: less size, the stop at the entry, no TP1. -/
def afterTp1 (exitSize : ℚ) : PaperPosition :=
  { pos with
    executedSize := pos.executedSize - exitSize
    plan := { pos.plan with stopPrice := pos.avgPrice, tp1Price := 0 } }

end PaperPosition

/-! ## The executor -/

/-- `positions_`. -/
abbrev PaperPositions := SortedMap (fun a b : Ticker => a < b) PaperPosition

/-- The executor, with a record of its fills. -/
structure PaperExecutor where
  slippageBps : ℚ := 1
  pendingEntries : List StrategyPlan := []
  positions : PaperPositions := ∅
  closedTrades : List ClosedTrade := []
  /-- The fills so far by number, with their sizes. Not in the source, like the next two. -/
  fills : List (ℕ × ℚ) := []
  /-- The closed trades so far, each with the number of the fill it closes. -/
  recorded : List (ℕ × ClosedTrade) := []
  /-- What `pop_closed_trades` has returned so far. -/
  popped : List ClosedTrade := []

namespace PaperExecutor

variable (ex : PaperExecutor)

/-- `submit`: the plan waits for the next tick. -/
def submit (plan : StrategyPlan) : PaperExecutor :=
  { ex with pendingEntries := ex.pendingEntries ++ [plan] }

/-- The slippage at a price. -/
def slip (price : ℚ) : ℚ := price * (ex.slippageBps / 10000)

/-- An exit price after slippage. -/
def slippedExit (side : Side) (price : ℚ) : ℚ :=
  price + if side = .buy then -ex.slip price else ex.slip price

/-- `closed_trades_.push_back(ct)`, for the position of that fill. -/
def record (fill : ℕ) (ct : ClosedTrade) : PaperExecutor :=
  { ex with closedTrades := ex.closedTrades ++ [ct], recorded := ex.recorded ++ [(fill, ct)] }

/-- `positions_[ticker] = Position{…}`. -/
def openPosition (ticker : Ticker) (plan : TradePlan) (size avgPrice : ℚ) (openedAt : TimePoint) :
    PaperExecutor :=
  { ex with
    positions := ex.positions.insert ticker
      { plan := plan, executedSize := size, avgPrice := avgPrice, openedAt := openedAt,
        fill := ex.fills.length }
    fills := ex.fills ++ [(ex.fills.length, size)] }

/-- The position is forgotten, with what is left of it. -/
def erasePosition (ticker : Ticker) : PaperExecutor :=
  { ex with positions := ex.positions.erase ticker }

/-- The exit price of `close_trade` before slippage: the executable side of the book, the entry price
    without one. -/
def closePrice (books : OrderBooks) (ticker : Ticker) (pos : PaperPosition) : ℚ :=
  match books.quote ticker with
  | none => pos.avgPrice
  | some (bid, ask) =>
      if 0 < bid ∧ 0 < ask then pos.executable bid ask else pos.avgPrice

/-- `close_trade`, at the price of the book after slippage. -/
def closeTrade (books : OrderBooks) (ticker : Ticker) (reason : String) : PaperExecutor :=
  match ex.positions.lookup ticker with
  | none => ex
  | some pos =>
      let exitPrice := ex.slippedExit pos.plan.side (closePrice books ticker pos)
      (ex.record pos.fill (pos.closed exitPrice pos.executedSize reason)).erasePosition ticker

/-- `cancel_all`: the waiting entries of the ticker are dropped, and its position. -/
def cancelAll (ticker : Ticker) : PaperExecutor :=
  { ex with
    pendingEntries := ex.pendingEntries.filter (fun p => decide (p.ticker ≠ ticker))
    positions := ex.positions.erase ticker }

/-! ## Entries -/

/-- The price at which an entry fills before slippage, if it does. -/
def entryFill? (plan : TradePlan) (bid ask : ℚ) : Option ℚ :=
  if plan.entryType = .market then some (if plan.side = .buy then ask else bid)
  else if plan.side = .buy ∧ ask ≤ plan.entryPrice then some (min plan.entryPrice ask)
  else if plan.side = .sell ∧ plan.entryPrice ≤ bid then some (max plan.entryPrice bid)
  else none

/-- The plan with stop and targets shifted by the deviation of the fill. -/
def adjusted (plan : TradePlan) (fillPrice : ℚ) : TradePlan :=
  let shift := fillPrice - plan.entryPrice
  if shift ≠ 0 then
    { plan with
      entryPrice := fillPrice
      stopPrice := plan.stopPrice + shift
      tp1Price := if 0 < plan.tp1Price then plan.tp1Price + shift else plan.tp1Price
      tp2Price := plan.tp2Price.map (· + shift) }
  else plan

/-- One round of the loop over the pending entries: the entry is dropped, kept or filled. -/
def tickEntry (books : OrderBooks) (ticker : Ticker) (now : TimePoint) (ex : PaperExecutor)
    (plan : StrategyPlan) : PaperExecutor :=
  if plan.ticker ≠ ticker then ex.submit plan
  else if plan.validUntil < now then ex
  else
    match books.quote plan.ticker with
    | none => ex.submit plan
    | some (bid, ask) =>
        if bid = 0 ∨ ask = 0 then ex.submit plan
        else
          match entryFill? plan.toTradePlan bid ask with
          | none => ex.submit plan
          | some price =>
              let fillPrice := price + if plan.side = .buy then ex.slip price else -ex.slip price
              if (ex.positions.lookup plan.ticker).isSome then ex
              else
                ex.openPosition plan.ticker (adjusted plan.toTradePlan fillPrice) plan.sizeCoin
                  fillPrice now

/-- Part 1 of `tick`. -/
def tickEntries (books : OrderBooks) (ticker : Ticker) (now : TimePoint) : PaperExecutor :=
  ex.pendingEntries.foldl (tickEntry books ticker now) { ex with pendingEntries := [] }

/-! ## Exits -/

/-- Close a position, or part of it at TP1, at the exit price of a rule. -/
def exitPosition (ticker : Ticker) (pos : PaperPosition) (price : ℚ) (reason : String) :
    PaperExecutor :=
  let exitPrice := ex.slippedExit pos.plan.side price
  if pos.isTp1Partial reason then
    let exitSize := pos.executedSize * pos.plan.tp1SizeRatio
    let ex := ex.record pos.fill (pos.closed exitPrice exitSize reason)
    { ex with positions := ex.positions.insert ticker (pos.afterTp1 exitSize) }
  else
    (ex.record pos.fill (pos.closed exitPrice pos.executedSize reason)).erasePosition ticker

/-- Part 2 of `tick`. -/
def tickExits (books : OrderBooks) (ticker : Ticker) (now : TimePoint) : PaperExecutor :=
  match ex.positions.lookup ticker with
  | none => ex
  | some pos =>
      match books.quote pos.plan.ticker with
      | none => ex
      | some (bid, ask) =>
          if 0 < bid ∧ 0 < ask then
            match pos.exit? bid ask now with
            | none => ex
            | some (price, reason) => ex.exitPosition ticker pos price reason
          else ex

/-- `tick(ticker, now)`. -/
def tickTicker (books : OrderBooks) (ticker : Ticker) (now : TimePoint) : PaperExecutor :=
  (ex.tickEntries books ticker now).tickExits books ticker now

/-- The tickers with a pending entry or a position, each once. -/
def activeTickers : List Ticker :=
  ((ex.pendingEntries.map (fun p => p.ticker) ++ ex.positions.entries.map Prod.fst).dedup).insertionSort
    (· ≤ ·)

/-- `tick(now)`. -/
def tick (books : OrderBooks) (now : TimePoint) : PaperExecutor :=
  ex.activeTickers.foldl (fun ex ticker => ex.tickTicker books ticker now) ex

/-! ## The other operations -/

/-- `pop_closed_trades`. -/
def popClosedTrades : PaperExecutor :=
  { ex with closedTrades := [], popped := ex.popped ++ ex.closedTrades }

/-- The states `inject_recovered_trades` takes up. -/
def recovers (t : ActiveTrade) : Bool :=
  decide (t.state = .opened) || decide (t.state = .exiting)

/-- `inject_recovered_trades`: the open ones become positions. -/
def injectRecoveredTrades (trades : List ActiveTrade) : PaperExecutor :=
  trades.foldl (fun ex t =>
    if recovers t then
      ex.openPosition t.plan.ticker t.plan t.executedSize t.avgEntryPrice t.openedAt
    else ex) ex

/-- The public operations. -/
inductive Op
  | submit (plan : StrategyPlan)
  | tick (books : OrderBooks) (now : TimePoint)
  | tickTicker (books : OrderBooks) (ticker : Ticker) (now : TimePoint)
  | onTrade (books : OrderBooks) (ticker : Ticker) (trade : Trade)
  | onOrderbookSnapshot (books : OrderBooks) (snap : OrderBookSnapshot)
  | onOrderbookUpdate (books : OrderBooks) (upd : OrderBookUpdate)
  | closeTrade (books : OrderBooks) (ticker : Ticker) (reason : String)
  | cancelAll (ticker : Ticker)
  | injectRecoveredTrades (trades : List ActiveTrade)
  | popClosedTrades

/-- The executor after an operation. -/
def step (ex : PaperExecutor) : Op → PaperExecutor
  | .submit plan => ex.submit plan
  | .tick books now => ex.tick books now
  | .tickTicker books ticker now => ex.tickTicker books ticker now
  | .onTrade books ticker trade => ex.tickTicker books ticker trade.timestamp
  | .onOrderbookSnapshot books snap => ex.tickTicker books snap.ticker snap.ts
  | .onOrderbookUpdate books upd => ex.tickTicker books upd.ticker upd.ts
  | .closeTrade books ticker reason => ex.closeTrade books ticker reason
  | .cancelAll ticker => ex.cancelAll ticker
  | .injectRecoveredTrades trades => ex.injectRecoveredTrades trades
  | .popClosedTrades => ex.popClosedTrades

/-- The executor after some operations. -/
def run (ex : PaperExecutor) (ops : List Op) : PaperExecutor := ops.foldl step ex

end PaperExecutor

end TradeBot
