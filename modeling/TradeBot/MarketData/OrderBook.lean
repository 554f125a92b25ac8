import TradeBot.Domain.Types
import TradeBot.Lib.SortedMap
import TradeBot.Utils.Numeric

set_option autoImplicit false

/-! # OrderBook

`marketdata/OrderBook.{hpp,cpp}`: the local replica of one ticker's order book. Snapshots replace it,
updates change it level by level, and the batch path splits a long list of changes by side and resolves
crossings at its end. The top of the book is cached. Locks and the moves of a book are left out.

The order of the two sides is part of their types: bids are kept from the highest price on and asks
from the lowest, so the best price is the first entry of its map. The cached ticks are brought up to
date at the end of a call, and only if a change has marked them. -/

namespace TradeBot

/-- Ticks to raw sizes, the highest tick first. -/
abbrev BidMap := SortedMap (fun a b : ℤ => a > b) ℤ

/-- Ticks to raw sizes, the lowest tick first. -/
abbrev AskMap := SortedMap (fun a b : ℤ => a < b) ℤ

/-- The increments of an instrument, which the constructor of a book checks. -/
structure Increments where
  price : ℚ
  size : ℚ
  price_pos : 0 < price
  size_pos : 0 < size

/-- The check in the constructor. -/
def Increments.make (price size : ℚ) : Except String Increments :=
  if h : price ≤ 0 ∨ size ≤ 0 then
    .error ("OrderBook: price_increment and size_increment must be positive (got price=" ++
      stdToString price ++ ", size=" ++ stdToString size ++ ")")
  else .ok ⟨price, size, by grind, by grind⟩

/-- The tick of a price. -/
def Increments.tick (inc : Increments) (price : ℚ) : ℤ := priceTick price (1 / inc.price)

/-- `PriceTick::to_price`. -/
def Increments.toPrice (inc : Increments) (tick : ℤ) : ℚ := tick * inc.price

/-- The raw size of a size. -/
def Increments.raw (inc : Increments) (size : ℚ) : ℤ := sizeFix size (1 / inc.size)

/-- Sizes are kept raw, in units of the size increment, under the tick of their price. -/
structure OrderBook where
  inc : Increments
  bids : BidMap := ∅
  asks : AskMap := ∅
  bestBidTick : Option ℤ := none
  bestAskTick : Option ℤ := none
  updateCount : ℤ := 0
  topDirty : Bool := false
  synced : Bool := false

namespace OrderBook

/-! ## The top of the book -/

/-- `refresh_top_of_book_`. -/
def refreshTop (book : OrderBook) : OrderBook :=
  { book with bestBidTick := book.bids.first, bestAskTick := book.asks.first }

/-- `if (top_dirty_) { refresh_top_of_book_(); top_dirty_ = false; }`. -/
def cleanTop (book : OrderBook) : OrderBook :=
  if book.topDirty then { book.refreshTop with topDirty := false } else book

/-- The cached best bid as a price. -/
def bestBid (book : OrderBook) : Option ℚ := book.bestBidTick.map book.inc.toPrice

/-- The cached best ask as a price. -/
def bestAsk (book : OrderBook) : Option ℚ := book.bestAskTick.map book.inc.toPrice

/-- The middle of the best prices, if both sides have one. -/
def mid (book : OrderBook) : Option ℚ :=
  match book.bestBid, book.bestAsk with
  | some bb, some ba => some (1 / 2 * (bb + ba))
  | _, _ => none

/-! ## One change -/

/-- The side of an unlabelled level, from its price and the top of the book; an empty book knows
    none. -/
def inferSide (book : OrderBook) (price : ℚ) : Option Side :=
  match book.bestBid, book.bestAsk with
  | some bb, some ba => some (if price ≤ 1 / 2 * (bb + ba) then .buy else .sell)
  | some bb, none => some (if price ≤ bb then .buy else .sell)
  | none, some ba => some (if ba ≤ price then .sell else .buy)
  | none, none => none

/-- `apply_change_`, past the question of the side. -/
def applySided (book : OrderBook) (side : Side) (price size : ℚ) : OrderBook :=
  let tick := book.inc.tick price
  let sizefix := book.inc.raw size
  if 0 < size then
    if side = .buy then
      { book with
        bids := book.bids.insert tick sizefix, asks := book.asks.eraseUpTo tick, topDirty := true }
    else
      { book with
        asks := book.asks.insert tick sizefix, bids := book.bids.eraseUpTo tick, topDirty := true }
  else if side = .buy then { book with bids := book.bids.erase tick, topDirty := true }
  else { book with asks := book.asks.erase tick, topDirty := true }

/-- `apply_change_`. -/
def applyChange (book : OrderBook) (c : PriceLevel) : OrderBook :=
  if c.side = .none then
    match book.cleanTop.inferSide c.price with
    | none => book.cleanTop
    | some side => book.cleanTop.applySided side c.price c.size
  else book.applySided c.side c.price c.size

/-- Some changes in their order. -/
def applyChanges (book : OrderBook) (changes : List PriceLevel) : OrderBook :=
  changes.foldl applyChange book

/-! ## The batch path -/

/-- `buy_work` and `sell_work`: ticks and raw sizes of the changes on one side. -/
def work (inc : Increments) (side : Side) (changes : List PriceLevel) : List (ℤ × ℤ) :=
  (changes.filter (fun c => decide (c.side = side))).map (fun c => (inc.tick c.price, inc.raw c.size))

section

variable {lt : ℤ → ℤ → Prop} [IsStrictTotalOrder ℤ lt] [DecidableRel lt]

/-- `update_map`. -/
def updateMap (map : SortedMap lt ℤ) (work : List (ℤ × ℤ)) : SortedMap lt ℤ :=
  work.foldl (fun map w => if 0 < w.2 then map.insert w.1 w.2 else map.erase w.1) map

/-- `max_new_bid` and `min_new_ask`: of the ticks inserted, the one that comes first in the side's
    order. -/
def foremost (lt : ℤ → ℤ → Prop) [DecidableRel lt] (work : List (ℤ × ℤ)) : Option ℤ :=
  work.foldl (fun best w =>
    if 0 < w.2 ∧ ∀ b ∈ best, lt w.1 b then some w.1 else best) none

end

/-- The unlabelled changes, which the batch path applies as it finds them. -/
def unlabelled (changes : List PriceLevel) : List PriceLevel :=
  changes.filter (fun c => decide (c.side = .none))

/-- The batch path for 64 changes and more. -/
def applySplit (book : OrderBook) (changes : List PriceLevel) : OrderBook :=
  let book := book.applyChanges (unlabelled changes)
  let buyWork := work book.inc .buy changes
  let sellWork := work book.inc .sell changes
  let bids := updateMap book.bids buyWork
  let asks := updateMap book.asks sellWork
  let asks := ((foremost (· > ·) buyWork).map asks.eraseUpTo).getD asks
  let bids := ((foremost (· < ·) sellWork).map bids.eraseUpTo).getD bids
  { book with bids := bids, asks := asks, topDirty := true }

/-! ## Calls -/

/-- The entries of a snapshot's side. -/
def snapshotLevels (inc : Increments) (levels : List PriceLevel) : List (ℤ × ℤ) :=
  (levels.filter (fun l => decide (0 < l.size))).map (fun l => (inc.tick l.price, inc.raw l.size))

/-- The book is replaced. Only levels with a positive size are taken over. -/
def applySnapshot (book : OrderBook) (snap : OrderBookSnapshot) : OrderBook :=
  { refreshTop
      { book with
        bids := (snapshotLevels book.inc snap.bids).foldl (fun map l => map.insert l.1 l.2) ∅
        asks := (snapshotLevels book.inc snap.asks).foldl (fun map l => map.insert l.1 l.2) ∅ } with
    topDirty := false
    synced := true
    updateCount := book.updateCount + 1 }

/-- `if (!m_synced) m_synced = true`, the beginning of an update. -/
def markSynced (book : OrderBook) : OrderBook := { book with synced := true }

/-- The end of an update. -/
def finishUpdate (book : OrderBook) : OrderBook :=
  { book.cleanTop with updateCount := book.updateCount + 1 }

/-- The changes of an update one by one, and the top of the book once at the end. -/
def applyUpdate (book : OrderBook) (upd : OrderBookUpdate) : OrderBook :=
  (book.markSynced.applyChanges upd.changes).finishUpdate

/-- A long list of changes is split by side; a short one is applied like an update. -/
def applyUpdateBatch (book : OrderBook) (changes : List PriceLevel) : OrderBook :=
  if 64 ≤ changes.length then (book.markSynced.applySplit changes).finishUpdate
  else (book.markSynced.applyChanges changes).finishUpdate

/-! ## Runs -/

end OrderBook

/-- A call that writes to the book. -/
inductive BookOp
  | snapshot (snap : OrderBookSnapshot)
  | update (upd : OrderBookUpdate)
  | batch (changes : List PriceLevel)

namespace OrderBook

/-- The book after a call. -/
def step (book : OrderBook) : BookOp → OrderBook
  | .snapshot snap => book.applySnapshot snap
  | .update upd => book.applyUpdate upd
  | .batch changes => book.applyUpdateBatch changes

/-- The book after some calls. -/
def run (book : OrderBook) (ops : List BookOp) : OrderBook := ops.foldl step book

end OrderBook

/-! ## A book to test with -/

/-- Prices in cents and sizes in thousandths. -/
def centIncrements : Increments := ⟨1 / 100, 1 / 1000, by norm_num, by norm_num⟩

/-- A bid at 99 and an ask at 101. -/
def tightSnapshot : OrderBookSnapshot where
  ticker := "BTC_USDT"
  bids := [⟨99, 1, .buy⟩]
  asks := [⟨101, 1, .sell⟩]

/-- A batch of 64 changes, the first of which crosses the ask. -/
example :
    let book := ({ inc := centIncrements } : OrderBook).run
      [.snapshot tightSnapshot, .batch (⟨203 / 2, 1, .buy⟩ :: List.replicate 63 ⟨90, 1, .buy⟩)]
    book.bestBid = some (203 / 2) ∧ book.bestAsk = none := by decide +kernel

end TradeBot
