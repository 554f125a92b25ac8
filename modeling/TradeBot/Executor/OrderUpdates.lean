import TradeBot.Executor.TradeActions

set_option autoImplicit false

/-! # One order update

The body of the loop in `LiveExecutor::on_order_update`: which trade of the ticker an update is for
(`captureIds`, by a known order id, by the client id, or by the first sight of side, type and size),
and what the update then does to that trade (`handleOrderUpdate`).

Matching comes first and is a function of the update and the trade alone; a trade may be taken for
the owner of an order in more than one way. The branches of the handler follow the source in their
order, and the first one that applies ends the handling. -/

namespace TradeBot

/-- `kSizeEps`. -/
def kSizeEps : ℚ := 1 / 1000000

/-- The role an update plays for the trade it was matched to. -/
structure OrderMatch where
  isEntry : Bool
  isStop : Bool
  isTp1 : Bool
  isTp2 : Bool
  deriving DecidableEq

/-- `OrderType::Stop` is a stop-loss exit, not an entry. -/
def OrderType.isEntryType (type : OrderType) : Bool :=
  decide (type = .limit) || decide (type = .market)

/-- `upd.order_id != 0 && upd.order_id == id`. -/
def matchesId (upd : OrderUpdate) (id : OrderId) : Bool :=
  decide (upd.orderId ≠ 0) && decide (upd.orderId = id)

/-- Equal sizes up to the hybrid (absolute or relative) tolerance. -/
def sizeClose (planned actual : ℚ) : Bool :=
  decide (|planned - actual| < max (1 / 1000000) (max planned actual * (1 / 10000)))

/-- The update bears the client id of an entry whose order id is not known yet. -/
def matchByClientId (upd : OrderUpdate) (t : ActiveTrade) : Bool :=
  decide (upd.clientOrderId ≠ "") && decide (t.entryClientOrderId ≠ "") &&
    decide (upd.clientOrderId = t.entryClientOrderId) && decide (t.entryOrderId = 0)

/-- The update is matched by an id the trade already carries. -/
def matchKnown (upd : OrderUpdate) (t : ActiveTrade) : Bool :=
  matchesId upd t.entryOrderId || matchByClientId upd t || matchesId upd t.stopOrderId ||
    matchesId upd t.tp1OrderId || matchesId upd t.tp2OrderId

/-- The update looks like the entry of the trade. -/
def freshEntry (upd : OrderUpdate) (t : ActiveTrade) : Bool :=
  !matchKnown upd t && decide (t.entryOrderId = 0) && upd.type.isEntryType &&
    decide (upd.side = t.plan.side) && sizeClose t.plan.sizeCoin upd.size

/-- The update looks like a stop of the trade, which knows of none. -/
def freshStop (upd : OrderUpdate) (t : ActiveTrade) : Bool :=
  !matchKnown upd t && decide (t.stopOrderId = 0) && decide (upd.type = .stopLoss) &&
    decide (upd.side ≠ t.plan.side)

/-- The update looks like the first target of the trade, which knows of none. -/
def freshTp1 (upd : OrderUpdate) (t : ActiveTrade) : Bool :=
  !matchKnown upd t && decide (t.tp1OrderId = 0) && decide (upd.type = .takeProfit) &&
    decide (upd.side ≠ t.plan.side)

/-- The role of `upd` for the trade. -/
def orderMatch (upd : OrderUpdate) (t : ActiveTrade) : OrderMatch where
  isEntry := matchesId upd t.entryOrderId || matchByClientId upd t || freshEntry upd t
  isStop := matchesId upd t.stopOrderId || freshStop upd t
  isTp1 := matchesId upd t.tp1OrderId || freshTp1 upd t
  isTp2 := matchesId upd t.tp2OrderId

/-- The trade with the ids it learns from `upd`. -/
def captureIds (upd : OrderUpdate) (t : ActiveTrade) : ActiveTrade :=
  { t with
      entryOrderId := if matchByClientId upd t || freshEntry upd t then upd.orderId
                      else t.entryOrderId
      stopOrderId := if freshStop upd t then upd.orderId else t.stopOrderId
      tp1OrderId := if freshTp1 upd t then upd.orderId else t.tp1OrderId }

/-- The update is for the trade. -/
def OrderMatch.any (om : OrderMatch) : Bool := om.isEntry || om.isStop || om.isTp1 || om.isTp2

/-- The trade takes the update: it is neither closed nor emergency closing, and `upd` has a role for
    it. -/
def selectTrade (upd : OrderUpdate) (t : ActiveTrade) : Option OrderMatch :=
  if t.state = .closed ∨ t.state = .emergencyClosing then none
  else if (orderMatch upd t).any then some (orderMatch upd t) else none

/-! ## What an update does -/

/-- A partial entry fill, reported with status `Open`. -/
def onEntryPartial (env : Env) (upd : OrderUpdate) (m : Members) (t : ActiveTrade) :
    Members × ActiveTrade :=
  let (m, t) :=
    if t.state ≠ .opened then
      placeStops env m { t with state := .opened, openedAt := upd.time }
    else (m, t)
  (m, { t with executedSize := t.executedSize + upd.filledSize, avgEntryPrice := upd.filledPrice })

/-- R15: the slippage of the entry, in basis points of the planned price, is above `maxBps`. Over a
    planned price of zero the C++ quotient is infinite, or NaN if the fill price is zero too. -/
def slippedTooFar (maxBps : ℚ) (plan : TradePlan) (filledPrice : ℚ) : Bool :=
  if plan.entryPrice = 0 then decide (filledPrice ≠ 0)
  else decide (maxBps < |filledPrice - plan.entryPrice| / plan.entryPrice * 10000)

/-- The trade after its entry is reported filled. -/
def ActiveTrade.entryFilled (upd : OrderUpdate) (t : ActiveTrade) : ActiveTrade :=
  { t with
    state := .opened, executedSize := upd.filledSize, avgEntryPrice := upd.filledPrice,
    openedAt := upd.time }

/-- R15's emergency close of a freshly opened trade. -/
def slippageClose (env : Env) (upd : OrderUpdate) (m : Members) (t : ActiveTrade) :
    Members × ActiveTrade :=
  let (m, res) := m.placeOrder env t.uid (t.exitRequest .market 0 upd.filledSize)
  match res with
  | .ok _ => (m, { t with state := .emergencyClosing })
  | .error _ => (m.alert t.uid ("CRITICAL: R15 close failed for " ++ upd.ticker), t)

/-- The entry is filled: R15 closes a trade that slipped too far, any other gets its stops. -/
def onEntryFilled (env : Env) (upd : OrderUpdate) (m : Members) (t : ActiveTrade) :
    Members × ActiveTrade :=
  let t := t.entryFilled upd
  if slippedTooFar m.cfg.maxEntrySlippageBps t.plan upd.filledPrice then slippageClose env upd m t
  else placeStops env m t

/-- The trade after its first TP1 fill. -/
def ActiveTrade.tp1Done (t : ActiveTrade) : ActiveTrade :=
  { t with tp1Filled := true, stopOrderId := 0 }

/-- `remaining`: what a TP1 fill of `filledSize` leaves of the position. -/
def ActiveTrade.remaining (t : ActiveTrade) (filledSize : ℚ) : ℚ :=
  max 0 (t.executedSize - filledSize)

/-- The break-even stop. -/
def ActiveTrade.beRequest (t : ActiveTrade) (filledSize : ℚ) : PlaceOrderRequest :=
  t.exitRequest .stopLoss t.avgPriceFix (t.remaining filledSize)

/-- The first TP1 fill: cancel the stop and re-place it at the break-even price. -/
def onTp1Filled (env : Env) (upd : OrderUpdate) (m : Members) (t : ActiveTrade) :
    Members × ActiveTrade :=
  let m := dropOrder env t.uid upd.ticker t.stopOrderId m
  let t := t.tp1Done
  if kSizeEps < t.remaining upd.filledSize ∧ 0 < t.avgPriceFix then
    let (m, res) := m.placeOrder env t.uid (t.beRequest upd.filledSize)
    match res with
    | .ok _ => (m, t)
    | .error _ =>
        closeAndRecord env "BEStopFailed"
          (m.alert t.uid ("CRITICAL: BE-stop failed for " ++ t.plan.ticker ++ ", emergency closing"))
          t
  else (m, t)

/-- The `reason` recorded for an exit fill. -/
def exitReason (om : OrderMatch) (t : ActiveTrade) : String :=
  if om.isStop then "StopLoss"
  else if om.isTp2 then "TP2"
  else if t.tp1Filled then "TP1_Remainder"
  else "TP1"

/-- The record of an exit fill. -/
def exitRecord (upd : OrderUpdate) (om : OrderMatch) (t : ActiveTrade) : ClosedTrade :=
  { plan := t.plan, entryPrice := t.avgEntryPrice, exitPrice := upd.filledPrice,
    sizeFilled := upd.filledSize,
    pnlUsd := realizedPnl t.plan.side t.avgEntryPrice upd.filledPrice upd.filledSize,
    reason := exitReason om t }

/-- Any other exit fill closes the trade. -/
def onExitFilled (upd : OrderUpdate) (om : OrderMatch) (m : Members) (t : ActiveTrade) :
    Members × ActiveTrade :=
  (m.pushClosed t.uid (exitRecord upd om t), { t with state := .closed })

/-- The matched part of `on_order_update`'s loop body, for the trade with its ids captured. -/
def handleOrderUpdate (env : Env) (upd : OrderUpdate) (om : OrderMatch) (m : Members)
    (t : ActiveTrade) : Members × ActiveTrade :=
  match upd.status with
  | .new => (m, t)
  | .opened =>
      if om.isEntry ∧ 0 < upd.filledSize then onEntryPartial env upd m t else (m, t)
  | .closed =>
      let m := if om.isEntry then m.releaseReservation t.plan else m
      if upd.filledSize ≤ 0 then
        -- an exit order cancelled before its fill leaves the trade alone
        if om.isStop || om.isTp1 || om.isTp2 then (m, t) else (m, { t with state := .closed })
      else if om.isEntry then onEntryFilled env upd m t
      else if om.isTp1 && !t.tp1Filled then onTp1Filled env upd m t
      else if om.isStop || om.isTp2 || (om.isTp1 && t.tp1Filled) then onExitFilled upd om m t
      else (m, t)

/-- One turn of the loop on a trade that takes the update. -/
def applyOrderUpdate (env : Env) (upd : OrderUpdate) (m : Members) (t : ActiveTrade)
    (om : OrderMatch) : Members × ActiveTrade :=
  handleOrderUpdate env upd om m (captureIds upd t)

end TradeBot
