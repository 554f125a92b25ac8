import Mathlib.Data.List.AList
import Mathlib.Data.List.Sort
import TradeBot.Utils.Numeric
import TradeBot.Utils.TickerSymbol

set_option autoImplicit false

/-! # Order reconciliation

`trading/OrderReconciliator.{hpp,cpp}`: intents whose `POST /orders` failed ambiguously are looked
for among the exchange's open orders, with exponential backoff, until they are found or a deadline
passes. `poll_open_orders` takes the lock twice, around the unlocked REST fetch; the two locked
sections are `pollDue` and `pollSettle`.

Intents are kept by their local ids, with an index by ticker. The first section of a poll answers the
intents that are not due; the second one takes what the fetch has answered, which may be nothing, and
resolves, gives up or backs off each due intent. -/

namespace TradeBot

/-- What was to be ordered. -/
structure OrderIntent where
  localOrderId : OrderId
  ticker : Ticker
  side : Side
  type : OrderType
  price : ℚ
  size : ℚ
  deriving DecidableEq

/-- What has become of an intent. -/
inductive ReconcileOutcome
  | pending
  | resolved
  | notFoundTimeout
  deriving DecidableEq, Repr

/-- What a poll reports of an intent. -/
structure ReconcileResult where
  outcome : ReconcileOutcome
  localOrderId : OrderId
  serverOrderId : Option OrderId := none
  intent : Option OrderIntent := none
  note : Option String := none

/-- Nanoseconds in a millisecond. -/
def nsPerMs : ℤ := 1000000

/-- `OrderReconciliator::Config`; durations in milliseconds. -/
structure ReconcilerConfig where
  initialBackoff : ℤ := 500
  maxBackoff : ℤ := 8000
  totalTimeout : ℤ := 30000
  backoffMultiplier : ℚ := 2
  priceToleranceBps : ℚ := 2
  sizeTolerancePct : ℚ := 1 / 2

/-- An intent with its next poll and its backoff in milliseconds. -/
structure PendingIntent where
  intent : OrderIntent
  startedAt : TimePoint
  nextPollAt : TimePoint
  currentBackoff : ℤ

/-- `pending_` by local id, and the local ids of each ticker in increasing order. -/
structure OrderReconciliator where
  cfg : ReconcilerConfig := {}
  pending : AList (fun _ : OrderId => PendingIntent) := ∅
  byTicker : AList (fun _ : Ticker => List OrderId) := ∅

namespace OrderReconciliator

variable (r : OrderReconciliator)

/-- The pending intents of a ticker. -/
def idsOf (key : Ticker) : List OrderId := (r.byTicker.lookup key).getD []

/-- `enter_submit_unknown`; the flag says whether the intent was registered. -/
def enterSubmitUnknown (intent : OrderIntent) (now : TimePoint) : OrderReconciliator × Bool :=
  if intent.localOrderId ∈ r.pending then (r, false)
  else
    let normalized := { intent with ticker := toInternalTicker intent.ticker }
    let ids := (r.idsOf normalized.ticker).orderedInsert (· ≤ ·) intent.localOrderId
    ({ r with
        pending := r.pending.insert intent.localOrderId
          { intent := normalized, startedAt := now, nextPollAt := now,
            currentBackoff := r.cfg.initialBackoff }
        byTicker := r.byTicker.insert normalized.ticker ids }, true)

/-- Drop `localId` from both indices; a ticker whose set empties loses its entry. -/
def remove (localId : OrderId) : OrderReconciliator :=
  match r.pending.lookup localId with
  | none => r
  | some p =>
      let r' := { r with pending := r.pending.erase localId }
      match r.byTicker.lookup p.intent.ticker with
      | none => r'
      | some ids =>
          let rest := ids.erase localId
          { r' with
              byTicker := if rest = [] then r.byTicker.erase p.intent.ticker
                          else r.byTicker.insert p.intent.ticker rest }

/-- `resolve_order`. -/
def resolveOrder (localId : OrderId) : OrderReconciliator × Bool :=
  if localId ∈ r.pending then (r.remove localId, true) else (r, false)

/-- Whether a ticker has a pending intent. -/
def hasPending (ticker : Ticker) : Bool :=
  match r.byTicker.lookup (toInternalTicker ticker) with
  | none => false
  | some ids => !ids.isEmpty

/-- `matches_intent_`. -/
def matchesIntent (intent : OrderIntent) (server : RestOrder) : Bool :=
  decide (toInternalTicker server.ticker = toInternalTicker intent.ticker) &&
  decide (server.side = intent.side) &&
  decide (server.type = intent.type) &&
  (decide (intent.type = .market) ||
    decide (|server.price - intent.price|
      ≤ max (1 / 100000000) (|intent.price| * (r.cfg.priceToleranceBps / 10000)))) &&
  decide (|server.size - intent.size|
    ≤ max (1 / 100000000) (|intent.size| * (r.cfg.sizeTolerancePct / 100)))

/-- The deadline is counted from the registration. -/
def deadlinePassed (p : PendingIntent) (now : TimePoint) : Bool :=
  decide (r.cfg.totalTimeout * nsPerMs ≤ now - p.startedAt)

/-- First locked section of `poll_open_orders`: the intents of `key` whose poll is not due yet are
    answered `Pending`, the ids of the others are returned. -/
def pollDue (key : Ticker) (now : TimePoint) : List ReconcileResult × List OrderId :=
  (r.idsOf key).foldl (fun acc localId =>
    match r.pending.lookup localId with
    | none => acc
    | some p =>
        if now < p.nextPollAt ∧ ¬ r.deadlinePassed p now then
          (acc.1 ++ [{ outcome := .pending, localOrderId := localId, intent := some p.intent }],
            acc.2)
        else (acc.1, acc.2 ++ [localId])) ([], [])

/-- The wait grows by a factor, up to a limit. -/
def backOff (p : PendingIntent) (now : TimePoint) : PendingIntent :=
  let backoff := min r.cfg.maxBackoff (truncToInt (p.currentBackoff * r.cfg.backoffMultiplier))
  { p with currentBackoff := backoff, nextPollAt := now + backoff * nsPerMs }

/-- Settle one due intent given the server order found for it: resolved, timed out, or backed
    off. -/
def settleOne (found : OrderIntent → Option OrderId) (timeoutNote : String) (now : TimePoint)
    (acc : OrderReconciliator × List ReconcileResult × List OrderId) (localId : OrderId) :
    OrderReconciliator × List ReconcileResult × List OrderId :=
  let (r, out, toRemove) := acc
  match r.pending.lookup localId with
  | none => acc
  | some p =>
      match found p.intent with
      | some serverId =>
          (r, out ++ [{ outcome := .resolved, localOrderId := localId,
                        serverOrderId := some serverId, intent := some p.intent }],
            toRemove ++ [localId])
      | none =>
          if r.deadlinePassed p now then
            (r, out ++ [{ outcome := .notFoundTimeout, localOrderId := localId,
                          intent := some p.intent, note := some timeoutNote }],
              toRemove ++ [localId])
          else
            ({ r with pending := r.pending.insert localId (r.backOff p now) },
              out ++ [{ outcome := .pending, localOrderId := localId, intent := some p.intent }],
              toRemove)

/-- Second locked section of `poll_open_orders`, after the fetch answered (`some orders`) or threw
    (`none`). -/
def pollSettle (key : Ticker) (now : TimePoint) (due : List OrderId)
    (orders : Option (List RestOrder)) (out : List ReconcileResult) :
    OrderReconciliator × List ReconcileResult :=
  match r.byTicker.lookup key with
  | none => (r, out)
  | some _ =>
      let found : OrderIntent → Option OrderId := match orders with
        | none => fun _ => none
        | some os => fun i => (os.find? (r.matchesIntent i)).map RestOrder.id
      let note := match orders with
        | none => "deadline exceeded during open-order polling"
        | some _ => "deadline exceeded; manual intervention required"
      let (r', out', toRemove) := due.foldl (settleOne found note now) (r, out, [])
      (toRemove.foldl remove r', out')

end OrderReconciliator

end TradeBot
