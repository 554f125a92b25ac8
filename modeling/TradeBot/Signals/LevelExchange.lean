import TradeBot.Lib.FlagReplay
import TradeBot.Lib.Runs
import TradeBot.Signals.SignalLevelBridge

set_option autoImplicit false

/-! # The bridge and its server

The server changes its levels one change after the other, at the request of the bridge or of others,
and reports each change; the notifications reach the bridge in that order. The calls of
`on_level_formed` run on any number of threads, and each is between two of its parts. To the level of
one id a notification is one of the reports of `FlagReplay`.

The server is the one that the notifications of the source assume: a snapshot has all its levels, and
a report follows every change. Which requests come, in which order and from whom, is left open, and a
notification may be on its way for any time. -/

namespace TradeBot

namespace SignalLevelBridge

open FlagReplay

/-- A level on the server. -/
structure ServerLevel where
  ticker : Ticker
  price : ℚ
  createdAt : TimePoint
  triggered : Bool
  /-- The bridge has created it. -/
  byBridge : Bool
  deriving DecidableEq

/-- The levels on the server, and the ticker and the price of every level there has been. An id is
    given once. -/
structure LevelServer where
  levels : SortedMap (fun a b : ℤ => a < b) ServerLevel := ∅
  issued : SortedMap (fun a b : ℤ => a < b) (Ticker × ℚ) := ∅
  positive : ∀ e ∈ issued, 0 < e.1
  recorded : ∀ id level, (id, level) ∈ levels →
    (id, (toInternalTicker level.ticker, level.price)) ∈ issued

namespace LevelServer

/-- A server without levels. -/
def init : LevelServer where
  positive := by simp
  recorded := by simp

/-- A level that the server holds, as it reports it. -/
def report (e : ℤ × ServerLevel) : SignalLevel where
  id := e.1
  ticker := e.2.ticker
  price := e.2.price
  triggered := e.2.triggered
  createdAt := e.2.createdAt

/-- A new level, under an id that has not been given yet. -/
def place (srv : LevelServer) (level : SignalLevel) (byBridge : Bool) :
    LevelServer × List Notification :=
  if h : 0 < level.id ∧ srv.issued.lookup level.id = none then
    ({ levels := srv.levels.insert level.id
        { ticker := level.ticker
          price := level.price
          createdAt := level.createdAt
          triggered := level.triggered
          byBridge := byBridge }
       issued := srv.issued.insert level.id (toInternalTicker level.ticker, level.price)
       positive := by
         intro e he
         rcases SortedMap.mem_insert.1 he with rfl | ⟨he, _⟩
         · exact h.1
         · exact srv.positive e he
       recorded := by
         intro id lvl hmem
         rcases SortedMap.mem_insert.1 hmem with heq | ⟨hmem, hne⟩
         · obtain ⟨rfl, rfl⟩ := Prod.mk.inj heq
           exact SortedMap.mem_insert.2 (Or.inl rfl)
         · exact SortedMap.mem_insert.2 (Or.inr ⟨srv.recorded id lvl hmem, hne⟩) },
      [.placed level])
  else (srv, [])

/-- Levels are dropped or triggered. -/
def revise (srv : LevelServer) (f : ℤ → ServerLevel → Option Bool) : LevelServer where
  levels := srv.levels.filterMap
    (fun id level => (f id level).map (fun flag => { level with triggered := flag }))
  issued := srv.issued
  positive := srv.positive
  recorded := by
    intro id level hmem
    obtain ⟨level', hmem', heq⟩ := SortedMap.mem_filterMap.1 hmem
    obtain ⟨flag, _, rfl⟩ := Option.map_eq_some_iff.1 heq
    exact srv.recorded id level' hmem'

/-- A level is triggered, unless it was. -/
def trigger (srv : LevelServer) (id : ℤ) : LevelServer × List Notification :=
  match srv.levels.lookup id with
  | some level =>
      if level.triggered then (srv, [])
      else
        let srv := srv.revise (fun id' level => some (decide (id' = id) || level.triggered))
        (srv, [.triggered (report (id, { level with triggered := true }))])
  | none => (srv, [])

/-- A level is removed. -/
def remove (srv : LevelServer) (id : ℤ) : LevelServer × List Notification :=
  match srv.levels.lookup id with
  | some _ =>
      (srv.revise (fun id' level => if id' = id then none else some level.triggered), [.removed id])
  | none => (srv, [])

/-- The removal of all levels of a ticker, of all levels where none is named. -/
def removeAll (srv : LevelServer) (ticker : Ticker) : LevelServer × List Notification :=
  let key := toInternalTicker ticker
  (srv.revise (fun _ level =>
      if key = "" ∨ toInternalTicker level.ticker = key then none else some level.triggered),
    [.removedAll ticker])

/-- All triggered levels are removed. -/
def removeTriggered (srv : LevelServer) : LevelServer × List Notification :=
  (srv.revise (fun _ level => if level.triggered then none else some false), [.removedTriggered])

/-- All levels, as they are now. -/
def snapshot (srv : LevelServer) : Notification := .snapshot (srv.levels.entries.map report)

end LevelServer

/-! ## The exchange -/

/-- A call of `on_level_formed` before its next part. -/
inductive Call
  | removing (evictId : ℤ) (key : Ticker) (price : ℚ) (timestamp : TimePoint)
  | creating (key : Ticker) (price : ℚ) (timestamp : TimePoint)
  | inserting (id : ℤ) (key : Ticker) (price : ℚ) (timestamp : TimePoint)
  deriving DecidableEq

/-- The call has passed the check of the limit, and has not created its level yet. -/
def Call.isOpen : Call → Bool
  | .removing .. => true
  | .creating .. => true
  | .inserting .. => false

/-- The call is about to remove level `id`. -/
def Call.removes (id : ℤ) : Call → Bool
  | .removing evictId .. => decide (evictId = id)
  | _ => false

/-- The levels of the bridge, the server, the notifications on their way and the running calls. -/
structure LevelExchange where
  active : Levels := ∅
  server : LevelServer
  sent : List Notification := []
  calls : List Call := []

/-- What happens next, in the bridge, on the server or on the way between them. -/
inductive ExchangeStep
  /-- A call begins, with its check of the limit. -/
  | levelFormed (ticker : Ticker) (price : ℚ) (timestamp : TimePoint) (currentMid : ℚ)
  /-- A call runs its next part; `id` and `now` are what the server gives to a level it creates. -/
  | proceed (call : Call) (id : ℤ) (now : TimePoint)
  /-- The bridge handles the oldest notification. -/
  | deliver
  /-- Others place, trigger and remove levels, and the server sends a snapshot. -/
  | place (level : SignalLevel)
  | trigger (id : ℤ)
  | remove (id : ℤ)
  | removeAll (ticker : Ticker)
  | removeTriggered
  | snapshot

namespace LevelExchange

/-- The server changes, and reports it. -/
def change (x : LevelExchange) (r : LevelServer × List Notification) : LevelExchange :=
  { x with server := r.1, sent := x.sent ++ r.2 }

/-- `on_level_formed` up to its first call of the gateway. -/
def begin (cfg : Config) (x : LevelExchange) (ticker : Ticker) (price : ℚ) (timestamp : TimePoint)
    (currentMid : ℚ) : LevelExchange :=
  if cfg.enabled then
    let key := toInternalTicker ticker
    let (evictId, levels) := checkLimit cfg currentMid x.active
    let call := if 0 ≤ evictId then Call.removing evictId key price timestamp
      else Call.creating key price timestamp
    { x with active := levels, calls := call :: x.calls }
  else x

/-- The next part of a call: `gateway_.remove`, `gateway_.create`, or the insertion. -/
def advance (x : LevelExchange) (call : Call) (id : ℤ) (now : TimePoint) : LevelExchange :=
  let rest := x.calls.erase call
  match call with
  | .removing evictId key price timestamp =>
      { x.change (x.server.remove evictId) with calls := .creating key price timestamp :: rest }
  | .creating key price timestamp =>
      if 0 < id ∧ x.server.issued.lookup id = none then
        let level := { id := id, ticker := key, price := price, createdAt := now }
        { x.change (x.server.place level true) with
          calls := .inserting id key price timestamp :: rest }
      else x
  | .inserting id key price timestamp =>
      { x with active := insertCreated id key price timestamp x.active, calls := rest }

/-- A step. Without the call or a notification, or under an id that has been given, nothing
    happens. -/
def step (cfg : Config) (x : LevelExchange) : ExchangeStep → LevelExchange
  | .levelFormed ticker price timestamp currentMid => x.begin cfg ticker price timestamp currentMid
  | .proceed call id now => if call ∈ x.calls then x.advance call id now else x
  | .deliver =>
      match x.sent with
      | n :: rest => { x with active := handle n x.active, sent := rest }
      | [] => x
  | .place level => x.change (x.server.place level false)
  | .trigger id => x.change (x.server.trigger id)
  | .remove id => x.change (x.server.remove id)
  | .removeAll ticker => x.change (x.server.removeAll ticker)
  | .removeTriggered => x.change x.server.removeTriggered
  | .snapshot => x.change (x.server, [x.server.snapshot])

/-- The exchange after some steps. -/
def run (cfg : Config) (x : LevelExchange) (steps : List ExchangeStep) : LevelExchange :=
  steps.foldl (step cfg) x

/-- The bridge subscribes to a server, which answers with a snapshot. -/
def start (server : LevelServer) : LevelExchange := { server := server, sent := [server.snapshot] }

/-- No call is running, and no notification on its way. -/
def Quiet (x : LevelExchange) : Prop := x.calls = [] ∧ x.sent = []

/-- The ids of the levels on the server that the bridge has created. -/
def created (x : LevelExchange) : List ℤ :=
  (x.server.levels.entries.filter (fun e => e.2.byBridge)).map Prod.fst

/-- The bridge knows the levels of the server, and no others. -/
def Mirrors (x : LevelExchange) : Prop :=
  ∀ id, (x.active.lookup id).map (fun l => (l.ticker, l.price, l.triggered)) =
    (x.server.levels.lookup id).map (fun l => (toInternalTicker l.ticker, l.price, l.triggered))

end LevelExchange

end SignalLevelBridge

end TradeBot
