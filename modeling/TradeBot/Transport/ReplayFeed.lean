import Mathlib.Data.List.Nodup
import TradeBot.Transport.MarketDataFeed

set_option autoImplicit false

/-! # Recording and replaying a feed

`transport/DumpRecorder.cpp` writes every message of the WebSocket with the time it was received as
one line of a file, and `transport/ReplayFeed.cpp` reads such a file and calls its own listeners. JSON
text is a parameter. A replay may end in an uncaught exception, which is `none` here.

The text of a line is parsed by a parameter, which is given with its inverse, so that what was
recorded is read back. A replay goes through its file twice: a scan looks for the first trade, and
the loop delivers line by line. Both read the same fields, and either may raise the exception. -/

namespace TradeBot

/-- `dump` and `parse` of the JSON library. -/
structure JsonText where
  dump : Json → String
  parse : String → Option Json
  parse_empty : parse "" = none

/-- One line of the file. -/
def DumpRecorder.record (text : JsonText) (msg : Json) (recvTsNs : ℤ) : String :=
  text.dump (.obj [("message", msg), ("recv_ts_ns", .int recvTsNs)])

/-- A replay has its listeners in one list, without repetitions. -/
structure ReplayFeed (L : Type) where
  listeners : List L := []
  nodup : listeners.Nodup := by simp

namespace ReplayFeed

open MetaScalpCodec MarketDataFeed

variable {L : Type} [DecidableEq L]

/-- A listener that is registered stays where it is. -/
def addListener (feed : ReplayFeed L) (l : L) : ReplayFeed L :=
  if h : l ∈ feed.listeners then feed
  else
    { listeners := feed.listeners.concat l
      nodup := (List.nodup_concat _ _).2 ⟨h, feed.nodup⟩ }

/-- The order of the others stays. -/
def removeListener (feed : ReplayFeed L) (l : L) : ReplayFeed L :=
  { listeners := feed.listeners.filter (· ≠ l), nodup := feed.nodup.filter _ }

/-- What a replay counts. -/
structure Stats where
  messagesRead : ℕ := 0
  messagesDispatched : ℕ := 0
  parseErrors : ℕ := 0
  deriving DecidableEq

/-- One more line or message that could not be read. -/
def Stats.parseError (stats : Stats) : Stats := { stats with parseErrors := stats.parseErrors + 1 }

/-- One more message that was delivered. -/
def Stats.dispatched (stats : Stats) : Stats :=
  { stats with messagesDispatched := stats.messagesDispatched + 1 }

/-- What one line leads to. -/
structure Delivery (L : Type) where
  calls : List (L × Callback) := []
  stats : Stats

/-- The callback of a message, if its type is one that is replayed. A book message gets the time
    `bookTime`, if there is one. -/
def replayCallback (clock : TimePoint) (bookTime : Option TimePoint) (type : String) (data : Json) :
    Except CodecError (Option Callback) :=
  if type = "trade_update" then
    .ok (some (.trades (getString data "Ticker") (parseTradeUpdate data)))
  else if type = "orderbook_snapshot" then
    let snap := parseOrderbookSnapshot clock data (getString data "Ticker")
    .ok (some (.orderbookSnapshot { snap with ts := bookTime.getD snap.ts }))
  else if type = "orderbook_update" then
    let upd := parseOrderbookUpdate clock data (getString data "Ticker")
    .ok (some (.orderbookUpdate { upd with ts := bookTime.getD upd.ts }))
  else if type = "order_update" then (parseOrderUpdate data).map (fun upd => some (.orderUpdate upd))
  else if type = "position_update" then
    (parsePositionUpdate data).map (fun upd => some (.positionUpdate upd))
  else if type = "balance_update" then .ok (some (.balanceUpdate (parseBalanceUpdate data)))
  else .ok none

/-- `dispatch_message_`. The type is read outside of the `try` block. -/
def dispatchMessage (feed : ReplayFeed L) (text : JsonText) (offset : ℤ) (clock : TimePoint)
    (raw : String) (recvTsNs : ℤ) (stats : Stats) : Option (Delivery L) :=
  match text.parse raw with
  | none => some { stats := stats.parseError }
  | some j =>
      if !(j.contains "Type" && j.contains "Data") then some { stats := stats.parseError }
      else
        match messageType j with
        | none => none
        | some type =>
            let bookTime := if offset = 0 then none else some (recvTsNs + offset)
            if feed.listeners = [] then some { stats := stats.dispatched }
            else
              match replayCallback clock bookTime type (messageData j) with
              | .error _ => some { stats := stats.parseError }
              | .ok none => some { stats := stats.dispatched }
              | .ok (some cb) =>
                  some { calls := feed.listeners.map (fun l => (l, cb)), stats := stats.dispatched }

/-- A message that is a string is replayed as the text it holds. -/
def rawMessage (text : JsonText) : Json → String
  | .str s => s
  | msg => text.dump msg

/-- The body of the loop over the lines. -/
def replayLine (feed : ReplayFeed L) (text : JsonText) (offset : ℤ) (clock : TimePoint)
    (line : String) (stats : Stats) : Option (Delivery L) :=
  if line = "" then some { stats := stats }
  else
    match text.parse line with
    | none => some { stats := stats.parseError }
    | some envelope =>
        let stats := { stats with messagesRead := stats.messagesRead + 1 }
        match envelope.find? "recv_ts_ns", envelope.find? "message" with
        | some recvTs, some msg =>
            match recvTs.integer? 64 with
            | none => none
            | some recvTsNs =>
                feed.dispatchMessage text offset clock (rawMessage text msg) recvTsNs stats
        | _, _ => some { stats := stats.parseError }

/-- A replay: the calls line by line, up to the end of the file or an exception. -/
structure Replay (L : Type) where
  calls : List (List (L × Callback)) := []
  stats : Stats
  aborted : Bool := false

/-- The loop of `run`; `clock n` is the time at which line `n` is read. -/
def replayLines (feed : ReplayFeed L) (text : JsonText) (offset : ℤ) (clock : ℕ → TimePoint) :
    List String → ℕ → Stats → Replay L
  | [], _, stats => { stats := stats }
  | line :: lines, n, stats =>
      match feed.replayLine text offset (clock n) line stats with
      | none => { stats := stats, aborted := true }
      | some d =>
          let rest := feed.replayLines text offset clock lines (n + 1) d.stats
          { rest with calls := d.calls :: rest.calls }

/-- The first trade of a message, by whose time the clock of a replay is set. -/
def firstTrade (type : String) (data : Json) : Option Trade :=
  if type = "trade_update" then (parseTradeUpdate data).head? else none

/-- The scan for the first trade among the first 1000 lines that parse: the distance of its time from
    the time it was received. -/
def preScan (text : JsonText) : List String → ℕ → Option ℤ
  | [], _ => some 0
  | line :: lines, scanned =>
      if 1000 ≤ scanned then some 0
      else if line = "" then preScan text lines scanned
      else
        match text.parse line with
        | none => preScan text lines scanned
        | some envelope =>
            match envelope.find? "recv_ts_ns", envelope.find? "message" with
            | some recvTs, some msg =>
                match recvTs.integer? 64 with
                | none => none
                | some recvTsNs =>
                    if !(msg.contains "Type" && msg.contains "Data") then
                      preScan text lines (scanned + 1)
                    else
                      match messageType msg with
                      | none => none
                      | some type =>
                          match firstTrade type (messageData msg) with
                          | some trade => some (trade.timestamp - recvTsNs)
                          | none => preScan text lines (scanned + 1)
            | _, _ => preScan text lines (scanned + 1)

/-- `run`. -/
def run (feed : ReplayFeed L) (text : JsonText) (clock : ℕ → TimePoint) (lines : List String) :
    Replay L :=
  match preScan text lines 0 with
  | none => { stats := {}, aborted := true }
  | some offset => feed.replayLines text offset clock lines 0 {}

end ReplayFeed

end TradeBot
