import Mathlib.Data.List.Forall2
import TradeBot.Transport.ListenerCalls
import TradeBot.Transport.ReplayFeed

set_option autoImplicit false

/-! # A replay against the session it was recorded from

A session is what the live feed got, message by message, while the recorder was on. A listener of the
replay is compared with one that was registered for all tickers live. They hear the same of every
message that has a payload and that the live feed did not leave to the pipeline processor, up to two
things: a replay sets the time of book messages itself, and it names a trade's ticker as it stands
in the message.

The live listener is one that was registered throughout (`HearsAll`), so that its calls are given by
the messages. What is compared is a list of calls for each side, message by message, and the result
for a session follows by going through its lines (`replayLines_agrees`). -/

namespace TradeBot

/-- One message of a session: with the local time and the feed's flag when it was handled. -/
structure Received where
  message : Json
  recvTsNs : ℤ
  clock : TimePoint
  skipHotPath : Bool

namespace Received

open MarketDataFeed

/-- The file a session leaves behind. -/
def recording (text : JsonText) (session : List Received) : List String :=
  session.map (fun m => DumpRecorder.record text m.message m.recvTsNs)

/-- The JSON library reads back what it wrote. -/
structure RoundTrips (text : JsonText) (m : Received) : Prop where
  line : text.parse (DumpRecorder.record text m.message m.recvTsNs) =
    some (.obj [("message", m.message), ("recv_ts_ns", .int m.recvTsNs)])
  message : text.parse (text.dump m.message) = some m.message

/-- The replay does not end at this message: a payload comes with a type that is a string. -/
def Replayable (text : JsonText) (m : Received) : Prop :=
  ∀ j, text.parse (ReplayFeed.rawMessage text m.message) = some j →
    j.contains "Type" = true → j.contains "Data" = true → messageType j ≠ none

/-- The types that a replay dispatches. -/
def replayedTypes : List String :=
  ["trade_update", "orderbook_snapshot", "orderbook_update", "order_update", "position_update",
    "balance_update"]

/-- A message of one of the types that a replay delivers. -/
def IsReplayed (m : Received) : Prop := ∃ type ∈ replayedTypes, messageType m.message = some type

/-- The live feed skips it for the pipeline processor. -/
def LeftToProcessor (m : Received) : Prop :=
  m.skipHotPath = true ∧ ∃ type, messageType m.message = some type ∧ isHotType type = true

end Received

/-- The calls the live feed makes in a session. -/
def MarketDataFeed.live {L : Type} [DecidableEq L] :
    MarketDataFeed L → List Received → List (List (L × Callback))
  | _, [] => []
  | feed, m :: session =>
      let handled :=
        handleMessage m.clock { feed with skipHotPath := m.skipHotPath } m.message
      handled.2 :: live handled.1 session

/-- A callback without what a replay is free to change: the time of a book message and the spelling
    of a trade's ticker. -/
def Callback.compared : Callback → Callback
  | .trades ticker ts => .trades (toInternalTicker ticker) ts
  | .orderbookSnapshot snapshot => .orderbookSnapshot { snapshot with ts := 0 }
  | .orderbookUpdate update => .orderbookUpdate { update with ts := 0 }
  | cb => cb

section Heard

variable {L : Type} [DecidableEq L]

/-- What a listener is called with. -/
def heard (l : L) (calls : List (L × Callback)) : List Callback :=
  (calls.filter (·.1 = l)).map Prod.snd

theorem heard_map (l : L) (targets : List L) (cb : Callback) :
    heard l (targets.map (fun l => (l, cb))) = List.replicate (targets.count l) cb := by
  rw [heard, MarketDataFeed.filter_calls, List.map_replicate]

end Heard

/-! ## The live side -/

namespace MarketDataFeed

variable {L : Type} [DecidableEq L]

/-- The listener is registered once, and for all tickers. -/
structure HearsAll (feed : MarketDataFeed L) (l : L) : Prop where
  once : feed.listeners.count l = 1
  notOwn : ∀ t, l ∉ feed.tickerListeners t

theorem HearsAll.count_targets {feed : MarketDataFeed L} {l : L} (h : feed.HearsAll l)
    (ticker : Ticker) : (feed.getTargetListeners ticker).count l = 1 := by
  unfold getTargetListeners mergedSnapshot
  split
  · exact h.once
  · split
    · exact h.once
    · rw [Option.getD_some, count_mergeListeners, if_neg (h.notOwn ticker),
        if_pos (List.one_le_count_iff.1 h.once.ge)]

/-- The listener hears every message that is dispatched. -/
theorem HearsAll.heard {feed : MarketDataFeed L} {l : L} (h : feed.HearsAll l) (clock : TimePoint)
    (j : Json) :
    TradeBot.heard l (handleMessage clock feed j).2 =
      ((dispatched clock feed.skipHotPath j).map Prod.snd).toList := by
  rw [handleMessage_calls]
  cases dispatched clock feed.skipHotPath j with
  | none => rfl
  | some call => rw [heard_map, h.count_targets]; rfl

theorem HearsAll.handleMessage {feed : MarketDataFeed L} {l : L} (h : feed.HearsAll l)
    (clock : TimePoint) (j : Json) : (handleMessage clock feed j).1.HearsAll l := by
  obtain ⟨hglobal, hown, -⟩ := handleMessage_listeners clock feed j
  exact ⟨hglobal ▸ h.once, hown ▸ h.notOwn⟩

end MarketDataFeed

/-! ## The replayed side -/

namespace ReplayFeed

open MetaScalpCodec MarketDataFeed

variable {L : Type} [DecidableEq L]

/-- The callback of a message that the replay dispatches without an exception. -/
def replayedCallback (clock : TimePoint) (bookTime : Option TimePoint) (j : Json) :
    Option Callback :=
  match messageType j with
  | none => none
  | some type =>
      if j.contains "Data" then
        (replayCallback clock bookTime type (messageData j)).toOption.join
      else none

theorem contains_type_of_messageType {j : Json} {type : String} (h : messageType j = some type) :
    j.contains "Type" = true := by
  unfold messageType at h
  obtain ⟨v, hv, -⟩ := Option.bind_eq_some_iff.1 h
  exact Json.contains_iff.2 ⟨v, hv⟩

omit [DecidableEq L] in
/-- Text whose payload comes with a string type leads to a delivery, to all listeners. -/
theorem dispatchMessage_calls (feed : ReplayFeed L) {text : JsonText} {raw : String} (offset : ℤ)
    (clock : TimePoint) (recvTsNs : ℤ) (stats : Stats)
    (htype : ∀ j, text.parse raw = some j →
      j.contains "Type" = true → j.contains "Data" = true → messageType j ≠ none) :
    ∃ d, feed.dispatchMessage text offset clock raw recvTsNs stats = some d ∧
      d.calls = ((text.parse raw).bind (replayedCallback clock
        (if offset = 0 then none else some (recvTsNs + offset)))).toList.flatMap
          (fun cb => feed.listeners.map (fun l => (l, cb))) := by
  unfold dispatchMessage replayedCallback
  cases hraw : text.parse raw with
  | none => exact ⟨_, rfl, rfl⟩
  | some j =>
      rw [Option.bind_some]
      dsimp only
      cases htypeOf : messageType j with
      | none =>
          -- no type was read, so type or data is missing
          have hmissing : (j.contains "Type" && j.contains "Data") = false := by
            rw [Bool.and_eq_false_iff]
            by_contra h
            push Not at h
            exact htype j hraw (by simpa using h.1) (by simpa using h.2) htypeOf
          rw [hmissing]
          exact ⟨_, rfl, rfl⟩
      | some type =>
          rw [contains_type_of_messageType htypeOf, Bool.true_and]
          cases hdata : j.contains "Data" with
          | false => exact ⟨_, rfl, rfl⟩
          | true =>
              simp only [Bool.not_true, Bool.false_eq_true, ↓reduceIte]
              -- without a listener the message is not decoded
              by_cases hnobody : feed.listeners = []
              · rw [if_pos hnobody, hnobody]
                exact ⟨_, rfl, by simp⟩
              · rw [if_neg hnobody]
                split <;> next hcb => exact ⟨_, rfl, by simp [hcb, Except.toOption]⟩

omit [DecidableEq L] in
/-- A recorded line is read back and dispatched. -/
theorem replayLine_record (feed : ReplayFeed L) {text : JsonText} {m : Received}
    (hround : m.RoundTrips text) (hreplayable : m.Replayable text) (offset : ℤ) (clock : TimePoint)
    (stats : Stats) :
    ∃ d bookTime,
      feed.replayLine text offset clock (DumpRecorder.record text m.message m.recvTsNs) stats =
          some d ∧
        d.calls = ((text.parse (rawMessage text m.message)).bind
          (replayedCallback clock bookTime)).toList.flatMap
            (fun cb => feed.listeners.map (fun l => (l, cb))) := by
  have hne : DumpRecorder.record text m.message m.recvTsNs ≠ "" := by
    intro h
    have hline := hround.line
    rw [h, text.parse_empty] at hline
    cases hline
  obtain ⟨d, hd, hcalls⟩ := feed.dispatchMessage_calls offset clock
    (if -2 ^ 63 ≤ m.recvTsNs ∧ m.recvTsNs < 2 ^ 64 then m.recvTsNs.bmod (2 ^ 64)
      else Json.truncate 64 m.recvTsNs)
    { stats with messagesRead := stats.messagesRead + 1 } hreplayable
  refine ⟨d, _, ?_, hcalls⟩
  rw [replayLine, if_neg hne, hround.line]
  exact hd

/-- A string has no fields, so a message with a field is replayed as it was written. -/
theorem rawMessage_of_contains (text : JsonText) {j : Json} {key : String}
    (h : j.contains key = true) : rawMessage text j = text.dump j := by
  cases j with
  | str s => cases h
  | _ => rfl

/-- The scan for the first trade raises no exception either. -/
theorem preScan_recording {text : JsonText} {session : List Received}
    (hround : ∀ m ∈ session, m.RoundTrips text) (hreplayable : ∀ m ∈ session, m.Replayable text)
    (scanned : ℕ) : ∃ offset, preScan text (Received.recording text session) scanned = some offset := by
  induction session generalizing scanned with
  | nil => exact ⟨0, rfl⟩
  | cons m session ih =>
      have hrest := ih (fun m' h => hround m' (List.mem_cons_of_mem _ h))
        (fun m' h => hreplayable m' (List.mem_cons_of_mem _ h))
      have hm := hround m List.mem_cons_self
      show ∃ offset, preScan text
        (DumpRecorder.record text m.message m.recvTsNs :: Received.recording text session) scanned =
          some offset
      unfold preScan
      split
      · exact ⟨0, rfl⟩
      · split
        · exact hrest scanned
        · rw [hm.line]
          show ∃ offset, (if !(m.message.contains "Type" && m.message.contains "Data") then _
            else _) = some offset
          split
          · exact hrest (scanned + 1)
          · next hshape =>
              rw [Bool.not_eq_true', Bool.not_eq_false, Bool.and_eq_true] at hshape
              have hraw := (congrArg text.parse (rawMessage_of_contains text hshape.1)).trans hm.message
              have htype := hreplayable m List.mem_cons_self m.message hraw hshape.1 hshape.2
              obtain ⟨type, htypeOf⟩ := Option.ne_none_iff_exists'.1 htype
              rw [htypeOf]
              dsimp only
              split
              · exact ⟨_, rfl⟩
              · exact hrest (scanned + 1)

/-- The two dispatchers decode the payload of a replayed type to the same contents. -/
theorem replayCallback_compared (clock clock' : TimePoint) (bookTime : Option TimePoint)
    {type : String} (htype : type ∈ Received.replayedTypes) (data : Json) :
    ((replayCallback clock bookTime type data).toOption.join).map Callback.compared =
      (callbackOf clock' type data).map (fun call => call.2.compared) := by
  simp only [Received.replayedTypes, List.mem_cons, List.not_mem_nil, or_false] at htype
  rcases htype with rfl | rfl | rfl | rfl | rfl | rfl
  · simp [replayCallback, callbackOf, Except.toOption, Callback.compared, fromMs_eq,
      toInternalTicker_idem]
  · simp [replayCallback, callbackOf, Except.toOption, Callback.compared, fromMs_eq,
      parseOrderbookSnapshot, toInternalTicker_idem]
  · simp [replayCallback, callbackOf, Except.toOption, Callback.compared, fromMs_eq,
      parseOrderbookUpdate, toInternalTicker_idem]
  · cases hupd : parseOrderUpdate data with
    | error e => simp [replayCallback, callbackOf, hupd, Except.toOption, Except.map]
    | ok upd =>
        obtain ⟨-, -, orderType, rfl⟩ := parseOrderUpdate_ok hupd
        simp [replayCallback, callbackOf, hupd, Except.toOption, Except.map, Callback.compared,
          fromMs_eq, orderUpdateOf, toInternalTicker_idem]
  · cases hupd : parsePositionUpdate data with
    | error e => simp [replayCallback, callbackOf, hupd, Except.toOption, Except.map]
    | ok upd =>
        obtain ⟨-, -, rfl⟩ := parsePositionUpdate_ok hupd
        simp [replayCallback, callbackOf, hupd, Except.toOption, Except.map, Callback.compared,
          fromMs_eq, positionUpdateOf, toInternalTicker_idem]
  · simp [replayCallback, callbackOf, Except.toOption]

end ReplayFeed

/-! ## The whole session -/

namespace Received

open MarketDataFeed ReplayFeed

variable {L : Type} [DecidableEq L]

/-- What a listener of the replay hears of a message, beside what it heard live. -/
def Agrees (m : Received) (live replayed : List Callback) : Prop :=
  if m.message.contains "Data" then
    ¬ m.LeftToProcessor → replayed.map Callback.compared = live.map Callback.compared
  else replayed = []

theorem rawMessage_of_isReplayed {text : JsonText} {m : Received} (h : m.IsReplayed) :
    rawMessage text m.message = text.dump m.message := by
  obtain ⟨type, -, htype⟩ := h
  exact rawMessage_of_contains text (contains_type_of_messageType htype)

/-- One message: live as `dispatched`, replayed as `replayedCallback`. -/
theorem agrees_of_isReplayed {m : Received} (h : m.IsReplayed) (clock : TimePoint)
    (bookTime : Option TimePoint) :
    m.Agrees ((dispatched m.clock m.skipHotPath m.message).map Prod.snd).toList
      (replayedCallback clock bookTime m.message).toList := by
  obtain ⟨type, hmem, htype⟩ := h
  unfold Agrees replayedCallback dispatched
  rw [htype]
  dsimp only
  cases hdata : m.message.contains "Data" with
  | false => simp
  | true =>
      simp only [↓reduceIte]
      intro hlive
      have hskip : (m.skipHotPath && isHotType type) = false := by
        rw [Bool.and_eq_false_iff]
        by_contra hno
        push Not at hno
        exact hlive ⟨by simpa using hno.1, type, htype, by simpa using hno.2⟩
      have hsame := replayCallback_compared clock m.clock bookTime hmem (messageData m.message)
      rw [hskip]
      simp only [Bool.false_eq_true, ↓reduceIte]
      rw [← Option.toList_map, ← Option.toList_map, hsame, Option.map_map]
      rfl

theorem heard_replayed {replay : ReplayFeed L} {l : L} (hl : l ∈ replay.listeners)
    (cb : Option Callback) :
    heard l (cb.toList.flatMap (fun cb => replay.listeners.map (fun l => (l, cb)))) = cb.toList := by
  cases cb with
  | none => rfl
  | some cb =>
      rw [Option.toList_some, List.flatMap_singleton, heard_map,
        List.count_eq_one_of_mem replay.nodup hl]
      rfl

/-- The lines of a session, from any of them on. -/
theorem replayLines_agrees {text : JsonText} {replay : ReplayFeed L} {l : L}
    (hreplay : l ∈ replay.listeners) (offset : ℤ) (clock : ℕ → TimePoint) {session : List Received}
    (hround : ∀ m ∈ session, m.RoundTrips text) (hreplayable : ∀ m ∈ session, m.Replayable text)
    {feed : MarketDataFeed L} (hlive : feed.HearsAll l) (n : ℕ) (stats : Stats) :
    List.Forall₂ (fun m calls => m.IsReplayed → m.Agrees (heard l calls.1) (heard l calls.2))
      session ((feed.live session).zip
        (replay.replayLines text offset clock (recording text session) n stats).calls) := by
  induction session generalizing feed n stats with
  | nil => exact .nil
  | cons m session ih =>
      obtain ⟨d, bookTime, hline, hcalls⟩ := replay.replayLine_record (hround m List.mem_cons_self)
        (hreplayable m List.mem_cons_self) offset (clock n) stats
      have hskipping : ({ feed with skipHotPath := m.skipHotPath } : MarketDataFeed L).HearsAll l :=
        ⟨hlive.once, hlive.notOwn⟩
      have hrest := ih (fun m' h => hround m' (List.mem_cons_of_mem _ h))
        (fun m' h => hreplayable m' (List.mem_cons_of_mem _ h))
        (hskipping.handleMessage m.clock m.message) (n + 1) d.stats
      have hlines : (replay.replayLines text offset clock (recording text (m :: session)) n
          stats).calls = d.calls ::
            (replay.replayLines text offset clock (recording text session) (n + 1) d.stats).calls := by
        rw [recording, List.map_cons, replayLines, hline]
        rfl
      rw [hlines, MarketDataFeed.live, List.zip_cons_cons]
      refine .cons (fun hreplayed => ?_) hrest
      dsimp only
      rw [hskipping.heard, hcalls, heard_replayed hreplay, rawMessage_of_isReplayed hreplayed,
        (hround m List.mem_cons_self).message]
      exact agrees_of_isReplayed hreplayed (clock n) bookTime

/-- A replay of a session calls its listeners as the live feed called one that hears everything. -/
theorem run_agrees {text : JsonText} {feed : MarketDataFeed L} {replay : ReplayFeed L} {l : L}
    (hlive : feed.HearsAll l) (hreplay : l ∈ replay.listeners) (clock : ℕ → TimePoint)
    {session : List Received} (hround : ∀ m ∈ session, m.RoundTrips text)
    (hreplayable : ∀ m ∈ session, m.Replayable text) :
    List.Forall₂ (fun m calls => m.IsReplayed → m.Agrees (heard l calls.1) (heard l calls.2))
      session ((feed.live session).zip (replay.run text clock (recording text session)).calls) := by
  obtain ⟨offset, hoffset⟩ := preScan_recording hround hreplayable 0
  rw [ReplayFeed.run, hoffset]
  exact replayLines_agrees hreplay offset clock hround hreplayable hlive 0 {}

/-! ## One trade -/

/-- A trade that is recorded while the hot path is on or off. -/
def recordedTrade (skipHotPath : Bool) : Received :=
  { message := .obj
      [("Data", .obj
          [("Ticker", .str "BTCUSDT"),
            ("Trades", .arr [.obj [("Price", .int 100), ("Side", .int 1), ("Size", .int 2)]])]),
        ("Type", .str "trade_update")]
    recvTsNs := 1
    clock := 0
    skipHotPath := skipHotPath }

/-- A trade as it comes from the exchange. -/
def tradeText : String :=
  "\x7b\"Data\":\x7b\"Ticker\":\"BTCUSDT\",\"Trades\":" ++
    "[\x7b\"Price\":100,\"Side\":1,\"Size\":2\x7d]\x7d,\"Type\":\"trade_update\"\x7d"

/-- The line that is recorded of it. -/
def tradeLine : String := "\x7b\"message\":" ++ tradeText ++ ",\"recv_ts_ns\":1\x7d"

theorem tradeText_ne_empty : "" ≠ tradeLine ∧ "" ≠ tradeText := by decide +kernel

/-- The JSON library on that trade and on its line. -/
def tradeJsonText : JsonText where
  dump
    | .obj (("message", _) :: _) => tradeLine
    | _ => tradeText
  parse s :=
    if s = tradeLine then
      some (.obj [("message", (recordedTrade false).message), ("recv_ts_ns", .int 1)])
    else if s = tradeText then some (recordedTrade false).message
    else none
  parse_empty := (if_neg tradeText_ne_empty.1).trans (if_neg tradeText_ne_empty.2)

/-- A live feed with one listener. -/
def onlyListener : MarketDataFeed Unit := { listeners := [()] }

/-- A replay with one listener. -/
def onlyReplayListener : ReplayFeed Unit := { listeners := [()] }

theorem recordedTrade_roundTrips (skipHotPath : Bool) :
    (recordedTrade skipHotPath).RoundTrips tradeJsonText where
  line := by simp [DumpRecorder.record, tradeJsonText, recordedTrade]
  message := by
    have hne : tradeText ≠ tradeLine := by decide +kernel
    simp [tradeJsonText, recordedTrade, hne]

theorem recordedTrade_replayable (skipHotPath : Bool) :
    (recordedTrade skipHotPath).Replayable tradeJsonText := by
  intro j hj _ _
  have hsame : (recordedTrade skipHotPath).message = j :=
    Option.some.inj ((recordedTrade_roundTrips skipHotPath).message.symm.trans hj)
  rw [← hsame]
  intro h
  cases h

theorem run_agrees_recordedTrade :
    List.Forall₂ (fun m calls => m.IsReplayed → m.Agrees (heard () calls.1) (heard () calls.2))
      [recordedTrade false] ((onlyListener.live [recordedTrade false]).zip
        (onlyReplayListener.run tradeJsonText (fun _ => 0)
          (recording tradeJsonText [recordedTrade false])).calls) :=
  run_agrees ⟨rfl, fun _ => List.not_mem_nil⟩ List.mem_cons_self (fun _ => 0)
    (by
      intro m hm
      rw [List.mem_singleton.1 hm]
      exact recordedTrade_roundTrips false)
    (by
      intro m hm
      rw [List.mem_singleton.1 hm]
      exact recordedTrade_replayable false)

/-- Once the hot path is on, a replay delivers a trade that nobody heard live. -/
theorem recordedTrade_notHeardLive :
    onlyListener.HearsAll () ∧ () ∈ onlyReplayListener.listeners ∧
      (recordedTrade true).RoundTrips tradeJsonText ∧ (recordedTrade true).IsReplayed ∧
      (onlyListener.live [recordedTrade true]).map (heard ()) = [[]] ∧
      ((onlyReplayListener.run tradeJsonText (fun _ => 0)
        (recording tradeJsonText [recordedTrade true])).calls).map (heard ()) =
          [[.trades "BTCUSDT" [{ price := 100, size := 2, side := .buy, timestamp := 0 }]]] :=
  ⟨⟨rfl, fun _ => List.not_mem_nil⟩, List.mem_cons_self, recordedTrade_roundTrips true,
    ⟨"trade_update", by decide, rfl⟩, by decide +kernel, by decide +kernel⟩

end Received

end TradeBot
