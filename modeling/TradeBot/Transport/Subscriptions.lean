import Mathlib.Data.List.Sort
import TradeBot.Transport.ComingMessages
import TradeBot.Transport.MarketDataFeed

set_option autoImplicit false

/-! # Subscriptions

`subscribe_ticker`, `unsubscribe_ticker`, `force_resync_orderbook`, `start` and `resubscribe_all` of
`transport/MarketDataFeed.cpp`, over the client that carries their frames. The application makes one
call after the other; `resubscribe_all` also runs on the client's strand, whenever it connects. Every
`send` and every access to the set of tickers is a step of its own, so the two interleave frame by
frame. `wire` keeps the frames that have been written on the current connection, in their order.

The exchange is not part of the repository. `Venue` takes it as a parameter: a function from the frames
that a connection has carried to the channels it serves, with what the API documents of it. A new
connection serves nothing, which is why `resubscribe_all` exists, and a frame changes the channel of the
symbol that it names. -/

namespace TradeBot

/-- What can be subscribed to for a ticker. -/
inductive Channel
  | trade
  | orderbook
  | funding
  | markPrice
  deriving DecidableEq, Repr

/-- The name of a channel in a frame. -/
def Channel.name : Channel → String
  | .trade => "trade"
  | .orderbook => "orderbook"
  | .funding => "funding"
  | .markPrice => "mark_price"

/-- The frames of the feed. Tickers are spelled as on the wire. -/
inductive Command
  /-- Orders, positions, balances and financial results. -/
  | connection
  | subscribe (channel : Channel) (symbol : String)
  | subscribeOrderbook (symbol : String) (fetchSnapshotFalse : Bool)
  | unsubscribe (channel : Channel) (symbol : String)
  deriving DecidableEq, Repr

/-- The settings that the frames are filled with. -/
structure FrameSettings where
  connectionId : ℤ
  depthLevels : ℤ := 50
  depthPercent : ℚ := 1 / 2

namespace Command

/-- The JSON that `send` gets as a text. -/
def frame (cfg : FrameSettings) : Command → Json
  | .connection =>
      .obj [("Type", .str "subscribe"), ("Data", .obj [("ConnectionId", .int cfg.connectionId)])]
  | .subscribe channel symbol =>
      .obj [("Type", .str (channel.name ++ "_subscribe")),
        ("Data", .obj [("ConnectionId", .int cfg.connectionId), ("Ticker", .str symbol),
          ("ZoomIndex", .int 0)])]
  | .subscribeOrderbook symbol fetchSnapshotFalse =>
      .obj [("Type", .str "orderbook_subscribe"),
        ("Data", .obj ([("ConnectionId", .int cfg.connectionId), ("Ticker", .str symbol),
          ("ZoomIndex", .int 0), ("DepthLevels", .int cfg.depthLevels),
          ("DepthPercent", .dec cfg.depthPercent)]
          ++ if fetchSnapshotFalse then [("FetchSnapshot", .bool false)] else []))]
  | .unsubscribe channel symbol =>
      .obj [("Type", .str (channel.name ++ "_unsubscribe")),
        ("Data", .obj [("ConnectionId", .int cfg.connectionId), ("Ticker", .str symbol)])]

/-- What the frame says about one channel of one symbol. -/
def word (channel : Channel) (symbol : String) : Command → Option Bool
  | .connection => none
  | .subscribe c s => if c = channel ∧ s = symbol then some true else none
  | .subscribeOrderbook s _ => if Channel.orderbook = channel ∧ s = symbol then some true else none
  | .unsubscribe c s => if c = channel ∧ s = symbol then some false else none

/-- The symbol that the frame is about. -/
def symbol? : Command → Option String
  | .connection => none
  | .subscribe _ symbol => some symbol
  | .subscribeOrderbook symbol _ => some symbol
  | .unsubscribe _ symbol => some symbol

end Command

/-! ## The venue -/

/-- The exchange, as far as subscriptions go. A string that was moved out is an empty frame. -/
structure Venue where
  /-- After these frames on one connection, the channel of the symbol is served. -/
  serves : List (Option Command) → Channel → String → Bool
  /-- Nothing is served before it is asked for. -/
  serves_nil (channel : Channel) (symbol : String) : serves [] channel symbol = false
  /-- A frame about the channel of the symbol is obeyed. -/
  serves_word {command : Command} {channel : Channel} {symbol : String} {b : Bool}
    (frames : List (Option Command)) (h : command.word channel symbol = some b) :
    serves (frames ++ [some command]) channel symbol = b
  /-- A frame about anything else leaves it as it is. -/
  serves_other {command : Command} {channel : Channel} {symbol : String}
    (frames : List (Option Command)) (h : command.word channel symbol = none) :
    serves (frames ++ [some command]) channel symbol = serves frames channel symbol
  serves_empty (frames : List (Option Command)) (channel : Channel) (symbol : String) :
    serves (frames ++ [none]) channel symbol = serves frames channel symbol

/-! ## The feed -/

/-- The outcome of a request for a snapshot of an order book. -/
inductive Fetch
  | noFetcher
  | snapshot
  /-- An error whose text has `501` in it. -/
  | unsupported
  | failed
  deriving DecidableEq, Repr

/-- What a call still has to do. -/
inductive Task
  | send (command : Command)
  /-- `resubscribe_all` copies the set of tickers, and goes on with their frames. -/
  | copy (fetch : Ticker → Fetch)

/-- The ticker that a task is about, in the spelling of the exchange. -/
def Task.symbol? : Task → Option String
  | .send command => command.symbol?
  | .copy _ => none

/-- The feed with its client, and what the two threads that use it still have to do. -/
structure FeedSession where
  fetchSnapshotOnSubscribe : Bool := true
  /-- `m_subscribed_tickers`, in its order. -/
  subscribed : List Ticker := []
  /-- `m_ws_snapshot_only`. -/
  snapshotOnly : List Ticker := []
  active : Bool := false
  /-- The rest of the application's call. -/
  call : List Task := []
  /-- The rest of `m_on_connect`. -/
  greeting : List Task := []
  client : BeastWsClient Command := {}
  /-- The frames that have been written on the current connection. -/
  wire : List (Option Command) := []

namespace FeedSession

/-- `try_rest_orderbook_snapshot_`. -/
def tryRest (s : FeedSession) (key : Ticker) (fetch : Fetch) : FeedSession × Bool :=
  if key ∈ s.snapshotOnly then (s, false)
  else
    match fetch with
    | .noFetcher => (s, false)
    | .snapshot => (s, true)
    | .unsupported => ({ s with snapshotOnly := key :: s.snapshotOnly }, false)
    | .failed => (s, false)

/-- The frames that subscribe to a ticker. -/
def subscribeFrames (key : Ticker) (useRestSeed : Bool) : List Task :=
  [.send (.subscribe .trade (toMetascalpSymbol key)),
    .send (.subscribeOrderbook (toMetascalpSymbol key) useRestSeed),
    .send (.subscribe .funding (toMetascalpSymbol key)),
    .send (.subscribe .markPrice (toMetascalpSymbol key))]

/-- The snapshot is requested only if the subscription is not to fetch one. -/
def useRestSeed (s : FeedSession) (key : Ticker) (fetch : Fetch) : FeedSession × Bool :=
  if s.fetchSnapshotOnSubscribe then (s, false) else s.tryRest key fetch

/-- The ticker joins the set, and its frames are to be sent. The book may come from the REST
    interface. -/
def subscribeTicker (s : FeedSession) (ticker : Ticker) (fetch : Fetch) : FeedSession :=
  let key := fromMs ticker
  let s := { s with
    subscribed :=
      if key ∈ s.subscribed then s.subscribed else s.subscribed.orderedInsert (· ≤ ·) key }
  let (s, seeded) := s.useRestSeed key fetch
  { s with call := subscribeFrames key seeded }

/-- The ticker leaves the set, and its frames are to be sent. -/
def unsubscribeTicker (s : FeedSession) (ticker : Ticker) : FeedSession :=
  let key := fromMs ticker
  let symbol := toMetascalpSymbol key
  { s with
    subscribed := s.subscribed.filter (· ≠ key)
    call := [.send (.unsubscribe .trade symbol), .send (.unsubscribe .orderbook symbol),
      .send (.unsubscribe .funding symbol), .send (.unsubscribe .markPrice symbol)] }

/-- The book is fetched, or asked for with a frame. -/
def forceResyncOrderbook (s : FeedSession) (ticker : Ticker) (fetch : Fetch) : FeedSession :=
  let key := fromMs ticker
  let (s, done) := s.tryRest key fetch
  if done then s else { s with call := [.send (.subscribeOrderbook (toMetascalpSymbol key) false)] }

/-- The connection frame, and then a copy of the set. -/
def resubscribeAll (fetch : Ticker → Fetch) : List Task := [.send .connection, .copy fetch]

/-- The feed is active from now on. -/
def start (s : FeedSession) (fetch : Ticker → Fetch) : FeedSession :=
  { s with active := true, call := resubscribeAll fetch }

/-- The feed is no longer active; its subscriptions stay. -/
def stop (s : FeedSession) : FeedSession := { s with active := false }

/-- The frames for the tickers that `resubscribe_all` has copied. -/
def resubscribe (fetch : Ticker → Fetch) : List Ticker → FeedSession → FeedSession × List Task
  | [], s => (s, [])
  | ticker :: rest, s =>
      let (s, seeded) := s.useRestSeed ticker (fetch ticker)
      let (s, tasks) := resubscribe fetch rest s
      (s, subscribeFrames ticker seeded ++ tasks)

/-- A thread does its next task; the tasks that come of it are done before the others. -/
def perform (s : FeedSession) : Task → FeedSession × List Task
  | .send command => ({ s with client := s.client.send command }, [])
  | .copy fetch => resubscribe fetch s.subscribed s

/-! ## Runs -/

/-- A call of the application, the next step of one of the two threads, or an event of the client. -/
inductive Event
  | subscribe (ticker : Ticker) (fetch : Fetch)
  | unsubscribe (ticker : Ticker)
  | resync (ticker : Ticker) (fetch : Fetch)
  | start (fetch : Ticker → Fetch)
  | stop
  /-- The application's call does its next task. -/
  | call
  | connect
  | disconnect
  /-- A handler of the client. The fetches are for the `resubscribe_all` of a handshake. -/
  | handle (handler : BeastWsClient.Handler) (fetch : Ticker → Fetch)
  /-- `m_on_connect` does its next task. -/
  | greet
  | greeted

/-- A write that succeeds puts its message on the wire, and a handshake makes a new one. -/
def wireAfter (s : FeedSession) : BeastWsClient.Handler → List (Option Command)
  | .handshake => []
  | .write k true => s.wire ++ s.client.out.writes[k]?.toList
  | _ => s.wire

/-- The session after an event. The application makes a call only when the last one has returned. -/
def step (s : FeedSession) : Event → FeedSession
  | .subscribe ticker fetch => if s.call.isEmpty then s.subscribeTicker ticker fetch else s
  | .unsubscribe ticker => if s.call.isEmpty then s.unsubscribeTicker ticker else s
  | .resync ticker fetch => if s.call.isEmpty then s.forceResyncOrderbook ticker fetch else s
  | .start fetch => if s.call.isEmpty then s.start fetch else s
  | .stop => if s.call.isEmpty then s.stop else s
  | .call =>
      match s.call with
      | [] => s
      | task :: rest =>
          let (s, tasks) := s.perform task
          { s with call := tasks ++ rest }
  | .connect => { s with client := s.client.step .connect }
  | .disconnect => { s with client := s.client.step .disconnect }
  | .handle handler fetch =>
      if s.client.greeting then s
      else
        { s with
          client := s.client.handle handler
          wire := s.wireAfter handler
          greeting :=
            if handler = .handshake ∧ s.active = true then resubscribeAll fetch else s.greeting }
  | .greet =>
      match s.greeting with
      | [] => s
      | task :: rest =>
          let (s, tasks) := s.perform task
          { s with greeting := tasks ++ rest }
  | .greeted => if s.greeting.isEmpty then { s with client := s.client.step .greeted } else s

/-! ## What the tasks say about one channel of one ticker -/

variable {s : FeedSession} {channel : Channel} {key : Ticker} {task : Task} {b : Bool}

/-- A copy that is still to come says that the tickers of the set are subscribed to. -/
def taskWord (subscribed : List Ticker) (channel : Channel) (key : Ticker) : Task → Option Bool
  | .send command => command.word channel (toMetascalpSymbol key)
  | .copy _ => if key ∈ subscribed then some true else none

theorem symbol_injective {a b : Ticker} (ha : fromMs a = a) (hb : fromMs b = b)
    (h : toMetascalpSymbol a = toMetascalpSymbol b) : a = b := by
  rw [MarketDataFeed.fromMs_eq] at ha hb
  rw [← ha, ← hb, toInternalTicker_eq_iff]
  exact h

theorem fromMs_fromMs (raw : String) : fromMs (fromMs raw) = fromMs raw := by
  rw [MarketDataFeed.fromMs_eq, MarketDataFeed.fromMs_eq, toInternalTicker_idem]

/-- The frames of a ticker subscribe to it, and say nothing of other symbols. -/
theorem word_subscribeFrames {subscribed : List Ticker} {ticker : Ticker} {seeded : Bool}
    (htask : task ∈ subscribeFrames ticker seeded)
    (hword : taskWord subscribed channel key task = some b) :
    b = true ∧ toMetascalpSymbol ticker = toMetascalpSymbol key := by
  simp only [subscribeFrames, List.mem_cons, List.not_mem_nil, or_false] at htask
  rcases htask with rfl | rfl | rfl | rfl <;>
    · simp only [taskWord, Command.word, Option.ite_none_right_eq_some, Option.some.injEq] at hword
      exact ⟨hword.2.symm, hword.1.2⟩

theorem exists_subscribeFrames (subscribed : List Ticker) (channel : Channel) (key : Ticker)
    (seeded : Bool) :
    ∃ task ∈ subscribeFrames key seeded, taskWord subscribed channel key task = some true := by
  cases channel <;> simp [subscribeFrames, taskWord, Command.word]

theorem tryRest_eq (s : FeedSession) (key : Ticker) (fetch : Fetch) :
    (s.tryRest key fetch).1 = { s with snapshotOnly := (s.tryRest key fetch).1.snapshotOnly } := by
  unfold tryRest
  split
  · rfl
  · cases fetch <;> rfl

theorem useRestSeed_eq (s : FeedSession) (key : Ticker) (fetch : Fetch) :
    (s.useRestSeed key fetch).1
      = { s with snapshotOnly := (s.useRestSeed key fetch).1.snapshotOnly } := by
  unfold useRestSeed
  split
  · rfl
  · exact tryRest_eq s key fetch

theorem resubscribe_eq (fetch : Ticker → Fetch) (tickers : List Ticker) (s : FeedSession) :
    (resubscribe fetch tickers s).1
      = { s with snapshotOnly := (resubscribe fetch tickers s).1.snapshotOnly } := by
  induction tickers generalizing s with
  | nil => rfl
  | cons ticker rest ih =>
      simp only [resubscribe]
      rw [ih, useRestSeed_eq]

theorem mem_resubscribe {fetch : Ticker → Fetch} {tickers : List Ticker} :
    task ∈ (resubscribe fetch tickers s).2 →
      ∃ ticker ∈ tickers, ∃ seeded, task ∈ subscribeFrames ticker seeded := by
  induction tickers generalizing s with
  | nil => exact fun h => absurd h List.not_mem_nil
  | cons ticker rest ih =>
      simp only [resubscribe, List.mem_append]
      rintro (htask | htask)
      · exact ⟨ticker, List.mem_cons_self .., _, htask⟩
      · obtain ⟨ticker', hmem, hframes⟩ := ih htask
        exact ⟨ticker', List.mem_cons_of_mem _ hmem, hframes⟩

theorem subscribeFrames_subset (fetch : Ticker → Fetch) (s : FeedSession) {tickers : List Ticker}
    (hkey : key ∈ tickers) :
    ∃ seeded, subscribeFrames key seeded ⊆ (resubscribe fetch tickers s).2 := by
  induction tickers generalizing s with
  | nil => exact absurd hkey List.not_mem_nil
  | cons ticker rest ih =>
      simp only [resubscribe]
      rcases List.mem_cons.1 hkey with rfl | hrest
      · exact ⟨_, List.subset_append_left ..⟩
      · obtain ⟨seeded, hsub⟩ := ih (s := (s.useRestSeed ticker (fetch ticker)).1) hrest
        exact ⟨seeded, fun task htask => List.mem_append_right _ (hsub htask)⟩

end FeedSession

end TradeBot
