import Mathlib.Data.List.Nodup
import TradeBot.App.TwoPaths
import TradeBot.Lib.Runs

set_option autoImplicit false

/-! # Handing the hot messages over

Every message of the WebSocket goes to the processor's queue first and to the feed then. The feed
skips the hot messages once `start_processor` has been called, and from then on the processor takes
them from the queue. What is in the queue at that moment has been handled by the feed already, and
what does not fit into an event never gets there. Messages are numbered as they arrive.

A message can be applied by both paths or by neither, so `timesApplied` counts for each number what
the two have handed over. The feed applies a hot message as long as it does not skip them, and only
from under `Data`. The processor has nothing to hand over of such a message, wherever its payload is
(`processEvent_of_hot`), so that a message is applied once if the feed applies it and never otherwise:
`FedOnce` says that so far the feed has applied all of them.

A message without anything to apply is of no interest: both paths may come across it, and neither
hands anything over. The condition on a run is on its receptions alone (`Admitted`), since neither
the call of `start_processor` nor a turn of the loop can apply a message a second time. -/

namespace TradeBot

open MetaScalpCodec MarketDataFeed PipelineProcessor

/-- A message with the size of its text. -/
structure RawMessage where
  json : Json
  size : ℕ

/-- Both paths, with what has come in and what each of them has handed over. -/
structure HotPath where
  feed : MarketDataFeed AppListener
  /-- The processor thread runs. -/
  running : Bool := false
  /-- The SPSC queue, with the numbers of the messages. -/
  queue : List (ℕ × RawMessage) := []
  received : List RawMessage := []
  /-- The messages of which the feed has handed something to a controller. -/
  byFeed : List ℕ := []
  /-- The messages of which the processor has handed something over. -/
  byProcessor : List ℕ := []
  /-- The messages for which the queue had no room. -/
  overflowed : List ℕ := []

namespace HotPath

/-- What happens to the two paths. -/
inductive Event
  | receive (clock : TimePoint) (m : RawMessage)
  | startProcessor
  /-- The processor thread takes the next event from the queue. -/
  | pop (clock : TimePoint)

section Machine

variable (R : OnDemand) (capacity : ℕ) (registered : Ticker → Bool)

/-- The callback for raw messages, set in `init_components`: `enqueue`, unless the message is too large
    for an event. -/
def onRawMessage (s : HotPath) (m : RawMessage) : HotPath :=
  if kMaxPayload < m.size then s
  else if s.queue.length < capacity then { s with queue := s.queue ++ [(s.received.length, m)] }
  else { s with overflowed := s.overflowed ++ [s.received.length] }

/-- The callback for parsed messages, which hands the message to the feed. -/
def onMessage (s : HotPath) (clock : TimePoint) (m : RawMessage) : HotPath :=
  let handled := handleMessage clock s.feed m.json
  { s with
    feed := handled.1
    byFeed :=
      if (handedToControllers handled.2).isEmpty then s.byFeed
      else s.byFeed ++ [s.received.length] }

/-- One reception, the call of `start_processor`, or one turn of the processor's loop. -/
def step (s : HotPath) : Event → HotPath
  | .receive clock m =>
      let s := (s.onRawMessage capacity m).onMessage clock m
      { s with received := s.received ++ [m] }
  | .startProcessor => { s with feed := { s.feed with skipHotPath := true }, running := true }
  | .pop clock =>
      match s.running, s.queue with
      | true, (id, m) :: queue =>
          { s with
            queue := queue
            byProcessor :=
              if (processEvent R clock registered m.json).isEmpty then s.byProcessor
              else s.byProcessor ++ [id] }
      | _, _ => s

end Machine

/-! ## Which path can read a message -/

/-- The message is a hot one and holds items for a registered ticker under `Data`. -/
def CarriesData (registered : Ticker → Bool) (j : Json) : Prop :=
  ∃ type, messageType j = some type ∧ isHotType type = true ∧
    Carries registered type (messageData j)

/-- An item that the processor's loop would not skip. -/
def HasSide (sideKey : String) (item : Json) : Prop :=
  item.isObject = true ∧
    ((item.find? sideKey).bind Json.int64? = some 1 ∨ (item.find? sideKey).bind Json.int64? = some 2)

/-- The message is a hot one and holds items with a numeric side for a registered ticker beside
    `Type`. -/
def CarriesBesideType (registered : Ticker → Bool) (j : Json) : Prop :=
  ∃ ticker, text? j "Ticker" "ticker" = some ticker ∧ registered (toInternalTicker ticker) = true ∧
    ((text? j "Type" "type" = some "orderbook_update" ∧
        ∃ items, list? j "Updates" "updates" = some items ∧ ∃ item ∈ items, HasSide "Type" item) ∨
      (text? j "Type" "type" = some "trade_update" ∧
        ∃ items, list? j "Trades" "trades" = some items ∧ ∃ item ∈ items, HasSide "Side" item))

/-- There is something to apply. -/
def CarriesItems (registered : Ticker → Bool) (j : Json) : Prop :=
  CarriesData registered j ∨ CarriesBesideType registered j

/-- Other messages hand nothing to a controller. -/
theorem handedToController_cold {registered : Ticker → Bool} {type : String}
    (hcold : isHotType type = false) (clock : TimePoint) (data : Json) :
    handedToController registered (callbackOf clock type data) = [] := by
  simp only [isHotType, Bool.or_eq_false_iff, decide_eq_false_iff_not] at hcold
  unfold callbackOf
  rw [if_neg hcold.1, if_neg hcold.2]
  have hother (ticker : Ticker) {cb : Callback}
      (hcb : handedToControllers [(.controller ticker, cb)] = []) :
      handedToController registered (some (ticker, cb)) = [] := by
    rw [handedToController, hcb, ite_self]
  split_ifs
  · exact hother _ rfl
  · split
    · exact hother _ rfl
    · rfl
  · split
    · exact hother _ rfl
    · rfl
  · exact hother _ rfl
  · exact hother _ rfl
  · exact hother _ rfl
  · rfl

/-- A controller gets something from the feed of a hot message that carries it, while the feed does
    not skip such messages. -/
theorem handedToControllers_handleMessage {feed : MarketDataFeed AppListener}
    {registered : Ticker → Bool} (h : Wired feed registered) (clock : TimePoint) (j : Json) :
    handedToControllers (handleMessage clock feed j).2 ≠ [] ↔
      feed.skipHotPath = false ∧ CarriesData registered j := by
  rw [h.handed_handleMessage, dispatched]
  unfold CarriesData
  cases htype : messageType j with
  | none => simp [handedToController]
  | some type =>
      dsimp only
      cases hhot : isHotType type with
      | false =>
          rw [Bool.and_false, if_neg Bool.false_ne_true, handedToController_cold hhot]
          simp [hhot]
      | true =>
          rw [Bool.and_true]
          cases hskip : feed.skipHotPath with
          | true => simp [handedToController]
          | false =>
              rw [if_neg Bool.false_ne_true, Ne, handedToController_hot hhot, not_not]
              simp [hhot]

/-- The processor hands over nothing of a message with something to apply. -/
theorem processEvent_of_carriesItems {R : OnDemand} {registered : Ticker → Bool} (clock : TimePoint)
    {j : Json} (hitems : CarriesItems registered j) (htime : ¬ TimeIsObject j) :
    processEvent R clock registered j = [] := by
  refine processEvent_of_hot ?_ htime
  rcases hitems with ⟨type, htype, hhot, -⟩ | ⟨-, -, -, hhot⟩
  · have hfield : text? j "Type" "type" = some type := by
      rw [text?, ← messageType, htype, Option.some_or]
    simp only [isHotType, Bool.or_eq_true, decide_eq_true_eq] at hhot
    rcases hhot with rfl | rfl
    · exact .inr hfield
    · exact .inl hfield
  · exact hhot.imp And.left And.left

/-! ## Every message once -/

section Runs

variable {R : OnDemand} {capacity : ℕ} {registered : Ticker → Bool}

/-- How often the message has been applied, by one path or the other. -/
def timesApplied (s : HotPath) (id : ℕ) : ℕ := s.byFeed.count id + s.byProcessor.count id

/-- The messages in the queue. -/
def waiting (s : HotPath) : List ℕ := s.queue.map Prod.fst

/-- Every message with something to apply is applied once, unless it waits in the queue or the queue
    had no room for it. -/
def AppliedOnce (registered : Ticker → Bool) (s : HotPath) : Prop :=
  ∀ id m, s.received[id]? = some m → CarriesItems registered m.json →
    s.timesApplied id ≤ 1 ∧
      (s.timesApplied id = 1 ∨ id ∈ s.waiting ∨ id ∈ s.overflowed)

/-- A message with something to apply comes before the hand-over and has it under `Data`. (Where an
    object stands for its time, the reader of the processor promises nothing.) -/
def Admitted (registered : Ticker → Bool) (s : HotPath) : Event → Prop
  | .receive _ m =>
      CarriesItems registered m.json →
        s.feed.skipHotPath = false ∧ CarriesData registered m.json ∧ ¬ TimeIsObject m.json
  | .startProcessor => True
  | .pop _ => True

/-- The feed has applied every message with something to apply, and the processor none of them. -/
structure FedOnce (registered : Ticker → Bool) (s : HotPath) : Prop where
  wired : Wired s.feed registered
  feedIds : ∀ id ∈ s.byFeed, id < s.received.length
  feedNodup : s.byFeed.Nodup
  processorIds : ∀ id ∈ s.byProcessor, id < s.received.length
  queued : ∀ e ∈ s.queue, s.received[e.1]? = some e.2
  applied : ∀ id m, s.received[id]? = some m → CarriesItems registered m.json →
    id ∈ s.byFeed ∧ id ∉ s.byProcessor ∧ ¬ TimeIsObject m.json

theorem FedOnce.appliedOnce {s : HotPath} (h : FedOnce registered s) : s.AppliedOnce registered := by
  intro id m hm hitems
  obtain ⟨hfed, hprocessed, -⟩ := h.applied id m hm hitems
  have honce : s.timesApplied id = 1 := by
    rw [timesApplied, List.count_eq_one_of_mem h.feedNodup hfed, List.count_eq_zero_of_not_mem hprocessed]
  exact ⟨honce.le, .inl honce⟩

/-! ## What the steps do -/

/-- Where the raw callback puts a message. -/
theorem onRawMessage_cases (capacity : ℕ) (s : HotPath) (m : RawMessage) :
    s.onRawMessage capacity m = s ∨
      s.onRawMessage capacity m = { s with queue := s.queue ++ [(s.received.length, m)] } ∨
      s.onRawMessage capacity m = { s with overflowed := s.overflowed ++ [s.received.length] } := by
  unfold onRawMessage
  split
  · exact .inl rfl
  · split
    · exact .inr (.inl rfl)
    · exact .inr (.inr rfl)

theorem wired_handleMessage {feed : MarketDataFeed AppListener} (h : Wired feed registered)
    (clock : TimePoint) (j : Json) : Wired (handleMessage clock feed j).1 registered := by
  obtain ⟨hglobal, hown, -⟩ := handleMessage_listeners clock feed j
  exact ⟨hown ▸ h.own, hglobal ▸ h.notGlobal, h.named⟩

/-- The feed takes a message with items while it does not skip the hot ones and finds them. -/
theorem byFeed_onMessage {s : HotPath} (hwired : Wired s.feed registered) (clock : TimePoint)
    (m : RawMessage) :
    ((s.onMessage clock m).byFeed = s.byFeed ∧
        ¬ (s.feed.skipHotPath = false ∧ CarriesData registered m.json)) ∨
      (s.onMessage clock m).byFeed = s.byFeed ++ [s.received.length] := by
  rw [← handedToControllers_handleMessage hwired clock, Ne, ← List.isEmpty_iff, onMessage]
  dsimp only
  split
  · next h => exact .inl ⟨rfl, not_not.2 h⟩
  · exact .inr rfl

/-- What the reception of a message leaves. -/
structure Receives (registered : Ticker → Bool) (s : HotPath) (m : RawMessage) (s' : HotPath) :
    Prop where
  wired : Wired s'.feed registered
  received : s'.received = s.received ++ [m]
  byProcessor : s'.byProcessor = s.byProcessor
  byFeed : (s'.byFeed = s.byFeed ∧ ¬ (s.feed.skipHotPath = false ∧ CarriesData registered m.json)) ∨
    s'.byFeed = s.byFeed ++ [s.received.length]
  queue : s'.queue = s.queue ∨ s'.queue = s.queue ++ [(s.received.length, m)]

theorem step_receive (R : OnDemand) (capacity : ℕ) {s : HotPath} (hwired : Wired s.feed registered)
    (clock : TimePoint) (m : RawMessage) :
    Receives registered s m (s.step R capacity registered (.receive clock m)) := by
  have hfed := byFeed_onMessage hwired clock m
  have hwired' := wired_handleMessage hwired clock m.json
  rcases onRawMessage_cases capacity s m with hraw | hraw | hraw
  · rw [step, hraw]
    exact ⟨hwired', rfl, rfl, hfed, .inl rfl⟩
  · rw [step, hraw]
    exact ⟨hwired', rfl, rfl, hfed, .inr rfl⟩
  · rw [step, hraw]
    exact ⟨hwired', rfl, rfl, hfed, .inl rfl⟩

/-- What taking the first message from the queue leaves. -/
structure Pops (R : OnDemand) (registered : Ticker → Bool) (clock : TimePoint) (s : HotPath)
    (first : ℕ) (m : RawMessage) (s' : HotPath) : Prop where
  feed : s'.feed = s.feed
  received : s'.received = s.received
  byFeed : s'.byFeed = s.byFeed
  queue : s.queue = (first, m) :: s'.queue
  byProcessor : (s'.byProcessor = s.byProcessor) ∨
    (s'.byProcessor = s.byProcessor ++ [first] ∧ processEvent R clock registered m.json ≠ [])

theorem step_pop (R : OnDemand) (capacity : ℕ) (s : HotPath) (clock : TimePoint) :
    s.step R capacity registered (.pop clock) = s ∨
      ∃ first m, Pops R registered clock s first m (s.step R capacity registered (.pop clock)) := by
  cases hrun : s.running with
  | false =>
      left
      rw [step, hrun]
  | true =>
      cases hqueue : s.queue with
      | nil =>
          left
          rw [step, hrun, hqueue]
      | cons e queue =>
          obtain ⟨first, m⟩ := e
          refine .inr ⟨first, m, ?_⟩
          rw [step, hrun, hqueue]
          dsimp only
          split
          · exact ⟨rfl, rfl, rfl, hqueue, .inl rfl⟩
          · next hsome =>
              exact ⟨rfl, rfl, rfl, hqueue, .inr ⟨rfl, fun hnil => hsome (List.isEmpty_iff.2 hnil)⟩⟩

variable {s s' : HotPath} {m m' : RawMessage} {id : ℕ}

/-- A message of the longer history is an earlier one or the last. -/
theorem Receives.received_cases (h : Receives registered s m s') (hm' : s'.received[id]? = some m') :
    (id < s.received.length ∧ s.received[id]? = some m') ∨ (id = s.received.length ∧ m' = m) := by
  rw [h.received] at hm'
  by_cases hid : id < s.received.length
  · exact .inl ⟨hid, by rwa [List.getElem?_append_left hid] at hm'⟩
  · rw [List.getElem?_append_right (Nat.le_of_not_lt hid), List.getElem?_singleton] at hm'
    split at hm'
    · next hzero => exact .inr ⟨by omega, (Option.some.inj hm').symm⟩
    · cases hm'

/-- An earlier message keeps its place in the longer history. -/
theorem Receives.getElem? (h : Receives registered s m s') (hm' : s.received[id]? = some m') :
    s'.received[id]? = some m' := by
  rw [h.received, List.getElem?_append_left (List.getElem?_eq_some_iff.1 hm').1]
  exact hm'

theorem FedOnce.receive (h : FedOnce registered s) (hreceives : Receives registered s m s')
    (hadmitted : CarriesItems registered m.json →
      s.feed.skipHotPath = false ∧ CarriesData registered m.json ∧ ¬ TimeIsObject m.json) :
    FedOnce registered s' := by
  have hlength : s'.received.length = s.received.length + 1 := by
    rw [hreceives.received, List.length_append, List.length_singleton]
  -- the message has a number that no path has seen yet
  have hnew : s.received.length ∉ s.byFeed := fun hid => (h.feedIds _ hid).ne rfl
  have hkept : s.byFeed ⊆ s'.byFeed := by
    rcases hreceives.byFeed with ⟨hfeed, -⟩ | hfeed
    · exact hfeed ▸ List.Subset.refl _
    · exact hfeed ▸ List.subset_append_left ..
  refine ⟨hreceives.wired, ?_, ?_, ?_, ?_, ?_⟩
  · intro id hid
    rw [hlength]
    rcases hreceives.byFeed with ⟨hfeed, -⟩ | hfeed
    · exact Nat.lt_succ_of_lt (h.feedIds id (hfeed ▸ hid))
    · rw [hfeed, List.mem_append, List.mem_singleton] at hid
      rcases hid with hold | rfl
      · exact Nat.lt_succ_of_lt (h.feedIds id hold)
      · exact Nat.lt_succ_self _
  · rcases hreceives.byFeed with ⟨hfeed, -⟩ | hfeed
    · exact hfeed ▸ h.feedNodup
    · rw [hfeed, ← List.concat_eq_append, List.nodup_concat]
      exact ⟨hnew, h.feedNodup⟩
  · intro id hid
    rw [hlength]
    exact Nat.lt_succ_of_lt (h.processorIds id (hreceives.byProcessor ▸ hid))
  · intro e he
    -- what waits in the queue was received
    rcases hreceives.queue with hqueue | hqueue
    · exact hreceives.getElem? (h.queued e (hqueue ▸ he))
    · rw [hqueue, List.mem_append, List.mem_singleton] at he
      rcases he with hold | rfl
      · exact hreceives.getElem? (h.queued e hold)
      · rw [hreceives.received, List.getElem?_concat_length]
  · intro id m' hm' hitems
    rw [hreceives.byProcessor]
    rcases hreceives.received_cases hm' with ⟨-, hold⟩ | ⟨rfl, rfl⟩
    · obtain ⟨hfed, hprocessed, htime⟩ := h.applied id m' hold hitems
      exact ⟨hkept hfed, hprocessed, htime⟩
    · -- the feed has taken the message that came just now
      obtain ⟨hlive, hdata, htime⟩ := hadmitted hitems
      refine ⟨?_, fun hid => (h.processorIds _ hid).ne rfl, htime⟩
      rcases hreceives.byFeed with ⟨-, hnot⟩ | hfeed
      · exact absurd ⟨hlive, hdata⟩ hnot
      · exact hfeed ▸ List.mem_append_right _ List.mem_cons_self

theorem FedOnce.pop {clock : TimePoint} {first : ℕ} (h : FedOnce registered s)
    (hpops : Pops R registered clock s first m s') : FedOnce registered s' := by
  have hfirst : s.received[first]? = some m := h.queued (first, m) (hpops.queue ▸ List.mem_cons_self)
  refine ⟨hpops.feed ▸ h.wired, ?_, hpops.byFeed ▸ h.feedNodup, ?_, ?_, ?_⟩
  · rw [hpops.byFeed, hpops.received]
    exact h.feedIds
  · intro id hid
    rw [hpops.received]
    rcases hpops.byProcessor with hsame | ⟨hmore, -⟩
    · exact h.processorIds id (hsame ▸ hid)
    · rw [hmore, List.mem_append, List.mem_singleton] at hid
      rcases hid with hold | rfl
      · exact h.processorIds id hold
      · exact (List.getElem?_eq_some_iff.1 hfirst).1
  · rw [hpops.received]
    exact fun e he => h.queued e (hpops.queue ▸ List.mem_cons_of_mem _ he)
  · intro id m' hm' hitems
    rw [hpops.received] at hm'
    obtain ⟨hfed, hprocessed, htime⟩ := h.applied id m' hm' hitems
    refine ⟨hpops.byFeed ▸ hfed, fun hid => ?_, htime⟩
    rcases hpops.byProcessor with hsame | ⟨hmore, hsome⟩
    · exact hprocessed (hsame ▸ hid)
    · rw [hmore, List.mem_append, List.mem_singleton] at hid
      rcases hid with hold | rfl
      · exact hprocessed hold
      · -- the processor hands something over of a message that carries nothing for it
        obtain rfl : m = m' := Option.some.inj (hfirst.symm.trans hm')
        exact hsome (processEvent_of_carriesItems clock hitems htime)

theorem FedOnce.step {ev : Event} (h : FedOnce registered s) (hadmitted : s.Admitted registered ev) :
    FedOnce registered (s.step R capacity registered ev) := by
  cases ev with
  | receive clock m => exact h.receive (step_receive R capacity h.wired clock m) hadmitted
  | startProcessor =>
      exact ⟨⟨h.wired.own, h.wired.notGlobal, h.wired.named⟩, h.feedIds, h.feedNodup, h.processorIds,
        h.queued, h.applied⟩
  | pop clock =>
      rcases step_pop R capacity s clock with hsame | ⟨first, m, hpops⟩
      · rw [hsame]
        exact h
      · exact h.pop hpops

/-- The application before its first message. -/
theorem fedOnce_init {feed : MarketDataFeed AppListener} (hwired : Wired feed registered) :
    FedOnce registered { feed := feed } where
  wired := hwired
  feedIds id hid := by cases hid
  feedNodup := .nil
  processorIds id hid := by cases hid
  queued e he := by cases he
  applied id m hm := by cases hm

/-- In a run whose steps are all admitted every message is applied once, unless it waits or the queue
    was full. -/
theorem run_appliedOnce (R : OnDemand) {feed : MarketDataFeed AppListener}
    (hwired : Wired feed registered) (events : List Event)
    (hadmitted : Runs.Along (step R capacity registered) (Admitted registered) { feed := feed }
      events) :
    (events.foldl (step R capacity registered) { feed := feed }).AppliedOnce registered :=
  (hadmitted.invariant (FedOnce registered) (fun _ _ h hadm => h.step hadm)
    (fedOnce_init hwired)).appliedOnce

end Runs

/-! ## One trade at the hand-over -/

/-- A trade with upper-case names and a numeric side. -/
def btcTrade : Json := .obj [("Price", .int 100), ("Size", .int 2), ("Side", .int 1)]

/-- A trade under `Data`, as the exchange sends it. -/
def nestedTrade (size : ℕ) : RawMessage := { json := tradeMessage [btcTrade], size := size }

/-- A trade where the processor looks for it. -/
def flatTrade : RawMessage where
  json := .obj [("Type", .str "trade_update"), ("Ticker", .str "BTCUSDT"), ("Trades", .arr [btcTrade])]
  size := 90

/-- The application after some events, with a queue of the size that the program uses. -/
def runFrom (events : List Event) : HotPath :=
  events.foldl (step .forward 65536 btcOnly) { feed := btcFeed }

theorem carriesData_nestedTrade (size : ℕ) : CarriesData btcOnly (nestedTrade size).json := by
  have hcarries : Carries btcOnly "trade_update" (messageData (tradeMessage [btcTrade])) := by
    simp only [Carries]
    decide +kernel
  exact ⟨"trade_update", rfl, rfl, hcarries⟩

theorem carriesItems_flatTrade : CarriesItems btcOnly flatTrade.json :=
  .inr ⟨"BTCUSDT", rfl, by decide +kernel, .inr ⟨rfl, [btcTrade], rfl, btcTrade, List.mem_cons_self,
    rfl, .inl rfl⟩⟩

/-- A trade under `Data` that is received before the hand-over is applied once. -/
theorem run_appliedOnce_nestedTrade :
    (runFrom [.receive 0 (nestedTrade 100), .startProcessor, .pop 0]).AppliedOnce btcOnly := by
  refine run_appliedOnce .forward btcFeed_wired
    [.receive 0 (nestedTrade 100), .startProcessor, .pop 0]
    ⟨fun _ => ⟨rfl, carriesData_nestedTrade 100, ?_⟩, trivial, trivial, trivial⟩
  rintro ⟨v, hv, -⟩
  cases hv

/-- A message that nobody has applied and that nobody is going to apply. -/
def IsLost (s : HotPath) (id : ℕ) : Prop :=
  s.timesApplied id = 0 ∧ id ∉ s.waiting ∧ id ∉ s.overflowed

instance (s : HotPath) (id : ℕ) : Decidable (s.IsLost id) := inferInstanceAs (Decidable (_ ∧ _))

/-- After the hand-over a large trade is lost, and a small one, both under `Data` and beside `Type`. -/
theorem handOver_notOnce :
    (let s := runFrom [.startProcessor, .receive 0 (nestedTrade 9000), .pop 0];
      s.IsLost 0 ∧ ¬ s.AppliedOnce btcOnly) ∧
    (let s := runFrom [.startProcessor, .receive 0 (nestedTrade 100), .pop 0];
      s.IsLost 0 ∧ ¬ s.AppliedOnce btcOnly) ∧
    (let s := runFrom [.startProcessor, .receive 0 flatTrade, .pop 0];
      s.IsLost 0 ∧ ¬ s.AppliedOnce btcOnly) := by
  have hlarge : (runFrom [.startProcessor, .receive 0 (nestedTrade 9000), .pop 0]).IsLost 0 := by
    decide +kernel
  have hsmall : (runFrom [.startProcessor, .receive 0 (nestedTrade 100), .pop 0]).IsLost 0 := by
    decide +kernel
  have hflat : (runFrom [.startProcessor, .receive 0 flatTrade, .pop 0]).IsLost 0 := by
    decide +kernel
  have hlost {s : HotPath} {m : RawMessage} (hm : s.received[0]? = some m)
      (hitems : CarriesItems btcOnly m.json) (h : s.IsLost 0) : ¬ s.AppliedOnce btcOnly := by
    intro honce
    rcases (honce 0 m hm hitems).2 with happlied | hwaiting | hoverflowed
    · rw [h.1] at happlied
      cases happlied
    · exact h.2.1 hwaiting
    · exact h.2.2 hoverflowed
  exact ⟨⟨hlarge, hlost rfl (.inl (carriesData_nestedTrade 9000)) hlarge⟩,
    ⟨hsmall, hlost rfl (.inl (carriesData_nestedTrade 100)) hsmall⟩,
    ⟨hflat, hlost rfl carriesItems_flatTrade hflat⟩⟩

end HotPath

end TradeBot
