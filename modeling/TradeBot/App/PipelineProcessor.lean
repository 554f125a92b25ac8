import TradeBot.App.OnDemand
import TradeBot.Transport.ListenerCalls

set_option autoImplicit false

/-! # The fast path

`app/PipelineProcessor.cpp`: the processor thread decodes the bytes of a message once more, with
another library than the feed, and hands what it reads to the ticker's controller or to the executor.
`registered` says which tickers have been registered with their components.

The handlers read a document in the order of the source, each lookup moving the cursor of the one that
follows. `handle_orderbook_update_` and `handle_trade_update_` find the array of their items first,
look up the time of the message then, and go through the array at last, when the cursor has left it
(`objects_eventTime`). So the loop comes across nothing, whatever the message holds. -/

namespace TradeBot

/-- `RawWsEvent::kMaxPayload`. -/
def kMaxPayload : ℕ := 8192

/-- What one message hands over, item by item: to the controller of a ticker a changed level or a
    trade, to the executor a mark price. -/
inductive Handed
  | change (ticker : Ticker) (level : PriceLevel)
  | trade (ticker : Ticker) (trade : Trade)
  | markPrice (ticker : Ticker) (price : ℚ)
  deriving DecidableEq

namespace PipelineProcessor

variable (R : OnDemand)

/-! ## Decoding -/

/-- A field under its name or, where that finds nothing, under its lower-case name. -/
def field {α : Type} (get : String → StateM R.Object (Option α)) (key alt : String) :
    StateM R.Object (Option α) := do
  match ← get key with
  | some v => return some v
  | none => get alt

/-- The server's time of the message, or the local one. -/
def eventTime (clock : TimePoint) : StateM R.Object TimePoint := do
  return ((← field R R.getString "Time" "time").map parseTimestamp).getD clock

/-- The side of an item, of which `0` stands for none. -/
def sideOfInt (n : ℤ) : Side := if n = 1 then .buy else if n = 2 then .sell else .none

/-- One item of `Updates` or `Trades`, which carry the side in different fields. An item without a
    side is skipped. -/
def readItem (sideKey : String) (item : R.Object) : Option PriceLevel :=
  let read : StateM R.Object (Option PriceLevel) := do
    let price := (← R.getDouble "Price").getD 0
    let size := (← R.getDouble "Size").getD 0
    let side := sideOfInt ((← R.getInt64 sideKey).getD 0)
    return if side = .none then none else some { price := price, size := size, side := side }
  (read item).1

/-- The loop over the items, from where the cursor stands. -/
def readItems (sideKey : String) (array : R.Array) : StateM R.Object (List PriceLevel) := do
  return (R.objects array (← get)).filterMap (readItem R sideKey)

/-- The ticker of the message in its internal spelling. -/
def tickerOf : StateM R.Object (Option Ticker) := do
  return (← field R R.getString "Ticker" "ticker").map toInternalTicker

/-- What the handlers of lists read, in their order: the ticker, the list, the time and, at last, the
    items of the list. -/
def readUpdate (clock : TimePoint) (registered : Ticker → Bool) (key alt sideKey : String) :
    OptionT (StateM R.Object) (Ticker × TimePoint × List PriceLevel) := do
  let ticker ← OptionT.mk (tickerOf R)
  guard (registered ticker)
  let array ← OptionT.mk (field R R.getArray key alt)
  let ts ← OptionT.lift (eventTime R clock)
  let levels ← OptionT.lift (readItems R sideKey array)
  return (ticker, ts, levels)

/-- `handle_orderbook_update_`: the update for the ticker's controller. -/
def handleOrderbookUpdate (clock : TimePoint) (registered : Ticker → Bool) :
    OptionT (StateM R.Object) OrderBookUpdate := do
  let (ticker, ts, changes) ← readUpdate R clock registered "Updates" "updates" "Type"
  guard (changes ≠ [])
  return { ticker := ticker, changes := changes, ts := ts }

/-- `handle_trade_update_`: the trades for the ticker's controller, which all get the time of the
    message. -/
def handleTradeUpdate (clock : TimePoint) (registered : Ticker → Bool) :
    OptionT (StateM R.Object) (Ticker × List Trade) := do
  let (ticker, now, levels) ← readUpdate R clock registered "Trades" "trades" "Side"
  return (ticker, levels.map (fun level =>
    { price := level.price, size := level.size, side := level.side, timestamp := now }))

/-- `handle_mark_price_update_`: the mark price for the executor. -/
def handleMarkPriceUpdate : OptionT (StateM R.Object) (Ticker × ℚ) := do
  let ticker ← OptionT.mk (tickerOf R)
  let price ← OptionT.mk (R.getDouble "Price")
  return (ticker, price)

/-- The handler of a type of message, and what it hands over item by item. -/
def handle (clock : TimePoint) (registered : Ticker → Bool) (type : String) :
    StateM R.Object (List Handed) :=
  if type = "orderbook_update" then do
    return (← (handleOrderbookUpdate R clock registered).run).elim []
      (fun upd => upd.changes.map (.change upd.ticker))
  else if type = "trade_update" then do
    return (← (handleTradeUpdate R clock registered).run).elim []
      (fun call => call.2.map (.trade call.1))
  else if type = "mark_price_update" then do
    return (← (handleMarkPriceUpdate R).run).elim [] (fun mark => [.markPrice mark.1 mark.2])
  else return []

/-- `process_event_`, on the bytes of a value. -/
def processEvent (clock : TimePoint) (registered : Ticker → Bool) (json : Json) : List Handed :=
  let read : StateM R.Object (List Handed) := do
    match ← field R R.getString "Type" "type" with
    | some type => handle R clock registered type
    | none => return []
  (read (R.iterate json)).1

/-- The types that the processor handles. -/
def fastTypes : List String := ["orderbook_update", "trade_update", "mark_price_update"]

/-! ## What the lookups find -/

/-- The text under either name. -/
def text? (j : Json) (key alt : String) : Option String :=
  ((j.find? key).bind Json.string?).or ((j.find? alt).bind Json.string?)

/-- The list under either name. -/
def list? (j : Json) (key alt : String) : Option (List Json) :=
  ((j.find? key).bind Json.array?).or ((j.find? alt).bind Json.array?)

variable {R} {α : Type} {get : String → StateM R.Object (Option α)} {o : R.Object} {j : Json}
  {key alt : String} {array : R.Array}

theorem field_of_some {v : α} (h : (get key o).1 = some v) : field R get key alt o = get key o := by
  rcases heq : get key o with ⟨found, o'⟩
  rw [heq] at h
  obtain rfl : found = some v := h
  simp only [field, bind, StateT.bind, heq]
  rfl

theorem field_of_none (h : (get key o).1 = none) :
    field R get key alt o = get alt (get key o).2 := by
  rcases heq : get key o with ⟨found, o'⟩
  rw [heq] at h
  obtain rfl : found = none := h
  simp only [field, bind, StateT.bind, heq]

theorem string_eq (h : R.Reads o j) (key alt : String) :
    (field R R.getString key alt o).1 = text? j key alt ∧
      R.Reads (field R R.getString key alt o).2 j := by
  obtain ⟨hkey, hreads⟩ := R.getString_eq h key
  cases hfound : (R.getString key o).1 with
  | some s =>
      rw [field_of_some hfound, text?, ← hkey, hfound]
      exact ⟨rfl, hreads⟩
  | none =>
      rw [field_of_none hfound, text?, ← hkey, hfound, Option.none_or]
      exact R.getString_eq hreads alt

theorem reads_array (h : R.Reads o j) (key alt : String) :
    R.Reads (field R R.getArray key alt o).2 j := by
  have hreads := (R.getArray_eq h key).2
  cases hfound : (R.getArray key o).1 with
  | some array => rwa [field_of_some hfound]
  | none =>
      rw [field_of_none hfound]
      exact (R.getArray_eq hreads alt).2

theorem visited_array (h : (field R R.getArray key alt o).1 = some array) :
    R.Visited (field R R.getArray key alt o).2 array := by
  cases hfound : (R.getArray key o).1 with
  | some array =>
      rw [field_of_some hfound] at h ⊢
      exact R.visited_getArray h
  | none =>
      rw [field_of_none hfound] at h ⊢
      exact R.visited_getArray h

/-! ## The loop after the time -/

/-- There is an object where the time of the message is looked up last. -/
def TimeIsObject (j : Json) : Prop := ∃ v, j.find? "time" = some v ∧ v.isObject = true

/-- The lookup of the time leaves the array. -/
theorem objects_eventTime (hreads : R.Reads o j) (hvisited : R.Visited o array)
    (htime : ¬ TimeIsObject j) (clock : TimePoint) :
    R.objects array (eventTime R clock o).2 = [] := by
  show R.objects array (field R R.getString "Time" "time" o).2 = []
  obtain ⟨hstring, hreads'⟩ := R.getString_eq hreads "Time"
  cases hfound : (R.getString "Time" o).1 with
  | some s =>
      rw [field_of_some hfound]
      refine R.objects_getString hreads hvisited fun v hv => ?_
      rw [hfound, hv] at hstring
      cases v <;> first | rfl | cases hstring
  | none =>
      rw [field_of_none hfound]
      refine R.objects_getString hreads' (R.visited_getString hvisited "Time") fun v hv => ?_
      exact Bool.eq_false_iff.2 fun hobject => htime ⟨v, hv, hobject⟩

theorem tickerOf_eq (h : R.Reads o j) :
    (tickerOf R o).1 = (text? j "Ticker" "ticker").map toInternalTicker ∧
      R.Reads (tickerOf R o).2 j := by
  obtain ⟨hticker, hreads⟩ := string_eq h "Ticker" "ticker"
  exact ⟨congrArg (Option.map toInternalTicker) hticker, hreads⟩

theorem run_bind {σ β γ : Type} (x : OptionT (StateM σ) β) (f : β → OptionT (StateM σ) γ) (st : σ) :
    (x >>= f).run st
      = (match x.run st with
        | (some b, st') => (f b).run st'
        | (none, st') => (none, st') : Option γ × σ) := by
  simp only [bind, OptionT.bind, OptionT.run, OptionT.mk, StateT.bind]
  cases x st with
  | mk found st' => cases found <;> rfl

/-- A step that finds something goes on with it, from where it has left the cursor. -/
theorem run_bind_some {σ β γ : Type} {x : OptionT (StateM σ) β} {f : β → OptionT (StateM σ) γ}
    {st : σ} {c : γ} (h : ((x >>= f).run st).1 = some c) :
    ∃ b st', x.run st = (some b, st') ∧ ((f b).run st').1 = some c := by
  rw [run_bind] at h
  rcases heq : x.run st with ⟨_ | b, st'⟩
  · rw [heq] at h
    cases h
  · rw [heq] at h
    exact ⟨b, st', rfl, h⟩

theorem run_bind_none {σ β γ : Type} {x : OptionT (StateM σ) β} {f : β → OptionT (StateM σ) γ}
    {st : σ} (h : (x.run st).1 = none) : ((x >>= f).run st).1 = none := by
  rw [run_bind]
  rcases heq : x.run st with ⟨_ | b, st'⟩
  · rfl
  · rw [heq] at h
    cases h

theorem run_guard_some {σ : Type} {p : Prop} [Decidable p] {st st' : σ} {u : Unit}
    (h : (guard p : OptionT (StateM σ) Unit).run st = (some u, st')) : p ∧ st' = st := by
  by_cases hp : p
  · rw [guard, if_pos hp] at h
    cases h
    exact ⟨hp, rfl⟩
  · rw [guard, if_neg hp] at h
    cases h

/-- The loop of a list that was read comes across nothing. -/
theorem readUpdate_levels {clock : TimePoint} {registered : Ticker → Bool} {sideKey : String}
    {ticker : Ticker} {ts : TimePoint} {levels : List PriceLevel} (hreads : R.Reads o j)
    (htime : ¬ TimeIsObject j)
    (h : ((readUpdate R clock registered key alt sideKey).run o).1 = some (ticker, ts, levels)) :
    levels = [] := by
  obtain ⟨ticker', o₁, hticker, h₁⟩ := run_bind_some h
  obtain ⟨_, o₂, hguard, h₂⟩ := run_bind_some h₁
  obtain ⟨array, o₃, harray, h₃⟩ := run_bind_some h₂
  obtain ⟨ts', o₄, hts, h₄⟩ := run_bind_some h₃
  obtain ⟨levels', o₅, hlevels, h₅⟩ := run_bind_some h₄
  obtain ⟨-, rfl⟩ := run_guard_some hguard
  have hstate₁ : (tickerOf R o).2 = o₂ := congrArg Prod.snd hticker
  have hstate₃ : (field R R.getArray key alt o₂).2 = o₃ := congrArg Prod.snd harray
  have hstate₄ : (eventTime R clock o₃).2 = o₄ := congrArg Prod.snd hts
  have hreads₃ : R.Reads o₃ j := hstate₃ ▸ reads_array (hstate₁ ▸ (tickerOf_eq hreads).2) key alt
  have hvisited : R.Visited o₃ array := hstate₃ ▸ visited_array (congrArg Prod.fst harray)
  have hempty := hstate₄ ▸ objects_eventTime hreads₃ hvisited htime clock
  have hnone : levels' = (R.objects array o₄).filterMap (readItem R sideKey) :=
    (Option.some.inj (congrArg Prod.fst hlevels)).symm
  have hlevels' : levels' = levels := congrArg (fun r => r.2.2) (Option.some.inj h₅)
  rw [← hlevels', hnone, hempty, List.filterMap_nil]

theorem processEvent_eq (R : OnDemand) (clock : TimePoint) (registered : Ticker → Bool) (j : Json) :
    ∃ o, R.Reads o j ∧ processEvent R clock registered j
      = (text? j "Type" "type").elim [] (fun type => (handle R clock registered type o).1) := by
  obtain ⟨htype, hreads⟩ := string_eq (R.reads_iterate j) "Type" "type"
  refine ⟨_, hreads, ?_⟩
  rw [← htype]
  rcases heq : field R R.getString "Type" "type" (R.iterate j) with ⟨_ | type, o⟩ <;>
    simp only [processEvent, bind, StateT.bind, heq] <;> rfl

theorem handle_orderbookUpdate {clock : TimePoint} {registered : Ticker → Bool}
    (hreads : R.Reads o j) (htime : ¬ TimeIsObject j) :
    (handle R clock registered "orderbook_update" o).1 = [] := by
  have hnone : ((handleOrderbookUpdate R clock registered).run o).1 = none := by
    rw [Option.eq_none_iff_forall_ne_some]
    intro upd h
    obtain ⟨⟨ticker, ts, changes⟩, o₁, hread, h₁⟩ := run_bind_some h
    obtain ⟨_, o₂, hguard, -⟩ := run_bind_some h₁
    exact (run_guard_some hguard).1 (readUpdate_levels hreads htime (congrArg Prod.fst hread))
  exact congrArg (Option.elim · [] _) hnone

theorem handle_tradeUpdate {clock : TimePoint} {registered : Ticker → Bool}
    (hreads : R.Reads o j) (htime : ¬ TimeIsObject j) :
    (handle R clock registered "trade_update" o).1 = [] := by
  change ((handleTradeUpdate R clock registered).run o).1.elim [] _ = []
  cases hcall : ((handleTradeUpdate R clock registered).run o).1 with
  | none => rfl
  | some call =>
      obtain ⟨⟨ticker, now, levels⟩, o₁, hread, h₁⟩ := run_bind_some hcall
      obtain rfl := readUpdate_levels hreads htime (congrArg Prod.fst hread)
      have htrades : call.2 = [] := (congrArg Prod.snd (Option.some.inj h₁)).symm
      rw [Option.elim_some, htrades, List.map_nil]

/-- Nothing of a list is handed over. -/
theorem processEvent_of_hot {clock : TimePoint} {registered : Ticker → Bool}
    (hhot : text? j "Type" "type" = some "orderbook_update" ∨
      text? j "Type" "type" = some "trade_update")
    (htime : ¬ TimeIsObject j) : processEvent R clock registered j = [] := by
  obtain ⟨o, hreads, heq⟩ := processEvent_eq R clock registered j
  rw [heq]
  rcases hhot with htype | htype
  · rw [htype]
    exact handle_orderbookUpdate hreads htime
  · rw [htype]
    exact handle_tradeUpdate hreads htime

/-- Without a ticker beside `Type` nothing is handed over. -/
theorem processEvent_of_no_ticker (R : OnDemand) (clock : TimePoint) (registered : Ticker → Bool)
    {j : Json} (h : text? j "Ticker" "ticker" = none) : processEvent R clock registered j = [] := by
  obtain ⟨o, hreads, heq⟩ := processEvent_eq R clock registered j
  have hticker : (tickerOf R o).1 = none := by rw [(tickerOf_eq hreads).1, h]; rfl
  have hread {key alt sideKey : String} :
      ((readUpdate R clock registered key alt sideKey).run o).1 = none := run_bind_none hticker
  have hbook : ((handleOrderbookUpdate R clock registered).run o).1 = none := run_bind_none hread
  have htrade : ((handleTradeUpdate R clock registered).run o).1 = none := run_bind_none hread
  have hmark : ((handleMarkPriceUpdate R).run o).1 = none := run_bind_none hticker
  rw [heq]
  cases text? j "Type" "type" with
  | none => rfl
  | some type =>
      show (handle R clock registered type o).1 = []
      unfold handle
      split_ifs
      · exact congrArg (Option.elim · [] _) hbook
      · exact congrArg (Option.elim · [] _) htrade
      · exact congrArg (Option.elim · [] _) hmark
      · rfl

end PipelineProcessor

end TradeBot
