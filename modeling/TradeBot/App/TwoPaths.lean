import TradeBot.App.PipelineProcessor

set_option autoImplicit false

/-! # The fast path beside the slow one

The feed decodes a message and calls the controller of its ticker; the processor decodes the same
message and hands over what it reads itself. The feed looks for the payload under `Data` and the
processor beside `Type`, so a message with its payload under `Data` is handed over by the feed alone
(`processEvent_eq_handedByFeed_iff`).

That is where the two differ for the messages of the exchange. They also read single items in two ways,
but those with upper-case names and numeric sides alike (`filterMap_objects`): a processor that went
through its array at once would hand over the levels that the feed decodes. -/

namespace TradeBot

open MetaScalpCodec MarketDataFeed PipelineProcessor

/-! ## The slow path -/

/-- The controllers are listeners of their own tickers, and each is registered once. -/
structure Wired (feed : MarketDataFeed AppListener) (registered : Ticker → Bool) : Prop where
  own : ∀ t, feed.tickerListeners t = if registered t then [.controller t] else []
  notGlobal : ∀ t, .controller t ∉ feed.listeners
  named : registered "" = false

/-- What the calls of the feed hand to controllers. -/
def handedToControllers (calls : List (AppListener × Callback)) : List Handed :=
  calls.flatMap fun call =>
    match call with
    | (.controller ticker, .trades _ trades) => trades.map (.trade ticker)
    | (.controller ticker, .orderbookUpdate update) => update.changes.map (.change ticker)
    | _ => []

/-- The mark price that the feed stores, which `tick` passes on to the executor. -/
def handedMarkPrice (j : Json) : Option (Ticker × ℚ) :=
  if messageType j = some "mark_price_update" then markPriceOf (messageData j) else none

/-- What `handle_message` hands over of a message. -/
def handedByFeed (clock : TimePoint) (feed : MarketDataFeed AppListener) (j : Json) : List Handed :=
  handedToControllers (handleMessage clock feed j).2 ++
    (handedMarkPrice j).toList.map (fun mark => .markPrice mark.1 mark.2)

/-- A message of that type carries something for a registered ticker, or a mark price. -/
def Carries (registered : Ticker → Bool) (type : String) (data : Json) : Prop :=
  let ticker := toInternalTicker (getString data "Ticker")
  if type = "trade_update" then registered ticker = true ∧ getItems data "Trades" ≠ []
  else if type = "orderbook_update" then registered ticker = true ∧ getItems data "Updates" ≠ []
  else if type = "mark_price_update" then ticker ≠ "" ∧ 0 < getDouble data "MarkPrice"
  else False

/-- The calls for the listeners of a ticker reach its controller, if it has one. -/
theorem Wired.handed_targets {feed : MarketDataFeed AppListener} {registered : Ticker → Bool}
    (h : Wired feed registered) (ticker : Ticker) (cb : Callback) :
    handedToControllers ((feed.getTargetListeners ticker).map (fun l => (l, cb))) =
      if registered ticker then handedToControllers [(.controller ticker, cb)] else [] := by
  have hnone (listeners : List AppListener) (hno : ∀ t, .controller t ∉ listeners) :
      handedToControllers (listeners.map (fun l => (l, cb))) = [] := by
    rw [handedToControllers, List.flatMap_eq_nil_iff]
    intro call hcall
    obtain ⟨l, hl, rfl⟩ := List.mem_map.1 hcall
    cases l with
    | controller t => exact absurd hl (hno t)
    | _ => rfl
  unfold getTargetListeners mergedSnapshot
  split
  · next hempty =>
      rw [hempty, h.named, Option.getD_some]
      exact hnone _ h.notGlobal
  · cases hreg : registered ticker with
    | false =>
        rw [h.own, hreg, if_neg Bool.false_ne_true, if_pos rfl, Option.getD_none]
        exact hnone _ h.notGlobal
    | true =>
        rw [h.own, hreg, if_pos rfl, if_neg (List.cons_ne_nil _ _), Option.getD_some, if_pos rfl]
        -- the controller comes first, and the global listeners after it are no controllers
        obtain ⟨others, hmerged, hothers⟩ :=
          exists_mergeListeners [.controller ticker] feed.listeners
        rw [hmerged, List.map_append, handedToControllers, List.flatMap_append]
        refine (congrArg _ (hnone others fun t ht => ?_)).trans (List.append_nil _)
        exact h.notGlobal t (hothers _ ht)

/-- What a callback for the listeners of a ticker hands to the ticker's controller. -/
def handedToController (registered : Ticker → Bool) (call : Option (Ticker × Callback)) :
    List Handed :=
  match call with
  | some (ticker, cb) =>
      if registered ticker then handedToControllers [(.controller ticker, cb)] else []
  | none => []

theorem Wired.handed_handleMessage {feed : MarketDataFeed AppListener} {registered : Ticker → Bool}
    (h : Wired feed registered) (clock : TimePoint) (j : Json) :
    handedToControllers (handleMessage clock feed j).2 =
      handedToController registered (dispatched clock feed.skipHotPath j) := by
  rw [handleMessage_calls]
  cases dispatched clock feed.skipHotPath j with
  | none => rfl
  | some call => exact h.handed_targets call.1 call.2

/-- A controller gets something of a hot message that carries items for its ticker. -/
theorem handedToController_hot {registered : Ticker → Bool} {type : String}
    (hhot : isHotType type = true) (clock : TimePoint) (data : Json) :
    handedToController registered (callbackOf clock type data) = [] ↔
      ¬ Carries registered type data := by
  simp only [isHotType, Bool.or_eq_true, decide_eq_true_eq] at hhot
  rcases hhot with rfl | rfl
  · cases hreg : registered (toInternalTicker (getString data "Ticker")) <;>
      simp [handedToController, callbackOf, Carries, handedToControllers, fromMs_eq,
        parseTradeUpdate, hreg]
  · cases hreg : registered (toInternalTicker (getString data "Ticker")) <;>
      simp [handedToController, callbackOf, Carries, handedToControllers, fromMs_eq,
        parseOrderbookUpdate, hreg]

theorem handedByFeed_eq_nil_iff {feed : MarketDataFeed AppListener} {registered : Ticker → Bool}
    (h : Wired feed registered) (hlive : feed.skipHotPath = false) (clock : TimePoint) {j : Json}
    {type : String} (htype : messageType j = some type) (hfast : type ∈ fastTypes) :
    handedByFeed clock feed j = [] ↔ ¬ Carries registered type (messageData j) := by
  have hcall : dispatched clock false j = callbackOf clock type (messageData j) := by
    rw [dispatched, htype]
    rfl
  rw [handedByFeed, h.handed_handleMessage, hlive, hcall, handedMarkPrice, htype,
    List.append_eq_nil_iff]
  by_cases hmark : type = "mark_price_update"
  · subst hmark
    simp only [callbackOf, Carries, markPriceOf, fromMs_eq]
    split <;> simp_all [handedToController]
  · have hhot : isHotType type = true := by
      simp only [fastTypes, List.mem_cons, List.not_mem_nil, or_false] at hfast
      simp only [isHotType, Bool.or_eq_true, decide_eq_true_eq]
      tauto
    rw [if_neg (fun h => hmark (Option.some.inj h)), Option.toList_none, List.map_nil,
      and_iff_left rfl, handedToController_hot hhot]

/-! ## Items that both read alike -/

/-- An item with its fields in upper case, numbers for price and size, and `1` or `2` for the side. -/
structure PlainItem (sideKey : String) (item : Json) : Prop where
  isObject : item.isObject = true
  price : ((item.find? "Price").bind Json.double?).isSome
  size : ((item.find? "Size").bind Json.double?).isSome
  side : item.find? sideKey = some (.int 1) ∨ item.find? sideKey = some (.int 2)

theorem getDouble_of_find? {item : Json} {key : String} {q : ℚ}
    (h : (item.find? key).bind Json.double? = some q) : getDouble item key = q := by
  obtain ⟨v, hv, hq⟩ := Option.bind_eq_some_iff.1 h
  rw [getDouble, getVal, field?, hv, Option.some_or]
  cases v with
  | int n => exact congrArg (Option.getD · 0) hq
  | dec r => exact congrArg (Option.getD · 0) hq
  | _ => cases hq

theorem parseSide_of_find? {item : Json} {key : String} {n : ℤ}
    (h : item.find? key = some (.int n)) (hn : n = 1 ∨ n = 2) :
    parseSide (getJson item key) = sideOfInt n := by
  rw [getJson, getVal, field?, h, Option.some_or]
  obtain rfl | rfl := hn <;> decide +kernel

section

variable {R : OnDemand} {o : R.Object} {sideKey : String}

theorem readItem_of_plain {item : Json} (hreads : R.Reads o item) (h : PlainItem sideKey item) :
    readItem R sideKey o = some (parseLevel (parseSide (getJson item sideKey)) item) := by
  obtain ⟨price, hprice⟩ := Option.isSome_iff_exists.1 h.price
  obtain ⟨size, hsize⟩ := Option.isSome_iff_exists.1 h.size
  obtain ⟨n, hn, hside⟩ : ∃ n : ℤ, (n = 1 ∨ n = 2) ∧ item.find? sideKey = some (.int n) :=
    h.side.elim (fun h => ⟨1, .inl rfl, h⟩) (fun h => ⟨2, .inr rfl, h⟩)
  have hint : (item.find? sideKey).bind Json.int64? = some n := by
    rw [hside]
    obtain rfl | rfl := hn <;> rfl
  have hknown : sideOfInt n ≠ .none := by
    obtain rfl | rfl := hn <;> decide
  -- the three lookups, one behind the other
  obtain ⟨hprice', hreads₁⟩ := R.getDouble_eq hreads "Price"
  obtain ⟨hsize', hreads₂⟩ := R.getDouble_eq hreads₁ "Size"
  obtain ⟨hside', -⟩ := R.getInt64_eq hreads₂ sideKey
  rw [hprice] at hprice'
  rw [hsize] at hsize'
  rw [hint] at hside'
  have hread : readItem R sideKey o
      = if sideOfInt n = .none then none
        else some { price := price, size := size, side := sideOfInt n } := by
    rcases hfound : R.getDouble "Price" o with ⟨found, o₁⟩
    rcases hfound₁ : R.getDouble "Size" o₁ with ⟨found₁, o₂⟩
    rcases hfound₂ : R.getInt64 sideKey o₂ with ⟨found₂, o₃⟩
    simp only [hfound, hfound₁, hfound₂] at hprice' hsize' hside'
    simp only [readItem, bind, StateT.bind, hfound, hfound₁, hfound₂, hprice', hsize', hside',
      Option.getD_some]
    rfl
  rw [hread, if_neg hknown, parseLevel, parseSide_of_find? hside hn, getDouble_of_find? hprice,
    getDouble_of_find? hsize]

/-- A loop over the array that was found just now reads the levels that the feed decodes. -/
theorem filterMap_objects {j : Json} {key : String} {array : R.Array} {items : List Json}
    (hreads : R.Reads o j) (harray : (R.getArray key o).1 = some array)
    (hitems : (j.find? key).bind Json.array? = some items)
    (hplain : ∀ item ∈ items, PlainItem sideKey item) :
    (R.objects array (R.getArray key o).2).filterMap (readItem R sideKey)
      = items.map (fun item => parseLevel (parseSide (getJson item sideKey)) item) := by
  have hloop : List.Forall₂ R.Reads (R.objects array (R.getArray key o).2) items := by
    have hrel := (R.getArray_eq hreads key).1
    rw [harray, hitems, Option.rel_some_some] at hrel
    rwa [List.filter_eq_self.2 fun item hitem => (hplain item hitem).isObject] at hrel
  generalize R.objects array (R.getArray key o).2 = objects at hloop
  clear hitems
  induction hloop with
  | nil => rfl
  | @cons object item objects items hitem _ ih =>
      rw [List.filterMap_cons_some (readItem_of_plain hitem (hplain item List.mem_cons_self)),
        ih (fun item hmem => hplain item (List.mem_cons_of_mem _ hmem)), List.map_cons]

end

/-! ## The two of them -/

/-- The payload is under `Data`: there is no ticker beside `Type`. -/
def PayloadUnderData (j : Json) : Prop := j.find? "Ticker" = none ∧ j.find? "ticker" = none

/-- Both paths hand over the same of a message with its payload under `Data` if and only if it
    carries nothing. -/
theorem processEvent_eq_handedByFeed_iff (R : OnDemand) {feed : MarketDataFeed AppListener}
    {registered : Ticker → Bool} (hwired : Wired feed registered) (hlive : feed.skipHotPath = false)
    (clock clock' : TimePoint) {j : Json} {type : String} (htype : messageType j = some type)
    (hfast : type ∈ fastTypes) (hdata : PayloadUnderData j) :
    processEvent R clock' registered j = handedByFeed clock feed j ↔
      ¬ Carries registered type (messageData j) := by
  have hnoTicker : text? j "Ticker" "ticker" = none := by
    rw [text?, hdata.1, hdata.2]
    rfl
  rw [processEvent_of_no_ticker R clock' registered hnoTicker, eq_comm,
    handedByFeed_eq_nil_iff hwired hlive clock htype hfast]

/-- The feed of a running application with one controller. -/
def btcFeed : MarketDataFeed AppListener := run (liveListeners ++ [controllerListener "BTC_USDT"])

/-- One ticker has a controller. -/
def btcOnly (ticker : Ticker) : Bool := decide (ticker = "BTC_USDT")

theorem btcFeed_wired : Wired btcFeed btcOnly where
  own t := by
    have hmetascalp : fromMs "BTC_USDT" = "BTC_USDT" := by decide +kernel
    show (if t = fromMs "BTC_USDT" then [] ++ [AppListener.controller "BTC_USDT"] else []) = _
    by_cases ht : t = "BTC_USDT" <;> simp [hmetascalp, btcOnly, ht]
  notGlobal t := by
    show AppListener.controller t ∉ [AppListener.finresHandler, .executor, .executor]
    simp
  named := by decide

/-- Trades as the exchange sends them. -/
def tradeMessage (trades : List Json) : Json :=
  .obj
    [("Type", .str "trade_update"),
      ("Data", .obj [("Ticker", .str "BTCUSDT"), ("Trades", .arr trades)])]

theorem tradeMessage_payloadUnderData (trades : List Json) :
    PayloadUnderData (tradeMessage trades) := by
  constructor <;> rfl

theorem processEvent_eq_handedByFeed_noTrades :
    processEvent .forward 0 btcOnly (tradeMessage []) = handedByFeed 0 btcFeed (tradeMessage []) :=
  (processEvent_eq_handedByFeed_iff .forward btcFeed_wired rfl 0 0 (j := tradeMessage []) rfl (by decide)
    (tradeMessage_payloadUnderData [])).2 (by
      simp only [Carries]
      decide +kernel)

/-- A trade as the exchange sends it reaches the controller through the feed only. -/
theorem tradeMessage_notProcessed :
    let trade : Json := .obj [("Price", .int 100), ("Size", .int 2), ("Side", .int 1)]
    Wired btcFeed btcOnly ∧ PayloadUnderData (tradeMessage [trade]) ∧
      handedByFeed 0 btcFeed (tradeMessage [trade]) =
        [.trade "BTC_USDT" { price := 100, size := 2, side := .buy, timestamp := 0 }] ∧
      processEvent .forward 0 btcOnly (tradeMessage [trade]) = [] :=
  ⟨btcFeed_wired, tradeMessage_payloadUnderData _, by decide +kernel, by decide +kernel⟩

end TradeBot
