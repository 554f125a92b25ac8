import Mathlib.Data.List.Induction
import Mathlib.Data.List.Nodup
import Mathlib.Data.Set.Insert
import TradeBot.Transport.MarketDataFeed

set_option autoImplicit false

/-! # Who hears a message

The abstract side is a `Roster`: which listeners are registered, for every ticker or for one. It is a
set, so registering twice changes nothing. The feed keeps lists instead, and how often a listener is
called depends on which of them a ticker is dispatched from: the merged list of a ticker with
listeners of its own leaves out the global listeners it has already, and the global list of all
other tickers repeats whoever registered twice.

A listener hears a message as many times as it is named in the list that the message is dispatched
from. `count_mergeListeners` says how often that is for the list of a ticker, so everything is
decided by which listeners were registered more than once, and where. -/

namespace TradeBot

/-- Who is registered for everything, and who for a ticker. -/
structure Roster (L : Type) where
  everywhere : Set L := ∅
  own : Ticker → Set L := fun _ => ∅

namespace Roster

variable {L : Type}

/-- A registration, as a change of the sets. -/
def register (r : Roster L) : MarketDataFeed.Registration L → Roster L
  | .add l => { r with everywhere := insert l r.everywhere }
  | .addFor ticker l =>
      { r with own := fun t => if t = fromMs ticker then insert l (r.own t) else r.own t }
  | .remove l => { everywhere := r.everywhere \ {l}, own := fun t => r.own t \ {l} }
  | .removeFor ticker l =>
      { r with own := fun t => if t = fromMs ticker then r.own t \ {l} else r.own t }

/-- The listener is registered and matches the ticker. -/
def Hears (r : Roster L) (ticker : Ticker) (l : L) : Prop := l ∈ r.everywhere ∨ l ∈ r.own ticker

/-- Everyone who hears the ticker is called once, and nobody else is. -/
def HeardOnce [DecidableEq L] (r : Roster L) (ticker : Ticker) (cb : Callback)
    (calls : List (L × Callback)) : Prop :=
  ∀ l, (r.Hears ticker l → calls.filter (·.1 = l) = [(l, cb)]) ∧
    (¬ r.Hears ticker l → calls.filter (·.1 = l) = [])

end Roster

namespace MarketDataFeed

variable {L : Type} [DecidableEq L]

/-! ## The feed's lists and the roster -/

/-- What happens to a feed: a registration, a message, or the hand-over of the hot messages. -/
inductive Event (L : Type)
  | register (r : Registration L)
  | message (clock : TimePoint) (j : Json)
  | setSkipHotPath (skip : Bool)

/-- The feed after an event. The calls are left out. -/
def step (feed : MarketDataFeed L) : Event L → MarketDataFeed L
  | .register r => feed.register r
  | .message clock j => (handleMessage clock feed j).1
  | .setSkipHotPath skip => { feed with skipHotPath := skip }

/-- The feed after some events. -/
def run (events : List (Event L)) : MarketDataFeed L := events.foldl step {}

/-- The roster that the registrations among the events ask for. -/
def rosterOf (events : List (Event L)) : Roster L :=
  events.foldl (fun r ev => match ev with | .register reg => r.register reg | _ => r) {}

/-- Who is in the feed's lists. -/
def roster (feed : MarketDataFeed L) : Roster L :=
  { everywhere := { l | l ∈ feed.listeners }
    own := fun t => { l | l ∈ feed.tickerListeners t } }

theorem roster_register (feed : MarketDataFeed L) (r : Registration L) :
    (feed.register r).roster = feed.roster.register r := by
  cases r with
  | add l =>
      simp only [roster, register, addListener, Roster.register, Roster.mk.injEq, and_true]
      ext l'
      simp [or_comm]
  | addFor ticker l =>
      simp only [roster, register, addListenerFor, Roster.register, Roster.mk.injEq, true_and]
      ext t l'
      by_cases ht : t = fromMs ticker <;> simp [ht, or_comm]
  | remove l =>
      simp only [roster, register, removeListener, Roster.register, Roster.mk.injEq]
      constructor <;> ext <;> simp
  | removeFor ticker l =>
      simp only [roster, register, removeListenerFor, Roster.register, Roster.mk.injEq, true_and]
      ext t l'
      by_cases ht : t = fromMs ticker <;> simp [ht]

theorem roster_message (clock : TimePoint) (feed : MarketDataFeed L) (j : Json) :
    (handleMessage clock feed j).1.roster = feed.roster := by
  obtain ⟨hglobal, hown, -⟩ := handleMessage_listeners clock feed j
  rw [roster, roster, hglobal, hown]

/-- The feed's lists hold exactly who is registered. -/
theorem roster_run (events : List (Event L)) : (run events).roster = rosterOf events := by
  induction events using List.reverseRecOn with
  | nil => simp [run, rosterOf, roster]
  | append_singleton events ev ih =>
      rw [run, rosterOf, List.foldl_append, List.foldl_append]
      simp only [List.foldl_cons, List.foldl_nil]
      cases ev with
      | register r => exact (roster_register _ r).trans (congrArg (·.register r) ih)
      | message clock j => exact (roster_message clock _ j).trans ih
      | setSkipHotPath skip => exact ih

/-! ## How often a listener is called -/

/-- Every member is counted once, and only members are. -/
theorem count_eq_one_iff {targets : List L} {Hears : L → Prop} :
    (∀ l, (Hears l → targets.count l = 1) ∧ (¬ Hears l → targets.count l = 0)) ↔
      targets.Nodup ∧ ∀ l, l ∈ targets ↔ Hears l := by
  constructor
  · intro h
    have hmem (l : L) : l ∈ targets ↔ Hears l := by
      constructor
      · intro hl
        by_contra hno
        exact List.count_eq_zero.1 ((h l).2 hno) hl
      · intro hhears
        exact List.one_le_count_iff.1 ((h l).1 hhears).ge
    refine ⟨List.nodup_iff_count_le_one.2 fun l => ?_, hmem⟩
    by_cases hhears : Hears l
    · exact ((h l).1 hhears).le
    · exact ((h l).2 hhears).le.trans (Nat.zero_le 1)
  · rintro ⟨hnodup, hmem⟩ l
    refine ⟨fun hhears => ?_, fun hno => List.count_eq_zero.2 (fun hl => hno ((hmem l).1 hl))⟩
    exact List.count_eq_one_of_mem hnodup ((hmem l).2 hhears)

theorem mem_mergeListeners (own globals : List L) (l : L) :
    l ∈ mergeListeners own globals ↔ l ∈ globals ∨ l ∈ own := by
  unfold mergeListeners
  induction globals generalizing own with
  | nil => simp
  | cons g globals ih =>
      rw [List.foldl_cons, ih]
      by_cases hg : g ∈ own
      · rw [if_pos hg, List.mem_cons]
        constructor
        · exact Or.imp_left .inr
        · rintro ((rfl | hl) | hl)
          · exact .inr hg
          · exact .inl hl
          · exact .inr hl
      · rw [if_neg hg, List.mem_append, List.mem_singleton, List.mem_cons]
        tauto

/-- The own listeners come first, then global ones. -/
theorem exists_mergeListeners (own globals : List L) :
    ∃ others, mergeListeners own globals = own ++ others ∧ ∀ l ∈ others, l ∈ globals := by
  unfold mergeListeners
  induction globals generalizing own with
  | nil => exact ⟨[], (List.append_nil own).symm, fun _ h => h⟩
  | cons g globals ih =>
      rw [List.foldl_cons]
      split
      · obtain ⟨others, heq, hmem⟩ := ih own
        exact ⟨others, heq, fun l hl => List.mem_cons_of_mem _ (hmem l hl)⟩
      · obtain ⟨others, heq, hmem⟩ := ih (own ++ [g])
        refine ⟨g :: others, by rw [heq, List.append_assoc, List.singleton_append], ?_⟩
        exact List.forall_mem_cons.2
          ⟨List.mem_cons_self, fun l hl => List.mem_cons_of_mem _ (hmem l hl)⟩

/-- Own listeners are named as often as they registered, the other global ones once. -/
theorem count_mergeListeners (own globals : List L) (l : L) :
    (mergeListeners own globals).count l =
      if l ∈ own then own.count l else if l ∈ globals then 1 else 0 := by
  unfold mergeListeners
  induction globals generalizing own with
  | nil =>
      by_cases hl : l ∈ own
      · simp [hl]
      · simp [hl, List.count_eq_zero_of_not_mem hl]
  | cons g globals ih =>
      rw [List.foldl_cons, ih]
      by_cases hg : g ∈ own
      · rw [if_pos hg]
        by_cases hl : l ∈ own
        · rw [if_pos hl, if_pos hl]
        · have hne : l ≠ g := fun h => hl (h ▸ hg)
          simp [hl, hne]
      · rw [if_neg hg]
        by_cases hlg : l = g
        · subst hlg
          simp [hg, List.count_eq_zero_of_not_mem hg]
        · by_cases hl : l ∈ own <;> simp [hl, hlg, Ne.symm hlg, List.count_append]

/-- Only the own listeners can be named twice. -/
theorem nodup_mergeListeners (own globals : List L) :
    (mergeListeners own globals).Nodup ↔ own.Nodup := by
  unfold mergeListeners
  induction globals generalizing own with
  | nil => rfl
  | cons g globals ih =>
      rw [List.foldl_cons, ih]
      by_cases hg : g ∈ own
      · rw [if_pos hg]
      · rw [if_neg hg, ← List.concat_eq_append, List.nodup_concat, and_iff_right hg]

/-- The list a ticker is dispatched from names nobody twice. Without a ticker the listeners of the
    empty one are not asked, so each of them has to be a global listener too. -/
def NoRepeats (feed : MarketDataFeed L) (ticker : Ticker) : Prop :=
  if ticker ≠ "" ∧ feed.tickerListeners ticker ≠ [] then (feed.tickerListeners ticker).Nodup
  else feed.listeners.Nodup ∧ ∀ l ∈ feed.tickerListeners ticker, l ∈ feed.listeners

instance (feed : MarketDataFeed L) (ticker : Ticker) : Decidable (feed.NoRepeats ticker) :=
  inferInstanceAs (Decidable (ite _ _ _))

theorem targets_noRepeats (feed : MarketDataFeed L) (ticker : Ticker) :
    ((feed.getTargetListeners ticker).Nodup ∧
        ∀ l, l ∈ feed.getTargetListeners ticker ↔ feed.roster.Hears ticker l) ↔
      feed.NoRepeats ticker := by
  have hhears (l : L) : feed.roster.Hears ticker l ↔
      l ∈ feed.listeners ∨ l ∈ feed.tickerListeners ticker := Iff.rfl
  simp only [hhears]
  unfold NoRepeats getTargetListeners mergedSnapshot
  by_cases hempty : ticker = ""
  · rw [if_pos hempty, if_neg (fun h => h.1 hempty), Option.getD_some]
    refine and_congr_right fun _ => forall_congr' fun l => ?_
    exact ⟨fun h hl => h.2 (.inr hl), fun h => ⟨.inl, fun hl => hl.elim id h⟩⟩
  · rw [if_neg hempty]
    by_cases hown : feed.tickerListeners ticker = []
    · rw [if_pos hown, if_neg (fun h => h.2 hown), Option.getD_none, hown]
      simp
    · rw [if_neg hown, if_pos ⟨hempty, hown⟩, Option.getD_some]
      exact (and_iff_left (mem_mergeListeners _ _)).trans (nodup_mergeListeners _ _)

/-- The calls a listener gets are as many as its places among the targets. -/
theorem filter_calls (targets : List L) (cb : Callback) (l : L) :
    (targets.map (fun l => (l, cb))).filter (·.1 = l) = List.replicate (targets.count l) (l, cb) := by
  rw [List.filter_map, ← List.map_replicate (f := fun l => (l, cb)), ← List.filter_eq]
  refine congrArg _ (List.filter_congr fun l' _ => ?_)
  simp

/-- After any history of the feed, a message is heard once by everyone registered for its ticker if
    and only if the list it is dispatched from names nobody twice. -/
theorem run_heardOnce_iff (events : List (Event L)) (clock : TimePoint) (j : Json) (ticker : Ticker)
    (cb : Callback)
    (hdispatched : dispatched clock (run events).skipHotPath j = some (ticker, cb)) :
    (rosterOf events).HeardOnce ticker cb (handleMessage clock (run events) j).2 ↔
      (run events).NoRepeats ticker := by
  rw [← targets_noRepeats, ← count_eq_one_iff, ← roster_run]
  unfold Roster.HeardOnce
  rw [handleMessage_calls, hdispatched]
  simp only [filter_calls]
  refine forall_congr' fun l => and_congr (imp_congr_right fun _ => ?_) (imp_congr_right fun _ => ?_)
  · rw [← List.replicate_one, List.replicate_inj]
    simp
  · rw [List.replicate_eq_nil_iff]

/-! ## The application's listeners -/

/-- The listeners that the application registers. -/
inductive AppListener
  | finresHandler
  | executor
  | controller (ticker : Ticker)
  deriving DecidableEq

/-- What `init_feed_and_executor_` registers in live mode: the constructor of `LiveExecutor` has
    registered the executor when `init_feed_and_executor_` does. -/
def liveListeners : List (Event AppListener) :=
  [.register (.add .finresHandler), .register (.add .executor), .register (.add .executor)]

/-- What `setup_affinity_handler_` registers for a new ticker. -/
def controllerListener (ticker : Ticker) : Event AppListener :=
  .register (.addFor ticker (.controller ticker))

/-- A limit order that is half filled. -/
def halfFill : WireOrderUpdate :=
  { orderId := 42, ticker := "BTC_USDT", side := .buy, type := .limit, price := 60000,
    filledPrice := 60000, size := 2, filledSize := 1, fee := 0, feeCurrency := "",
    status := .opened }

/-- Half of an order is filled. -/
def halfFillMessage : Json :=
  .obj
    [("Type", .str "order_update"),
      ("Data", .obj
        [("OrderId", .int 42), ("Ticker", .str "BTCUSDT"), ("Side", .str "Buy"),
          ("Type", .str "Limit"), ("Price", .int 60000), ("FilledPrice", .int 60000),
          ("Size", .int 2), ("FilledSize", .int 1), ("Status", .str "Open")])]

theorem dispatched_halfFill :
    dispatched 0 false halfFillMessage = some ("BTC_USDT", .orderUpdate halfFill) := by
  decide +kernel

/-- With a controller for the ticker everyone hears of the fill once. -/
theorem run_heardOnce_iff_controller :
    let events := liveListeners ++ [controllerListener "BTC_USDT"]
    (rosterOf events).HeardOnce "BTC_USDT" (.orderUpdate halfFill)
      (handleMessage 0 (run events) halfFillMessage).2 :=
  (run_heardOnce_iff (liveListeners ++ [controllerListener "BTC_USDT"]) 0 halfFillMessage
    "BTC_USDT" (.orderUpdate halfFill) dispatched_halfFill).2 (by decide +kernel)

/-- Without one the executor hears of the fill twice. -/
theorem liveListeners_heardTwice :
    (rosterOf liveListeners).Hears "BTC_USDT" .executor ∧
      (handleMessage 0 (run liveListeners) halfFillMessage).2.filter (·.1 = .executor) =
        [(.executor, .orderUpdate halfFill), (.executor, .orderUpdate halfFill)] ∧
      ¬ (rosterOf liveListeners).HeardOnce "BTC_USDT" (.orderUpdate halfFill)
        (handleMessage 0 (run liveListeners) halfFillMessage).2 := by
  have hhears : (rosterOf liveListeners).Hears "BTC_USDT" .executor :=
    .inl (by simp [rosterOf, liveListeners, Roster.register])
  have hcalls : (handleMessage 0 (run liveListeners) halfFillMessage).2.filter
      (·.1 = .executor) =
        [(.executor, .orderUpdate halfFill), (.executor, .orderUpdate halfFill)] := by
    rw [handleMessage_calls, show (run liveListeners).skipHotPath = false from rfl,
      dispatched_halfFill]
    decide +kernel
  refine ⟨hhears, hcalls, fun h => ?_⟩
  have hone := (h .executor).1 hhears
  rw [hcalls] at hone
  cases hone

end MarketDataFeed

end TradeBot
