import Mathlib.Tactic.Linarith
import TradeBot.Utils.TickerSymbol

set_option autoImplicit false

/-! # NewsCalendar

The queries of `risk/NewsCalendar.{hpp,cpp}` on a loaded calendar, and what loading leaves of the
elements of a calendar file that passed the schema check. An element's importance and note are read by
no query and left out.

A query walks the events in their order and stops at the first one ahead that concerns the ticker; an
event without a ticker concerns all of them. The distance is counted in whole minutes that are cut
off, so an event within the next minute is zero minutes away. -/

namespace TradeBot

/-- Nanoseconds in a minute. -/
def nsPerMin : ℤ := 60 * nsPerSec

/-- `NewsCalendar::Event`. An event without a ticker applies to every ticker. -/
structure NewsEvent where
  tsUtc : TimePoint
  ticker : Option Ticker := none
  deriving DecidableEq

/-- The events of a calendar, which are sorted by time when it is loaded. -/
abbrev NewsCalendar := List NewsEvent

namespace NewsCalendar

/-- `minutes_to_next_news`: whole minutes to the first applicable event that is not past. -/
def minutesToNextNews (events : NewsCalendar) (now : TimePoint) (ticker : Ticker) : Option ℤ :=
  let key := toInternalTicker ticker
  let applies (e : NewsEvent) : Bool := decide (now ≤ e.tsUtc ∧ ∀ t ∈ e.ticker, t = key)
  (events.find? applies).map (fun e => (e.tsUtc - now).tdiv nsPerMin)

/-- `minutes_since_latest_event`: whole minutes since the last event, negative if it is to come. -/
def minutesSinceLatestEvent (events : NewsCalendar) (now : TimePoint) : Option ℤ :=
  (events.map NewsEvent.tsUtc).max?.map (fun latest => (now - latest).tdiv nsPerMin)

/-! ## Loading -/

/-- An element of a calendar file. -/
structure NewsItem where
  tsUtc : TimePoint
  ticker : Option String := none

/-- What a query reads of an element of the file, with the ticker in the spelling of the program. -/
def NewsItem.event (item : NewsItem) : NewsEvent :=
  { tsUtc := item.tsUtc, ticker := item.ticker.map toInternalTicker }

/-- `parse_`: the events in the order of their times. `std::sort` leaves events of one time in any
    order. -/
structure Parsed (items : List NewsItem) (events : NewsCalendar) : Prop where
  perm : events.Perm (items.map NewsItem.event)
  sorted : events.Pairwise (fun a b => a.tsUtc ≤ b.tsUtc)

/-- The element is about every ticker, or about this one. -/
def NewsItem.concerns (item : NewsItem) (ticker : Ticker) : Prop :=
  ∀ t ∈ item.ticker, toInternalTicker t = toInternalTicker ticker

/-! ## The next event -/

variable {events : NewsCalendar} {items : List NewsItem} {now : TimePoint} {ticker : Ticker} {b : ℤ}

/-- Whole minutes, counted down to a time that is not past. -/
theorem abs_tdiv_le_iff {d : ℤ} (hd : 0 ≤ d) :
    |d.tdiv nsPerMin| ≤ b ↔ d < (b + 1) * nsPerMin := by
  have hmin : (0 : ℤ) < nsPerMin := by decide
  rw [Int.tdiv_eq_ediv_of_nonneg hd, abs_of_nonneg (Int.ediv_nonneg hd hmin.le),
    ← Int.lt_add_one_iff, Int.ediv_lt_iff_lt_mul hmin]

/-- In a sorted calendar the first event that applies is the next one. -/
theorem minutesToNextNews_le_iff (hsorted : events.Pairwise (fun a b => a.tsUtc ≤ b.tsUtc)) :
    (∃ mins ∈ events.minutesToNextNews now ticker, |mins| ≤ b) ↔
      ∃ e ∈ events, (∀ t ∈ e.ticker, t = toInternalTicker ticker) ∧ now ≤ e.tsUtc ∧
        e.tsUtc - now < (b + 1) * nsPerMin := by
  unfold minutesToNextNews
  dsimp only
  constructor
  · rintro ⟨mins, hmins, hle⟩
    obtain ⟨e, hfind, rfl⟩ := Option.map_eq_some_iff.1 hmins
    have happlies := List.find?_some hfind
    rw [decide_eq_true_eq] at happlies
    refine ⟨e, List.mem_of_find?_eq_some hfind, happlies.2, happlies.1, ?_⟩
    exact (abs_tdiv_le_iff (by linarith [happlies.1])).1 hle
  · rintro ⟨e, he, hticker, hahead, hnear⟩
    cases hfind : events.find? (fun e => decide (now ≤ e.tsUtc ∧
      ∀ t ∈ e.ticker, t = toInternalTicker ticker)) with
    | none =>
        have hnot := List.find?_eq_none.1 hfind e he
        exact absurd (decide_eq_true ⟨hahead, hticker⟩) hnot
    | some first =>
        obtain ⟨happlies, pre, post, heq, hpre⟩ := List.find?_eq_some_iff_append.1 hfind
        rw [decide_eq_true_eq] at happlies
        refine ⟨_, rfl, (abs_tdiv_le_iff (by linarith [happlies.1])).2 ?_⟩
        -- `e` is not before the first event that applies
        have hfirst : first.tsUtc ≤ e.tsUtc := by
          rw [heq] at he hsorted
          rcases List.mem_append.1 he with he | he
          · have hnot := hpre e he
            rw [Bool.not_eq_true', decide_eq_false_iff_not] at hnot
            exact absurd ⟨hahead, hticker⟩ hnot
          · rcases List.mem_cons.1 he with rfl | he
            · exact le_rfl
            · exact (List.pairwise_cons.1 (List.pairwise_append.1 hsorted).2.1).1 e he
        linarith

/-- The same for the elements of the file. -/
theorem Parsed.minutesToNextNews_le_iff (h : Parsed items events) :
    (∃ mins ∈ events.minutesToNextNews now ticker, |mins| ≤ b) ↔
      ∃ item ∈ items, item.concerns ticker ∧ now ≤ item.tsUtc ∧
        item.tsUtc - now < (b + 1) * nsPerMin := by
  rw [NewsCalendar.minutesToNextNews_le_iff h.sorted]
  have hconcerns : ∀ item : NewsItem,
      (∀ t ∈ item.event.ticker, t = toInternalTicker ticker) ↔ item.concerns ticker := by
    intro item
    simp [NewsItem.event, NewsItem.concerns]
  constructor
  · rintro ⟨e, he, hticker, hrest⟩
    obtain ⟨item, hitem, rfl⟩ := List.mem_map.1 (h.perm.mem_iff.1 he)
    exact ⟨item, hitem, (hconcerns item).1 hticker, hrest⟩
  · rintro ⟨item, hitem, hticker, hrest⟩
    exact ⟨item.event, h.perm.mem_iff.2 (List.mem_map_of_mem hitem), (hconcerns item).2 hticker,
      hrest⟩

end NewsCalendar

end TradeBot
