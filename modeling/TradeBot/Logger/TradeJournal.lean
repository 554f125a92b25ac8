import Mathlib.Data.List.DropRight
import TradeBot.Domain.Signals
import TradeBot.Lib.Files
import TradeBot.Lib.Json
import TradeBot.Lib.RingBuffer
import TradeBot.Lib.Runs

set_option autoImplicit false

/-! # TradeJournal

`logger/TradeJournal.cpp`: entries are logged from any thread, and one worker thread writes them to a
file for each day. `dump`, of the JSON library, is a parameter. A step is a call that holds the mutex,
or the writing of one entry, so that entries may be logged at any time.

The worker takes the whole queue at once and writes the entries that it has taken one after the
other, each to the file of the day on which it is written. An event that is not the worker's next
step changes nothing. `Keeps` says what has become of all entries that were logged and holds in every
run; while nothing goes wrong with the files, `Complete` holds too. -/

namespace TradeBot

open Runs

/-- `TradeJournal::Entry`, without the frame, which is not written. -/
structure JournalEntry where
  plan : StrategyPlan
  pnlUsd : ℚ := 0
  durationSec : ℚ := 0
  exitPrice : ℚ := 0
  causeOfExit : String := ""
  tsUnixMs : ℤ := 0
  deriving DecidableEq

/-- The object of a line. -/
def JournalEntry.toJson (entry : JournalEntry) : Json :=
  .obj
    [("ts_unix_ms", .int entry.tsUnixMs), ("ticker", .str entry.plan.ticker),
      ("strategy", .str entry.plan.strategyName),
      ("side", .str (if entry.plan.side = .buy then "Buy" else "Sell")),
      ("entry_type", .str (if entry.plan.entryType = .market then "Market" else "Limit")),
      ("entry_price", .dec entry.plan.entryPrice), ("exit_price", .dec entry.exitPrice),
      ("stop_price", .dec entry.plan.stopPrice), ("tp1_price", .dec entry.plan.tp1Price),
      ("size_coin", .dec entry.plan.sizeCoin), ("risk_usd", .dec entry.plan.riskUsd),
      ("pnl_usd", .dec entry.pnlUsd), ("duration_sec", .dec entry.durationSec),
      ("reason", .str entry.plan.reason), ("cause_of_exit", .str entry.causeOfExit)]

/-- An entry as it stands in a file. The byte 10 is the end of the line. -/
def JournalEntry.line (dump : Json → List UInt8) (entry : JournalEntry) : List UInt8 :=
  dump entry.toJson ++ [10]

/-- An entry that the worker is done with: the day it was written on, and the bytes that the file took. -/
structure WrittenEntry where
  entry : JournalEntry
  date : String
  bytes : List UInt8

/-- The journal, and the files that it writes. -/
structure TradeJournal where
  logDir : String := "journal"
  cache : List JournalEntry := []
  queue : List JournalEntry := []
  stop : Bool := false
  /-- What the worker has taken and not written yet. -/
  batch : List JournalEntry := []
  exited : Bool := false
  currentDate : String := ""
  /-- `current_fd_ >= 0`. -/
  fdOpen : Bool := false
  files : Files String UInt8
  /-- The entries that left the batch, for reference. -/
  written : List WrittenEntry := []

namespace TradeJournal

/-- The file of a day. -/
def fileOf (logDir date : String) : String := logDir ++ "/" ++ date ++ ".jsonl"

variable (dump : Json → List UInt8) (j : TradeJournal)

/-- `log_entry`. -/
def logEntry (entry : JournalEntry) : TradeJournal :=
  let cache := j.cache ++ [entry]
  { j with
    cache := if 200 < cache.length then cache.tail else cache
    queue := j.queue ++ [entry] }

/-- The worker takes the queue, or ends. It waits if there is nothing to do. -/
def takeBatch : TradeJournal :=
  if j.exited ∨ j.batch ≠ [] then j
  else if j.stop ∧ j.queue = [] then { j with exited := true }
  else { j with batch := j.queue, queue := [] }

/-- The file of the day is opened if it is not open yet. -/
def openFile (date : String) (opened : Bool) : TradeJournal :=
  if date ≠ j.currentDate ∨ j.fdOpen = false then
    { j with
      currentDate := date
      fdOpen := opened
      files := if opened then j.files.append (fileOf j.logDir date) [] else j.files }
  else j

/-- The bytes of a line that `write` takes; `none` is an error. -/
def taken (entry : JournalEntry) (count : Option ℕ) : List UInt8 :=
  match count with
  | none => []
  | some n => (entry.line dump).take n

/-- The worker writes the next entry on a day. -/
def writeEntry (date : String) (opened : Bool) (count : Option ℕ) : TradeJournal :=
  match j.batch with
  | [] => j
  | entry :: rest =>
      let j := j.openFile date opened
      let bytes := if j.fdOpen then taken dump entry count else []
      { j with
        batch := rest
        files := if j.fdOpen ∧ count.isSome then j.files.append (fileOf j.logDir date) bytes else j.files
        written := j.written ++ [⟨entry, date, bytes⟩] }

/-- `get_recent_entries`, the newest entry first. -/
def getRecentEntries (count : ℕ) : List JournalEntry := j.cache.reverse.take count

/-- A call of some thread, or the next step of the worker. -/
inductive Event
  | log (entry : JournalEntry)
  /-- The destructor. -/
  | stop
  | take
  | write (date : String) (opened : Bool) (count : Option ℕ)

/-- The journal after an event. -/
def step (j : TradeJournal) : Event → TradeJournal
  | .log entry => j.logEntry entry
  | .stop => { j with stop := true }
  | .take => j.takeBatch
  | .write date opened count => j.writeEntry dump date opened count

/-- The entries that were logged, in order. -/
def logged (events : List Event) : List JournalEntry :=
  events.filterMap fun e => match e with
    | .log entry => some entry
    | _ => none

/-- What a path holds, with a missing file as an empty one. -/
def content (files : Files String UInt8) (p : String) : List UInt8 := (files p).getD []

/-- What was written to a path. -/
def pieces (logDir : String) (written : List WrittenEntry) (p : String) : List UInt8 :=
  ((written.filter fun w => decide (fileOf logDir w.date = p)).map WrittenEntry.bytes).flatten

/-! ## What is kept -/

section

variable {dump} {j} {p : String} {fs : Files String UInt8} {done : List Event} {dir : String}

theorem content_append (q : String) (bytes : List UInt8) :
    content (fs.append q bytes) p = content fs p ++ if q = p then bytes else [] := by
  by_cases hp : p = q
  · rw [content, content, hp, if_pos rfl, Files.append_self, Option.getD_some]
  · rw [content, content, Files.append_of_ne _ hp, if_neg (Ne.symm hp), List.append_nil]

theorem pieces_concat (written : List WrittenEntry) (w : WrittenEntry) :
    pieces dir (written ++ [w]) p
      = pieces dir written p ++ if fileOf dir w.date = p then w.bytes else [] := by
  rw [pieces, pieces, List.filter_append, List.map_append, List.flatten_append]
  by_cases hw : fileOf dir w.date = p <;> simp [hw]

theorem logged_append (events events' : List Event) :
    logged (events ++ events') = logged events ++ logged events' := List.filterMap_append

/-- Every entry that was logged is written, in the batch or in the queue, in the order of the calls; the
    cache holds the newest ones, and the files what was written on their days. -/
structure Keeps (dir : String) (fs : Files String UInt8) (done : List Event) (j : TradeJournal) :
    Prop where
  logDir_eq : j.logDir = dir
  order : j.written.map WrittenEntry.entry ++ j.batch ++ j.queue = logged done
  cache_eq : j.cache = (logged done).rtake 200
  content_eq : ∀ p, content j.files p = content fs p ++ pieces dir j.written p

theorem keeps_start : Keeps dir fs [] { logDir := dir, files := fs } where
  logDir_eq := rfl
  order := rfl
  cache_eq := (List.rtake_nil ..).symm
  content_eq _ := (List.append_nil _).symm

theorem Keeps.of_same {j' : TradeJournal} (h : Keeps dir fs done j) {e : Event} (he : logged [e] = [])
    (hdir : j'.logDir = j.logDir) (hcache : j'.cache = j.cache) (hwritten : j'.written = j.written)
    (hfiles : j'.files = j.files) (horder : j'.batch ++ j'.queue = j.batch ++ j.queue) :
    Keeps dir fs (done ++ [e]) j' where
  logDir_eq := hdir.trans h.logDir_eq
  order := by rw [logged_append, he, List.append_nil, ← h.order, hwritten, List.append_assoc, horder,
    List.append_assoc]
  cache_eq := by rw [logged_append, he, List.append_nil, hcache, h.cache_eq]
  content_eq p := by rw [hfiles, hwritten, h.content_eq p]

theorem Keeps.logEntry (h : Keeps dir fs done j) (entry : JournalEntry) :
    Keeps dir fs (done ++ [.log entry]) (j.logEntry entry) where
  logDir_eq := h.logDir_eq
  order := by
    rw [logged_append, ← h.order]
    exact (List.append_assoc ..).symm
  cache_eq := by
    have hcap : ∀ l : List JournalEntry, l.length ≤ 201 →
        (if 200 < l.length then l.tail else l) = l.rtake 200 := by
      intro l hl
      rw [List.rtake]
      split
      · rw [show l.length - 200 = 1 by omega, List.drop_one]
      · rw [Nat.sub_eq_zero_of_le (by omega), List.drop_zero]
    have hlength : (j.cache ++ [entry]).length ≤ 201 := by
      rw [h.cache_eq, List.length_append, List.rtake, List.length_drop, List.length_singleton]
      omega
    rw [logged_append, TradeJournal.logEntry]
    dsimp only
    rw [hcap _ hlength, h.cache_eq]
    exact (RingBuffer.rtake_concat ..).symm
  content_eq p := h.content_eq p

theorem Keeps.takeBatch (h : Keeps dir fs done j) : Keeps dir fs (done ++ [.take]) j.takeBatch := by
  unfold TradeJournal.takeBatch
  split
  · exact h.of_same rfl rfl rfl rfl rfl rfl
  · rename_i hidle
    have hbatch : j.batch = [] := by
      by_contra hne
      exact hidle (Or.inr hne)
    split
    · exact h.of_same rfl rfl rfl rfl rfl rfl
    · exact h.of_same rfl rfl rfl rfl rfl (by rw [hbatch]; exact List.append_nil _)

theorem content_openFile (date : String) (opened : Bool) :
    content (j.openFile date opened).files p = content j.files p := by
  unfold openFile
  split
  · cases opened with
    | false => rfl
    | true =>
        dsimp only
        rw [if_pos rfl, content_append, ite_self, List.append_nil]
  · rfl

theorem openFile_same (date : String) (opened : Bool) :
    (j.openFile date opened).logDir = j.logDir ∧ (j.openFile date opened).cache = j.cache ∧
      (j.openFile date opened).queue = j.queue ∧ (j.openFile date opened).written = j.written := by
  unfold openFile
  split <;> exact ⟨rfl, rfl, rfl, rfl⟩

theorem Keeps.writeEntry (h : Keeps dir fs done j) (date : String) (opened : Bool) (count : Option ℕ) :
    Keeps dir fs (done ++ [.write date opened count]) (j.writeEntry dump date opened count) := by
  unfold TradeJournal.writeEntry
  split
  · exact h.of_same rfl rfl rfl rfl rfl rfl
  · rename_i entry rest hbatch
    obtain ⟨hdir, hcache, hqueue, hwritten⟩ := openFile_same (j := j) date opened
    have hcontent (p : String) := content_openFile (j := j) (p := p) date opened
    generalize j.openFile date opened = j' at hdir hcache hqueue hwritten hcontent ⊢
    have hlogged : logged (done ++ [Event.write date opened count]) = logged done := by
      rw [logged_append]
      exact List.append_nil _
    refine ⟨hdir.trans h.logDir_eq, ?_, ?_, fun p => ?_⟩
    · rw [hlogged, ← h.order, hbatch]
      dsimp only
      rw [hqueue, hwritten, List.map_append]
      simp
    · rw [hlogged, ← h.cache_eq]
      exact hcache
    · dsimp only
      rw [pieces_concat, hwritten, hdir, h.logDir_eq, ← List.append_assoc, ← h.content_eq p, ← hcontent p]
      by_cases hput : j'.fdOpen = true ∧ count.isSome = true
      · rw [if_pos hput, if_pos hput.1, content_append]
      · have hnothing : (if j'.fdOpen then taken dump entry count else []) = [] := by
          by_cases hopen : j'.fdOpen = true
          · cases count with
            | none => exact if_pos hopen
            | some n => exact absurd ⟨hopen, rfl⟩ hput
          · exact if_neg hopen
        rw [if_neg hput, hnothing, ite_self, List.append_nil]

theorem Keeps.step (h : Keeps dir fs done j) (e : Event) : Keeps dir fs (done ++ [e]) (j.step dump e) := by
  cases e with
  | log entry => exact h.logEntry entry
  | stop => exact h.of_same rfl rfl rfl rfl rfl rfl
  | take => exact h.takeBatch
  | write date opened count => exact h.writeEntry date opened count

/-! ## The destructor waits for everything -/

/-- No call of the file system fails, and nothing is logged once the worker has ended. -/
def Healthy (dump : Json → List UInt8) (j : TradeJournal) : Event → Prop
  | .log _ => j.exited = false
  | .write _ opened count =>
      opened = true ∧ ∀ entry ∈ j.batch, count.isSome ∧ (entry.line dump).length ≤ count.getD 0
  | _ => True

instance (e : Event) : Decidable (Healthy dump j e) :=
  match e with
  | .log _ => inferInstanceAs (Decidable (j.exited = false))
  | .stop => .isTrue trivial
  | .take => .isTrue trivial
  | .write _ opened count => inferInstanceAs (Decidable (opened = true ∧
      ∀ entry ∈ j.batch, count.isSome ∧ (entry.line dump).length ≤ count.getD 0))

/-- Lines are written as a whole, and the worker ends when nothing is left to write. -/
structure Complete (dump : Json → List UInt8) (j : TradeJournal) : Prop where
  whole : ∀ w ∈ j.written, w.bytes = w.entry.line dump
  done : j.exited = true → j.batch = [] ∧ j.queue = []

theorem fdOpen_openFile (date : String) : (j.openFile date true).fdOpen = true := by
  unfold openFile
  split
  · rfl
  · rename_i hopen
    simpa using fun h => hopen (Or.inr h)

theorem exited_openFile (date : String) (opened : Bool) :
    (j.openFile date opened).exited = j.exited := by
  unfold openFile
  split <;> rfl

theorem Complete.step (h : Complete dump j) {e : Event} (he : Healthy dump j e) :
    Complete dump (j.step dump e) := by
  cases e with
  | log entry =>
      refine ⟨h.whole, fun hexited => ?_⟩
      -- a healthy run logs nothing after the worker has ended
      exact absurd hexited (by rw [show (j.step dump (.log entry)).exited = false from he]; decide)
  | stop => exact ⟨h.whole, h.done⟩
  | take =>
      rw [TradeJournal.step, TradeJournal.takeBatch]
      split
      · exact h
      · rename_i hidle
        rw [not_or, not_not] at hidle
        split
        · rename_i hstop
          -- the worker ends with nothing left to write
          exact ⟨h.whole, fun _ => ⟨hidle.2, hstop.2⟩⟩
        · exact ⟨h.whole, fun hexited => absurd hexited hidle.1⟩
  | write date opened count =>
      obtain ⟨rfl, hlength⟩ := he
      rw [TradeJournal.step, TradeJournal.writeEntry]
      split
      · exact h
      · rename_i entry rest hbatch
        -- a healthy write takes the whole line
        have hbytes : taken dump entry count = entry.line dump := by
          obtain ⟨hcount, hle⟩ := hlength entry (hbatch ▸ List.mem_cons_self ..)
          obtain ⟨n, rfl⟩ := Option.isSome_iff_exists.1 hcount
          exact List.take_of_length_le hle
        refine ⟨fun w hw => ?_, fun hexited => ?_⟩
        · dsimp only at hw
          rw [(openFile_same date true).2.2.2, if_pos (fdOpen_openFile date), hbytes] at hw
          rcases List.mem_append.1 hw with hold | hnew
          · exact h.whole w hold
          · rw [List.mem_singleton.1 hnew]
        · have hbusy := (h.done ((exited_openFile date true).symm.trans hexited)).1
          rw [hbatch] at hbusy
          cases hbusy

end

/-- **Nothing that was logged is lost when the journal is destroyed.** Each entry is one line of the file
    of the day on which it was written, in the order of the calls, behind what the file held before. -/
theorem journal_complete (dump : Json → List UInt8) (logDir : String) (files : Files String UInt8)
    (events : List Event)
    (h : Along (step dump) (Healthy dump) { logDir := logDir, files := files } events)
    (hexit : (events.foldl (step dump) { logDir := logDir, files := files }).exited = true) :
    let j := events.foldl (step dump) { logDir := logDir, files := files }
    j.written.map WrittenEntry.entry = logged events ∧
      (∀ p, content j.files p = content files p ++
        ((j.written.filter fun w => decide (fileOf logDir w.date = p)).map
          fun w => w.entry.line dump).flatten) ∧
      ∀ count, j.getRecentEntries count = (logged events).reverse.take (min count 200) := by
  intro j
  have hkeeps : Keeps logDir files events j :=
    h.invariant_history (Keeps logDir files) (fun _ _ e hj _ => hj.step e) keeps_start
  have hcomplete : Complete dump j :=
    h.invariant (Complete dump) (fun _ _ hj he => hj.step he) ⟨fun _ hw => absurd hw List.not_mem_nil, nofun⟩
  obtain ⟨hbatch, hqueue⟩ := hcomplete.done hexit
  refine ⟨?_, fun p => ?_, fun count => ?_⟩
  · have horder := hkeeps.order
    rwa [hbatch, hqueue, List.append_nil, List.append_nil] at horder
  · rw [hkeeps.content_eq p, pieces]
    congr 2
    exact List.map_congr_left fun w hw => hcomplete.whole w (List.mem_of_mem_filter hw)
  · rw [getRecentEntries, hkeeps.cache_eq, List.rtake_eq_reverse_take_reverse, List.reverse_reverse,
      List.take_take]

/-- Two entries, one of which is logged while the other is written, over midnight. -/
theorem journal_complete_midnight :
    let entry (ticker : Ticker) : JournalEntry := { plan := { ticker := ticker } }
    let events := [Event.log (entry "BTC_USDT"), .take, .log (entry "ETH_USDT"),
      .write "2026-01-01" true (some 400), .stop, .take, .write "2026-01-02" true (some 400), .take]
    let j := events.foldl (step fun _ => [123, 125]) { files := fun _ => none }
    j.written.map WrittenEntry.entry = [entry "BTC_USDT", entry "ETH_USDT"] := by
  intro entry events j
  exact (journal_complete (fun _ => [123, 125]) "journal" (fun _ => none) events (by decide) (by decide)).1

end TradeJournal

end TradeBot
