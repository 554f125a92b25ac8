import TradeBot.Transport.ReplayedCalls

set_option autoImplicit false

/-! # Replays that survive their file

Most malformed lines are counted and skipped, but two kinds of them are read outside of the `try`
blocks and end the replay with an exception: a time of receipt that is not a number, and a type that is
not a string beside a payload. `replay_survives_iff` says that there are no others.

A replay that survives has counted each line that is not empty once, as delivered or as an error.
That is what the lemmas about one line say beside the exception, and the loop adds them up. The scan
raises an exception at bad lines only, so it never ends a replay that the loop would have survived.
-/

namespace TradeBot

/-- The JSON library reads back what it writes of a message that it has parsed. -/
def JsonText.ReadsBack (text : JsonText) : Prop :=
  ∀ line envelope msg, text.parse line = some envelope → envelope.find? "message" = some msg →
    text.parse (text.dump msg) = some msg

namespace ReplayFeed

open MetaScalpCodec MarketDataFeed

variable {L : Type} {text : JsonText}

/-- A message with a payload whose type is not a string. -/
def BadType (j : Json) : Prop :=
  j.contains "Type" = true ∧ j.contains "Data" = true ∧ messageType j = none

/-- An envelope with a time of receipt that is not a number, or with a message of a bad type. -/
def BadEnvelope (text : JsonText) (envelope : Json) : Prop :=
  ∃ recvTs msg, envelope.find? "recv_ts_ns" = some recvTs ∧ envelope.find? "message" = some msg ∧
    (recvTs.integer? 64 = none ∨ ∃ j, text.parse (rawMessage text msg) = some j ∧ BadType j)

/-- A line that parses to an envelope which ends the replay. -/
def BadLine (text : JsonText) (line : String) : Prop :=
  ∃ envelope, text.parse line = some envelope ∧ BadEnvelope text envelope

/-- The callback of a line that holds a well-formed message. -/
def lineCallback (text : JsonText) (offset : ℤ) (clock : TimePoint) (line : String) :
    Option Callback := do
  let envelope ← text.parse line
  let recvTsNs ← (← envelope.find? "recv_ts_ns").integer? 64
  let j ← text.parse (rawMessage text (← envelope.find? "message"))
  replayedCallback clock (if offset = 0 then none else some (recvTsNs + offset)) j

/-- A callback to all listeners. -/
def callAll (feed : ReplayFeed L) (cb : Option Callback) : List (L × Callback) :=
  cb.toList.flatMap (fun cb => feed.listeners.map (fun l => (l, cb)))

/-- The lines and messages that were counted, delivered or not. -/
def Stats.counted (stats : Stats) : ℕ := stats.messagesDispatched + stats.parseErrors

/-! ## One line -/

theorem dispatchMessage_counted {feed : ReplayFeed L} {offset : ℤ} {clock : TimePoint} {raw : String}
    {recvTsNs : ℤ} {stats : Stats} {d : Delivery L}
    (h : feed.dispatchMessage text offset clock raw recvTsNs stats = some d) :
    d.stats.counted = stats.counted + 1 := by
  have herror : stats.parseError.counted = stats.counted + 1 := rfl
  have hdispatched : stats.dispatched.counted = stats.counted + 1 := Nat.succ_add_eq_add_succ ..
  unfold dispatchMessage at h
  split at h
  · cases h
    exact herror
  · split at h
    · cases h
      exact herror
    · split at h
      · cases h
      · by_cases hnobody : feed.listeners = []
        · rw [if_pos hnobody] at h
          cases h
          exact hdispatched
        · rw [if_neg hnobody] at h
          split at h <;> cases h
          · exact herror
          · exact hdispatched
          · exact hdispatched

/-- A message is delivered and counted once, unless its type is bad. -/
theorem dispatchMessage_cases (feed : ReplayFeed L) (text : JsonText) (offset : ℤ)
    (clock : TimePoint) (raw : String) (recvTsNs : ℤ) (stats : Stats) :
    ((∃ j, text.parse raw = some j ∧ BadType j) ∧
        feed.dispatchMessage text offset clock raw recvTsNs stats = none) ∨
      (¬ ∃ j, text.parse raw = some j ∧ BadType j) ∧
        ∃ d, feed.dispatchMessage text offset clock raw recvTsNs stats = some d ∧
          d.stats.counted = stats.counted + 1 ∧
          d.calls = feed.callAll ((text.parse raw).bind
            (replayedCallback clock (if offset = 0 then none else some (recvTsNs + offset)))) := by
  by_cases hbad : ∃ j, text.parse raw = some j ∧ BadType j
  · refine Or.inl ⟨hbad, ?_⟩
    obtain ⟨j, hparse, htype, hdata, hnone⟩ := hbad
    simp [dispatchMessage, hparse, htype, hdata, hnone]
  · have hgood (j : Json) (hj : text.parse raw = some j) (htype : j.contains "Type" = true)
        (hdata : j.contains "Data" = true) : messageType j ≠ none :=
      fun hnone => hbad ⟨j, hj, htype, hdata, hnone⟩
    obtain ⟨d, hd, hcalls⟩ := feed.dispatchMessage_calls offset clock recvTsNs stats hgood
    exact Or.inr ⟨hbad, d, hd, dispatchMessage_counted hd, hcalls⟩

/-- So is every line, unless it is bad; an empty one is not counted. -/
theorem replayLine_cases (feed : ReplayFeed L) (text : JsonText) (offset : ℤ) (clock : TimePoint)
    (line : String) (stats : Stats) :
    (BadLine text line ∧ feed.replayLine text offset clock line stats = none) ∨
      ¬ BadLine text line ∧
        ∃ d, feed.replayLine text offset clock line stats = some d ∧
          d.stats.counted = stats.counted + (if line = "" then 0 else 1) ∧
          d.calls = feed.callAll (lineCallback text offset clock line) := by
  unfold replayLine lineCallback BadLine BadEnvelope
  by_cases hempty : line = ""
  · -- an empty line is passed over
    subst hempty
    rw [text.parse_empty]
    exact Or.inr ⟨fun ⟨_, h, _⟩ => (nomatch h), _, if_pos rfl, rfl, rfl⟩
  · rw [if_neg hempty, if_neg hempty]
    cases henvelope : text.parse line with
    -- text that does not parse is counted only
    | none => exact Or.inr ⟨fun ⟨_, h, _⟩ => (nomatch h), _, rfl, rfl, rfl⟩
    | some envelope =>
        simp only [Option.some.injEq, exists_eq_left', Option.bind_eq_bind, Option.bind_some]
        cases hrecv : envelope.find? "recv_ts_ns" with
        | none => exact Or.inr ⟨fun ⟨_, _, h, _⟩ => (nomatch h), _, rfl, rfl, rfl⟩
        | some recvTs =>
            cases hmsg : envelope.find? "message" with
            | none =>
                refine Or.inr ⟨fun ⟨_, _, _, h, _⟩ => (nomatch h), _, rfl, rfl, ?_⟩
                rw [Option.bind_some]
                cases recvTs.integer? 64 <;> rfl
            | some msg =>
                simp only [Option.some.injEq, exists_eq_left', exists_and_left, Option.bind_some]
                cases htime : recvTs.integer? 64 with
                -- a time stamp that is not an integer raises the exception
                | none => exact Or.inl ⟨Or.inl rfl, rfl⟩
                | some recvTsNs =>
                    have hcases := feed.dispatchMessage_cases text offset clock (rawMessage text msg)
                      recvTsNs { stats with messagesRead := stats.messagesRead + 1 }
                    obtain ⟨hbad, hnone⟩ | ⟨hgood, hd⟩ := hcases
                    · exact Or.inl ⟨Or.inr hbad, hnone⟩
                    · exact Or.inr ⟨fun h => hgood (h.resolve_left (Option.some_ne_none _)), hd⟩

/-! ## All lines -/

/-- The loop reaches the end of the file, with every line delivered and counted, unless a line is bad. -/
theorem replayLines_cases (feed : ReplayFeed L) (text : JsonText) (offset : ℤ) (clock : ℕ → TimePoint)
    (lines : List String) (n : ℕ) (stats : Stats) :
    ((∃ line ∈ lines, BadLine text line) ∧
        (feed.replayLines text offset clock lines n stats).aborted = true) ∨
      (¬ ∃ line ∈ lines, BadLine text line) ∧
        (feed.replayLines text offset clock lines n stats).aborted = false ∧
        (feed.replayLines text offset clock lines n stats).stats.counted
          = stats.counted + lines.countP (fun line => decide (line ≠ "")) ∧
        (feed.replayLines text offset clock lines n stats).calls
          = (lines.zipIdx n).map (fun l => feed.callAll (lineCallback text offset (clock l.2) l.1)) := by
  induction lines generalizing n stats with
  | nil => exact Or.inr ⟨by simp, rfl, rfl, rfl⟩
  | cons line lines ih =>
      rw [List.exists_mem_cons_iff, replayLines]
      obtain ⟨hbad, hnone⟩ | ⟨hgood, d, hd, hcounted, hcalls⟩ :=
        feed.replayLine_cases text offset (clock n) line stats
      · rw [hnone]
        exact Or.inl ⟨Or.inl hbad, rfl⟩
      · rw [hd]
        obtain ⟨hbad, habort⟩ | ⟨hall, habort, hcount, hdelivered⟩ := ih (n + 1) d.stats
        · exact Or.inl ⟨Or.inr hbad, habort⟩
        · refine Or.inr ⟨fun h => hall (h.resolve_left hgood), habort, ?_, ?_⟩
          · refine hcount.trans ?_
            rw [hcounted, List.countP_cons]
            by_cases hempty : line = "" <;> simp only [hempty, ne_eq, not_true_eq_false,
              not_false_eq_true, decide_true, decide_false, if_true, if_false, Bool.false_eq_true]
            · rfl
            · omega
          · rw [List.zipIdx_cons, List.map_cons, ← hcalls, ← hdelivered]

/-- The scan for the first trade raises an exception at bad lines only. -/
theorem preScan_of_good (hreads : text.ReadsBack) {lines : List String}
    (hgood : ∀ line ∈ lines, ¬ BadLine text line) (scanned : ℕ) :
    ∃ offset, preScan text lines scanned = some offset := by
  induction lines generalizing scanned with
  | nil => exact ⟨0, rfl⟩
  | cons line lines ih =>
      rw [List.forall_mem_cons] at hgood
      unfold preScan
      split
      · exact ⟨0, rfl⟩
      split
      · exact ih hgood.2 scanned
      split
      · exact ih hgood.2 scanned
      rename_i envelope henvelope
      split
      · rename_i recvTs msg hrecv hmsg
        split
        · rename_i htime
          -- the time stamp is no integer, so the line is bad
          exact absurd ⟨envelope, henvelope, recvTs, msg, hrecv, hmsg, Or.inl htime⟩ hgood.1
        split
        · exact ih hgood.2 (scanned + 1)
        rename_i hpayload
        rw [Bool.not_eq_true', Bool.not_eq_false, Bool.and_eq_true] at hpayload
        split
        · rename_i htype
          -- the type is no string, so the line is bad
          have hraw := (congrArg text.parse (rawMessage_of_contains text hpayload.1)).trans
            (hreads line envelope msg henvelope hmsg)
          exact absurd ⟨envelope, henvelope, recvTs, msg, hrecv, hmsg,
            Or.inr ⟨msg, hraw, hpayload.1, hpayload.2, htype⟩⟩ hgood.1
        split
        · exact ⟨_, rfl⟩
        · exact ih hgood.2 (scanned + 1)
      · exact ih hgood.2 (scanned + 1)

/-- The replay ends without an exception, with every well-formed message delivered to all listeners in
    the order of the file, and every line that is not empty has been counted once, after any number of
    lines. -/
def Survives (feed : ReplayFeed L) (text : JsonText) (clock : ℕ → TimePoint) (lines : List String) :
    Prop :=
  (feed.run text clock lines).aborted = false ∧
    ∃ offset,
      (feed.run text clock lines).calls
        = lines.zipIdx.map (fun l => feed.callAll (lineCallback text offset (clock l.2) l.1)) ∧
      feed.run text clock lines = feed.replayLines text offset clock lines 0 {} ∧
      ∀ k, (feed.replayLines text offset clock (lines.take k) 0 {}).stats.counted
        = (lines.take k).countP (fun line => decide (line ≠ ""))

/-- A replay survives its file if and only if no line is bad. -/
theorem replay_survives_iff (hreads : text.ReadsBack) (feed : ReplayFeed L) (clock : ℕ → TimePoint)
    (lines : List String) : feed.Survives text clock lines ↔ ∀ line ∈ lines, ¬ BadLine text line := by
  constructor
  · rintro ⟨habort, offset, -, hrun, -⟩ line hline hbad
    rw [hrun] at habort
    obtain ⟨-, h⟩ | ⟨hall, -⟩ := feed.replayLines_cases text offset clock lines 0 {}
    · rw [h] at habort
      cases habort
    · exact hall ⟨line, hline, hbad⟩
  · intro hgood
    have hnone {lines' : List String} (hsub : ∀ line ∈ lines', line ∈ lines) :
        ¬ ∃ line ∈ lines', BadLine text line :=
      fun ⟨line, hline, hbad⟩ => hgood line (hsub line hline) hbad
    obtain ⟨offset, hoffset⟩ := preScan_of_good hreads hgood 0
    have hrun : feed.run text clock lines = feed.replayLines text offset clock lines 0 {} := by
      rw [run, hoffset]
    rw [Survives, hrun]
    obtain ⟨hbad, -⟩ | ⟨-, habort, -, hcalls⟩ :=
      feed.replayLines_cases text offset clock lines 0 {}
    · exact absurd hbad (hnone (fun _ h => h))
    refine ⟨habort, offset, hcalls, rfl, fun k => ?_⟩
    obtain ⟨hbad, -⟩ | ⟨-, -, hcount, -⟩ :=
      feed.replayLines_cases text offset clock (lines.take k) 0 {}
    · exact absurd hbad (hnone (fun _ h => List.mem_of_mem_take h))
    · rw [hcount]
      exact Nat.zero_add _

/-! ## A time that is a string -/

open Received in
theorem tradeJsonText_readsBack : tradeJsonText.ReadsBack := by
  intro line envelope msg henvelope hmsg
  unfold tradeJsonText at henvelope
  dsimp only at henvelope
  split_ifs at henvelope
  · cases henvelope
    cases hmsg
    exact (recordedTrade_roundTrips false).message
  · cases henvelope
    cases hmsg

open Received in
/-- A line that is not JSON before a trade. -/
theorem replay_survives_iff_recordedTrade :
    onlyReplayListener.Survives tradeJsonText (fun _ => 0) ["not JSON", tradeLine] := by
  refine (replay_survives_iff tradeJsonText_readsBack onlyReplayListener (fun _ => 0) _).2 ?_
  have hline : tradeJsonText.parse tradeLine =
      some (.obj [("message", (recordedTrade false).message), ("recv_ts_ns", .int 1)]) :=
    (recordedTrade_roundTrips false).line
  rw [List.forall_mem_cons, List.forall_mem_singleton]
  constructor
  · rintro ⟨envelope, henvelope, -⟩
    have hnone : tradeJsonText.parse "not JSON" = none := by decide +kernel
    rw [hnone] at henvelope
    cases henvelope
  · rintro ⟨envelope, henvelope, recvTs, msg, hrecv, hmsg, hbad⟩
    rw [hline] at henvelope
    cases henvelope
    cases hrecv
    cases hmsg
    obtain htime | ⟨j, hj, -, -, htype⟩ := hbad
    · cases htime
    · have hmessage := (recordedTrade_roundTrips false).message
      have hkey : (recordedTrade false).message.contains "Type" = true := rfl
      rw [rawMessage_of_contains _ hkey, hmessage] at hj
      cases hj
      cases htype

/-- A line whose time of receipt is a string. -/
def stringTimeLine : String := "\x7b\"message\":null,\"recv_ts_ns\":\"1\"\x7d"

/-- The JSON library on that line and on its message. -/
def stringTimeJsonText : JsonText where
  dump _ := "null"
  parse s :=
    if s = stringTimeLine then some (.obj [("message", .null), ("recv_ts_ns", .str "1")])
    else if s = "null" then some .null
    else none
  parse_empty := by decide

open Received in
/-- It ends the replay. -/
theorem not_survives_stringTime :
    ¬ onlyReplayListener.Survives stringTimeJsonText (fun _ => 0) [stringTimeLine] := by
  rintro ⟨habort, -⟩
  exact absurd habort (by decide)

end ReplayFeed

end TradeBot
