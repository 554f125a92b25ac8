import Mathlib.Data.List.Induction
import TradeBot.Domain.Signals
import TradeBot.Lib.BinarySearch
import TradeBot.Strategy.StrategyContext
import TradeBot.Utils.CircularBuffer

set_option autoImplicit false

/-! # LeaderSignal

`signals/LeaderSignal.cpp`: a signal when the follower has not made the move of its leader over the last
five seconds. The price of five seconds ago is looked up in a history by binary search.

The binary search is right if the times increase, and they do as long as frames come in the order of
time; a buffer that drops its oldest samples keeps the order. So the published moves are those of a
scan in every such run, which is what the last result says. -/

namespace TradeBot

/-- A price with its time. -/
abbrev PriceSample : Type := TimePoint × ℚ

/-- The thresholds of the signal, with the defaults of the source. -/
structure LeaderSignal.Config where
  minCorrelation : ℚ := 3 / 5
  moveMinPct : ℚ := 3 / 10
  lagMinPct : ℚ := 3 / 20

/-- What the detector reads from its `LeaderTracker`. -/
structure LeaderSignal.Tracked where
  correlation : ℚ
  confidence : ℚ
  lagMs : ℚ

/-- The two histories, each of which keeps its last samples. -/
structure LeaderSignal where
  ticker : Ticker
  leaderTicker : Ticker
  cfg : LeaderSignal.Config := {}
  leaderHistory : CircularBuffer PriceSample 60000 := ∅
  ourHistory : CircularBuffer PriceSample 60000 := ∅

namespace LeaderSignal

/-! ## The move over five seconds -/

/-- `history[i].first <= target_time`. -/
def isOld (history : List PriceSample) (now : TimePoint) (i : ℤ) : Bool :=
  match history[i.toNat]? with
  | some sample => decide (sample.1 ≤ now - seconds 5)
  | none => false

/-- The position of the last sample that is old enough, or -1. -/
def bestIdx (history : List PriceSample) (now : TimePoint) : ℤ :=
  BinarySearch.search (isOld history now) 0 (history.length - 1) (-1)

/-- The sample that `prev` is the price of. -/
def reference (history : List PriceSample) (now : TimePoint) : Option PriceSample :=
  if bestIdx history now ≠ -1 then history[(bestIdx history now).toNat]? else history[0]?

/-- The move in percent, and zero where there is nothing to compare with. -/
def getMove (history : List PriceSample) (now : TimePoint) : ℚ :=
  match history.getLast?, reference history now with
  | some (_, cur), some (_, prev) =>
      if cur = 0 then 0 else if prev = 0 then 0 else (cur - prev) / prev * 100
  | _, _ => 0

/-! ## Frames -/

variable (det : LeaderSignal)

/-- `check_signal_`. -/
def checkSignal (tracked : Tracked) (traceId : TraceId) (now : TimePoint) : Option Signal :=
  if det.leaderHistory.entries.length < 50 ∨ det.ourHistory.entries.length < 50 then none
  else
    let corr := tracked.correlation
    if |corr| < det.cfg.minCorrelation then none
    else
      let leaderMove := getMove det.leaderHistory.entries now
      let ourMove := getMove det.ourHistory.entries now
      let expectedMove := leaderMove * corr
      let lagDiff := expectedMove - ourMove
      if det.cfg.moveMinPct ≤ |leaderMove| ∧ det.cfg.lagMinPct ≤ |lagDiff| then
        some {
          kind := .leaderMove
          timestamp := now
          ticker := det.ticker
          price := (det.ourHistory.entries.getLast?.map Prod.snd).getD 0
          confidence := tracked.confidence
          payload := {
            lagPct := lagDiff
            correlation := corr
            leaderMovePct := leaderMove
            ourMovePct := ourMove
            expectedMovePct := expectedMove
            lagMs := tracked.lagMs }
          triggerTraceId := traceId }
      else none

/-- The signal goes to the bus. -/
def onFrame (tracked : Tracked) (traceId : TraceId) (frame : FeatureFrame) :
    LeaderSignal × Option Signal :=
  if frame.ticker ≠ det.ticker ∨ frame.valid = false then (det, none)
  else
    let det := { det with ourHistory := det.ourHistory.pushBack (frame.timestamp, frame.mid) }
    (det, det.checkSignal tracked traceId frame.timestamp)

/-- A frame of the leader is only recorded. -/
def onLeaderFrame (frame : FeatureFrame) : LeaderSignal :=
  if frame.ticker ≠ det.leaderTicker ∨ frame.valid = false then det
  else { det with leaderHistory := det.leaderHistory.pushBack (frame.timestamp, frame.mid) }

/-! ## The lookup is a scan -/

variable {history : List PriceSample} {now : TimePoint}

theorem isOld_of_lt {i : ℕ} (hi : i < history.length) :
    isOld history now i = decide (history[i].1 ≤ now - seconds 5) := by
  simp [isOld, hi]

theorem isOld_downward (hsorted : history.Pairwise fun a b => a.1 ≤ b.1) :
    BinarySearch.Downward (isOld history now) history.length := by
  intro i j hij hj hold
  rw [isOld_of_lt hj, decide_eq_true_eq] at hold
  rw [isOld_of_lt (hij.trans_lt hj), decide_eq_true_eq]
  rcases hij.lt_or_eq with hlt | rfl
  · exact le_trans (List.pairwise_iff_getElem.1 hsorted i j _ hj hlt) hold
  · exact hold

theorem bestIdx_eq_lastIndex (hsorted : history.Pairwise fun a b => a.1 ≤ b.1) (now : TimePoint) :
    bestIdx history now = BinarySearch.lastIndex (isOld history now) history.length :=
  BinarySearch.search_eq_lastIndex (isOld_downward hsorted)

/-- The scan from the newest sample to the first one that is old enough. -/
def scanned (history : List PriceSample) (now : TimePoint) : Option PriceSample :=
  history.reverse.find? fun sample => decide (sample.1 ≤ now - seconds 5)

theorem scanned_eq_none (h : ∀ i : ℕ, i < history.length → isOld history now i = false) :
    scanned history now = none := by
  refine List.find?_eq_none.2 fun sample hsample => ?_
  obtain ⟨i, hi, rfl⟩ := List.getElem_of_mem (List.mem_reverse.1 hsample)
  simpa [isOld_of_lt hi] using h i hi

theorem scanned_eq_some {k : ℕ} (hk : k < history.length) (hold : isOld history now k = true)
    (hafter : ∀ i : ℕ, k < i → i < history.length → isOld history now i = false) :
    scanned history now = some history[k] := by
  have hsplit : history.reverse
      = (history.drop (k + 1)).reverse ++ history[k] :: (history.take k).reverse := by
    conv_lhs => rw [← List.take_append_drop k history, List.drop_eq_getElem_cons hk]
    simp
  have hnewer : (history.drop (k + 1)).reverse.find? (fun sample => decide (sample.1 ≤ now - seconds 5))
      = none := by
    refine List.find?_eq_none.2 fun sample hsample => ?_
    obtain ⟨i, hi, rfl⟩ := List.getElem_of_mem (List.mem_reverse.1 hsample)
    rw [List.length_drop] at hi
    have hlt : k + 1 + i < history.length := by omega
    have hnot := hafter (k + 1 + i) (by omega) hlt
    rw [isOld_of_lt hlt] at hnot
    simpa using hnot
  rw [isOld_of_lt hk] at hold
  rw [scanned, hsplit, List.find?_append, hnewer, Option.none_or]
  simp only [List.find?_cons, hold]

theorem reference_eq_scanned (hsorted : history.Pairwise fun a b => a.1 ≤ b.1) (now : TimePoint) :
    reference history now = (scanned history now).or history.head? := by
  unfold reference
  rw [bestIdx_eq_lastIndex hsorted now]
  rcases BinarySearch.lastIndex_spec (p := isOld history now) history.length with
    ⟨heq, hnone⟩ | ⟨k, hk, heq, hold, hafter⟩
  · rw [heq, if_neg (by simp), scanned_eq_none hnone, Option.none_or, List.head?_eq_getElem?]
  · rw [heq, if_pos (by omega), scanned_eq_some hk hold hafter, Option.some_or, Int.toNat_natCast,
      List.getElem?_eq_getElem hk]

theorem reference_eq_scan (history : List PriceSample) (now : TimePoint)
    (hsorted : history.Pairwise fun a b => a.1 ≤ b.1) :
    bestIdx history now = BinarySearch.lastIndex (isOld history now) history.length ∧
      reference history now = (scanned history now).or history.head? :=
  ⟨bestIdx_eq_lastIndex hsorted now, reference_eq_scanned hsorted now⟩

theorem reference_eq_scan_equal_times :
    reference [(0, 1), (seconds 1, 2), (seconds 1, 3), (seconds 6, 4)] (seconds 6)
      = (scanned [(0, 1), (seconds 1, 2), (seconds 1, 3), (seconds 6, 4)] (seconds 6)).or
          (some (0, 1)) :=
  (reference_eq_scan [(0, 1), (seconds 1, 2), (seconds 1, 3), (seconds 6, 4)] (seconds 6)
    (by decide)).2

/-! ## Frames in the order of time -/

/-- The move from the sample that the scan selects. -/
def scannedMove (history : List PriceSample) (now : TimePoint) : ℚ :=
  match history.getLast?, (scanned history now).or history.head? with
  | some (_, cur), some (_, prev) =>
      if cur = 0 then 0 else if prev = 0 then 0 else (cur - prev) / prev * 100
  | _, _ => 0

/-- A frame of either of the two. -/
inductive FrameCall
  | ours (tracked : Tracked) (traceId : TraceId) (frame : FeatureFrame)
  | leader (frame : FeatureFrame)

/-- The time of a frame. -/
def FrameCall.timestamp : FrameCall → TimePoint
  | .ours _ _ frame => frame.timestamp
  | .leader frame => frame.timestamp

/-- The detector after a frame. What it publishes is left out. -/
def step (det : LeaderSignal) : FrameCall → LeaderSignal
  | .ours tracked traceId frame => (det.onFrame tracked traceId frame).1
  | .leader frame => det.onLeaderFrame frame

/-- Both histories are in the order of time, and nothing in them is newer than `now`. -/
structure OrderedUpTo (now : TimePoint) (det : LeaderSignal) : Prop where
  leaderSorted : det.leaderHistory.entries.Pairwise fun a b => a.1 ≤ b.1
  ourSorted : det.ourHistory.entries.Pairwise fun a b => a.1 ≤ b.1
  leaderLe : ∀ sample ∈ det.leaderHistory.entries, sample.1 ≤ now
  ourLe : ∀ sample ∈ det.ourHistory.entries, sample.1 ≤ now

variable {det : LeaderSignal} {now' : TimePoint}

theorem pushBack_ordered {buf : CircularBuffer PriceSample 60000}
    (hsorted : buf.entries.Pairwise fun a b => a.1 ≤ b.1) (hle : ∀ sample ∈ buf.entries, sample.1 ≤ now)
    (mid : ℚ) :
    ((buf.pushBack (now, mid)).entries.Pairwise fun a b => a.1 ≤ b.1) ∧
      ∀ sample ∈ (buf.pushBack (now, mid)).entries, sample.1 ≤ now := by
  have hall : ∀ sample ∈ buf.entries ++ [(now, mid)], sample.1 ≤ now :=
    List.forall_mem_append.2 ⟨hle, List.forall_mem_singleton.2 le_rfl⟩
  have hpairwise : (buf.entries ++ [(now, mid)]).Pairwise fun a b => a.1 ≤ b.1 := by
    refine List.pairwise_append.2 ⟨hsorted, List.pairwise_singleton _ _, fun a ha b hb => ?_⟩
    rw [List.mem_singleton.1 hb]
    exact hle a ha
  rw [CircularBuffer.entries_pushBack_eq]
  exact ⟨hpairwise.sublist (List.drop_sublist _ _), fun sample h => hall sample (List.mem_of_mem_drop h)⟩

theorem OrderedUpTo.later (h : OrderedUpTo now det) (hnow : now ≤ now') : OrderedUpTo now' det :=
  ⟨h.leaderSorted, h.ourSorted, fun s hs => (h.leaderLe s hs).trans hnow,
    fun s hs => (h.ourLe s hs).trans hnow⟩

theorem OrderedUpTo.step {call : FrameCall} (h : OrderedUpTo call.timestamp det) :
    OrderedUpTo call.timestamp (det.step call) := by
  cases call with
  | ours tracked traceId frame =>
      show OrderedUpTo frame.timestamp (det.onFrame tracked traceId frame).1
      unfold onFrame
      split
      · exact h
      · obtain ⟨hsorted, hle⟩ := pushBack_ordered h.ourSorted h.ourLe frame.mid
        exact ⟨h.leaderSorted, hsorted, h.leaderLe, hle⟩
  | leader frame =>
      show OrderedUpTo frame.timestamp (det.onLeaderFrame frame)
      unfold onLeaderFrame
      split
      · exact h
      · obtain ⟨hsorted, hle⟩ := pushBack_ordered h.leaderSorted h.leaderLe frame.mid
        exact ⟨hsorted, h.ourSorted, hle, h.ourLe⟩

theorem orderedUpTo_foldl (ticker leaderTicker : Ticker) (cfg : Config) {calls : List FrameCall}
    (hsorted : calls.Pairwise fun a b => a.timestamp ≤ b.timestamp)
    (hnow : ∀ call ∈ calls, call.timestamp ≤ now) :
    OrderedUpTo now (calls.foldl step { ticker := ticker, leaderTicker := leaderTicker, cfg := cfg }) := by
  induction calls using List.reverseRecOn generalizing now with
  | nil => exact ⟨.nil, .nil, by simp, by simp⟩
  | append_singleton calls call ih =>
      obtain ⟨hbefore, -, hlast⟩ := List.pairwise_append.1 hsorted
      have hprev := ih hbefore fun c hc => hlast c hc call (List.mem_singleton_self call)
      rw [List.foldl_concat]
      exact hprev.step.later (hnow call (by simp))

theorem getMove_eq_scannedMove (hsorted : history.Pairwise fun a b => a.1 ≤ b.1) (now : TimePoint) :
    getMove history now = scannedMove history now := by
  rw [getMove, scannedMove, reference_eq_scanned hsorted now]

theorem checkSignal_moves (h : OrderedUpTo now det) {tracked : Tracked} {traceId : TraceId} {s : Signal}
    (hs : det.checkSignal tracked traceId now = some s) :
    s.payload.leaderMovePct = scannedMove det.leaderHistory.entries now ∧
      s.payload.ourMovePct = scannedMove det.ourHistory.entries now := by
  unfold checkSignal at hs
  rw [getMove_eq_scannedMove h.leaderSorted, getMove_eq_scannedMove h.ourSorted] at hs
  split at hs
  · exact absurd hs.symm (Option.some_ne_none s)
  · dsimp only at hs
    split at hs
    · exact absurd hs.symm (Option.some_ne_none s)
    · split at hs
      · rw [← Option.some.inj hs]
        exact ⟨rfl, rfl⟩
      · exact absurd hs.symm (Option.some_ne_none s)

/-- Every signal published over frames in the order of time reports the moves that a scan finds. -/
theorem onFrame_moves (ticker leaderTicker : Ticker) (cfg : Config) {calls : List FrameCall}
    {tracked : Tracked} {traceId : TraceId} {frame : FeatureFrame} {s : Signal}
    (hsorted : calls.Pairwise fun a b => a.timestamp ≤ b.timestamp)
    (hnow : ∀ call ∈ calls, call.timestamp ≤ frame.timestamp)
    (hs : (calls.foldl step { ticker := ticker, leaderTicker := leaderTicker, cfg := cfg }).onFrame
      tracked traceId frame = (det, some s)) :
    s.payload.leaderMovePct = scannedMove det.leaderHistory.entries frame.timestamp ∧
      s.payload.ourMovePct = scannedMove det.ourHistory.entries frame.timestamp := by
  have hbefore : OrderedUpTo (FrameCall.ours tracked traceId frame).timestamp
      (calls.foldl step { ticker := ticker, leaderTicker := leaderTicker, cfg := cfg }) :=
    orderedUpTo_foldl ticker leaderTicker cfg hsorted hnow
  have hordered : OrderedUpTo frame.timestamp det := by
    have hstep : OrderedUpTo frame.timestamp
        ((calls.foldl step { ticker := ticker, leaderTicker := leaderTicker, cfg := cfg }).onFrame
          tracked traceId frame).1 := hbefore.step
    rwa [hs] at hstep
  unfold onFrame at hs
  split at hs
  · exact absurd (congrArg Prod.snd hs).symm (Option.some_ne_none s)
  · obtain ⟨rfl, hcheck⟩ := Prod.mk.inj hs
    exact checkSignal_moves hordered hcheck

end LeaderSignal

end TradeBot
