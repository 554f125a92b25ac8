import Mathlib.Data.Real.Basic
import Mathlib.Order.Interval.Set.Defs
import TradeBot.Lib.Histories
import TradeBot.Signals.TapeAnalyzer

set_option autoImplicit false

/-! # Bursts of the tape

A burst is published when the burst condition comes to hold, whichever side it is for. `Follows` says
what readers of `TapeBurst` rely on: that there were trades of its side, that the newest one shows the
side of the burst that is on, and that a burst that goes on is not published again. It holds in the
runs whose bursts begin with a positive intensity of their side and do not change sides from one frame
to the next (`follows_iff`).

The history holds, for each step, the trade and what the frame shows, and `Follows` reads off it what
a step may publish. The first frame can show a burst of the buyers before there was any trade, as
both intensities are zero then (`burstSide_start`). -/

namespace TradeBot

open Histories Runs

section

variable (K : Type*) [Field K] [LinearOrder K]

/-- A trade stream and the analyzer that reads it. -/
structure TapeSystem where
  stream : TradeStream := {}
  hawkes : Tape.Hawkes K
  analyzer : TapeAnalyzer K

/-- What is fed to them. Trades and frames come with the quantile that the T-digest has by then, and
    updates with the factor of their decay. -/
inductive TapeOp
  | trade (traceId : TraceId) (trade : Trade) (q99Size : K)
  | update (now : TimePoint) (decay : Set.Ioc (0 : K) 1)
  | bookUpdate (mid : Option ℚ)
  | frame (traceId : TraceId) (frame : FeatureFrame) (q99Size : K)

end

/-- What happens at a step. -/
structure TapeEvent where
  traded : Option Side := none
  /-- For a frame that is processed, the side for which the burst condition holds, if it does. -/
  frame : Option (Option Side) := none
  /-- The sides of the bursts that are published. -/
  bursts : List Side := []

/-- The side of the burst in the newest frame. -/
def lastBurst (h : List TapeEvent) : Option Side := (h.filterMap TapeEvent.frame).getLast?.join

/-- The side of the newest burst that was published. -/
def lastPublished (h : List TapeEvent) : Option Side := (h.flatMap TapeEvent.bursts).getLast?

/-- What is published at an event is right after what came before. -/
structure Follows (h : List TapeEvent) (e : TapeEvent) : Prop where
  traded : ∀ side ∈ e.bursts, ∃ e' ∈ h, e'.traded = some side
  shown : ∀ side, e.frame = some (some side) → lastPublished (h ++ [e]) = some side
  once : ∀ side, e.frame = some (some side) → lastBurst h = some side → e.bursts = []

namespace Tape

variable {K : Type*}

/-- The intensity of a side. -/
def Hawkes.intensity [Zero K] (hawkes : Hawkes K) : Side → K
  | .buy => hawkes.buy
  | .sell => hawkes.sell
  | .none => 0

/-- The side of a burst that is published. -/
def Signal.burstSide? (s : Signal K) : Option Side :=
  match s.payload with
  | .burst side _ _ => some (if side = "Buy" then .buy else .sell)
  | _ => none

end Tape

namespace TapeSystem

variable {K : Type*} [Field K] [LinearOrder K] (sys : TapeSystem K)

/-- No trade has come yet. -/
def init (alpha : K) (ticker : Ticker) (cfg : Tape.Config K) (calibratedMinSizeUsd : K → K) :
    TapeSystem K where
  hawkes := { alpha := alpha }
  analyzer := { ticker := ticker, cfg := cfg, calibratedMinSizeUsd := calibratedMinSizeUsd }

/-- A trade goes to the stream, to the intensities and to the analyzer, in this order. -/
def handle : TapeOp K → TapeSystem K × List (Tape.Signal K)
  | .trade traceId trade q99Size =>
      let stream := sys.stream.onTrade trade
      let hawkes := sys.hawkes.onTrade trade.side
      let r := sys.analyzer.onTrade traceId (Tape.getStats stream hawkes q99Size) trade
      (⟨stream, hawkes, r.1⟩, r.2)
  | .update now decay => (⟨sys.stream.update now, sys.hawkes.update decay, sys.analyzer⟩, [])
  | .bookUpdate mid => (⟨sys.stream, sys.hawkes, sys.analyzer.onBookUpdate mid⟩, [])
  | .frame traceId frame q99Size =>
      let r := sys.analyzer.onFrame traceId frame (Tape.getStats sys.stream sys.hawkes q99Size)
      (⟨sys.stream, sys.hawkes, r.1⟩, r.2)

/-- The side for which the burst condition holds at a frame. -/
def burstSide (frame : FeatureFrame) (q99Size : K) : Option Side :=
  let stats := Tape.getStats sys.stream sys.hawkes q99Size
  ((sys.analyzer.track frame stats).burstNow stats).map Prod.fst

/-- What a reader sees of a step. -/
def event (op : TapeOp K) : TapeEvent where
  traded :=
    match op with
    | .trade _ trade _ => some trade.side
    | _ => none
  frame :=
    match op with
    | .frame _ frame q99Size =>
        if frame.ticker = sys.analyzer.ticker ∧ frame.valid = true then
          some (sys.burstSide frame q99Size)
        else none
    | _ => none
  bursts := (sys.handle op).2.filterMap Tape.Signal.burstSide?

end TapeSystem

/-- A system and what has happened so far. -/
structure TapeRun (K : Type*) [Field K] [LinearOrder K] where
  system : TapeSystem K
  history : List TapeEvent := []

namespace TapeRun

variable {K : Type*} [Field K] [LinearOrder K]

/-- The system after a step, with the history of what was seen. -/
def step (s : TapeRun K) (op : TapeOp K) : TapeRun K :=
  ⟨(s.system.handle op).1, s.history ++ [s.system.event op]⟩

/-- A burst that begins has a positive intensity on its side, and one that goes on keeps its side. -/
def Genuine (s : TapeRun K) (op : TapeOp K) : Prop :=
  match (s.system.event op).frame with
  | some (some side) =>
      match lastBurst s.history with
      | some side' => side' = side
      | none => 0 < s.system.hawkes.intensity side
  | _ => True

instance (s : TapeRun K) : DecidablePred s.Genuine := fun op => by
  unfold Genuine
  split
  · split <;> infer_instance
  · infer_instance

end TapeRun

/-! ## What a step publishes -/

namespace TapeAnalyzer

variable {K : Type*} [Field K] [LinearOrder K] (a : TapeAnalyzer K) (traceId : TraceId)
  (frame : FeatureFrame) (stats : Tape.Stats K)

theorem burstNow_side {side : Side} {ratio : K} (h : a.burstNow stats = some (side, ratio)) :
    side = .buy ∨ side = .sell := by
  obtain ⟨hdominant, -⟩ := Option.filter_eq_some_iff.1 h
  unfold dominant at hdominant
  split_ifs at hdominant
  · cases hdominant
    exact Or.inl rfl
  · cases hdominant
    exact Or.inr rfl

/-- A burst is published when it begins. -/
theorem detectBurst_bursts :
    (a.detectBurst traceId frame stats).1.burstSignalActive = (a.burstNow stats).isSome ∧
      (a.detectBurst traceId frame stats).2.filterMap Tape.Signal.burstSide?
        = if a.burstSignalActive then [] else ((a.burstNow stats).map Prod.fst).toList := by
  unfold detectBurst
  cases hnow : a.burstNow stats with
  | none => simp
  | some burst =>
      obtain ⟨side, ratio⟩ := burst
      by_cases hactive : a.burstSignalActive = true
      · simp [hactive]
      · rcases a.burstNow_side stats hnow with rfl | rfl <;>
          simp [hactive, signal, Tape.Signal.burstSide?]

theorem detectFade_bursts :
    (a.detectFade traceId frame stats).1.burstSignalActive = a.burstSignalActive ∧
      (a.detectFade traceId frame stats).2.filterMap Tape.Signal.burstSide? = [] := by
  unfold detectFade
  dsimp only
  split_ifs <;> exact ⟨rfl, rfl⟩

theorem detectDistribution_bursts :
    (a.detectDistribution traceId frame stats).1.burstSignalActive = a.burstSignalActive ∧
      (a.detectDistribution traceId frame stats).2.filterMap Tape.Signal.burstSide? = [] := by
  unfold detectDistribution
  dsimp only
  split_ifs <;> exact ⟨rfl, rfl⟩

theorem onTrade_bursts (trade : Trade) :
    (a.onTrade traceId stats trade).1.burstSignalActive = a.burstSignalActive ∧
      (a.onTrade traceId stats trade).2.filterMap Tape.Signal.burstSide? = [] := by
  unfold onTrade
  dsimp only
  split_ifs <;> exact ⟨rfl, rfl⟩

theorem onFrame_bursts (hticker : frame.ticker = a.ticker) (hvalid : frame.valid = true) :
    let burst := ((a.track frame stats).burstNow stats).map Prod.fst
    (a.onFrame traceId frame stats).1.burstSignalActive = burst.isSome ∧
      (a.onFrame traceId frame stats).2.filterMap Tape.Signal.burstSide?
        = if a.burstSignalActive then [] else burst.toList := by
  obtain ⟨hactive, hbursts⟩ := (a.track frame stats).detectBurst_bursts traceId frame stats
  rw [onFrame, if_neg (not_not.2 hticker), hvalid]
  simp only [Bool.not_true, Bool.false_eq_true, if_false, List.filterMap_append, Option.isSome_map]
  rw [(detectDistribution_bursts ..).1, (detectDistribution_bursts ..).2, (detectFade_bursts ..).1,
    (detectFade_bursts ..).2, hactive, hbursts, List.append_nil, List.append_nil]
  exact ⟨rfl, rfl⟩

end TapeAnalyzer

namespace TapeSystem

variable {K : Type*} [Field K] [LinearOrder K] (sys : TapeSystem K)

theorem frame_event (traceId : TraceId) {frame : FeatureFrame} (q99Size : K)
    (h : frame.ticker = sys.analyzer.ticker ∧ frame.valid = true) :
    (sys.event (.frame traceId frame q99Size)).frame = some (sys.burstSide frame q99Size) :=
  if_pos h

/-- A step is a frame, at which a burst may be published, or it has nothing to do with bursts. -/
theorem handle_cases (op : TapeOp K) :
    ((sys.event op).frame = none ∧ (sys.event op).bursts = [] ∧
      (sys.handle op).1.analyzer.burstSignalActive = sys.analyzer.burstSignalActive) ∨
    ∃ burst, burst ≠ some .none ∧ (sys.event op).frame = some burst ∧
      (sys.event op).bursts = (if sys.analyzer.burstSignalActive then [] else burst.toList) ∧
      (sys.handle op).1.analyzer.burstSignalActive = burst.isSome := by
  cases op with
  | trade traceId trade q99Size =>
      obtain ⟨hactive, hbursts⟩ := sys.analyzer.onTrade_bursts traceId (Tape.getStats
        (sys.stream.onTrade trade) (sys.hawkes.onTrade trade.side) q99Size) trade
      exact Or.inl ⟨rfl, hbursts, hactive⟩
  | update now decay => exact Or.inl ⟨rfl, rfl, rfl⟩
  | bookUpdate mid => cases mid <;> exact Or.inl ⟨rfl, rfl, rfl⟩
  | frame traceId frame q99Size =>
      by_cases hframe : frame.ticker = sys.analyzer.ticker ∧ frame.valid = true
      · obtain ⟨hactive, hbursts⟩ := sys.analyzer.onFrame_bursts traceId frame
          (Tape.getStats sys.stream sys.hawkes q99Size) hframe.1 hframe.2
        refine Or.inr ⟨_, fun hnone => ?_, sys.frame_event traceId q99Size hframe, hbursts, hactive⟩
        obtain ⟨⟨side, ratio⟩, hburst, rfl⟩ := Option.map_eq_some_iff.1 hnone
        simpa using TapeAnalyzer.burstNow_side _ _ hburst
      · have hignored : sys.analyzer.onFrame traceId frame
            (Tape.getStats sys.stream sys.hawkes q99Size) = (sys.analyzer, []) := by
          rw [TapeAnalyzer.onFrame]
          by_cases hticker : frame.ticker = sys.analyzer.ticker
          · rw [if_neg (not_not.2 hticker), if_pos (by simpa [hticker] using hframe)]
          · rw [if_pos hticker]
        refine Or.inl ⟨if_neg hframe, ?_, ?_⟩
        · rw [event, handle, hignored]
          rfl
        · rw [handle, hignored]

/-- An intensity decays, and jumps at the trades of its side. -/
theorem intensity_handle [IsStrictOrderedRing K] (op : TapeOp K) :
    (sys.handle op).1.hawkes.alpha = sys.hawkes.alpha ∧
    ∃ decay, 0 < decay ∧ ∀ side, (sys.handle op).1.hawkes.intensity side
      = sys.hawkes.intensity side * decay
        + if side ≠ .none ∧ (sys.event op).traded = some side then sys.hawkes.alpha else 0 := by
  have hsame {side : Side} (htraded : (sys.event op).traded = none) : sys.hawkes.intensity side
      = sys.hawkes.intensity side * 1
        + if side ≠ .none ∧ (sys.event op).traded = some side then sys.hawkes.alpha else 0 := by
    simp [htraded]
  cases op with
  | trade traceId trade q99Size =>
      have htraded : (sys.event (.trade traceId trade q99Size)).traded = some trade.side := rfl
      have hhawkes : (sys.handle (.trade traceId trade q99Size)).1.hawkes
          = sys.hawkes.onTrade trade.side := rfl
      rw [htraded, hhawkes]
      cases htrade : trade.side <;>
        refine ⟨rfl, 1, one_pos, fun side => ?_⟩ <;>
        cases side <;> simp [Tape.Hawkes.onTrade, Tape.Hawkes.intensity]
  | update now decay =>
      have hhawkes : (sys.handle (.update now decay)).1.hawkes = sys.hawkes.update decay := rfl
      rw [hhawkes, Tape.Hawkes.update]
      split_ifs with hupdated
      · refine ⟨rfl, decay, decay.2.1, fun side => ?_⟩
        cases side <;> simp [Tape.Hawkes.intensity, event]
      · exact ⟨rfl, 1, one_pos, fun _ => hsame rfl⟩
  | bookUpdate mid => exact ⟨rfl, 1, one_pos, fun _ => hsame rfl⟩
  | frame traceId frame q99Size => exact ⟨rfl, 1, one_pos, fun _ => hsame rfl⟩

end TapeSystem

/-! ## Bursts and publications of a history -/

section

variable {h : List TapeEvent} {e : TapeEvent}

theorem lastBurst_concat :
    lastBurst (h ++ [e]) = match e.frame with
      | some burst => burst
      | none => lastBurst h := by
  rw [lastBurst, List.filterMap_append]
  cases hframe : e.frame with
  | none => simp [hframe, lastBurst]
  | some burst => simp [hframe]

theorem lastPublished_concat :
    lastPublished (h ++ [e]) = e.bursts.getLast?.or (lastPublished h) := by
  simp [lastPublished, List.getLast?_append]

end

/-! ## Runs -/

namespace TapeRun

variable {K : Type*} [Field K] [LinearOrder K] {s : TapeRun K} {op : TapeOp K}

/-- How the state shows what has happened. -/
structure Tracks (s : TapeRun K) : Prop where
  active : s.system.analyzer.burstSignalActive = (lastBurst s.history).isSome
  shown : ∀ side, lastBurst s.history = some side → lastPublished s.history = some side
  silent : ∀ side, (∀ e ∈ s.history, e.traded ≠ some side) → s.system.hawkes.intensity side = 0
  follows : AtEach Follows s.history

theorem Tracks.follows_event (h : s.Tracks) (hgenuine : s.Genuine op) :
    Follows s.history (s.system.event op) := by
  rcases s.system.handle_cases op with ⟨hframe, hbursts, -⟩ | ⟨burst, -, hframe, hbursts, -⟩
  · exact ⟨by simp [hbursts], by simp [hframe], by simp [hframe]⟩
  · rw [h.active] at hbursts
    rw [Genuine, hframe] at hgenuine
    cases hlast : lastBurst s.history with
    | none =>
        -- a burst that begins
        rw [hlast] at hbursts hgenuine
        refine ⟨fun side hside => ?_, fun side hside => ?_, fun side _ hsame => ?_⟩
        · have hburst : burst = some side := by simpa [hbursts] using hside
          subst hburst
          by_contra hnone
          push Not at hnone
          exact absurd (h.silent side hnone) (ne_of_gt hgenuine)
        · rw [hframe, Option.some.injEq] at hside
          rw [lastPublished_concat, hbursts, hside]
          rfl
        · rw [hlast] at hsame
          cases hsame
    | some side' =>
        -- a burst that goes on
        rw [hlast] at hbursts hgenuine
        have hnil : (s.system.event op).bursts = [] := hbursts
        refine ⟨by simp [hnil], fun side hside => ?_, fun _ _ _ => hnil⟩
        rw [hframe, Option.some.injEq] at hside
        subst hside
        rw [lastPublished_concat, hnil]
        exact h.shown side (hlast.trans (congrArg some hgenuine))

theorem Tracks.step [IsStrictOrderedRing K] (h : s.Tracks) (hgenuine : s.Genuine op) : (s.step op).Tracks := by
  have hfollows := h.follows_event hgenuine
  have hsilent (side : Side) (hside : ∀ e ∈ (s.step op).history, e.traded ≠ some side) :
      (s.step op).system.hawkes.intensity side = 0 := by
    obtain ⟨hbefore, hnow⟩ := List.forall_mem_append.1 hside
    obtain ⟨-, decay, -, hintensity⟩ := s.system.intensity_handle op
    rw [TapeRun.step, hintensity, h.silent side hbefore, zero_mul, zero_add]
    exact if_neg (fun htraded => hnow _ (List.mem_singleton_self _) htraded.2)
  have heach : AtEach Follows (s.step op).history := by
    refine atEach_append.2 ⟨h.follows, atEach_singleton.2 ?_⟩
    rwa [List.append_nil]
  have hlast := lastBurst_concat (h := s.history) (e := s.system.event op)
  rcases s.system.handle_cases op with ⟨hframe, hbursts, hactive⟩ | ⟨burst, -, hframe, -, hactive⟩
  · rw [hframe] at hlast
    refine ⟨?_, fun side hside => ?_, hsilent, heach⟩
    · rw [TapeRun.step, hlast, hactive, h.active]
    · rw [TapeRun.step] at hside ⊢
      rw [hlast] at hside
      rw [lastPublished_concat, hbursts]
      exact h.shown side hside
  · rw [hframe] at hlast
    refine ⟨?_, fun side hside => ?_, hsilent, heach⟩
    · rw [TapeRun.step, hlast, hactive]
    · rw [TapeRun.step] at hside
      rw [hlast] at hside
      exact hfollows.shown side (hframe.trans (congrArg some hside))

/-- The sides that have traded have a positive intensity. -/
structure Rises (s : TapeRun K) : Prop where
  alpha : 0 < s.system.hawkes.alpha
  nonneg : ∀ side, 0 ≤ s.system.hawkes.intensity side
  pos : ∀ side, side ≠ .none → (∃ e ∈ s.history, e.traded = some side) →
    0 < s.system.hawkes.intensity side

theorem Rises.step [IsStrictOrderedRing K] (h : s.Rises) (op : TapeOp K) : (s.step op).Rises := by
  obtain ⟨halpha, decay, hdecay, hintensity⟩ := s.system.intensity_handle op
  have hjump (side : Side) : 0 ≤ if side ≠ .none ∧ (s.system.event op).traded = some side then
      s.system.hawkes.alpha else 0 := by
    split_ifs
    · exact h.alpha.le
    · exact le_rfl
  refine ⟨?_, fun side => ?_, fun side hside hmem => ?_⟩
  · rw [TapeRun.step, halpha]
    exact h.alpha
  · rw [TapeRun.step, hintensity]
    exact add_nonneg (mul_nonneg (h.nonneg side) hdecay.le) (hjump side)
  · rw [TapeRun.step, hintensity]
    obtain ⟨e, he, htraded⟩ := hmem
    rcases List.mem_append.1 he with he | he
    · exact add_pos_of_pos_of_nonneg (mul_pos (h.pos side hside ⟨e, he, htraded⟩) hdecay) (hjump side)
    · rw [List.mem_singleton.1 he] at htraded
      rw [if_pos ⟨hside, htraded⟩]
      exact add_pos_of_nonneg_of_pos (mul_nonneg (h.nonneg side) hdecay.le) h.alpha

/-- A burst that is right is genuine. -/
theorem Tracks.genuine (h : s.Tracks) (hrises : s.Rises)
    (hfollows : Follows s.history (s.system.event op)) : s.Genuine op := by
  rcases s.system.handle_cases op with ⟨hframe, -, -⟩ | ⟨burst, hside, hframe, hbursts, -⟩
  · rw [Genuine, hframe]
    trivial
  · rw [h.active] at hbursts
    rw [Genuine, hframe]
    cases burst with
    | none => trivial
    | some side =>
        cases hlast : lastBurst s.history with
        | none =>
            rw [hlast] at hbursts
            obtain ⟨e, he, htraded⟩ := hfollows.traded side (by simp [hbursts])
            exact hrises.pos side (fun hnone => hside (congrArg some hnone)) ⟨e, he, htraded⟩
        | some side' =>
            rw [hlast] at hbursts
            have hshown := hfollows.shown side hframe
            rw [lastPublished_concat, hbursts] at hshown
            exact Option.some.inj ((h.shown side' hlast).symm.trans hshown)

/-- A system before anything happens. -/
def start (alpha : K) (ticker : Ticker) (cfg : Tape.Config K) (calibratedMinSizeUsd : K → K) :
    TapeRun K :=
  { system := TapeSystem.init alpha ticker cfg calibratedMinSizeUsd }

variable (alpha : K) (ticker : Ticker) (cfg : Tape.Config K) (calibratedMinSizeUsd : K → K)

theorem tracks_start : (start alpha ticker cfg calibratedMinSizeUsd).Tracks := by
  refine ⟨rfl, fun _ h => absurd h (by simp [start, lastBurst]), fun side _ => ?_, atEach_nil⟩
  cases side <;> rfl

theorem rises_start (halpha : 0 < alpha) : (start alpha ticker cfg calibratedMinSizeUsd).Rises := by
  refine ⟨halpha, fun side => ?_, fun _ _ h => ?_⟩
  · cases side <;> exact le_rfl
  · obtain ⟨_, he, _⟩ := h
    cases he

theorem history_prefix (s : TapeRun K) (ops : List (TapeOp K)) :
    s.history <+: (ops.foldl step s).history := by
  induction ops generalizing s with
  | nil => exact List.prefix_rfl
  | cons op ops ih => exact (List.prefix_append _ _).trans (ih (s.step op))

theorem Tracks.along [IsStrictOrderedRing K] {ops : List (TapeOp K)} (h : s.Tracks) (hrises : s.Rises)
    (hfollows : AtEach Follows (ops.foldl TapeRun.step s).history) :
    Along TapeRun.step Genuine s ops := by
  induction ops generalizing s with
  | nil => trivial
  | cons op ops ih =>
      obtain ⟨later, hlater⟩ := history_prefix (s.step op) ops
      have hevents : (ops.foldl TapeRun.step (s.step op)).history
          = s.history ++ s.system.event op :: later := by
        rw [← hlater]
        exact List.append_assoc ..
      have hgenuine : s.Genuine op := h.genuine hrises
        (hfollows s.history (s.system.event op) later hevents)
      exact ⟨hgenuine, ih (h.step hgenuine) (hrises.step op) hfollows⟩

/-- Everything that is published is right if and only if every burst begins with a positive intensity of
    its side and keeps its side from one frame to the next (for the converse, trades must raise the
    intensity). -/
theorem follows_iff [IsStrictOrderedRing K] (ops : List (TapeOp K)) :
    let s := start alpha ticker cfg calibratedMinSizeUsd
    (Along step Genuine s ops → AtEach Follows (ops.foldl step s).history) ∧
      (0 < alpha → AtEach Follows (ops.foldl step s).history → Along step Genuine s ops) := by
  intro s
  have htracks : s.Tracks := tracks_start alpha ticker cfg calibratedMinSizeUsd
  constructor
  · intro halong
    exact (halong.invariant Tracks (fun _ _ h hgenuine => h.step hgenuine) htracks).follows
  · intro halpha hfollows
    exact htracks.along (rises_start alpha ticker cfg calibratedMinSizeUsd halpha) hfollows

/-- Buyers and sellers alike, then ten buyers: a burst that begins at the second frame. -/
def buyers : List (TapeOp ℚ) :=
  let trade (side : Side) : TapeOp ℚ := .trade 0 ⟨50000, 1, side, 0⟩ 0
  let frame : TapeOp ℚ := .frame 0 { ticker := "BTCUSDT", mid := 50000, valid := true } 0
  [trade .buy, trade .sell, frame] ++ List.replicate 10 (trade .buy) ++ [frame, frame]

theorem genuine_buyers : Along step Genuine (start 1 "BTCUSDT" {} id) buyers := by decide +kernel

theorem follows_buyers :
    AtEach Follows (buyers.foldl step (start 1 "BTCUSDT" {} id)).history ∧
      lastPublished (buyers.foldl step (start 1 "BTCUSDT" {} id)).history = some .buy ∧
      Along step Genuine (start 1 "BTCUSDT" {} id) buyers :=
  have hfollows := (follows_iff 1 "BTCUSDT" {} id buyers).1 genuine_buyers
  ⟨hfollows, by decide +kernel, (follows_iff 1 "BTCUSDT" {} id buyers).2 (by decide) hfollows⟩

/-- A frame before the first trade is taken for a burst of the buyers. -/
theorem burstSide_start [IsStrictOrderedRing K] (frame : FeatureFrame) (q99Size : K) :
    (start alpha ticker cfg calibratedMinSizeUsd).system.burstSide frame q99Size = some .buy := by
  simp [start, TapeSystem.init, TapeSystem.burstSide, TapeAnalyzer.burstNow, TapeAnalyzer.dominant,
    TapeAnalyzer.track, Tape.getStats, Tape.Ema.fromPeriod, Tape.Ema.update,
    Tape.Stats.hawkesIntensityTotal]

theorem burst_without_trades :
    ¬ ∀ (alpha : ℝ) (ticker : Ticker) (cfg : Tape.Config ℝ) (calibratedMinSizeUsd : ℝ → ℝ)
        (ops : List (TapeOp ℝ)),
        AtEach Follows (ops.foldl step (start alpha ticker cfg calibratedMinSizeUsd)).history := by
  intro hall
  let frame : FeatureFrame := { ticker := "BTCUSDT", valid := true }
  let quiet : TapeOp ℝ := .frame 0 frame 0
  let s : TapeRun ℝ := start 1 "BTCUSDT" {} id
  have hfollows : Follows [] (s.system.event quiet) := hall 1 "BTCUSDT" {} id [quiet] [] _ [] rfl
  have hframe : (s.system.event quiet).frame = some (some .buy) :=
    (s.system.frame_event 0 0 ⟨rfl, rfl⟩).trans
      (congrArg some (burstSide_start 1 "BTCUSDT" {} id frame 0))
  have hshown := hfollows.shown .buy hframe
  have hmem : .buy ∈ (s.system.event quiet).bursts := List.mem_of_getLast? (by
    simpa [lastPublished] using hshown)
  obtain ⟨_, he, _⟩ := hfollows.traded .buy hmem
  cases he

end TapeRun

end TradeBot
