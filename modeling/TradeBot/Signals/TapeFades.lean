import TradeBot.Lib.Cusum
import TradeBot.Signals.TapeBursts

set_option autoImplicit false

/-! # Fades of the tape

`on_frame` of `signals/TapeAnalyzer.cpp` adds up how far the rate stays below its target. `Rightly`
says of each frame what it publishes after the frames before it: a fade if and only if the greatest
shortfall of its newest frames is large enough and no frame since the last recovery was fading.

The sum that the code keeps is a CUSUM, and the flag by which it publishes once is the alarm of an
episode, both of which are in `Lib/Cusum`. The peak of the last minute is a maximum over a window of
samples, which is the same as one over the recent frames (`window_eq_recent`). -/

namespace TradeBot

open Histories Runs Episodes

/-- Which branch of the fade detection a frame takes. -/
inductive FadeReading
  | fading
  | recovered
  | between
  deriving DecidableEq

/-- A frame that is processed, and the fades it publishes with their peak, rate and sum. -/
structure FadeEvent (K : Type*) where
  timestamp : TimePoint
  rate : K
  peak : K
  reading : FadeReading
  fades : List (K × K × K)

namespace TapeAnalyzer

variable {K : Type*} [Field K] [LinearOrder K] (a : TapeAnalyzer K) (stats : Tape.Stats K)

/-- How far the rate is below the target, less the drift. -/
def shortfall : K :=
  (a.peakIntensity60s * a.cfg.fadeRatio - stats.hawkesIntensityTotal)
    - (5 : ℕ) / (100 : ℕ) * a.peakIntensity60s

/-- The sum after the frame. -/
def nextCusum : K := max 0 (a.fadeCusum + a.shortfall stats)

/-- What a frame shows: the tape is fading, has recovered, or neither. -/
def fadeReading : FadeReading :=
  if a.cfg.fadeCusumH ≤ a.nextCusum stats ∧ a.cfg.fadePeakGate < a.peakIntensity60s then .fading
  else if a.peakIntensity60s * a.cfg.fadeRatio * a.cfg.fadeResetRatio < stats.hawkesIntensityTotal then
    .recovered
  else .between

end TapeAnalyzer

namespace Tape

variable {K : Type*}

/-- A fade that is published. -/
def Signal.fade? (s : Signal K) : Option (K × K × K) :=
  match s.payload with
  | .fade peakRate currentRate cusum => some (peakRate, currentRate, cusum)
  | _ => none

end Tape

namespace TapeSystem

variable {K : Type*} [Field K] [LinearOrder K] (sys : TapeSystem K)

/-- What a reader sees of a frame that is processed. -/
def fadeEvent : TapeOp K → Option (FadeEvent K)
  | .frame traceId frame q99Size =>
      if frame.ticker = sys.analyzer.ticker ∧ frame.valid = true then
        let stats := Tape.getStats sys.stream sys.hawkes q99Size
        let tracked := sys.analyzer.track frame stats
        some
          { timestamp := frame.timestamp, rate := stats.hawkesIntensityTotal
            peak := tracked.peakIntensity60s, reading := tracked.fadeReading stats
            fades := (sys.handle (.frame traceId frame q99Size)).2.filterMap Tape.Signal.fade? }
      else none
  | _ => none

end TapeSystem

/-- A system and the frames it has processed. -/
structure FadeRun (K : Type*) [Field K] [LinearOrder K] where
  system : TapeSystem K
  history : List (FadeEvent K) := []

namespace FadeRun

variable {K : Type*} [Field K] [LinearOrder K]

/-- The system after a step, with the history of the frames. -/
def step (s : FadeRun K) (op : TapeOp K) : FadeRun K :=
  ⟨(s.system.handle op).1, s.history ++ (s.system.fadeEvent op).toList⟩

/-- A frame that is processed is not older than those before it. -/
def InTime (s : FadeRun K) (op : TapeOp K) : Prop :=
  ∀ e ∈ s.system.fadeEvent op, ∀ e' ∈ s.history, e'.timestamp ≤ e.timestamp

/-- A run without history. -/
def start (alpha : K) (ticker : Ticker) (cfg : Tape.Config K) (calibratedMinSizeUsd : K → K) :
    FadeRun K :=
  { system := TapeSystem.init alpha ticker cfg calibratedMinSizeUsd }

end FadeRun

/-! ## What a frame should publish -/

namespace FadeEvent

variable {K : Type*} [Field K] [LinearOrder K] (cfg : Tape.Config K)

/-- How much the rate falls short of its target, less a tolerance. -/
def shortfall (e : FadeEvent K) : K :=
  (e.peak * cfg.fadeRatio - e.rate) - (5 : ℕ) / (100 : ℕ) * e.peak

/-- The tape has recovered. -/
def recovers (e : FadeEvent K) : Bool := decide (e.reading = .recovered)

/-- The tape is fading. -/
def fades? (e : FadeEvent K) : Bool := decide (e.reading = .fading)

/-- The frames of the last sixty seconds, as many of them as the buffer holds. -/
def recent (h : List (FadeEvent K)) (now : TimePoint) : List (FadeEvent K) :=
  (h.rtake 600).filter (fun e => decide (now - e.timestamp ≤ 60 * nsPerSec))

/-- The shortfalls since the last recovery. -/
def shortfalls (h : List (FadeEvent K)) : List K := (episode recovers h).map (shortfall cfg)

/-- A frame shows the peak of the last sixty seconds. It is fading if the greatest shortfall of the
    newest frames since the last recovery is large enough, and the first one to do so since then
    publishes it. -/
structure Rightly (h : List (FadeEvent K)) (e : FadeEvent K) : Prop where
  peak : IsGreatest (insert 0 {rate | ∃ e' ∈ recent (h ++ [e]) e.timestamp, e'.rate = rate}) e.peak
  fades : ∃ low, IsGreatest (Cusum.suffixSums (shortfalls cfg h ++ [e.shortfall cfg])) low ∧
    (e.reading = .fading ↔ cfg.fadeCusumH ≤ low ∧ cfg.fadePeakGate < e.peak) ∧
    e.fades = if e.reading = .fading ∧ ∀ e' ∈ episode recovers h, e'.reading ≠ .fading then
      [(e.peak, e.rate, low)] else []
  recovers : e.reading = .recovered ↔
    e.reading ≠ .fading ∧ e.peak * cfg.fadeRatio * cfg.fadeResetRatio < e.rate

end FadeEvent

/-! ## What the analyzer does at a frame -/

namespace TapeAnalyzer

variable {K : Type*} [Field K] [LinearOrder K] (a : TapeAnalyzer K) (traceId : TraceId)
  (frame : FeatureFrame) (stats : Tape.Stats K)

theorem detectBurst_eq :
    (a.detectBurst traceId frame stats).1
        = { a with burstSignalActive := (a.burstNow stats).isSome } ∧
      (a.detectBurst traceId frame stats).2.filterMap Tape.Signal.fade? = [] := by
  unfold detectBurst
  cases hnow : a.burstNow stats with
  | none => exact ⟨rfl, rfl⟩
  | some burst =>
      cases hactive : a.burstSignalActive with
      | true => simp [← hactive]
      | false => exact ⟨rfl, rfl⟩

theorem detectDistribution_eq :
    (a.detectDistribution traceId frame stats).1 = { a with
        distributionSignalActive := (a.detectDistribution traceId frame stats).1.distributionSignalActive } ∧
      (a.detectDistribution traceId frame stats).2.filterMap Tape.Signal.fade? = [] := by
  unfold detectDistribution
  dsimp only
  split_ifs <;> exact ⟨rfl, rfl⟩

theorem onTrade_eq (trade : Trade) :
    (a.onTrade traceId stats trade).1
        = { a with lastFlushTs := (a.onTrade traceId stats trade).1.lastFlushTs } := by
  unfold onTrade
  dsimp only
  split_ifs <;> rfl

theorem cusum_eq :
    max 0 (a.fadeCusum + (a.peakIntensity60s * a.cfg.fadeRatio - stats.hawkesIntensityTotal)
      - 5 / 100 * a.peakIntensity60s) = a.nextCusum stats := by
  rw [nextCusum, shortfall, add_sub_assoc, Nat.cast_ofNat, Nat.cast_ofNat]

/-- The three branches, in terms of the reading. -/
theorem detectFade_eq :
    (a.detectFade traceId frame stats).1 = { a with
        fadeCusum := if a.fadeReading stats = .recovered then 0 else a.nextCusum stats
        fadeSignalActive := decide (a.fadeReading stats = .fading) ||
          a.fadeSignalActive && !decide (a.fadeReading stats = .recovered) } ∧
      (a.detectFade traceId frame stats).2.filterMap Tape.Signal.fade?
        = if a.fadeReading stats = .fading ∧ a.fadeSignalActive = false then
            [(a.peakIntensity60s, stats.hawkesIntensityTotal, a.nextCusum stats)] else [] := by
  simp only [detectFade, cusum_eq]
  by_cases hhit : a.cfg.fadeCusumH ≤ a.nextCusum stats ∧ a.cfg.fadePeakGate < a.peakIntensity60s
  · have hreading : a.fadeReading stats = .fading := if_pos hhit
    rw [if_pos hhit, hreading]
    cases hactive : a.fadeSignalActive with
    | true => simp [← hactive]
    | false => simp [signal, Tape.Signal.fade?]
  · rw [if_neg hhit]
    by_cases hrecovered : a.peakIntensity60s * a.cfg.fadeRatio * a.cfg.fadeResetRatio
        < stats.hawkesIntensityTotal
    · have hreading : a.fadeReading stats = .recovered := (if_neg hhit).trans (if_pos hrecovered)
      rw [if_pos hrecovered, hreading]
      simp
    · have hreading : a.fadeReading stats = .between := (if_neg hhit).trans (if_neg hrecovered)
      rw [if_neg hrecovered, hreading]
      simp

/-- A frame that is processed. -/
theorem onFrame_fades (hticker : frame.ticker = a.ticker) (hvalid : frame.valid = true) :
    let tracked := a.track frame stats
    let after := (a.onFrame traceId frame stats).1
    (after.cfg = a.cfg ∧ after.intensityHistory = tracked.intensityHistory ∧
      after.fadeCusum = (if tracked.fadeReading stats = .recovered then 0 else tracked.nextCusum stats) ∧
      after.fadeSignalActive = (decide (tracked.fadeReading stats = .fading) ||
        a.fadeSignalActive && !decide (tracked.fadeReading stats = .recovered))) ∧
      (a.onFrame traceId frame stats).2.filterMap Tape.Signal.fade?
        = if tracked.fadeReading stats = .fading ∧ a.fadeSignalActive = false then
            [(tracked.peakIntensity60s, stats.hawkesIntensityTotal, tracked.nextCusum stats)] else [] := by
  intro tracked after
  obtain ⟨hburst, hbursts⟩ := tracked.detectBurst_eq traceId frame stats
  obtain ⟨hfade, hfades⟩ :=
    ({ tracked with burstSignalActive := (tracked.burstNow stats).isSome } :
      TapeAnalyzer K).detectFade_eq traceId frame stats
  rw [← hburst] at hfade hfades
  obtain ⟨hdistribution, hdistributions⟩ :=
    ((tracked.detectBurst traceId frame stats).1.detectFade traceId frame stats).1.detectDistribution_eq
      traceId frame stats
  have hafter : a.onFrame traceId frame stats =
      ((((tracked.detectBurst traceId frame stats).1.detectFade traceId frame stats).1.detectDistribution
          traceId frame stats).1,
        (tracked.detectBurst traceId frame stats).2 ++
          ((tracked.detectBurst traceId frame stats).1.detectFade traceId frame stats).2 ++
          (((tracked.detectBurst traceId frame stats).1.detectFade traceId frame stats).1.detectDistribution
            traceId frame stats).2) := by
    rw [onFrame, if_neg (not_not.2 hticker), if_neg (by simp [hvalid])]
  have hstate : after = _ := congrArg Prod.fst hafter
  rw [hafter, List.filterMap_append, List.filterMap_append, hbursts, hdistributions, List.append_nil,
    List.nil_append, hstate, hdistribution, hfades, hfade, hburst]
  exact ⟨⟨rfl, rfl, rfl, rfl⟩, rfl⟩

end TapeAnalyzer

/-! ## The window of the peak -/

section

variable {K : Type*}

theorem isGreatest_peak [Field K] [LinearOrder K] (l : List (TimePoint × K)) (p : K) :
    IsGreatest (insert p {rate | ∃ x ∈ l, x.2 = rate})
      (l.foldl (fun peak x => if peak < x.2 then x.2 else peak) p) := by
  induction l generalizing p with
  | nil => simp
  | cons x l ih =>
      have hmax : (if p < x.2 then x.2 else p) = max p x.2 := by
        rcases lt_or_ge p x.2 with hlt | hle
        · rw [if_pos hlt, max_eq_right hlt.le]
        · rw [if_neg (not_lt.2 hle), max_eq_left hle]
      rw [List.foldl_cons, hmax]
      obtain ⟨hmem, hbound⟩ := ih (max p x.2)
      have hfirst : max p x.2 ≤ _ := hbound (Set.mem_insert ..)
      constructor
      · rcases hmem with heq | ⟨y, hy, heq⟩
        · rcases max_choice p x.2 with hp | hx
          · exact .inl (heq.trans hp)
          · exact .inr ⟨x, List.mem_cons_self .., (heq.trans hx).symm⟩
        · exact .inr ⟨y, List.mem_cons_of_mem _ hy, heq⟩
      · rintro _ (rfl | ⟨y, hy, rfl⟩)
        · exact (le_max_left ..).trans hfirst
        · rcases List.mem_cons.1 hy with rfl | hy
          · exact (le_max_right ..).trans hfirst
          · exact hbound (.inr ⟨y, hy, rfl⟩)

/-- The rate of a frame with its time. -/
def FadeEvent.sample (e : FadeEvent K) : TimePoint × K := (e.timestamp, e.rate)

/-- A sample that is older than sixty seconds. -/
def stale (now : TimePoint) (x : TimePoint × K) : Bool := decide (60 * nsPerSec < now - x.1)

theorem stale_mono {now later : TimePoint} {x : TimePoint × K} (hle : now ≤ later)
    (h : stale now x = true) : stale later x = true := by
  rw [stale, decide_eq_true_eq] at h ⊢
  exact h.trans_le (sub_le_sub_right hle _)

/-- The samples of the window are those of the recent frames. -/
theorem window_eq_recent {h : List (FadeEvent K)} {now : TimePoint}
    (hsorted : h.Pairwise (fun e e' => e.timestamp ≤ e'.timestamp)) :
    ((h.map FadeEvent.sample).rtake 600).dropWhile (stale now)
      = (FadeEvent.recent h now).map FadeEvent.sample := by
  have hmap : (h.map FadeEvent.sample).rtake 600 = (h.rtake 600).map FadeEvent.sample := by
    rw [List.rtake, List.rtake, List.length_map, List.map_drop]
  have holder : ((h.rtake 600).map FadeEvent.sample).Pairwise
      (fun x y => stale now y = true → stale now x = true) := by
    rw [List.pairwise_map]
    refine (hsorted.sublist (List.drop_sublist ..)).imp fun {e e'} hle hstale => ?_
    rw [stale, decide_eq_true_eq] at hstale ⊢
    exact hstale.trans_le (sub_le_sub_left hle _)
  rw [hmap, RingBuffer.dropWhile_eq_filter holder, List.filter_map, FadeEvent.recent]
  refine congrArg (List.map _) (List.filter_congr fun e _ => ?_)
  have hsample : e.sample.1 = e.timestamp := rfl
  rw [Function.comp, stale, hsample, ← decide_not, decide_eq_decide, not_lt]

end

/-! ## Runs -/

namespace FadeRun

variable {K : Type*} [Field K] [LinearOrder K] {cfg : Tape.Config K} {s : FadeRun K} {op : TapeOp K}

/-- How the state shows the frames so far. -/
structure Tracks (cfg : Tape.Config K) (s : FadeRun K) : Prop where
  cfg_eq : s.system.analyzer.cfg = cfg
  window : ∃ p, s.system.analyzer.intensityHistory.entries
      = ((s.history.map FadeEvent.sample).rtake 600).dropWhile p ∧
    ∀ x, p x = true → ∃ e ∈ s.history, stale e.timestamp x = true
  cusum : IsGreatest (Cusum.suffixSums (FadeEvent.shortfalls cfg s.history))
    s.system.analyzer.fadeCusum
  active : Raised FadeEvent.recovers FadeEvent.fades? s.history s.system.analyzer.fadeSignalActive
  sorted : s.history.Pairwise (fun e e' => e.timestamp ≤ e'.timestamp)
  rightly : AtEach (FadeEvent.Rightly cfg) s.history

theorem tracks_start (alpha : K) (ticker : Ticker) (cfg : Tape.Config K)
    (calibratedMinSizeUsd : K → K) : Tracks cfg (start alpha ticker cfg calibratedMinSizeUsd) where
  cfg_eq := rfl
  window := ⟨fun _ => false, by simp [start, TapeSystem.init, List.rtake], nofun⟩
  cusum := Cusum.isGreatest_nil
  active := raised_nil
  sorted := List.Pairwise.nil
  rightly := atEach_nil

/-- A step that processes no frame leaves everything about fades as it is. -/
theorem handle_quiet (sys : TapeSystem K) (hquiet : sys.fadeEvent op = none) :
    (sys.handle op).1.analyzer.cfg = sys.analyzer.cfg ∧
      (sys.handle op).1.analyzer.intensityHistory = sys.analyzer.intensityHistory ∧
      (sys.handle op).1.analyzer.fadeCusum = sys.analyzer.fadeCusum ∧
      (sys.handle op).1.analyzer.fadeSignalActive = sys.analyzer.fadeSignalActive := by
  cases op with
  | trade traceId trade q99Size =>
      simp only [TapeSystem.handle]
      rw [TapeAnalyzer.onTrade_eq]
      exact ⟨rfl, rfl, rfl, rfl⟩
  | update now decay => exact ⟨rfl, rfl, rfl, rfl⟩
  | bookUpdate mid => cases mid <;> exact ⟨rfl, rfl, rfl, rfl⟩
  | frame traceId frame q99Size =>
      have hframe : ¬ (frame.ticker = sys.analyzer.ticker ∧ frame.valid = true) :=
        fun h => by simp [TapeSystem.fadeEvent, h] at hquiet
      have hignored : sys.analyzer.onFrame traceId frame
          (Tape.getStats sys.stream sys.hawkes q99Size) = (sys.analyzer, []) := by
        rw [TapeAnalyzer.onFrame]
        by_cases hticker : frame.ticker = sys.analyzer.ticker
        · rw [if_neg (not_not.2 hticker), if_pos (by simpa [hticker] using hframe)]
        · rw [if_pos hticker]
      rw [TapeSystem.handle, hignored]
      exact ⟨rfl, rfl, rfl, rfl⟩

theorem fadeEvent_cases (sys : TapeSystem K) (op : TapeOp K) :
    sys.fadeEvent op = none ∨ ∃ e traceId frame q99Size, sys.fadeEvent op = some e ∧
      op = .frame traceId frame q99Size ∧ frame.ticker = sys.analyzer.ticker ∧ frame.valid = true := by
  cases op with
  | trade traceId trade q99Size => exact .inl rfl
  | update now decay => exact .inl rfl
  | bookUpdate mid => exact .inl rfl
  | frame traceId frame q99Size =>
      by_cases hframe : frame.ticker = sys.analyzer.ticker ∧ frame.valid = true
      · exact .inr ⟨_, traceId, frame, q99Size, if_pos hframe, rfl, hframe⟩
      · exact .inl (if_neg hframe)

/-- What the state and the event of a frame have to do with each other. -/
structure Processes (s : FadeRun K) (op : TapeOp K) (e : FadeEvent K) : Prop where
  cfg_eq : (s.step op).system.analyzer.cfg = s.system.analyzer.cfg
  window : (s.step op).system.analyzer.intensityHistory.entries
    = ((s.system.analyzer.intensityHistory.entries ++ [e.sample]).rtake 600).dropWhile (stale e.timestamp)
  peak : e.peak = (s.step op).system.analyzer.intensityHistory.entries.foldl
    (fun peak x => if peak < x.2 then x.2 else peak) 0
  reading : e.reading =
    if s.system.analyzer.cfg.fadeCusumH
        ≤ max 0 (s.system.analyzer.fadeCusum + e.shortfall s.system.analyzer.cfg) ∧
      s.system.analyzer.cfg.fadePeakGate < e.peak then .fading
    else if e.peak * s.system.analyzer.cfg.fadeRatio * s.system.analyzer.cfg.fadeResetRatio < e.rate then
      .recovered
    else .between
  cusum : (s.step op).system.analyzer.fadeCusum = if e.reading = .recovered then 0
    else max 0 (s.system.analyzer.fadeCusum + e.shortfall s.system.analyzer.cfg)
  active : (s.step op).system.analyzer.fadeSignalActive
    = (e.fades? || s.system.analyzer.fadeSignalActive && !e.recovers)
  fades : e.fades = if e.reading = .fading ∧ s.system.analyzer.fadeSignalActive = false then
    [(e.peak, e.rate, max 0 (s.system.analyzer.fadeCusum + e.shortfall s.system.analyzer.cfg))] else []

theorem processes (s : FadeRun K) (traceId : TraceId) (frame : FeatureFrame) (q99Size : K)
    (hticker : frame.ticker = s.system.analyzer.ticker) (hvalid : frame.valid = true) {e : FadeEvent K}
    (he : s.system.fadeEvent (.frame traceId frame q99Size) = some e) :
    Processes s (.frame traceId frame q99Size) e := by
  obtain ⟨⟨hcfg, hhistory, hcusum, hactive⟩, hfades⟩ := s.system.analyzer.onFrame_fades traceId frame
    (Tape.getStats s.system.stream s.system.hawkes q99Size) hticker hvalid
  rw [TapeSystem.fadeEvent, if_pos ⟨hticker, hvalid⟩, Option.some.injEq] at he
  subst he
  refine ⟨hcfg, ?_, ?_, rfl, hcusum, hactive, hfades⟩
  · refine (congrArg CircularBuffer.entries hhistory).trans ?_
    exact congrArg (List.dropWhile _) (CircularBuffer.entries_pushBack_eq ..)
  · refine Eq.trans ?_ (congrArg (fun buf => List.foldl _ 0 buf.entries) hhistory).symm
    rfl

theorem Tracks.quiet (h : Tracks cfg s) (hquiet : s.system.fadeEvent op = none) :
    Tracks cfg (s.step op) := by
  obtain ⟨hcfg, hwindow, hcusum, hactive⟩ := handle_quiet s.system hquiet
  have hhistory : (s.step op).history = s.history := by simp [FadeRun.step, hquiet]
  refine ⟨hcfg.trans h.cfg_eq, ?_, ?_, ?_, ?_, ?_⟩ <;> rw [hhistory]
  · exact hwindow ▸ h.window
  · exact hcusum ▸ h.cusum
  · exact hactive ▸ h.active
  · exact h.sorted
  · exact h.rightly

/-- A frame is handled rightly. -/
theorem Tracks.rightly_event {e : FadeEvent K} (h : Tracks cfg s) (hprocesses : Processes s op e)
    (hsorted : (s.history ++ [e]).Pairwise (fun e e' => e.timestamp ≤ e'.timestamp))
    (hwindow : (s.step op).system.analyzer.intensityHistory.entries
      = (((s.history ++ [e]).map FadeEvent.sample).rtake 600).dropWhile (stale e.timestamp))
    [IsStrictOrderedRing K] : FadeEvent.Rightly cfg s.history e := by
  obtain ⟨-, -, hpeak, hreading, -, -, hfades⟩ := hprocesses
  rw [h.cfg_eq] at hreading hfades
  have hlow := Cusum.isGreatest_concat (x := e.shortfall cfg) h.cusum
  refine ⟨?_, ⟨_, hlow, ?_, ?_⟩, ?_⟩
  · have hgreatest := isGreatest_peak ((s.step op).system.analyzer.intensityHistory.entries) 0
    rw [← hpeak, hwindow, window_eq_recent hsorted] at hgreatest
    simpa [FadeEvent.sample] using hgreatest
  · rw [hreading]
    split_ifs <;> simp_all
  · have hsilent : s.system.analyzer.fadeSignalActive = false ↔
        ∀ e' ∈ episode FadeEvent.recovers s.history, e'.reading ≠ .fading := by
      have hraised : s.system.analyzer.fadeSignalActive = true ↔ _ := h.active
      rw [← Bool.not_eq_true, hraised]
      simp [FadeEvent.fades?]
    rw [hfades]
    simp only [hsilent]
  · rw [hreading]
    split_ifs <;> simp_all

theorem Tracks.step (h : Tracks cfg s) (hintime : s.InTime op) [IsStrictOrderedRing K] :
    Tracks cfg (s.step op) := by
  -- an operation without an event leaves everything as it was
  rcases fadeEvent_cases s.system op with hquiet | ⟨e, traceId, frame, q99Size, he, rfl, hticker, hvalid⟩
  · exact h.quiet hquiet
  have hprocesses := processes s traceId frame q99Size hticker hvalid he
  have hlater : ∀ e' ∈ s.history, e'.timestamp ≤ e.timestamp := hintime e he
  have hhistory : (s.step (.frame traceId frame q99Size)).history = s.history ++ [e] := by
    simp [FadeRun.step, he]
  have hsorted : (s.history ++ [e]).Pairwise (fun e e' => e.timestamp ≤ e'.timestamp) :=
    List.pairwise_append.2 ⟨h.sorted, List.pairwise_singleton .., by simpa using hlater⟩
  obtain ⟨p, hentries, hp⟩ := h.window
  -- the window loses what is too old, and the ring its oldest entries
  have hwindow : (s.step (.frame traceId frame q99Size)).system.analyzer.intensityHistory.entries
      = (((s.history ++ [e]).map FadeEvent.sample).rtake 600).dropWhile (stale e.timestamp) := by
    rw [hprocesses.window, hentries, List.map_append]
    refine RingBuffer.dropWhile_rtake_concat (fun x hx => ?_) _ _ _
    obtain ⟨e', he', hstale⟩ := hp x hx
    exact stale_mono (hlater e' he') hstale
  refine ⟨hprocesses.cfg_eq.trans h.cfg_eq, ?_, ?_, ?_, hhistory ▸ hsorted, ?_⟩
  · rw [hhistory]
    exact ⟨_, hwindow, fun x hx => ⟨e, by simp, hx⟩⟩
  · rw [hhistory, hprocesses.cusum, h.cfg_eq, FadeEvent.shortfalls]
    -- a recovery ends the episode, and the statistic starts again
    split_ifs with hrecovered
    · rw [episode_of_ends (by simpa [FadeEvent.recovers] using hrecovered)]
      exact Cusum.isGreatest_nil
    · rw [episode_of_not_ends (by simpa [FadeEvent.recovers] using hrecovered), List.map_append]
      exact Cusum.isGreatest_concat h.cusum
  · rw [hhistory, hprocesses.active]
    refine h.active.step fun hfading => ?_
    simp only [FadeEvent.fades?, FadeEvent.recovers, decide_eq_true_eq] at hfading ⊢
    simp [hfading]
  · rw [hhistory]
    refine atEach_append.2 ⟨h.rightly, atEach_singleton.2 ?_⟩
    rw [List.append_nil]
    exact h.rightly_event hprocesses hsorted hwindow

variable (alpha : K) (ticker : Ticker) (cfg : Tape.Config K) (calibratedMinSizeUsd : K → K)

/-- Each frame of a run publishes the fades that it should after those before it. -/
theorem fades_rightly [IsStrictOrderedRing K] {ops : List (TapeOp K)}
    (hintime : Along step InTime (start alpha ticker cfg calibratedMinSizeUsd) ops) :
    AtEach (FadeEvent.Rightly cfg)
      (ops.foldl step (start alpha ticker cfg calibratedMinSizeUsd)).history :=
  (hintime.invariant (Tracks cfg) (fun _ _ h hop => h.step hop)
    (tracks_start alpha ticker cfg calibratedMinSizeUsd)).rightly

instance (s : FadeRun K) : DecidablePred s.InTime := fun op =>
  match hop : s.system.fadeEvent op with
  | none => isTrue (by simp [InTime, hop])
  | some e => decidable_of_iff (∀ e' ∈ s.history, e'.timestamp ≤ e.timestamp) (by simp [InTime, hop])

/-- Ten buyers, and then nobody for long: the fourth quiet frame publishes the fade. -/
def dryingUp : List (TapeOp ℚ) :=
  let frame (ts : TimePoint) : TapeOp ℚ :=
    .frame 0 { ticker := "BTCUSDT", timestamp := ts, valid := true } 0
  List.replicate 10 (.trade 0 ⟨50000, 1, .buy, 0⟩ 0) ++ [frame 1, .update 1 ⟨1, one_pos, le_rfl⟩,
    .update 2 ⟨1 / 100, by decide +kernel, by decide +kernel⟩] ++ [2, 3, 4, 5, 6].map frame

theorem fades_rightly_dryingUp :
    AtEach (FadeEvent.Rightly {}) (dryingUp.foldl step (start 1 "BTCUSDT" {} id)).history ∧
      (dryingUp.foldl step (start 1 "BTCUSDT" {} id)).history.map (fun e => e.fades.length)
        = [0, 0, 0, 0, 1, 0] :=
  ⟨fades_rightly 1 "BTCUSDT" {} id (by decide +kernel), by decide +kernel⟩

end FadeRun

end TradeBot
