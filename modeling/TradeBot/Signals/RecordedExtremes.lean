import TradeBot.Lib.Histories
import TradeBot.Signals.LevelDetector

set_option autoImplicit false

/-! # Recorded extremes

Every recorded turning point is a strict local extremum of the samples. A scale with a longer window
sees a turning point later than the others, so the turning points are not recorded in the order of
their times, and the search for a recorded one may give up too early: then it is recorded twice
(`recorded_once_iff`).

A frame is one sample and a pass for each half window, so that the condition can look between the
scales. The search for a turning point among the recorded ones is `BackwardSearch`, which misses
exactly the keys that were overtaken. -/

namespace TradeBot

open BackwardSearch Histories Runs

namespace LevelExtremes

/-- The extreme is a sample above, or below, the `hw` samples on each side of it. -/
def IsTurningPoint (samples : List (TimePoint × ℚ)) (hw : ℕ) (e : Extreme) : Prop :=
  ∃ earlier before after later,
    samples = earlier ++ (before ++ (e.ts, e.price) :: after) ++ later ∧
    before.length = hw ∧ after.length = hw ∧
    ∀ sample ∈ before ++ after, if e.isHigh then sample.2 < e.price else e.price < sample.2

/-- A frame is a sample, then one pass at each scale. -/
inductive Pass
  | sample (frame : FeatureFrame)
  | scale (hw : ℕ)

section

variable (cfg : ExtremesConfig)

/-- The samples and turning points after a pass. -/
def step (s : LevelExtremes) : Pass → LevelExtremes
  | .sample frame => s.sample frame
  | .scale hw => s.recordAt cfg hw

/-- A frame is sampled, and then looked at on each scale. -/
def passes (frames : List FeatureFrame) : List Pass :=
  frames.flatMap (fun frame => .sample frame :: cfg.extremeHalfWindows.map .scale)

/-- At most one extreme is recorded for a time. -/
def Unique (s : LevelExtremes) : Prop := (s.extremes.entries.map Extreme.ts).Nodup

/-- The turning point that a scale finds was not overtaken: of the extremes that stay in the buffer when
    another one comes, no older one was recorded after it. -/
def InOrder (s : LevelExtremes) : Pass → Prop
  | .sample _ => True
  | .scale hw => ∀ e ∈ turningPoint? cfg hw s.midHistory.entries,
      ¬ Overtaken Extreme.ts e.ts (s.extremes.entries.rtake 1023)

instance (s : LevelExtremes) : DecidablePred (InOrder cfg s)
  | .sample _ => inferInstanceAs (Decidable True)
  | .scale hw => inferInstanceAs (Decidable (∀ e ∈ turningPoint? cfg hw s.midHistory.entries,
      ¬ Overtaken Extreme.ts e.ts (s.extremes.entries.rtake 1023)))

end

variable {cfg : ExtremesConfig} {s : LevelExtremes} {samples : List (TimePoint × ℚ)} {hw : ℕ}
  {e : Extreme}

/-! ## Turning points -/

theorem isTurningPoint_of_turningPoint? {last : List (TimePoint × ℚ)} (hlast : last <:+ samples)
    (h : turningPoint? cfg hw last = some e) : IsTurningPoint samples hw e := by
  unfold turningPoint? at h
  split_ifs at h with hshort
  have hlength : (last.rtake (2 * hw + 1)).length = 2 * hw + 1 := by
    rw [List.rtake, List.length_drop]
    omega
  have hsplit := List.take_append_drop hw (last.rtake (2 * hw + 1))
  dsimp only at h
  split at h
  · cases h
  · next ts cur after hdrop =>
      split_ifs at h with hmagnitude
      obtain ⟨hextreme, -⟩ := Bool.and_eq_true_iff.1 hmagnitude
      cases h
      obtain ⟨earlier, hearlier⟩ : last.rtake (2 * hw + 1) <:+ samples :=
        (List.drop_suffix _ _).trans hlast
      rw [hdrop] at hsplit
      refine ⟨earlier, (last.rtake (2 * hw + 1)).take hw, after, [], ?_, ?_, ?_, fun sample hs => ?_⟩
      · rw [hsplit, List.append_nil, hearlier]
      · rw [List.length_take, hlength]
        omega
      · have hafter := congrArg List.length hdrop
        rw [List.length_drop, hlength, List.length_cons] at hafter
        omega
      · split_ifs with hmax
        · simpa using List.all_eq_true.1 hmax sample hs
        · rcases Bool.or_eq_true_iff.1 hextreme with hmax' | hmin
          · exact absurd hmax' hmax
          · simpa using List.all_eq_true.1 hmin sample hs

theorem IsTurningPoint.append (h : IsTurningPoint samples hw e) (more : List (TimePoint × ℚ)) :
    IsTurningPoint (samples ++ more) hw e := by
  obtain ⟨earlier, before, after, later, rfl, hrest⟩ := h
  exact ⟨earlier, before, after, later ++ more, by simp, hrest⟩

/-- The buffers after some samples. -/
structure Sound (cfg : ExtremesConfig) (samples : List (TimePoint × ℚ)) (s : LevelExtremes) : Prop where
  history : s.midHistory.entries = samples.rtake 4096
  turning : ∀ e ∈ s.extremes, ∃ hw ∈ cfg.extremeHalfWindows, IsTurningPoint samples hw e

theorem midHistory_sample (s : LevelExtremes) (frame : FeatureFrame) :
    (s.sample frame).midHistory = s.midHistory.pushBack (frame.timestamp, frame.mid) := rfl

theorem Sound.sample (h : s.Sound cfg samples) (frame : FeatureFrame) :
    (s.sample frame).Sound cfg (samples ++ [(frame.timestamp, frame.mid)]) := by
  refine ⟨?_, fun e he => ?_⟩
  · rw [midHistory_sample]
    exact CircularBuffer.entries_pushBack h.history _
  · obtain ⟨hw, hmem, hturning⟩ := h.turning e he
    exact ⟨hw, hmem, hturning.append _⟩

theorem Sound.recordAt (h : s.Sound cfg samples) (hhw : hw ∈ cfg.extremeHalfWindows) :
    (s.recordAt cfg hw).Sound cfg samples := by
  unfold LevelExtremes.recordAt
  split
  · exact h
  · next e hfound =>
      split_ifs
      · exact h
      · refine ⟨h.history, fun e' he' => ?_⟩
        rcases CircularBuffer.mem_of_mem_pushBack he' with he' | rfl
        · exact h.turning e' he'
        · rw [h.history] at hfound
          exact ⟨hw, hhw, isTurningPoint_of_turningPoint? (List.drop_suffix _ _) hfound⟩

theorem Sound.updateExtremes (h : s.Sound cfg samples) (frame : FeatureFrame) :
    (s.updateExtremes cfg frame).Sound cfg (samples ++ [(frame.timestamp, frame.mid)]) := by
  have hall (hws : List ℕ) (hsub : ∀ hw ∈ hws, hw ∈ cfg.extremeHalfWindows) {s : LevelExtremes}
      {samples : List (TimePoint × ℚ)} (h : s.Sound cfg samples) :
      (hws.foldl (LevelExtremes.recordAt cfg) s).Sound cfg samples := by
    induction hws generalizing s with
    | nil => exact h
    | cons hw hws ih =>
        obtain ⟨hfirst, hrest⟩ := List.forall_mem_cons.1 hsub
        exact ih hrest (h.recordAt hfirst)
  exact hall _ (fun _ hmem => hmem) (h.sample frame)

/-- The samples of some frames. -/
def samplesOf (frames : List FeatureFrame) : List (TimePoint × ℚ) :=
  frames.map (fun frame => (frame.timestamp, frame.mid))

theorem Sound.foldl (h : s.Sound cfg samples) (frames : List FeatureFrame) :
    (frames.foldl (LevelExtremes.updateExtremes cfg) s).Sound cfg (samples ++ samplesOf frames) := by
  induction frames generalizing s samples with
  | nil =>
      rw [samplesOf, List.map_nil, List.append_nil]
      exact h
  | cons frame frames ih =>
      have hrest := ih (h.updateExtremes frame)
      rwa [List.append_assoc] at hrest

theorem sound_empty (cfg : ExtremesConfig) : ({} : LevelExtremes).Sound cfg [] :=
  ⟨rfl, fun _ h => absurd h List.not_mem_nil⟩

/-! ## Recorded once -/

/-- A pass keeps the times apart if and only if it meets the condition. -/
theorem Unique.step_iff (h : s.Unique) (pass : Pass) :
    (step cfg s pass).Unique ↔ s.InOrder cfg pass := by
  cases pass with
  | sample frame => exact iff_of_true h trivial
  | scale hw =>
      rw [LevelExtremes.step, LevelExtremes.recordAt, InOrder]
      cases hfound : turningPoint? cfg hw s.midHistory.entries with
      | none => exact iff_of_true h (fun _ he => by cases he)
      | some e =>
          have hlast : s.extremes.entries.rtake 1023 <:+ s.extremes.entries := List.drop_suffix _ _
          have hkept : ((s.extremes.entries.rtake 1023).map Extreme.ts).Nodup :=
            h.sublist (hlast.sublist.map _)
          simp only [Option.mem_def, Option.some.injEq, forall_eq']
          rw [← finds_or_not_mem_iff h hlast]
          by_cases hfinds : finds Extreme.ts e.ts s.extremes.entries = true
          · rw [if_pos hfinds]
            exact iff_of_true h (Or.inl hfinds)
          · rw [if_neg hfinds, or_iff_right hfinds, Unique, CircularBuffer.entries_pushBack_succ,
              List.map_append, List.map_singleton, ← List.concat_eq_append, List.nodup_concat]
            exact and_iff_left hkept

theorem foldl_passes (cfg : ExtremesConfig) (frames : List FeatureFrame) (s : LevelExtremes) :
    (passes cfg frames).foldl (step cfg) s = frames.foldl (updateExtremes cfg) s := by
  rw [passes, List.foldl_flatMap]
  congr 1
  funext s frame
  rw [List.foldl_cons, List.foldl_map]
  rfl

/-- Every recorded extreme is a strict local extremum over one of the half windows, and at most one is
    recorded for a time (also within a frame, between the scales) if and only if no scale finds a
    turning point that was overtaken. -/
theorem recorded_once_iff (cfg : ExtremesConfig) (frames : List FeatureFrame) :
    (∀ e ∈ (frames.foldl (updateExtremes cfg) {}).extremes,
      ∃ hw ∈ cfg.extremeHalfWindows, IsTurningPoint (samplesOf frames) hw e) ∧
    (Throughout (fun ps => (ps.foldl (step cfg) {}).Unique) (passes cfg frames) ↔
      Along (step cfg) (InOrder cfg) {} (passes cfg frames)) ∧
    (Along (step cfg) (InOrder cfg) {} (passes cfg frames) →
      (frames.foldl (updateExtremes cfg) {}).Unique) := by
  have hiff : Throughout (fun ps => (ps.foldl (step cfg) {}).Unique) (passes cfg frames) ↔
      Along (step cfg) (InOrder cfg) {} (passes cfg frames) :=
    throughout_iff_along Unique (fun _ pass h => h.step_iff pass) List.nodup_nil
  refine ⟨?_, hiff, fun halong => ?_⟩
  · have hsound := (sound_empty cfg).foldl frames
    rw [List.nil_append] at hsound
    exact hsound.turning
  · have hunique := (hiff.2 halong).last
    rwa [foldl_passes] at hunique

/-- Frames with these mid prices, a second apart. -/
def framesAt (mids : List ℚ) : List FeatureFrame :=
  mids.zipIdx.map (fun m => { timestamp := m.2 * nsPerSec, mid := m.1, valid := true })

/-- A peak that both scales see. -/
theorem recorded_once_peak :
    ((framesAt [98, 99, 995 / 10, 100, 995 / 10, 99, 98]).foldl
        (updateExtremes { extremeHalfWindows := [1, 3] }) {}).Unique ∧
      ((framesAt [98, 99, 995 / 10, 100, 995 / 10, 99, 98]).foldl
        (updateExtremes { extremeHalfWindows := [1, 3] }) {}).extremes.entries
          = [⟨100, 3 * nsPerSec, true⟩] :=
  ⟨(recorded_once_iff { extremeHalfWindows := [1, 3] }
    (framesAt [98, 99, 995 / 10, 100, 995 / 10, 99, 98])).2.2 (by decide +kernel), by decide +kernel⟩

/-- The shallow peak at 100 is only seen by the long window, after the trough at 99 that follows it, and
    then the long window records the trough again. -/
theorem trough_recorded_twice :
    ¬ ∀ (cfg : ExtremesConfig) (frames : List FeatureFrame),
        (∀ frame ∈ frames, frame.valid = true ∧ 0 < frame.mid) →
        (frames.map FeatureFrame.timestamp).Pairwise (fun t t' => t < t') →
        (frames.foldl (updateExtremes cfg) {}).Unique := by
  intro hall
  have hunique := hall { extremeHalfWindows := [1, 3] }
    (framesAt [995 / 10, 9992 / 100, 9995 / 100, 100, 9995 / 100, 99, 995 / 10, 997 / 10, 998 / 10])
    (by decide +kernel) (by decide +kernel)
  rw [Unique] at hunique
  exact absurd hunique (by decide +kernel)

end LevelExtremes

end TradeBot
