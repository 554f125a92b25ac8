import TradeBot.Lib.Histories
import TradeBot.Signals.DensityWatch

set_option autoImplicit false

/-! # Detected densities and the book

The detector keeps a picture of the large levels, made of the changes of the book updates. The book
also changes by snapshots and by crossings, and a change that does not qualify leaves the picture as it
is. `detected_real` says that every reported density is in the book, and has been for long enough, in
the runs in which the book changes no level behind the back of the detector.

What the report of a density promises is stated of the book and of the calls alone (`Real`). The
condition on a step (`Confirms`) is that the book ends up as the changes say that the detector takes
up, and that the other tracked levels stay as they are in it. -/

namespace TradeBot

open Histories

/-- What rests at a tick on a side of the book. -/
def OrderBook.levelSize (book : OrderBook) (side : Side) (tick : ℤ) : Option ℚ :=
  (if side = .buy then book.bids.lookup tick else book.asks.lookup tick).map
    (fun raw : ℤ => (raw : ℚ) * book.inc.size)

/-- The level is in the book, with a value that reaches the threshold of the detector. -/
def DensityWatch.Meets (w : DensityWatch) (side : Side) (tick : ℤ) : Prop :=
  ∃ size, w.book.levelSize side tick = some size ∧
    w.density.minSizeCalibrated ≤ size * w.book.inc.toPrice tick

namespace TickerController

/-- The book changes no unreported level behind the back of the detector, and the changes that the
    detector takes up stand in the book. -/
def Confirms (ctrl : TickerController DensityWatch) (op : MarketOp) : Prop :=
  (∀ e ∈ ctrl.detection.density.tracked.entries, op.kept ctrl.detection e.1 = some e.2 →
      e.2.emitted = false → op.takenUp ctrl.detection e.1 = [] →
      (ctrl.handle op).1.detection.book.levelSize e.2.side e.1
        = ctrl.detection.book.levelSize e.2.side e.1) ∧
    ∀ c ∈ op.changes,
      let tick := priceTickOf c.price ctrl.detection.book.inc.price
      ∀ first ∈ (op.takenUp ctrl.detection tick).head?,
      ∀ last ∈ (op.takenUp ctrl.detection tick).getLast?,
        (ctrl.handle op).1.detection.book.levelSize
            (((op.kept ctrl.detection tick).map LevelMeta.side).getD first.side) tick
          = some last.size ∧
        ctrl.detection.density.minSizeCalibrated
          ≤ last.size * ctrl.detection.book.inc.toPrice tick

instance (ctrl : TickerController DensityWatch) (op : MarketOp) : Decidable (Confirms ctrl op) :=
  inferInstanceAs (Decidable (_ ∧ _))

section

variable (start : TickerController DensityWatch)

/-- From a step at or before `t` on, every book state has met the threshold at the level. -/
def MetSince (history : List MarketOp) (side : Side) (tick : ℤ) (t : TimePoint) : Prop :=
  ∃ before op after, history = before ++ op :: after ∧ op.time ≤ t ∧
    ∀ mid, mid <+: after → (start.handleAll (before ++ op :: mid)).detection.Meets side tick

/-- The density that a signal reports after `history` is real. -/
def Real (history : List MarketOp) (s : Signal) : Prop :=
  ∃ side tick, s.price = start.detection.book.inc.toPrice tick ∧
    s.payload.side = restingSide side ∧
    (start.handleAll history).detection.book.levelSize side tick = some s.payload.size ∧
    start.detection.density.minSizeCalibrated ≤ s.payload.size * s.price ∧
    MetSince start history side tick
      (s.timestamp - start.detection.density.cfg.stickyDuration * 1000000)

end

/-! ## The picture -/

variable {start : TickerController DensityWatch} {history : List MarketOp}

theorem meets_of_levelSize {ops : List MarketOp} {side : Side} {tick : ℤ} {size : ℚ}
    (hsize : (start.handleAll ops).detection.book.levelSize side tick = some size)
    (hmin : start.detection.density.minSizeCalibrated
      ≤ size * start.detection.book.inc.toPrice tick) :
    (start.handleAll ops).detection.Meets side tick := by
  obtain ⟨hset, hinc⟩ := handleAll_settings start ops
  refine ⟨size, hsize, ?_⟩
  rw [hset.minSizeCalibrated, hinc]
  exact hmin

theorem MetSince.concat {op : MarketOp} {side : Side} {tick : ℤ} {t : TimePoint}
    (h : MetSince start history side tick t)
    (hnew : (start.handleAll (history ++ [op])).detection.Meets side tick) :
    MetSince start (history ++ [op]) side tick t := by
  obtain ⟨before, op₀, after, rfl, htime, hmeets⟩ := h
  refine ⟨before, op₀, after ++ [op], by simp, htime, fun mid hmid => ?_⟩
  rcases List.prefix_concat_iff.1 hmid with rfl | hmid
  · simpa using hnew
  · exact hmeets mid hmid

theorem MetSince.mono {side : Side} {tick : ℤ} {t t' : TimePoint}
    (h : MetSince start history side tick t) (hle : t ≤ t') : MetSince start history side tick t' := by
  obtain ⟨before, op, after, heq, htime, hmeets⟩ := h
  exact ⟨before, op, after, heq, htime.trans hle, hmeets⟩

/-- A tracked level as it is in the book, since it was first seen. -/
structure Faithful (start : TickerController DensityWatch) (history : List MarketOp) (tick : ℤ)
    (level : LevelMeta) : Prop where
  size : (start.handleAll history).detection.book.levelSize level.side tick = some level.initialSize
  threshold : start.detection.density.minSizeCalibrated
    ≤ level.initialSize * start.detection.book.inc.toPrice tick
  since : MetSince start history level.side tick level.firstSeen

/-- Every level that is not reported yet is as it is in the book. -/
def Picture (start : TickerController DensityWatch) (history : List MarketOp) : Prop :=
  ∀ tick level, (start.handleAll history).detection.density.tracked.lookup tick = some level →
    level.emitted = false → Faithful start history tick level

theorem Faithful.of_core {tick : ℤ} {l level : LevelMeta} (h : Faithful start history tick l)
    (hcore : l.core = level.core) : Faithful start history tick level := by
  obtain ⟨hside, hsize, hseen, -⟩ : l.side = level.side ∧ l.initialSize = level.initialSize ∧
      l.firstSeen = level.firstSeen ∧ l.emitted = level.emitted := by
    simpa [LevelMeta.core] using hcore
  exact ⟨by rw [← hside, ← hsize]; exact h.size, by rw [← hsize]; exact h.threshold,
    by rw [← hside, ← hseen]; exact h.since⟩

theorem lookup_of_kept {w : DensityWatch} {op : MarketOp} {tick : ℤ} {level : LevelMeta}
    (h : op.kept w tick = some level) : w.density.tracked.lookup tick = some level := by
  cases op with
  | update traceId upd =>
      unfold MarketOp.kept DensityDetector.keptLevel at h
      dsimp only at h
      split at h
      · cases h
      · exact h
  | _ => exact h

theorem mem_takenUp {w : DensityWatch} {op : MarketOp} {tick : ℤ} {c : PriceLevel}
    (h : c ∈ op.takenUp w tick) : c ∈ op.changes ∧ priceTickOf c.price w.book.inc.price = tick := by
  cases op with
  | update traceId upd =>
      unfold MarketOp.takenUp DensityDetector.takenUp at h
      dsimp only at h
      split at h
      swap
      · exact absurd h List.not_mem_nil
      split at h
      · exact absurd h List.not_mem_nil
      simp only [List.mem_filter, Bool.and_eq_true, decide_eq_true_eq] at h
      refine ⟨h.1, ?_⟩
      rw [← w.book.applyUpdate_inc upd]
      exact h.2.2
  | _ => exact absurd h List.not_mem_nil

/-- A confirmed step keeps the picture. -/
theorem Picture.step (h : Picture start history) {op : MarketOp}
    (hop : Confirms (start.handleAll history) op) : Picture start (history ++ [op]) := by
  intro tick level hlevel hemitted
  obtain ⟨hset, hinc⟩ := handleAll_settings start history
  have hconcat := handleAll_concat start history op
  rw [hconcat] at hlevel
  obtain ⟨l, hl, hcore⟩ := handle_level _ op hlevel hemitted
  refine Faithful.of_core ?_ hcore
  have hemitted : l.emitted = false := by
    have heq : l.emitted = level.emitted := congrArg (fun x => x.2.2.2) hcore
    rw [heq, hemitted]
  -- an unreported level that was tracked before is as old as it was
  have holder : ∀ {l₀ : LevelMeta} {size : ℚ},
      op.kept (start.handleAll history).detection tick = some l₀ → l₀.emitted = false →
      (start.handleAll (history ++ [op])).detection.book.levelSize l₀.side tick = some size →
      start.detection.density.minSizeCalibrated ≤ size * start.detection.book.inc.toPrice tick →
      MetSince start (history ++ [op]) l₀.side tick l₀.firstSeen := by
    intro l₀ size hkept hunreported hsize hmin
    exact (h tick l₀ (lookup_of_kept hkept) hunreported).since.concat (meets_of_levelSize hsize hmin)
  cases htaken : op.takenUp (start.handleAll history).detection tick with
  | nil =>
      rw [htaken] at hl
      -- the change does not take the level up
      have hfaithful := h tick l (lookup_of_kept hl) hemitted
      have hentry : (tick, l) ∈ (start.handleAll history).detection.density.tracked.entries :=
        SortedMap.lookup_eq_some.1 (lookup_of_kept hl)
      have hsize : (start.handleAll (history ++ [op])).detection.book.levelSize l.side tick
          = some l.initialSize := by
        rw [hconcat, hop.1 (tick, l) hentry hl hemitted htaken]
        exact hfaithful.size
      exact ⟨hsize, hfaithful.threshold, holder hl hemitted hsize hfaithful.threshold⟩
  | cons c changes =>
      rw [htaken] at hl
      -- the level is made of the last change at its tick
      have hfrom := DensityDetector.takeUp_foldl c changes _ hl
      obtain ⟨hc, htick⟩ := mem_takenUp (htaken ▸ List.mem_cons_self ..)
      have hreported := hop.2 c hc
      dsimp only at hreported
      rw [htick, htaken] at hreported
      obtain ⟨hsize, hmin⟩ := hreported c rfl _ (List.getLast?_eq_getLast_of_ne_nil _)
      rw [← hfrom.side, ← hfrom.size, ← hconcat] at hsize
      rw [← hfrom.size, hset.minSizeCalibrated, hinc] at hmin
      refine ⟨hsize, hmin, ?_⟩
      rcases hfrom.age with hnow | ⟨l₀, hkept, hseen, hsame⟩
      · refine ⟨history, op, [], rfl, hnow.ge, fun mid hmid => ?_⟩
        rw [List.prefix_nil.1 hmid]
        exact meets_of_levelSize hsize hmin
      · have hside : l.side = l₀.side := by
          rw [hfrom.side, hkept]
          rfl
        rw [hside, hseen]
        exact holder hkept (hsame.symm.trans hemitted) (hside ▸ hsize) hmin

theorem picture_run (h0 : start.detection.density.tracked = ∅) (ops : List MarketOp)
    (h : Runs.Along (fun ctrl op => (handle ctrl op).1) Confirms start ops) : Picture start ops := by
  induction ops using List.reverseRecOn with
  | nil =>
      intro tick level hlevel
      have hnone : start.detection.density.tracked.lookup tick = some level := hlevel
      rw [h0] at hnone
      cases hnone
  | append_singleton ops op ih =>
      obtain ⟨hops, hop, -⟩ := Runs.along_append.1 h
      exact (ih hops).step hop

theorem le_of_ageMs {d : ℤ} {now since : TimePoint} (hd : 0 < d) (h : d ≤ ageMs now since) :
    d * 1000000 ≤ now - since := by
  unfold ageMs at h
  by_cases hneg : now - since < 0
  · have htdiv : 0 ≤ (-(now - since)).tdiv 1000000 :=
      Int.tdiv_nonneg (Int.neg_nonneg_of_nonpos hneg.le) (by decide)
    rw [Int.neg_tdiv] at htdiv
    omega
  · rw [Int.tdiv_eq_ediv_of_nonneg (not_lt.1 hneg)] at h
    omega

/-- With the true picture every reported density is real. -/
theorem Picture.real (h : Picture start history)
    (hsticky : 0 < start.detection.density.cfg.stickyDuration) (op : MarketOp) :
    ∀ s ∈ ((start.handleAll history).handle op).2, s.kind = .densityDetected →
      Real start history s := by
  intro s hs hkind
  obtain ⟨hset, hinc⟩ := handleAll_settings start history
  obtain ⟨traceId, now, rfl, hreport⟩ := handle_detected _ op hs hkind
  obtain ⟨⟨tick, level⟩, he, rfl⟩ := List.mem_map.1 hreport
  obtain ⟨hmem, hcond⟩ := List.mem_filter.1 he
  rw [Bool.and_eq_true, LevelMeta.isSticky, Bool.and_eq_true, Bool.not_eq_true', decide_eq_true_eq,
    hset.2.1] at hcond
  obtain ⟨-, hemitted, hage⟩ := hcond
  have hfaithful := h tick level (SortedMap.lookup_eq_some.2 hmem) hemitted
  refine ⟨level.side, tick, ?_, rfl, hfaithful.size, ?_, hfaithful.since.mono ?_⟩
  · exact congrArg (fun inc : Increments => inc.toPrice tick) hinc
  · have hprice : (start.handleAll history).detection.book.inc.toPrice tick
        = start.detection.book.inc.toPrice tick := congrArg (fun inc => inc.toPrice tick) hinc
    show _ ≤ level.initialSize * (start.handleAll history).detection.book.inc.toPrice tick
    rw [hprice]
    exact hfaithful.threshold
  · exact le_sub_comm.1 (le_of_ageMs hsticky hage)

/-- Every density that is reported in a run is in the book on its side and with its size, with a value
    that meets the threshold now and has met it for all of the sticky duration, if every step of the
    run is confirmed by the book. -/
theorem detected_real (ticker : Ticker) (inc : Increments) (invSqrt : ℚ) (densityMinSizeUsd : ℚ → ℚ)
    (ops : List MarketOp)
    (h : Runs.Along (fun ctrl op => (handle ctrl op).1) Confirms
      (watching ticker inc invSqrt densityMinSizeUsd) ops) :
    AtEach (fun history op =>
      ∀ s ∈ (((watching ticker inc invSqrt densityMinSizeUsd).handleAll history).handle op).2,
        s.kind = .densityDetected →
          Real (watching ticker inc invSqrt densityMinSizeUsd) history s) ops := by
  rintro history op rest rfl
  have hhistory := (Runs.along_append.1 h).1
  have hsticky : (0 : ℤ) < 2000 := by decide
  exact (picture_run rfl history hhistory).real hsticky op

/-- An ask of 1000 coins at 100.5 comes into a book around 100. -/
def largeAsk : List MarketOp :=
  [.snapshot { ticker := "BTC_USDT", bids := [⟨999 / 10, 1, .buy⟩], asks := [⟨1001 / 10, 1, .sell⟩] },
    .update 0 { ticker := "BTC_USDT", changes := [⟨1006 / 10, 30, .sell⟩] },
    .update 0 { ticker := "BTC_USDT", changes := [⟨1005 / 10, 1000, .sell⟩], ts := nsPerSec }]

/-- A controller that watches one ticker, with prices in cents. -/
def btcWatch : TickerController DensityWatch := watching "BTC_USDT" centIncrements 1 id

/-- It stays, and is reported after two seconds. -/
theorem detected_real_largeAsk :
    ((btcWatch.handleAll largeAsk).handle (.tick 0 (3 * nsPerSec))).2.map Signal.kind
        = [.densityDetected] ∧
      AtEach (fun history op => ∀ s ∈ ((btcWatch.handleAll history).handle op).2,
        s.kind = .densityDetected → Real btcWatch history s)
        (largeAsk ++ [.tick 0 (3 * nsPerSec)]) :=
  ⟨by decide +kernel,
    detected_real "BTC_USDT" centIncrements 1 id _ (by decide +kernel)⟩

/-- After it has shrunk to a single coin, it is reported with 1000 coins all the same. -/
theorem shrunk_density_detected :
    ¬ ∀ ticker inc invSqrt densityMinSizeUsd ops,
        AtEach (fun history op =>
          ∀ s ∈ (((watching ticker inc invSqrt densityMinSizeUsd).handleAll history).handle op).2,
            s.kind = .densityDetected →
              Real (watching ticker inc invSqrt densityMinSizeUsd) history s) ops := by
  intro hall
  let shrunk : List MarketOp := largeAsk ++
    [.update 0 { ticker := "BTC_USDT", changes := [⟨1005 / 10, 1, .sell⟩], ts := 2 * nsPerSec }]
  have hreal := hall "BTC_USDT" centIncrements 1 id (shrunk ++ [.tick 0 (3 * nsPerSec)]) shrunk
    (.tick 0 (3 * nsPerSec)) [] rfl
  have hreport : ∃ s ∈ ((btcWatch.handleAll shrunk).handle (.tick 0 (3 * nsPerSec))).2,
      s.kind = .densityDetected ∧ s.payload.size = 1000 := by decide +kernel
  obtain ⟨s, hs, hkind, hthousand⟩ := hreport
  obtain ⟨side, tick, -, -, hsize, -⟩ := hreal s hs hkind
  -- nothing of that size is in the book
  obtain ⟨raw, hraw, hcoins⟩ := Option.map_eq_some_iff.1 hsize
  have hbids : ∀ e ∈ (btcWatch.handleAll shrunk).detection.book.bids.entries,
      (e.2 : ℚ) * (btcWatch.handleAll shrunk).detection.book.inc.size ≠ 1000 := by decide +kernel
  have hasks : ∀ e ∈ (btcWatch.handleAll shrunk).detection.book.asks.entries,
      (e.2 : ℚ) * (btcWatch.handleAll shrunk).detection.book.inc.size ≠ 1000 := by decide +kernel
  rw [hthousand] at hcoins
  split at hraw
  · exact hbids _ (SortedMap.lookup_eq_some.1 hraw) hcoins
  · exact hasks _ (SortedMap.lookup_eq_some.1 hraw) hcoins

end TickerController

end TradeBot
