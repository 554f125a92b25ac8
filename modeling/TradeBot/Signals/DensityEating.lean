import Mathlib.Data.List.Chain
import Mathlib.Tactic.Linarith
import TradeBot.Lib.Histories
import TradeBot.Signals.DensityWatch

set_option autoImplicit false

/-! # The eating of a density

A tracked density under opposing trades, with the book updates that report the reductions coming in
between them in any order. A report that is taken up makes the detector count from zero against the
size that is left, so whether and when the eating is detected depends on the order; `eating_detected`
says that it does not as long as the reports before the decisive trade are not taken up.

A run is any list of trades and of book updates, and nothing is said of how the two are ordered. The
condition looks at the reports before the deciding trade only: each has to fail the filter by which
the detector takes changes up, or to come for another level. -/

namespace TradeBot

open Histories

namespace MarketOp

/-- The trade of an event. -/
def trade? : MarketOp → Option Trade
  | trade _ t => some t
  | _ => none

end MarketOp

/-- The trades of a run. -/
def printsOf (ops : List MarketOp) : List Trade := ops.filterMap MarketOp.trade?

/-- The traded volume. -/
def volumeOf (ops : List MarketOp) : ℚ := ((printsOf ops).map Trade.size).sum

/-- The sizes that the book updates report. -/
def reportsOf (ops : List MarketOp) : List ℚ := (ops.flatMap MarketOp.changes).map PriceLevel.size

namespace TickerController

variable (start : TickerController DensityWatch) (tick : ℤ) (level : LevelMeta)

/-- A trade at the tick of the level, on the other side. -/
def OpposingTrade (op : MarketOp) : Prop :=
  ∃ traceId t, op = .trade traceId t ∧ t.side ≠ level.side ∧ 0 < t.size ∧
    priceTickOf t.price start.detection.book.inc.price = tick

/-- A book update with what is left of the level. -/
def ReductionReport (op : MarketOp) : Prop :=
  ∃ traceId upd c, op = .update traceId upd ∧ upd.ticker = start.detection.density.ticker ∧
    upd.changes = [c] ∧ c.side = level.side ∧ 0 < c.size ∧
    priceTickOf c.price start.detection.book.inc.price = tick

/-- Opposing trades whose gaps stay within the window, among them the reports of the reductions that
    they cause: each one reports less than those before it, and what the first trades leave. -/
structure EatingRun (ops : List MarketOp) : Prop where
  events : ∀ op ∈ ops, OpposingTrade start tick level op ∨ ReductionReport start tick level op
  gaps : ((printsOf ops).map Trade.timestamp).IsChain
    (fun t t' => t' - t ≤ start.detection.density.cfg.eatingWindow * 1000000)
  shrinking : (level.initialSize :: reportsOf ops).Pairwise (· > ·)
  caused : ∀ r ∈ reportsOf ops, ∃ trades, trades <+: printsOf ops ∧
    r = level.initialSize - (trades.map Trade.size).sum

/-- A trade of the run has brought the volume to the threshold, with enough prints. -/
def Reached (ops : List MarketOp) : Prop :=
  1 ≤ (printsOf ops).length ∧
    start.detection.density.cfg.eatingRatioThreshold * level.initialSize ≤ volumeOf ops ∧
    start.detection.density.cfg.eatingMinPrints ≤ (printsOf ops).length

instance (ops : List MarketOp) : Decidable (Reached start level ops) :=
  inferInstanceAs (Decidable (_ ∧ _))

/-- The eating of the level is reported by the first trade that reaches the threshold, and not
    again. -/
def EatingDetected (ops : List MarketOp) : Prop :=
  AtEach (fun pre op =>
    (((start.handleAll pre).handle op).2.filter (fun s => s.kind = .densityEating)).length
      = if ¬ Reached start level pre ∧ Reached start level (pre ++ [op]) then 1 else 0) ops

/-- A report that comes before that trade is not taken up. -/
def NotRestarted (pre : List MarketOp) (op : MarketOp) : Prop :=
  Reached start level pre ∨ op.takenUp (start.handleAll pre).detection tick = []

instance (pre : List MarketOp) (op : MarketOp) : Decidable (NotRestarted start tick level pre op) :=
  inferInstanceAs (Decidable (_ ∨ _))

variable {start tick level}

/-! ## Lists -/

theorem printsOf_concat (pre : List MarketOp) (op : MarketOp) :
    printsOf (pre ++ [op]) = printsOf pre ++ op.trade?.toList := by
  rw [printsOf, List.filterMap_append]
  cases op <;> rfl

theorem reportsOf_concat (pre : List MarketOp) (op : MarketOp) :
    reportsOf (pre ++ [op]) = reportsOf pre ++ op.changes.map PriceLevel.size := by
  simp [reportsOf]

theorem volumeOf_concat_trade (pre : List MarketOp) (traceId : TraceId) (t : Trade) :
    volumeOf (pre ++ [.trade traceId t]) = volumeOf pre + t.size := by
  simp [volumeOf, printsOf_concat, MarketOp.trade?]

/-- The threshold stays reached. -/
theorem Reached.trade {pre : List MarketOp} (h : Reached start level pre) (traceId : TraceId)
    {t : Trade} (ht : 0 < t.size) : Reached start level (pre ++ [.trade traceId t]) := by
  refine ⟨?_, ?_, ?_⟩
  · simp [printsOf_concat, MarketOp.trade?]
  · rw [volumeOf_concat_trade]
    linarith [h.2.1]
  · have hprints := h.2.2
    simp only [printsOf_concat, MarketOp.trade?, Option.toList_some, List.length_append,
      List.length_singleton]
    push_cast
    omega

theorem printsOf_concat_update (pre : List MarketOp) (traceId : TraceId) (upd : OrderBookUpdate) :
    printsOf (pre ++ [.update traceId upd]) = printsOf pre := by
  simp [printsOf_concat, MarketOp.trade?]

theorem reached_concat_update (pre : List MarketOp) (traceId : TraceId) (upd : OrderBookUpdate) :
    Reached start level (pre ++ [.update traceId upd]) ↔ Reached start level pre := by
  simp only [Reached, volumeOf, printsOf_concat_update]

/-! ## One event -/

/-- The level after some events: until the threshold is reached the statistics are those of all trades,
    afterwards the eating is reported. -/
structure Eats (start : TickerController DensityWatch) (tick : ℤ) (level : LevelMeta)
    (pre : List MarketOp) (l : LevelMeta) : Prop where
  tracked : (start.handleAll pre).detection.density.tracked.lookup tick = some l
  side : l.side = level.side
  lastHit : ∀ t ∈ (printsOf pre).getLast?, l.lastHit = t.timestamp
  size : l.initialSize ∈ level.initialSize :: reportsOf pre
  counting : ¬ Reached start level pre → l.initialSize = level.initialSize ∧
    l.eatenVolume = volumeOf pre ∧ l.printCount = (printsOf pre).length ∧ l.eatingEmitted = false
  reported : Reached start level pre → l.eatingEmitted = true

theorem hit_of_lookup {d : DensityDetector} {book : OrderBook} {trade : Trade} {l : LevelMeta}
    (hl : d.tracked.lookup tick = some l) (hside : l.side ≠ trade.side)
    (htick : priceTickOf trade.price book.inc.price = tick) : d.hit? book trade = some (tick, l) := by
  simp [DensityDetector.hit?, htick, hl, hside]

theorem onTrade_of_hit {d : DensityDetector} {book : OrderBook} (traceId : TraceId) {trade : Trade}
    {l : LevelMeta} (h : d.hit? book trade = some (tick, l)) :
    d.onTrade traceId book trade
      = if (l.hit d.cfg trade.size trade.timestamp).isEaten d.cfg then
          ({ d with
              tracked := d.tracked.insert tick
                { l.hit d.cfg trade.size trade.timestamp with eatingEmitted := true } },
            [d.eatingSignal traceId trade (l.hit d.cfg trade.size trade.timestamp)])
        else ({ d with tracked := d.tracked.insert tick (l.hit d.cfg trade.size trade.timestamp) }, []) := by
  rw [DensityDetector.onTrade, h]

/-- A hit within the window, or after none, adds to the statistics. -/
theorem hit_eq {cfg : DensityConfig} {l : LevelMeta} {size : ℚ} {now : TimePoint}
    (h : now - l.lastHit ≤ cfg.eatingWindow * 1000000 ∨
      l.eatenVolume = 0 ∧ l.printCount = 0 ∧ l.eatingEmitted = false) :
    l.hit cfg size now = { l with
      eatenVolume := l.eatenVolume + size, printCount := l.printCount + 1, lastHit := now } := by
  unfold LevelMeta.hit
  dsimp only
  split
  · next hgap =>
      obtain ⟨hvolume, hprints, hemitted⟩ := h.resolve_left (not_le.2 hgap.2)
      rw [hvolume, hprints, hemitted]
  · rfl

/-- The detector reports at the first hit that reaches the threshold. -/
theorem isEaten_iff {cfg : DensityConfig} {l : LevelMeta} (hsize : 0 < l.initialSize) :
    l.isEaten cfg = true ↔ l.eatingEmitted = false ∧
      cfg.eatingRatioThreshold * l.initialSize ≤ l.eatenVolume ∧
      cfg.eatingMinPrints ≤ l.printCount := by
  rw [LevelMeta.isEaten, LevelMeta.eatenRatio, Bool.and_eq_true, Bool.not_eq_true',
    decide_eq_true_eq, le_div_iff₀ hsize]

variable {pre : List MarketOp} {l : LevelMeta}

/-- The statistics of all trades after one more of them. -/
theorem Eats.hit (h : Eats start tick level pre l) {t : Trade}
    (hgap : ∀ t' ∈ (printsOf pre).getLast?,
      t.timestamp - t'.timestamp ≤ start.detection.density.cfg.eatingWindow * 1000000) :
    l.hit start.detection.density.cfg t.size t.timestamp = { l with
      eatenVolume := l.eatenVolume + t.size, printCount := l.printCount + 1
      lastHit := t.timestamp } := by
  refine hit_eq ?_
  cases hlast : (printsOf pre).getLast? with
  | none =>
      have hnil := List.getLast?_eq_none_iff.1 hlast
      obtain ⟨-, hvolume, hprints, hemitted⟩ := h.counting (fun hreached => by
        have hone := hreached.1
        rw [hnil] at hone
        exact absurd hone (by decide))
      exact Or.inr ⟨by rw [hvolume, volumeOf, hnil]; rfl, by rw [hprints, hnil]; rfl, hemitted⟩
  | some t' =>
      rw [h.lastHit t' hlast]
      exact Or.inl (hgap t' hlast)

/-- Another hit is reported exactly if it is the one that reaches the threshold. -/
theorem Eats.isEaten_iff (h : Eats start tick level pre l) (hpos : 0 < level.initialSize)
    (traceId : TraceId) (t : Trade) :
    LevelMeta.isEaten start.detection.density.cfg { l with
        eatenVolume := l.eatenVolume + t.size, printCount := l.printCount + 1
        lastHit := t.timestamp } = true ↔
      ¬ Reached start level pre ∧ Reached start level (pre ++ [.trade traceId t]) := by
  by_cases hreached : Reached start level pre
  · refine iff_of_false (fun heaten => ?_) (fun hnot => hnot.1 hreached)
    rw [LevelMeta.isEaten, h.reported hreached] at heaten
    exact Bool.false_ne_true heaten
  · obtain ⟨hinitial, hvolume, hprints, hemitted⟩ := h.counting hreached
    rw [TickerController.isEaten_iff (by rw [hinitial]; exact hpos)]
    simp only [hinitial, hvolume, hprints, hemitted, true_and, Reached, volumeOf_concat_trade,
      printsOf_concat, MarketOp.trade?, Option.toList_some, List.length_append,
      List.length_singleton, Nat.cast_add, Nat.cast_one]
    constructor
    · exact fun heaten => ⟨hreached, Nat.le_add_left .., heaten⟩
    · exact fun hnow => hnow.2.2

/-- What the detector makes of a trade. -/
theorem Eats.onTrade (h : Eats start tick level pre l) (hpos : 0 < level.initialSize)
    (traceId : TraceId) {t : Trade} (hside : t.side ≠ level.side)
    (htick : priceTickOf t.price start.detection.book.inc.price = tick)
    (hgap : ∀ t' ∈ (printsOf pre).getLast?,
      t.timestamp - t'.timestamp ≤ start.detection.density.cfg.eatingWindow * 1000000) :
    let l' := { l with
      eatenVolume := l.eatenVolume + t.size, printCount := l.printCount + 1
      lastHit := t.timestamp }
    let d := (start.handleAll pre).detection.density
    d.onTrade traceId (start.handleAll pre).detection.book t
      = if ¬ Reached start level pre ∧ Reached start level (pre ++ [.trade traceId t]) then
          ({ d with tracked := d.tracked.insert tick { l' with eatingEmitted := true } },
            [d.eatingSignal traceId t l'])
        else ({ d with tracked := d.tracked.insert tick l' }, []) := by
  obtain ⟨hset, hinc⟩ := handleAll_settings start pre
  have hhit : (start.handleAll pre).detection.density.hit? (start.handleAll pre).detection.book t
      = some (tick, l) :=
    hit_of_lookup h.tracked (by rw [h.side]; exact Ne.symm hside) (by rw [hinc]; exact htick)
  have hadded := h.hit hgap
  have heaten := h.isEaten_iff hpos traceId t
  rw [← hset.2.1] at hadded heaten
  dsimp only
  rw [onTrade_of_hit traceId hhit, hadded]
  by_cases hnow : ¬ Reached start level pre ∧ Reached start level (pre ++ [.trade traceId t])
  · rw [if_pos (heaten.2 hnow), if_pos hnow]
  · rw [if_neg (mt heaten.1 hnow), if_neg hnow]

/-- A trade: it is reported exactly when it reaches the threshold. -/
theorem Eats.trade (h : Eats start tick level pre l) (hpos : 0 < level.initialSize)
    (traceId : TraceId) {t : Trade} (hside : t.side ≠ level.side) (hsize : 0 < t.size)
    (htick : priceTickOf t.price start.detection.book.inc.price = tick)
    (hgap : ∀ t' ∈ (printsOf pre).getLast?,
      t.timestamp - t'.timestamp ≤ start.detection.density.cfg.eatingWindow * 1000000) :
    (((start.handleAll pre).handle (.trade traceId t)).2.filter
        (fun s => s.kind = .densityEating)).length
      = (if ¬ Reached start level pre ∧ Reached start level (pre ++ [.trade traceId t]) then 1 else 0) ∧
      ∃ l', Eats start tick level (pre ++ [.trade traceId t]) l' := by
  have hlast : ∀ t' ∈ (printsOf (pre ++ [.trade traceId t])).getLast?, t.timestamp = t'.timestamp := by
    intro t' ht'
    simp only [printsOf_concat, MarketOp.trade?, Option.toList_some, List.getLast?_concat,
      Option.mem_some_iff] at ht'
    rw [ht']
  have hreports : reportsOf (pre ++ [.trade traceId t]) = reportsOf pre := by
    simp [reportsOf_concat, MarketOp.changes]
  have hdetector : (start.handleAll (pre ++ [.trade traceId t])).detection.density
      = ((start.handleAll pre).detection.density.onTrade traceId
        (start.handleAll pre).detection.book t).1 := by
    rw [handleAll_concat]
    rfl
  show (((start.handleAll pre).detection.density.onTrade traceId
    (start.handleAll pre).detection.book t).2.filter _).length = _ ∧ _
  have htrade := h.onTrade hpos traceId hside htick hgap
  dsimp only at htrade
  -- either this trade is the one that reaches the threshold, or nothing is reported
  by_cases hnow : ¬ Reached start level pre ∧ Reached start level (pre ++ [.trade traceId t])
  · rw [if_pos hnow] at htrade
    rw [htrade] at hdetector ⊢
    refine ⟨by rw [if_pos hnow]; rfl,
      { l with
        eatenVolume := l.eatenVolume + t.size, printCount := l.printCount + 1
        lastHit := t.timestamp, eatingEmitted := true },
      ⟨?_, h.side, hlast, ?_, ?_, fun _ => rfl⟩⟩
    · rw [hdetector]
      exact SortedMap.lookup_insert.trans (if_pos rfl)
    · rw [hreports]
      exact h.size
    · exact fun hnot => absurd hnow.2 hnot
  · rw [if_neg hnow] at htrade
    rw [htrade] at hdetector ⊢
    refine ⟨by rw [if_neg hnow]; rfl,
      { l with
        eatenVolume := l.eatenVolume + t.size, printCount := l.printCount + 1
        lastHit := t.timestamp },
      ⟨?_, h.side, hlast, ?_, fun hnot => ?_, fun hreached => ?_⟩⟩
    · rw [hdetector]
      exact SortedMap.lookup_insert.trans (if_pos rfl)
    · rw [hreports]
      exact h.size
    · -- below the threshold the statistics are still those of all trades
      obtain ⟨hinitial, hvolume, hprints, hemitted⟩ :=
        h.counting (fun hreached => hnot (hreached.trade traceId hsize))
      refine ⟨hinitial, ?_, ?_, hemitted⟩
      · rw [volumeOf_concat_trade, hvolume]
      · simp only [printsOf_concat, MarketOp.trade?, Option.toList_some, List.length_append,
          List.length_singleton, hprints, Nat.cast_add, Nat.cast_one]
    · have hwas : Reached start level pre := by
        by_contra hnot
        exact hnow ⟨hnot, hreached⟩
      exact h.reported hwas

theorem takenUp_single (d : DensityDetector) (book : OrderBook) (tick : ℤ) {upd : OrderBookUpdate}
    {c : PriceLevel} (hchanges : upd.changes = [c]) :
    d.takenUp book upd tick = [] ∨ d.takenUp book upd tick = [c] := by
  unfold DensityDetector.takenUp
  rw [hchanges]
  split
  · split
    · exact Or.inl rfl
    · rw [List.filter_cons]
      split
      · exact Or.inr rfl
      · exact Or.inl rfl
  · exact Or.inl rfl

/-- A book update publishes no eating. -/
theorem filter_update_eq_nil (ctrl : TickerController DensityWatch) (traceId : TraceId)
    (upd : OrderBookUpdate) :
    (ctrl.handle (.update traceId upd)).2.filter (fun s => s.kind = .densityEating) = [] := by
  refine List.filter_eq_nil_iff.2 (fun s hs => ?_)
  have hremoved := (DensityDetector.onBookUpdate_signals upd s hs).2
  simp [hremoved]

/-- The level after a report that does not remove it. -/
theorem Eats.lookup_report (h : Eats start tick level pre l) (traceId : TraceId)
    {upd : OrderBookUpdate} {c : PriceLevel} (hchanges : upd.changes = [c]) (hsize : 0 < c.size) :
    (start.handleAll (pre ++ [.update traceId upd])).detection.density.tracked.lookup tick
      = ((MarketOp.update traceId upd).takenUp (start.handleAll pre).detection tick).foldl
        (DensityDetector.takeUp upd.ts) (some l) := by
  have hkept : (start.handleAll pre).detection.density.keptLevel
      ((start.handleAll pre).detection.book.applyUpdate upd) upd tick = some l := by
    rw [DensityDetector.keptLevel, if_neg, h.tracked]
    rintro ⟨-, c', hc', hle, -⟩
    rw [hchanges, List.mem_singleton] at hc'
    exact absurd hsize (not_lt.2 (hc' ▸ hle))
  rw [handleAll_concat, ← hkept]
  exact (DensityDetector.onBookUpdate_spec (start.handleAll pre).detection.density upd).2 tick

/-- A report: it makes the level smaller or leaves it, and publishes no eating. -/
theorem Eats.report (h : Eats start tick level pre l) (traceId : TraceId) {upd : OrderBookUpdate}
    {c : PriceLevel} (hchanges : upd.changes = [c]) (hsize : 0 < c.size)
    (hshrinks : ∀ size ∈ level.initialSize :: reportsOf pre, c.size < size)
    (hcond : NotRestarted start tick level pre (.update traceId upd)) :
    (((start.handleAll pre).handle (.update traceId upd)).2.filter
        (fun s => s.kind = .densityEating)).length
      = (if ¬ Reached start level pre ∧ Reached start level (pre ++ [.update traceId upd]) then 1 else 0) ∧
      ∃ l', Eats start tick level (pre ++ [.update traceId upd]) l' := by
  have hreached : Reached start level (pre ++ [.update traceId upd]) ↔ Reached start level pre :=
    reached_concat_update pre traceId upd
  have htrades := printsOf_concat_update pre traceId upd
  have hvolume : volumeOf (pre ++ [.update traceId upd]) = volumeOf pre := by
    rw [volumeOf, htrades]
    rfl
  have hreports : reportsOf (pre ++ [.update traceId upd]) = reportsOf pre ++ [c.size] := by
    simp [reportsOf_concat, MarketOp.changes, hchanges]
  constructor
  · rw [filter_update_eq_nil, if_neg (fun hnow => hnow.1 (hreached.1 hnow.2))]
    rfl
  have hlookup := h.lookup_report traceId hchanges hsize
  have hsize' : l.initialSize ∈ level.initialSize :: reportsOf (pre ++ [.update traceId upd]) := by
    rw [hreports, ← List.cons_append]
    exact List.mem_append_left _ h.size
  rcases takenUp_single (start.handleAll pre).detection.density
    ((start.handleAll pre).detection.book.applyUpdate upd) tick hchanges with hnil | hone
  · -- the report is not taken up: the level is as it was
    refine ⟨l, ⟨?_, h.side, by rw [htrades]; exact h.lastHit, hsize', ?_, ?_⟩⟩
    · rw [hlookup, MarketOp.takenUp, hnil]
      rfl
    · rw [hreached, hvolume, htrades]
      exact h.counting
    · rw [hreached]
      exact h.reported
  · -- the report restarts the count, which is allowed once the eating was reported
    have hdone : Reached start level pre := by
      refine hcond.resolve_right (fun hnil => ?_)
      rw [MarketOp.takenUp, hone] at hnil
      exact absurd hnil (List.cons_ne_nil _ _)
    have hless : ¬ l.initialSize ≤ c.size := not_le.2 (hshrinks _ h.size)
    refine ⟨{ l with initialSize := c.size, eatenVolume := 0, printCount := 0 },
      ⟨?_, h.side, by rw [htrades]; exact h.lastHit, ?_, ?_, fun _ => h.reported hdone⟩⟩
    · rw [hlookup, MarketOp.takenUp, hone]
      show some (l.resize c.size upd.ts) = _
      rw [LevelMeta.resize, if_neg hless]
    · rw [hreports]
      exact List.mem_cons_of_mem _ (List.mem_append_right _ (List.mem_singleton_self _))
    · exact fun hnot => absurd (hreached.2 hdone) hnot

/-- One event of a run: whether it is reported, and the level after it. -/
theorem Eats.event (h : Eats start tick level pre l) (hpos : 0 < level.initialSize)
    {op : MarketOp} {post : List MarketOp} (hrun : EatingRun start tick level (pre ++ op :: post))
    (hcond : NotRestarted start tick level pre op) :
    (((start.handleAll pre).handle op).2.filter (fun s => s.kind = .densityEating)).length
      = (if ¬ Reached start level pre ∧ Reached start level (pre ++ [op]) then 1 else 0) ∧
      ∃ l', Eats start tick level (pre ++ [op]) l' := by
  have hsplit : pre ++ op :: post = (pre ++ [op]) ++ post := by simp
  rcases hrun.events op (by simp) with ⟨traceId, t, rfl, hside, hsize, htick⟩ | hreport
  · refine h.trade hpos traceId hside hsize htick (fun t' ht' => ?_)
    have htrades : printsOf (pre ++ .trade traceId t :: post) = printsOf pre ++ t :: printsOf post := by
      simp [printsOf, MarketOp.trade?, List.filterMap_append]
    have hgaps := hrun.gaps
    rw [htrades, List.map_append, List.isChain_append] at hgaps
    refine hgaps.2.2 t'.timestamp ?_ t.timestamp rfl
    rw [List.getLast?_map, Option.mem_def.1 ht']
    rfl
  · obtain ⟨traceId, upd, c, rfl, -, hchanges, -, hsize, -⟩ := hreport
    refine h.report traceId hchanges hsize (fun size hin => ?_) hcond
    have hreports : reportsOf (pre ++ .update traceId upd :: post)
        = reportsOf pre ++ c.size :: reportsOf post := by
      simp [reportsOf, MarketOp.changes, hchanges]
    have hshrinking := hrun.shrinking
    rw [hreports, ← List.cons_append, List.pairwise_append] at hshrinking
    exact hshrinking.2.2 size hin c.size (List.mem_cons_self ..)

theorem eats_prefix (htracked : start.detection.density.tracked.lookup tick = some level)
    (hpos : 0 < level.initialSize) (hvolume : level.eatenVolume = 0) (hprints : level.printCount = 0)
    (hemitted : level.eatingEmitted = false) {ops : List MarketOp}
    (hrun : EatingRun start tick level ops) (hcond : AtEach (NotRestarted start tick level) ops)
    (pre post : List MarketOp) (hops : ops = pre ++ post) : ∃ l, Eats start tick level pre l := by
  induction pre using List.reverseRecOn generalizing post with
  | nil =>
      refine ⟨level, htracked, rfl, fun _ ht => absurd ht (Option.not_mem_none _),
        List.mem_cons_self .., fun _ => ⟨rfl, hvolume, hprints, hemitted⟩, fun hreached => ?_⟩
      exact absurd hreached.1 (by decide)
  | append_singleton pre op ih =>
      rw [List.append_assoc, List.singleton_append] at hops
      obtain ⟨l, hl⟩ := ih (op :: post) hops
      exact (hl.event hpos (hops ▸ hrun) (hcond pre op post hops)).2

/-- Whatever the order of the trades and the reports, the eating of a fresh density is reported once,
    by the first trade that reaches the threshold, if no report before that trade is taken up. -/
theorem eating_detected (start : TickerController DensityWatch) (tick : ℤ) (level : LevelMeta)
    (htracked : start.detection.density.tracked.lookup tick = some level)
    (hpos : 0 < level.initialSize) (hvolume : level.eatenVolume = 0) (hprints : level.printCount = 0)
    (hemitted : level.eatingEmitted = false) (ops : List MarketOp)
    (hrun : EatingRun start tick level ops) (hcond : AtEach (NotRestarted start tick level) ops) :
    EatingDetected start level ops := by
  rintro pre op post rfl
  obtain ⟨l, hl⟩ := eats_prefix htracked hpos hvolume hprints hemitted hrun hcond pre (op :: post) rfl
  exact (hl.event hpos hrun (hcond pre op post rfl)).1

/-- A controller that tracks an ask of 10000 coins at 100.5. -/
def wallWatch : TickerController DensityWatch :=
  (watching "BTC_USDT" centIncrements 1 id).handleAll
    [.snapshot { ticker := "BTC_USDT", bids := [⟨999 / 10, 1, .buy⟩], asks := [⟨1001 / 10, 1, .sell⟩] },
      .update 0 { ticker := "BTC_USDT", changes := [⟨1006 / 10, 30, .sell⟩] },
      .update 0 { ticker := "BTC_USDT", changes := [⟨1005 / 10, 10000, .sell⟩], ts := nsPerSec }]

def wall : LevelMeta := { side := .sell, initialSize := 10000, firstSeen := nsPerSec }

/-- A buy of `size` coins, `n` seconds after the ask was seen. -/
def bite (size : ℚ) (n : ℤ) : MarketOp := .trade 0 ⟨1005 / 10, size, .buy, (1 + n) * nsPerSec⟩

/-- The book update with what is left of the ask then. -/
def leaves (size : ℚ) (n : ℤ) : MarketOp :=
  .update 0
    { ticker := "BTC_USDT", changes := [⟨1005 / 10, size, .sell⟩], ts := (1 + n) * nsPerSec }

theorem wall_tracked : wallWatch.detection.density.tracked.lookup 10050 = some wall := by
  decide +kernel

theorem wall_tick : priceTickOf (1005 / 10) wallWatch.detection.book.inc.price = 10050 := by
  decide +kernel

theorem wall_ticker : "BTC_USDT" = wallWatch.detection.density.ticker := by decide +kernel

theorem bite_opposing {size : ℚ} (hsize : 0 < size) (n : ℤ) :
    OpposingTrade wallWatch 10050 wall (bite size n) :=
  ⟨0, _, rfl, by simp [wall], hsize, wall_tick⟩

theorem leaves_report {size : ℚ} (hsize : 0 < size) (n : ℤ) :
    ReductionReport wallWatch 10050 wall (leaves size n) :=
  ⟨0, _, _, rfl, wall_ticker, rfl, rfl, hsize, wall_tick⟩

/-- Four bites of 2400 coins. What they leave is worth too little for a large level, so its report before
    the fifth bite changes nothing, and neither does the one after it. -/
def bites : List MarketOp :=
  [bite 2400 1, bite 2400 2, bite 2400 3, bite 2400 4, leaves 400 4, bite 100 5, leaves 300 5]

theorem bites_eatingRun : EatingRun wallWatch 10050 wall bites := by
  refine ⟨?_, by decide +kernel, by decide +kernel, ?_⟩
  · simp only [bites, List.forall_mem_cons]
    exact ⟨Or.inl (bite_opposing (by norm_num) 1), Or.inl (bite_opposing (by norm_num) 2),
      Or.inl (bite_opposing (by norm_num) 3), Or.inl (bite_opposing (by norm_num) 4),
      Or.inr (leaves_report (by norm_num) 4), Or.inl (bite_opposing (by norm_num) 5),
      Or.inr (leaves_report (by norm_num) 5), fun _ h => absurd h List.not_mem_nil⟩
  · have hreports : reportsOf bites = [400, 300] := by decide +kernel
    rw [hreports, List.forall_mem_cons, List.forall_mem_singleton]
    constructor
    · exact ⟨(printsOf bites).take 4, List.take_prefix _ _, by decide +kernel⟩
    · exact ⟨(printsOf bites).take 5, List.take_prefix _ _, by decide +kernel⟩

theorem eating_detected_bites : EatingDetected wallWatch wall bites :=
  eating_detected wallWatch 10050 wall wall_tracked (by decide) rfl rfl rfl bites bites_eatingRun
    (by decide +kernel)

/-- Five bites of 1000 coins, and the report of the first one before the second. -/
def smallBites : List MarketOp :=
  [bite 1000 1, leaves 9000 1, bite 1000 2, bite 1000 3, bite 1000 4, bite 1000 5]

theorem smallBites_eatingRun : EatingRun wallWatch 10050 wall smallBites := by
  refine ⟨?_, by decide +kernel, by decide +kernel, ?_⟩
  · simp only [smallBites, List.forall_mem_cons]
    exact ⟨Or.inl (bite_opposing (by norm_num) 1), Or.inr (leaves_report (by norm_num) 1),
      Or.inl (bite_opposing (by norm_num) 2), Or.inl (bite_opposing (by norm_num) 3),
      Or.inl (bite_opposing (by norm_num) 4), Or.inl (bite_opposing (by norm_num) 5),
      fun _ h => absurd h List.not_mem_nil⟩
  · have hreports : reportsOf smallBites = [9000] := by decide +kernel
    rw [hreports, List.forall_mem_singleton]
    exact ⟨(printsOf smallBites).take 1, List.take_prefix _ _, by decide +kernel⟩

/-- If the book update of the first bite comes before the second bite, the fifth one is not enough. -/
theorem eating_missed :
    ¬ ∀ (start : TickerController DensityWatch) (tick : ℤ) (level : LevelMeta),
        start.detection.density.tracked.lookup tick = some level → 0 < level.initialSize →
        level.eatenVolume = 0 → level.printCount = 0 → level.eatingEmitted = false →
        ∀ ops, EatingRun start tick level ops → EatingDetected start level ops := by
  intro hall
  have hdetected := hall wallWatch 10050 wall wall_tracked (by decide) rfl rfl rfl smallBites
    smallBites_eatingRun
    [bite 1000 1, leaves 9000 1, bite 1000 2, bite 1000 3, bite 1000 4] (bite 1000 5) [] rfl
  exact absurd hdetected (by decide +kernel)

end TickerController

end TradeBot
