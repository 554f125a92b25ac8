import TradeBot.Control.TickerController
import TradeBot.Features.FeatureExtractor
import TradeBot.MarketData.BookLevels
import TradeBot.Signals.DensityDetector

set_option autoImplicit false

/-! # The controller of a density detector

`TickerController` with its book, its feature extraction and its density detector, and what each of
its calls makes of the levels that the detector tracks. The other detectors and the trade stream have
no influence on this one, and are left out.

Each call is described by what it makes of the level at one tick, for any tick: a book update by the
changes taken up there, a trade by what it adds to the statistics, a frame by what it drops. The
results about densities are built on these descriptions, and never on the loops. -/

namespace TradeBot

/-- The part of a `TickerController` that detects densities. -/
structure DensityWatch where
  book : OrderBook
  extractor : FeatureExtractor
  density : DensityDetector

/-- The constructor of `TickerController`; `invSqrt` is `1.0 / std::sqrt(volume_scale_factor)`. -/
def DensityWatch.init (ticker : Ticker) (inc : Increments) (invSqrt : ℚ)
    (densityMinSizeUsd : ℚ → ℚ) : DensityWatch where
  book := { inc := inc }
  extractor := { ticker := ticker }
  density :=
    { ticker := ticker
      cfg := { minDistanceBps := min (5 * invSqrt) 15, maxDistanceBps := min (150 * invSqrt) 300 }
      densityMinSizeUsd := densityMinSizeUsd }

theorem DensityDetector.signal_traced (d : DensityDetector) (traceId : TraceId) (kind : SignalKind)
    (now : TimePoint) (price confidence : ℚ) (payload : SignalPayload) :
    (d.signal traceId kind now price confidence payload).TracedBy traceId := Or.inl rfl

/-- A tracked level without its eating statistics. -/
def LevelMeta.core (level : LevelMeta) : Side × ℚ × TimePoint × Bool :=
  (level.side, level.initialSize, level.firstSeen, level.emitted)

namespace DensityDetector

variable {d : DensityDetector} {traceId : TraceId} {book : OrderBook}

/-! ## What is published -/

/-- Everything that a trade publishes is of the kind `DensityEating`. -/
theorem onTrade_signals (trade : Trade) :
    ∀ s ∈ (d.onTrade traceId book trade).2, s.TracedBy traceId ∧ s.kind = .densityEating := by
  unfold onTrade
  cases d.hit? book trade with
  | none => exact fun _ hs => absurd hs List.not_mem_nil
  | some hit =>
      dsimp only
      split
      · exact List.forall_mem_singleton.2 ⟨d.signal_traced .., rfl⟩
      · exact fun _ hs => absurd hs List.not_mem_nil

theorem withdraw_signals {now : TimePoint} {r : DensityDetector × List Signal}
    (h : ∀ s ∈ r.2, s.TracedBy traceId ∧ s.kind = .densityRemoved) (c : PriceLevel) :
    ∀ s ∈ (withdraw traceId book now r c).2, s.TracedBy traceId ∧ s.kind = .densityRemoved := by
  unfold withdraw
  split
  · exact h
  · dsimp only
    split
    · exact h
    · exact List.forall_mem_append.2 ⟨h, List.forall_mem_singleton.2 ⟨signal_traced .., rfl⟩⟩

/-- Everything that a book update publishes is of the kind `DensityRemoved`. -/
theorem onBookUpdate_signals (upd : OrderBookUpdate) :
    ∀ s ∈ (d.onBookUpdate traceId book upd).2, s.TracedBy traceId ∧ s.kind = .densityRemoved := by
  have hpass : ∀ s ∈ (upd.changes.foldl (withdraw traceId book upd.ts) (d, [])).2,
      s.TracedBy traceId ∧ s.kind = .densityRemoved :=
    Runs.invariant
      (fun r : DensityDetector × List Signal =>
        ∀ s ∈ r.2, s.TracedBy traceId ∧ s.kind = .densityRemoved)
      (fun _ c h => withdraw_signals h c) upd.changes (fun _ hs => absurd hs List.not_mem_nil)
  unfold onBookUpdate
  split
  · exact fun _ hs => absurd hs List.not_mem_nil
  · dsimp only
    split
    · exact hpass
    · exact hpass

/-- Only the signature of the last stack has changed, and only stacks are published. -/
structure StacksOnly (d : DensityDetector) (traceId : TraceId) (r : DensityDetector × List Signal) :
    Prop where
  detector : r.1 = { d with lastStack := r.1.lastStack }
  signals : ∀ s ∈ r.2, s.TracedBy traceId ∧ s.kind = .densityStack

theorem StacksOnly.emitIfQualified {r : DensityDetector × List Signal} (h : StacksOnly d traceId r)
    (now : TimePoint) (mid : ℚ) (side : Side) (cluster : List ClusterEntry) :
    StacksOnly d traceId (emitIfQualified traceId now mid side cluster r) := by
  unfold DensityDetector.emitIfQualified
  cases cluster.head? with
  | none => exact h
  | some low =>
      cases cluster.getLast? with
      | none => exact h
      | some high =>
          dsimp only
          split
          · exact h
          split
          · exact h
          refine ⟨?_, List.forall_mem_append.2 ⟨h.signals,
            List.forall_mem_singleton.2 ⟨signal_traced .., rfl⟩⟩⟩
          rw [h.detector]

theorem StacksOnly.flush {scan : ClusterScan} (h : StacksOnly d traceId scan.result)
    (now : TimePoint) (mid : ℚ) : StacksOnly d traceId (scan.flush traceId now mid) := by
  unfold ClusterScan.flush
  split
  · exact h.emitIfQualified ..
  · exact h

theorem checkDensityStacks_stacksOnly (traceId : TraceId) (book : OrderBook) (d : DensityDetector)
    (now : TimePoint) (mid : ℚ) :
    StacksOnly d traceId (d.checkDensityStacks traceId book now mid) := by
  refine StacksOnly.flush ?_ now mid
  refine Runs.invariant (fun scan : ClusterScan => StacksOnly d traceId scan.result)
    (fun scan tracked h => ?_) d.tracked.entries ⟨rfl, fun _ hs => absurd hs List.not_mem_nil⟩
  unfold clusterStep
  dsimp only
  split
  · exact h
  split
  · split
    · exact h
    · exact h.flush now mid
  · exact h

/-- The levels after a frame are the sticky pass's, and it reports them; the rest is stacks. -/
theorem checkStickyLevels_spec (d : DensityDetector) (now : TimePoint) :
    (d.checkStickyLevels traceId book now).1
        = { d.refreshTracked book now with
            lastStack := (d.checkStickyLevels traceId book now).1.lastStack } ∧
      ∀ s ∈ (d.checkStickyLevels traceId book now).2, s.TracedBy traceId ∧
        (s ∈ d.stickySignals traceId book now ∨ s.kind = .densityStack) := by
  have hsticky : ∀ s ∈ d.stickySignals traceId book now, s.TracedBy traceId ∧
      (s ∈ d.stickySignals traceId book now ∨ s.kind = .densityStack) := by
    refine fun s hs => ⟨?_, Or.inl hs⟩
    obtain ⟨e, -, rfl⟩ := List.mem_map.1 hs
    exact signal_traced ..
  unfold checkStickyLevels
  split
  · -- nothing is tracked, so nothing is refreshed
    next hempty =>
      refine ⟨?_, fun _ hs => absurd hs List.not_mem_nil⟩
      have hnone : ∀ e, e ∉ d.tracked := fun e => by
        simp [SortedMap.mem_def, List.isEmpty_iff.1 hempty]
      have htracked : (d.refreshTracked book now).tracked = d.tracked := by
        refine SortedMap.ext_mem (fun e => iff_of_false (fun he => ?_) (hnone e))
        obtain ⟨level, hlevel, -⟩ := SortedMap.mem_filterMap.1 he
        exact hnone _ hlevel
      show d = { d with tracked := (d.refreshTracked book now).tracked }
      rw [htracked]
  · dsimp only
    cases book.mid with
    | none => exact ⟨rfl, hsticky⟩
    | some mid =>
        dsimp only
        split
        · -- stacks are looked for after the levels, and only reported
          have hstacks := checkDensityStacks_stacksOnly traceId book
            (d.refreshTracked book now) now mid
          refine ⟨hstacks.detector, List.forall_mem_append.2 ⟨hsticky, fun s hs => ?_⟩⟩
          exact ⟨(hstacks.signals s hs).1, Or.inr (hstacks.signals s hs).2⟩
        · exact ⟨rfl, hsticky⟩

theorem onFrame_signals (frame : FeatureFrame) :
    ∀ s ∈ (d.onFrame traceId book frame).2, s.TracedBy traceId ∧
      (s ∈ d.stickySignals traceId book frame.timestamp ∨ s.kind = .densityStack) := by
  unfold onFrame
  split
  · exact fun _ hs => absurd hs List.not_mem_nil
  split
  · exact fun _ hs => absurd hs List.not_mem_nil
  · exact (checkStickyLevels_spec d frame.timestamp).2

/-! ## What becomes of a tracked level -/

/-- What pass 1 leaves of the level at a tick. -/
def keptLevel (d : DensityDetector) (book : OrderBook) (upd : OrderBookUpdate) (tick : ℤ) :
    Option LevelMeta :=
  if upd.ticker = d.ticker ∧
      ∃ c ∈ upd.changes, c.size ≤ 0 ∧ priceTickOf c.price book.inc.price = tick then none
  else d.tracked.lookup tick

/-- The changes for a tick that pass 2 takes up. -/
def takenUp (d : DensityDetector) (book : OrderBook) (upd : OrderBookUpdate) (tick : ℤ) :
    List PriceLevel :=
  if upd.ticker = d.ticker then
    match book.mid with
    | none => []
    | some mid =>
        upd.changes.filter (fun c => decide (c.size ≠ 0) &&
          { d with avgLevelSize := d.averageSize upd.changes }.qualifies mid c &&
          decide (priceTickOf c.price book.inc.price = tick))
  else []

/-- A change of the level at a tick. -/
def takeUp (now : TimePoint) (level : Option LevelMeta) (c : PriceLevel) : Option LevelMeta :=
  some (match level with
    | none => { side := c.side, initialSize := c.size, firstSeen := now }
    | some level => level.resize c.size now)

/-- What no step of the detector changes. -/
def SameSettings (d d' : DensityDetector) : Prop :=
  d'.ticker = d.ticker ∧ d'.cfg = d.cfg ∧ d'.densityMinSizeUsd = d.densityMinSizeUsd

theorem withdraw_spec (traceId : TraceId) (book : OrderBook) (now : TimePoint)
    (r : DensityDetector × List Signal) (c : PriceLevel) :
    SameSettings r.1 (withdraw traceId book now r c).1 ∧
      (withdraw traceId book now r c).1.avgLevelSize = r.1.avgLevelSize ∧
      ∀ tick, (withdraw traceId book now r c).1.tracked.lookup tick
        = if c.size ≤ 0 ∧ priceTickOf c.price book.inc.price = tick then none
          else r.1.tracked.lookup tick := by
  unfold withdraw
  by_cases hsize : 0 < c.size
  · rw [if_pos hsize]
    exact ⟨⟨rfl, rfl, rfl⟩, rfl, fun tick => (if_neg (fun h => absurd hsize (not_lt.2 h.1))).symm⟩
  rw [if_neg hsize]
  dsimp only
  cases hlookup : r.1.tracked.lookup (priceTickOf c.price book.inc.price) with
  | none =>
      refine ⟨⟨rfl, rfl, rfl⟩, rfl, fun tick => ?_⟩
      show r.1.tracked.lookup tick = _
      split
      · next h => rw [← h.2, hlookup]
      · rfl
  | some level =>
      refine ⟨⟨rfl, rfl, rfl⟩, rfl, fun tick => ?_⟩
      simp [SortedMap.lookup_erase, not_lt.1 hsize, eq_comm (a := tick)]

/-- Pass 1 drops the levels at the ticks of its removals. -/
theorem withdraw_foldl (traceId : TraceId) (book : OrderBook) (now : TimePoint)
    (changes : List PriceLevel) (r : DensityDetector × List Signal) :
    SameSettings r.1 (changes.foldl (withdraw traceId book now) r).1 ∧
      (changes.foldl (withdraw traceId book now) r).1.avgLevelSize = r.1.avgLevelSize ∧
      ∀ tick, (changes.foldl (withdraw traceId book now) r).1.tracked.lookup tick
        = if ∃ c ∈ changes, c.size ≤ 0 ∧ priceTickOf c.price book.inc.price = tick then none
          else r.1.tracked.lookup tick := by
  induction changes generalizing r with
  | nil => exact ⟨⟨rfl, rfl, rfl⟩, rfl, fun tick => by simp⟩
  | cons c changes ih =>
      obtain ⟨hset, havg, hlookup⟩ := withdraw_spec traceId book now r c
      obtain ⟨hset', havg', hlookup'⟩ := ih (withdraw traceId book now r c)
      refine ⟨⟨hset'.1.trans hset.1, hset'.2.1.trans hset.2.1, hset'.2.2.trans hset.2.2⟩,
        havg'.trans havg, fun tick => ?_⟩
      rw [List.foldl_cons, hlookup', hlookup]
      by_cases hc : c.size ≤ 0 ∧ priceTickOf c.price book.inc.price = tick
      · simp [hc]
      · simp only [List.mem_cons, exists_eq_or_imp, hc, false_or, if_false]

/-- Pass 2 takes up the qualifying changes of a tick one after the other. -/
theorem track_foldl (book : OrderBook) (mid : ℚ) (now : TimePoint) (changes : List PriceLevel)
    (d : DensityDetector) :
    changes.foldl (track book mid now) d
        = { d with tracked := (changes.foldl (track book mid now) d).tracked } ∧
      ∀ tick, (changes.foldl (track book mid now) d).tracked.lookup tick
        = (changes.filter (fun c => decide (c.size ≠ 0) && d.qualifies mid c &&
            decide (priceTickOf c.price book.inc.price = tick))).foldl (takeUp now)
              (d.tracked.lookup tick) := by
  induction changes generalizing d with
  | nil => exact ⟨rfl, fun _ => rfl⟩
  | cons c changes ih =>
      obtain ⟨hset, hlookup⟩ := ih (track book mid now d c)
      have hstep : track book mid now d c = { d with tracked := (track book mid now d c).tracked } := by
        unfold track
        split <;> rfl
      -- whether a change qualifies does not depend on the levels tracked so far
      have hqualifies : ∀ c', (track book mid now d c).qualifies mid c' = d.qualifies mid c' := by
        intro c'
        rw [hstep]
        rfl
      refine ⟨?_, fun tick => ?_⟩
      · rw [List.foldl_cons, hset, hstep]
      rw [List.foldl_cons, hlookup]
      simp only [hqualifies]
      by_cases hc : c.size ≠ 0 ∧ d.qualifies mid c = true
      · have htrack : (track book mid now d c).tracked.lookup tick
            = if tick = priceTickOf c.price book.inc.price then
                takeUp now (d.tracked.lookup tick) c
              else d.tracked.lookup tick := by
          unfold track
          rw [if_pos hc]
          dsimp only
          rw [SortedMap.lookup_insert]
          by_cases htick : tick = priceTickOf c.price book.inc.price
          · rw [if_pos htick, if_pos htick, htick]
            rfl
          · rw [if_neg htick, if_neg htick]
        rw [htrack]
        by_cases htick : tick = priceTickOf c.price book.inc.price
        · rw [if_pos htick, List.filter_cons_of_pos (by simp [hc, htick]), List.foldl_cons]
        · rw [if_neg htick, List.filter_cons_of_neg (by simp [hc, Ne.symm htick])]
      · have htrack : track book mid now d c = d := if_neg hc
        -- a change that does not qualify is skipped on both sides
        have hskip : ¬ (decide (c.size ≠ 0) && d.qualifies mid c &&
            decide (priceTickOf c.price book.inc.price = tick)) = true := by
          simp only [Bool.and_eq_true, decide_eq_true_eq]
          exact fun h => hc h.1
        rw [htrack, List.filter_cons, if_neg hskip]

theorem SameSettings.minSizeCalibrated {d' : DensityDetector} (h : SameSettings d d') :
    d'.minSizeCalibrated = d.minSizeCalibrated := by
  rw [DensityDetector.minSizeCalibrated, DensityDetector.minSizeCalibrated, h.2.1, h.2.2]

/-- What a book update makes of the level at a tick. -/
theorem onBookUpdate_spec (d : DensityDetector) (upd : OrderBookUpdate) :
    SameSettings d (d.onBookUpdate traceId book upd).1 ∧
      ∀ tick, (d.onBookUpdate traceId book upd).1.tracked.lookup tick
        = (d.takenUp book upd tick).foldl (takeUp upd.ts) (d.keptLevel book upd tick) := by
  unfold onBookUpdate takenUp keptLevel
  by_cases hticker : upd.ticker = d.ticker
  swap
  · -- an update for another ticker is ignored
    rw [if_pos hticker]
    exact ⟨⟨rfl, rfl, rfl⟩, fun tick => by simp [hticker]⟩
  obtain ⟨hset, havg, hlookup⟩ :=
    withdraw_foldl traceId book upd.ts upd.changes (d, [])
  simp only [ne_eq, hticker, not_true_eq_false, if_false, if_true, true_and]
  cases book.mid with
  -- without a mid price nothing new is tracked
  | none => exact ⟨hset, hlookup⟩
  | some mid =>
      dsimp only
      obtain ⟨htrack, htracked⟩ := track_foldl book mid upd.ts upd.changes
        { (upd.changes.foldl (withdraw traceId book upd.ts) (d, [])).1 with
          avgLevelSize :=
            (upd.changes.foldl (withdraw traceId book upd.ts) (d, [])).1.averageSize upd.changes }
      refine ⟨?_, fun tick => ?_⟩
      · rw [htrack]
        exact hset
      · rw [htracked, hlookup]
        -- the withdrawals change no setting that a new level is judged by
        have hqualifies : ∀ c : PriceLevel,
            { (upd.changes.foldl (withdraw traceId book upd.ts) (d, [])).1 with
              avgLevelSize := (upd.changes.foldl (withdraw traceId book upd.ts) (d, [])).1.averageSize
                upd.changes }.qualifies mid c
              = { d with avgLevelSize := d.averageSize upd.changes }.qualifies mid c := by
          intro c
          unfold qualifies averageSize
          rw [havg, hset.minSizeCalibrated, hset.2.1]
          unfold DensityDetector.minSizeCalibrated
          rw [hset.2.1, hset.2.2]
        simp only [hqualifies]

/-- A level that a change made of `start`: it keeps its side, has the new size, and is as old as before
    or new. -/
structure TakenFrom (now : TimePoint) (start : Option LevelMeta) (side : Side) (size : ℚ)
    (level : LevelMeta) : Prop where
  side : level.side = (start.map LevelMeta.side).getD side
  size : level.initialSize = size
  age : level.firstSeen = now ∨
    ∃ l, start = some l ∧ level.firstSeen = l.firstSeen ∧ level.emitted = l.emitted

theorem takeUp_spec {now : TimePoint} {start : Option LevelMeta} {c : PriceLevel} {level : LevelMeta}
    (h : takeUp now start c = some level) : TakenFrom now start c.side c.size level := by
  obtain rfl := Option.some.inj h
  cases start with
  | none => exact ⟨rfl, rfl, Or.inl rfl⟩
  | some l =>
      dsimp only [LevelMeta.resize]
      split
      · exact ⟨rfl, rfl, Or.inl rfl⟩
      · exact ⟨rfl, rfl, Or.inr ⟨l, rfl, rfl, rfl⟩⟩

/-- After several changes the level has the last size. -/
theorem takeUp_foldl {now : TimePoint} {level : LevelMeta} (c : PriceLevel)
    (changes : List PriceLevel) (start : Option LevelMeta)
    (h : (c :: changes).foldl (takeUp now) start = some level) :
    TakenFrom now start c.side ((c :: changes).getLast (List.cons_ne_nil _ _)).size level := by
  induction changes generalizing start c with
  | nil => exact takeUp_spec h
  | cons c' changes ih =>
      obtain ⟨l, hl⟩ : ∃ l, takeUp now start c = some l := ⟨_, rfl⟩
      rw [List.foldl_cons, hl] at h
      have hfirst := takeUp_spec hl
      have hrest := ih c' (some l) h
      refine ⟨hrest.side.trans hfirst.side, hrest.size, ?_⟩
      rcases hrest.age with hnow | ⟨l₁, hl₁, hseen, hemitted⟩
      · exact Or.inl hnow
      obtain rfl := Option.some.inj hl₁
      rcases hfirst.age with hnow | ⟨l', hl', hseen', hemitted'⟩
      · exact Or.inl (hseen.trans hnow)
      · exact Or.inr ⟨l', hl', hseen.trans hseen', hemitted.trans hemitted'⟩

/-- The hit level is tracked. -/
theorem lookup_of_hit {trade : Trade} {tick : ℤ} {level : LevelMeta}
    (h : d.hit? book trade = some (tick, level)) : d.tracked.lookup tick = some level := by
  obtain ⟨t, -, ht⟩ := List.exists_of_findSome?_eq_some h
  obtain ⟨l, hl, heq⟩ := Option.map_eq_some_iff.1 ht
  obtain ⟨rfl, rfl⟩ := Prod.mk.inj heq
  exact (Option.filter_eq_some_iff.1 hl).1

theorem core_hit (cfg : DensityConfig) (level : LevelMeta) (size : ℚ) (now : TimePoint) :
    (level.hit cfg size now).core = level.core := by
  unfold LevelMeta.hit
  dsimp only
  split <;> rfl

/-- A trade changes eating statistics only. -/
theorem onTrade_spec (traceId : TraceId) (book : OrderBook) (d : DensityDetector) (trade : Trade) :
    SameSettings d (d.onTrade traceId book trade).1 ∧
      ∀ tick, ((d.onTrade traceId book trade).1.tracked.lookup tick).map LevelMeta.core
        = (d.tracked.lookup tick).map LevelMeta.core := by
  have hinsert : ∀ {tick : ℤ} {level level' : LevelMeta}, d.tracked.lookup tick = some level →
      level'.core = level.core → ∀ t, ((d.tracked.insert tick level').lookup t).map LevelMeta.core
        = (d.tracked.lookup t).map LevelMeta.core := by
    intro tick level level' hlevel hcore t
    rw [SortedMap.lookup_insert]
    split
    · next ht => rw [ht, hlevel, Option.map_some, Option.map_some, hcore]
    · rfl
  unfold onTrade
  cases hhit : d.hit? book trade with
  | none => exact ⟨⟨rfl, rfl, rfl⟩, fun _ => rfl⟩
  | some hit =>
      obtain ⟨tick, level⟩ := hit
      have hlevel := lookup_of_hit hhit
      dsimp only
      split
      · exact ⟨⟨rfl, rfl, rfl⟩, hinsert hlevel (core_hit d.cfg level trade.size trade.timestamp)⟩
      · exact ⟨⟨rfl, rfl, rfl⟩, hinsert hlevel (core_hit d.cfg level trade.size trade.timestamp)⟩

/-- A frame drops levels, and marks others as reported. -/
theorem onFrame_spec (d : DensityDetector) (frame : FeatureFrame) :
    SameSettings d (d.onFrame traceId book frame).1 ∧
      ∀ tick level, (d.onFrame traceId book frame).1.tracked.lookup tick = some level →
        level.emitted = false → d.tracked.lookup tick = some level := by
  unfold onFrame
  split
  · exact ⟨⟨rfl, rfl, rfl⟩, fun _ _ h _ => h⟩
  split
  · exact ⟨⟨rfl, rfl, rfl⟩, fun _ _ h _ => h⟩
  rw [(checkStickyLevels_spec d frame.timestamp).1]
  refine ⟨⟨rfl, rfl, rfl⟩, fun tick level hlevel hemitted => ?_⟩
  obtain ⟨l, hl, heq⟩ := SortedMap.mem_filterMap.1 (SortedMap.lookup_eq_some.1 hlevel)
  dsimp only at hl heq
  split at heq
  swap
  · cases heq
  obtain rfl := Option.some.inj heq
  split at hemitted
  · cases hemitted
  · next hsticky =>
      rw [if_neg hsticky]
      exact SortedMap.lookup_eq_some.2 hl

end DensityDetector

/-! ## The controller -/

instance : Detection DensityWatch where
  onBookUpdate traceId upd w :=
    let book := w.book.applyUpdate upd
    let r := w.density.onBookUpdate traceId book upd
    ({ w with book := book, density := r.1 }, r.2)
  onTrade traceId trade w :=
    let r := w.density.onTrade traceId w.book trade
    ({ w with density := r.1 }, r.2)
  updateStream _ w := w
  extract traceId now w :=
    let r := w.extractor.extract now
      { bestBid := w.book.bestBid.getD 0
        bestAsk := w.book.bestAsk.getD 0
        mid := w.book.mid.getD 0
        derivedFrom := traceId }
    ({ w with extractor := r.1 }, r.2)
  onFrame traceId frame w :=
    let r := w.density.onFrame traceId w.book frame
    ({ w with density := r.1 }, r.2)
  onLeaderFrame _ w := w
  updateLeader _ _ w := w
  extract_timestamp _ _ _ := rfl
  onBookUpdate_traced _ upd _ s hs := (DensityDetector.onBookUpdate_signals upd s hs).1
  onTrade_traced _ trade _ s hs := (DensityDetector.onTrade_signals trade s hs).1
  onFrame_traced _ frame _ s hs := (DensityDetector.onFrame_signals frame s hs).1

/-- A call of the controller. -/
inductive MarketOp
  | snapshot (snap : OrderBookSnapshot)
  | update (traceId : TraceId) (upd : OrderBookUpdate)
  | trade (traceId : TraceId) (trade : Trade)
  | tick (traceId : TraceId) (now : TimePoint)

namespace MarketOp

/-- The time of a call. -/
def time : MarketOp → TimePoint
  | snapshot snap => snap.ts
  | update _ upd => upd.ts
  | trade _ t => t.timestamp
  | tick _ now => now

/-- The changes that a detector sees. -/
def changes : MarketOp → List PriceLevel
  | update _ upd => upd.changes
  | _ => []

/-- The tracked level at a tick that the operation does not withdraw. -/
def kept (w : DensityWatch) (tick : ℤ) : MarketOp → Option LevelMeta
  | update _ upd => w.density.keptLevel (w.book.applyUpdate upd) upd tick
  | _ => w.density.tracked.lookup tick

/-- The changes of the operation that the detector takes up for a tick. -/
def takenUp (w : DensityWatch) (tick : ℤ) : MarketOp → List PriceLevel
  | update _ upd => w.density.takenUp (w.book.applyUpdate upd) upd tick
  | _ => []

end MarketOp

namespace TickerController

/-- The controller of a ticker at its start. -/
def watching (ticker : Ticker) (inc : Increments) (invSqrt : ℚ) (densityMinSizeUsd : ℚ → ℚ) :
    TickerController DensityWatch :=
  { detection := .init ticker inc invSqrt densityMinSizeUsd }

/-- `on_orderbook_snapshot`; the consistency check before it only logs. -/
def onOrderbookSnapshot (snap : OrderBookSnapshot) (ctrl : TickerController DensityWatch) :
    TickerController DensityWatch :=
  { ctrl with
    detection := { ctrl.detection with book := ctrl.detection.book.applySnapshot snap }
    dirty := true }

/-- The controller after a call, and what was published. -/
def handle (ctrl : TickerController DensityWatch) :
    MarketOp → TickerController DensityWatch × List Signal
  | .snapshot snap => (ctrl.onOrderbookSnapshot snap, [])
  | .update traceId upd => ctrl.onBookUpdate traceId upd
  | .trade traceId trade => ctrl.onTrade traceId trade
  | .tick traceId now =>
      let r := ctrl.tick traceId now
      (r.1, r.2.2)

/-- The controller after some calls. -/
def handleAll (ctrl : TickerController DensityWatch) (ops : List MarketOp) :
    TickerController DensityWatch := ops.foldl (fun ctrl op => (ctrl.handle op).1) ctrl

variable (ctrl : TickerController DensityWatch)

/-- Nothing changes the settings and the increments. -/
theorem handle_settings (op : MarketOp) :
    ctrl.detection.density.SameSettings (ctrl.handle op).1.detection.density ∧
      (ctrl.handle op).1.detection.book.inc = ctrl.detection.book.inc := by
  cases op with
  | snapshot snap => exact ⟨⟨rfl, rfl, rfl⟩, rfl⟩
  | update traceId upd =>
      exact ⟨(DensityDetector.onBookUpdate_spec ctrl.detection.density upd).1,
        ctrl.detection.book.applyUpdate_inc upd⟩
  | trade traceId trade =>
      exact ⟨(DensityDetector.onTrade_spec traceId ctrl.detection.book ctrl.detection.density
        trade).1, rfl⟩
  | tick traceId now =>
      unfold handle TickerController.tick
      dsimp only
      split
      · exact ⟨⟨rfl, rfl, rfl⟩, rfl⟩
      · exact ⟨(DensityDetector.onFrame_spec ctrl.detection.density _).1, rfl⟩

/-- An unreported level is what the changes taken up make of a level that was tracked. -/
theorem handle_level (op : MarketOp) {tick : ℤ} {level : LevelMeta}
    (hlevel : (ctrl.handle op).1.detection.density.tracked.lookup tick = some level)
    (hemitted : level.emitted = false) :
    ∃ l, (op.takenUp ctrl.detection tick).foldl (DensityDetector.takeUp op.time)
      (op.kept ctrl.detection tick) = some l ∧ l.core = level.core := by
  cases op with
  | snapshot snap => exact ⟨level, hlevel, rfl⟩
  | update traceId upd =>
      exact ⟨level, ((DensityDetector.onBookUpdate_spec ctrl.detection.density upd).2 tick).symm.trans
        hlevel, rfl⟩
  | trade traceId trade =>
      have hcore := (DensityDetector.onTrade_spec traceId ctrl.detection.book
        ctrl.detection.density trade).2 tick
      have hlookup : (ctrl.detection.density.onTrade traceId ctrl.detection.book
          trade).1.tracked.lookup tick = some level := hlevel
      rw [hlookup, Option.map_some] at hcore
      obtain ⟨l, hl, heq⟩ := Option.map_eq_some_iff.1 hcore.symm
      exact ⟨l, hl, heq⟩
  | tick traceId now =>
      unfold handle TickerController.tick at hlevel
      dsimp only at hlevel
      split at hlevel
      · exact ⟨level, hlevel, rfl⟩
      · exact ⟨level, (DensityDetector.onFrame_spec ctrl.detection.density _).2 tick level hlevel
          hemitted, rfl⟩

/-- Densities are only reported by a tick, and these are the sticky ones. -/
theorem handle_detected (op : MarketOp) {s : Signal} (hs : s ∈ (ctrl.handle op).2)
    (hkind : s.kind = .densityDetected) :
    ∃ traceId now, op = .tick traceId now ∧
      s ∈ ctrl.detection.density.stickySignals traceId ctrl.detection.book now := by
  cases op with
  | snapshot snap => exact absurd hs List.not_mem_nil
  | update traceId upd =>
      have hremoved := (DensityDetector.onBookUpdate_signals upd s hs).2
      rw [hkind] at hremoved
      cases hremoved
  | trade traceId trade =>
      have heating := (DensityDetector.onTrade_signals trade s hs).2
      rw [hkind] at heating
      cases heating
  | tick traceId now =>
      refine ⟨traceId, now, rfl, ?_⟩
      unfold handle TickerController.tick at hs
      dsimp only at hs
      split at hs
      · exact absurd hs List.not_mem_nil
      · rcases (DensityDetector.onFrame_signals _ s hs).2 with hsticky | hstack
        · rw [withLeader_timestamp] at hsticky
          exact hsticky
        · rw [hkind] at hstack
          cases hstack

theorem handleAll_concat (start : TickerController DensityWatch) (history : List MarketOp)
    (op : MarketOp) : start.handleAll (history ++ [op]) = ((start.handleAll history).handle op).1 :=
  List.foldl_concat ..

theorem handleAll_settings (start : TickerController DensityWatch) (ops : List MarketOp) :
    start.detection.density.SameSettings (start.handleAll ops).detection.density ∧
      (start.handleAll ops).detection.book.inc = start.detection.book.inc := by
  refine Runs.invariant (fun ctrl : TickerController DensityWatch =>
    start.detection.density.SameSettings ctrl.detection.density ∧
      ctrl.detection.book.inc = start.detection.book.inc) (fun ctrl op h => ?_) ops ⟨⟨rfl, rfl, rfl⟩, rfl⟩
  obtain ⟨hset, hinc⟩ := ctrl.handle_settings op
  exact ⟨⟨hset.1.trans h.1.1, hset.2.1.trans h.1.2.1, hset.2.2.trans h.1.2.2⟩, hinc.trans h.2⟩

end TickerController

end TradeBot
