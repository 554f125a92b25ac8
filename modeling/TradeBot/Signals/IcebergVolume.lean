import TradeBot.Lib.Numbered
import TradeBot.Lib.Runs
import TradeBot.Signals.IcebergDetector

set_option autoImplicit false

/-! # The volume of an iceberg

A refill adds the volume of all trades that its book update is joined with, also of those that an
earlier refill has added already. In the runs in which no trade is joined with two refills of a level,
the volume of the level stays within that of its trades (`eaten_le_opposingVolume`).

`IcebergTally` runs the detector and keeps beside it which trades were added to which level, as
entries of the list of all trades, so that two equal trades are not taken for one. The bound then is
the one of `Numbered`: what is picked at most once adds up to no more than what could be picked. -/

namespace TradeBot

open Runs

/-- A call of the detector. -/
inductive IcebergOp
  | trade (trade : Trade)
  | bookUpdate (traceId : TraceId) (upd : OrderBookUpdate)
  | frame (frame : FeatureFrame)

namespace IcebergDetector

/-- A detector that has seen nothing. -/
def init (ticker : Ticker) (cfg : IcebergConfig) (priceIncrement : ℚ) (calibratedMinSizeUsd : ℚ → ℚ)
    (now : TimePoint) : IcebergDetector :=
  { ticker := ticker, cfg := cfg, priceIncrement := priceIncrement
    calibratedMinSizeUsd := calibratedMinSizeUsd, lastPrune := now }

/-- The detector after a call. The signals are left out. -/
def step (d : IcebergDetector) : IcebergOp → IcebergDetector
  | .trade trade => d.onTrade trade
  | .bookUpdate traceId upd => (d.onBookUpdate traceId upd).1
  | .frame frame => d.onFrame frame

/-- `total_eaten_vol` at a tick. -/
def eaten (d : IcebergDetector) (tick : ℤ) : ℚ := ((d.levels.lookup tick).map LevelStats.totalEatenVol).getD 0

/-- The detector after some calls. -/
def run (d : IcebergDetector) (ops : List IcebergOp) : IcebergDetector := ops.foldl step d

/-- The size of all trades at a tick against a side on which the tick was reported, each trade taken
    once. -/
def opposingVolume (d : IcebergDetector) (trades : List Trade) (changes : List PriceLevel) (tick : ℤ) :
    ℚ :=
  ((trades.filter (fun trade => changes.any (fun c =>
    decide (d.tickOf c.price = tick) && d.isMatch c trade))).map Trade.size).sum

/-- The trades of some events. -/
def receivedTrades (ops : List IcebergOp) : List Trade :=
  ops.flatMap (fun op => match op with
    | .trade trade => [trade]
    | _ => [])

/-- The changes that some events report for a ticker. -/
def reportedChanges (ticker : Ticker) (ops : List IcebergOp) : List PriceLevel :=
  ops.flatMap (fun op => match op with
    | .bookUpdate _ upd => if upd.ticker = ticker then upd.changes else []
    | _ => [])

end IcebergDetector

/-! ## What a refill adds -/

/-- A detector together with the trades that it received, the changes that were reported to it, and
    those of the trades that the volume of a tick is made of, with their positions. -/
structure IcebergTally where
  detector : IcebergDetector
  received : List Trade := []
  reported : List PriceLevel := []
  counted : ℤ → List (Trade × ℕ) := fun _ => []

namespace IcebergTally

variable (t : IcebergTally)

/-- The joined trades with their positions. -/
def joined (now : TimePoint) : List (Trade × ℕ) :=
  joinWindow t.detector.cfg.eventJoinWindow now (fun e => e.1.timestamp) (t.received.zipIdx.rtake 1024)

/-- The change is taken for a refill. -/
def isRefill (d : IcebergDetector) (trades : List Trade) (c : PriceLevel) : Bool :=
  match d.lastSizes.lookup (d.tickOf c.price) with
  | none => false
  | some sizeBefore =>
      decide (0 < d.matchedTradeVol trades c ∧ ¬ (sizeBefore ≤ 0 ∧ c.size ≤ 0)) &&
        d.isRefill (d.matchedTradeVol trades c) sizeBefore c.size

/-- A change, with the trades that a refill adds. -/
def onChange (traceId : TraceId) (now : TimePoint) (trades : List (Trade × ℕ)) (t : IcebergTally)
    (c : PriceLevel) : IcebergTally :=
  { t with
    detector := (t.detector.onChange traceId now (trades.map Prod.fst) c).1
    counted :=
      if isRefill t.detector (trades.map Prod.fst) c then
        Function.update t.counted (t.detector.tickOf c.price)
          (t.counted (t.detector.tickOf c.price)
            ++ trades.filter (fun e => t.detector.isMatch c e.1))
      else t.counted }

/-- A call, with the trades it receives and those it counts. -/
def step : IcebergOp → IcebergTally
  | .trade trade => { t with detector := t.detector.onTrade trade, received := t.received ++ [trade] }
  | .bookUpdate traceId upd =>
      if upd.ticker ≠ t.detector.ticker then t
      else
        upd.changes.foldl (onChange traceId upd.ts (t.joined upd.ts))
          { t with reported := t.reported ++ upd.changes }
  | .frame frame =>
      { t with
        detector := t.detector.onFrame frame
        counted := fun tick =>
          if (t.detector.onFrame frame).levels.lookup tick = none then [] else t.counted tick }

/-- The change is no refill, or none of the joined trades at its level is counted there already. -/
def NotYetCounted (trades : List (Trade × ℕ)) (t : IcebergTally) (c : PriceLevel) : Prop :=
  isRefill t.detector (trades.map Prod.fst) c = true →
    ∀ e ∈ trades, t.detector.isMatch c e.1 = true → e ∉ t.counted (t.detector.tickOf c.price)

instance (trades : List (Trade × ℕ)) (t : IcebergTally) :
    DecidablePred (NotYetCounted trades t) := fun _ => inferInstanceAs (Decidable (_ → ∀ e ∈ _, _))

/-- No change of a book update is a refill with a trade that its level has counted already, and no
    trade has a negative size. -/
def CountsOnce : IcebergOp → Prop
  | .trade trade => 0 ≤ trade.size
  | .bookUpdate traceId upd =>
      upd.ticker = t.detector.ticker →
        Along (onChange traceId upd.ts (t.joined upd.ts)) (NotYetCounted (t.joined upd.ts))
          { t with reported := t.reported ++ upd.changes } upd.changes
  | .frame _ => True

instance (t : IcebergTally) : DecidablePred t.CountsOnce
  | .trade trade => inferInstanceAs (Decidable (0 ≤ trade.size))
  | .bookUpdate traceId upd => inferInstanceAs (Decidable (upd.ticker = t.detector.ticker →
      Along (onChange traceId upd.ts (t.joined upd.ts)) (NotYetCounted (t.joined upd.ts))
        { t with reported := t.reported ++ upd.changes } upd.changes))
  | .frame _ => inferInstanceAs (Decidable True)

end IcebergTally

/-! ## The steps of the detector -/

namespace IcebergDetector

variable {d d' : IcebergDetector} {traceId : TraceId} {now : TimePoint} {trades : List Trade}
  {c : PriceLevel}

theorem totalEatenVol_refill (cfg : IcebergConfig) (stats : LevelStats) (isRefill : Bool)
    (tradeSize : ℚ) (ts : TimePoint) : (stats.refill cfg isRefill tradeSize ts).totalEatenVol
      = stats.totalEatenVol + if isRefill then tradeSize else 0 := by
  unfold LevelStats.refill LevelStats.updateBayesian
  split_ifs <;> simp

theorem eaten_insert (d : IcebergDetector) (tick tick' : ℤ) (stats : LevelStats) :
    eaten { d with levels := d.levels.insert tick stats } tick'
      = if tick' = tick then stats.totalEatenVol else d.eaten tick' := by
  unfold eaten
  rw [SortedMap.lookup_insert]
  split_ifs <;> rfl

theorem eaten_processRefill (d : IcebergDetector) (traceId : TraceId) (c : PriceLevel)
    (tradeSize sizeBefore : ℚ) (ts : TimePoint) (tick : ℤ) :
    (d.processRefill traceId c tradeSize sizeBefore ts).1.eaten tick = d.eaten tick +
      if tick = d.tickOf c.price ∧ ¬ (sizeBefore ≤ 0 ∧ c.size ≤ 0) ∧
          d.isRefill tradeSize sizeBefore c.size = true then tradeSize else 0 := by
  unfold processRefill
  by_cases hempty : sizeBefore ≤ 0 ∧ c.size ≤ 0
  · rw [if_pos hempty, if_neg (fun h => h.2.1 hempty), add_zero]
  · rw [if_neg hempty]
    have hstats : (((d.levels.lookup (d.tickOf c.price)).getD {}).refill d.cfg
        (d.isRefill tradeSize sizeBefore c.size) tradeSize ts).totalEatenVol
        = d.eaten (d.tickOf c.price)
          + if d.isRefill tradeSize sizeBefore c.size = true then tradeSize else 0 := by
      rw [totalEatenVol_refill, eaten]
      cases d.levels.lookup (d.tickOf c.price) <;> rfl
    by_cases htick : tick = d.tickOf c.price
    · subst htick
      simp only [hempty, not_false_eq_true, true_and]
      rw [← hstats]
      split_ifs <;> simp only [eaten_insert, if_pos]
    · have hother : ¬ (tick = d.tickOf c.price ∧ ¬ (sizeBefore ≤ 0 ∧ c.size ≤ 0) ∧
          d.isRefill tradeSize sizeBefore c.size = true) := fun h => htick h.1
      rw [if_neg hother, add_zero]
      dsimp only
      split_ifs <;> rw [eaten_insert, if_neg htick]

theorem eaten_onChange (d : IcebergDetector) (traceId : TraceId) (now : TimePoint)
    (trades : List Trade) (c : PriceLevel) (tick : ℤ) :
    (d.onChange traceId now trades c).1.eaten tick = d.eaten tick +
      if tick = d.tickOf c.price ∧ IcebergTally.isRefill d trades c = true then
        d.matchedTradeVol trades c else 0 := by
  unfold onChange IcebergTally.isRefill
  cases d.lastSizes.lookup (d.tickOf c.price) with
  | none => simp [eaten]
  | some sizeBefore =>
      dsimp only
      by_cases hpos : 0 < d.matchedTradeVol trades c
      · rw [if_pos hpos, eaten_processRefill]
        simp only [hpos, true_and, Bool.and_eq_true, decide_eq_true_eq]
        rfl
      · simp [hpos, eaten]

/-- The settings stay as they are. -/
structure Keeps (d d' : IcebergDetector) : Prop where
  ticker : d'.ticker = d.ticker
  cfg : d'.cfg = d.cfg
  priceIncrement : d'.priceIncrement = d.priceIncrement

theorem Keeps.refl (d : IcebergDetector) : Keeps d d := ⟨rfl, rfl, rfl⟩

theorem Keeps.trans {d'' : IcebergDetector} (h : Keeps d d') (h' : Keeps d' d'') : Keeps d d'' :=
  ⟨h'.ticker.trans h.ticker, h'.cfg.trans h.cfg, h'.priceIncrement.trans h.priceIncrement⟩

theorem Keeps.tickOf (h : Keeps d d') : d'.tickOf = d.tickOf := by
  funext price
  rw [IcebergDetector.tickOf, IcebergDetector.tickOf, h.priceIncrement]

theorem Keeps.isMatch (h : Keeps d d') : d'.isMatch = d.isMatch := by
  funext c trade
  rw [IcebergDetector.isMatch, IcebergDetector.isMatch, h.tickOf]

theorem onTrade_keeps (trade : Trade) : Keeps d (d.onTrade trade) := ⟨rfl, rfl, rfl⟩

theorem onChange_keeps : Keeps d (d.onChange traceId now trades c).1 := by
  unfold onChange processRefill
  split
  · exact ⟨rfl, rfl, rfl⟩
  · dsimp only
    split_ifs <;> exact ⟨rfl, rfl, rfl⟩

theorem tradeHistory_onChange : (d.onChange traceId now trades c).1.tradeHistory = d.tradeHistory := by
  unfold onChange processRefill
  split
  · rfl
  · dsimp only
    split_ifs <;> rfl

theorem foldl_onChange_keeps (changes : List PriceLevel) :
    Keeps d (changes.foldl (fun d c => (d.onChange traceId now trades c).1) d) := by
  induction changes generalizing d with
  | nil => exact Keeps.refl d
  | cons c changes ih => exact onChange_keeps.trans ih

theorem fst_onBookUpdate {upd : OrderBookUpdate} (hticker : upd.ticker = d.ticker) :
    (d.onBookUpdate traceId upd).1 = upd.changes.foldl
      (fun d' c => (d'.onChange traceId upd.ts (d.joined upd.ts) c).1) d := by
  rw [onBookUpdate, if_neg (not_not.2 hticker)]
  exact (List.foldl_hom Prod.fst (fun _ _ => rfl)).symm

theorem eaten_onTrade (d : IcebergDetector) (trade : Trade) (tick : ℤ) :
    (d.onTrade trade).eaten tick = d.eaten tick := by
  unfold eaten
  rfl

/-- A frame keeps a level or forgets it. -/
theorem lookup_onFrame (d : IcebergDetector) (frame : FeatureFrame) (tick : ℤ) :
    (d.onFrame frame).levels.lookup tick = none ∨
      (d.onFrame frame).levels.lookup tick = d.levels.lookup tick := by
  unfold onFrame
  split
  · exact Or.inr rfl
  split
  · exact Or.inr rfl
  split
  · rw [SortedMap.lookup_filterMap]
    cases d.levels.lookup tick with
    | none => exact Or.inl rfl
    | some stats =>
        rw [Option.bind_some]
        split_ifs
        · exact Or.inl rfl
        · exact Or.inr rfl
  · exact Or.inr rfl

theorem onFrame_keeps (frame : FeatureFrame) : Keeps d (d.onFrame frame) := by
  unfold onFrame
  split_ifs <;> exact ⟨rfl, rfl, rfl⟩

theorem tradeHistory_onFrame (frame : FeatureFrame) :
    (d.onFrame frame).tradeHistory = d.tradeHistory := by
  unfold onFrame
  split_ifs <;> rfl

theorem eaten_onFrame (d : IcebergDetector) (frame : FeatureFrame) (tick : ℤ) :
    (d.onFrame frame).eaten tick
      = if (d.onFrame frame).levels.lookup tick = none then 0 else d.eaten tick := by
  unfold eaten
  rcases lookup_onFrame d frame tick with hnone | hsame
  · rw [if_pos hnone, hnone]
    rfl
  · split_ifs with hnone
    · rw [hnone]
      rfl
    · rw [hsame]

theorem step_keeps (op : IcebergOp) : Keeps d (d.step op) := by
  cases op with
  | trade trade => exact onTrade_keeps trade
  | bookUpdate traceId upd =>
      by_cases hticker : upd.ticker = d.ticker
      · rw [step, fst_onBookUpdate hticker]
        exact foldl_onChange_keeps upd.changes
      · rw [step, onBookUpdate, if_pos hticker]
        exact Keeps.refl d
  | frame frame => exact onFrame_keeps frame

end IcebergDetector

/-! ## The tally is right -/

theorem joinWindow_map {α β : Type*} (window : ℤ) (now : TimePoint) (ts : α → TimePoint) (f : β → α)
    (l : List β) : joinWindow window now ts (l.map f)
      = (joinWindow window now (fun b => ts (f b)) l).map f := by
  rw [joinWindow, joinWindow, ← List.map_reverse, List.takeWhile_map, List.filter_map]
  rfl

theorem mem_of_mem_joinWindow {α : Type*} {window : ℤ} {now : TimePoint} {ts : α → TimePoint}
    {l : List α} {a : α} (h : a ∈ joinWindow window now ts l) : a ∈ l :=
  List.mem_reverse.1 ((List.takeWhile_sublist _).subset (List.mem_filter.1 h).1)

namespace IcebergTally

open IcebergDetector

/-- The volume of every tick is made of the trades that are counted there. -/
structure Sound (t : IcebergTally) : Prop where
  history : t.detector.tradeHistory.entries = t.received.rtake 1024
  eaten : ∀ tick, t.detector.eaten tick = ((t.counted tick).map (fun e => e.1.size)).sum
  counted : ∀ tick, ∀ e ∈ t.counted tick, e ∈ t.received.zipIdx ∧
    ∃ c ∈ t.reported, t.detector.tickOf c.price = tick ∧ t.detector.isMatch c e.1 = true

variable {t : IcebergTally} {traceId : TraceId} {now : TimePoint} {trades : List (Trade × ℕ)}
  {c : PriceLevel} {op : IcebergOp}

theorem Sound.map_joined (h : t.Sound) (now : TimePoint) :
    (t.joined now).map Prod.fst = t.detector.joined now := by
  rw [IcebergDetector.joined, h.history, ← Numbered.map_fst_rtake, joinWindow_map]
  rfl

theorem mem_received_of_joined {e : Trade × ℕ} (h : e ∈ t.joined now) : e ∈ t.received.zipIdx :=
  List.mem_of_mem_drop (mem_of_mem_joinWindow h)

theorem counted_onChange (tick : ℤ) : (onChange traceId now trades t c).counted tick
    = t.counted tick ++
      if tick = t.detector.tickOf c.price ∧ isRefill t.detector (trades.map Prod.fst) c = true then
        trades.filter (fun e => t.detector.isMatch c e.1)
      else [] := by
  rw [onChange]
  by_cases hrefill : isRefill t.detector (trades.map Prod.fst) c = true
  · by_cases htick : tick = t.detector.tickOf c.price
    · simp [hrefill, htick]
    · simp [hrefill, htick]
  · simp [hrefill]

theorem Sound.onChange (h : t.Sound) (hc : c ∈ t.reported)
    (htrades : ∀ e ∈ trades, e ∈ t.received.zipIdx) : (onChange traceId now trades t c).Sound := by
  have hkeeps : Keeps t.detector (IcebergTally.onChange traceId now trades t c).detector :=
    onChange_keeps
  have hvol : t.detector.matchedTradeVol (trades.map Prod.fst) c
      = ((trades.filter (fun e => t.detector.isMatch c e.1)).map (fun e => e.1.size)).sum := by
    rw [matchedTradeVol, List.filter_map, List.map_map]
    rfl
  refine ⟨?_, fun tick => ?_, fun tick e he => ?_⟩
  · exact (congrArg CircularBuffer.entries tradeHistory_onChange).trans h.history
  · rw [counted_onChange, List.map_append, List.sum_append, ← h.eaten]
    refine (eaten_onChange _ _ _ _ _ _).trans ?_
    split_ifs
    · rw [hvol]
    · rfl
  · rw [hkeeps.tickOf, hkeeps.isMatch]
    rw [counted_onChange, List.mem_append] at he
    rcases he with he | he
    · exact h.counted tick e he
    · split_ifs at he with hrefill
      · obtain ⟨hmem, hmatch⟩ := List.mem_filter.1 he
        exact ⟨htrades e hmem, c, hc, hrefill.1.symm, hmatch⟩
      · cases he

theorem Sound.foldl_onChange {changes : List PriceLevel} (h : t.Sound)
    (hc : ∀ c ∈ changes, c ∈ t.reported) (htrades : ∀ e ∈ trades, e ∈ t.received.zipIdx) :
    (changes.foldl (IcebergTally.onChange traceId now trades) t).Sound := by
  induction changes generalizing t with
  | nil => exact h
  | cons c changes ih =>
      obtain ⟨hfirst, hrest⟩ := List.forall_mem_cons.1 hc
      exact ih (h.onChange hfirst htrades) hrest htrades

theorem Sound.step (h : t.Sound) (op : IcebergOp) : (t.step op).Sound := by
  cases op with
  | trade trade =>
      refine ⟨CircularBuffer.entries_pushBack h.history trade, fun tick => ?_, fun tick e he => ?_⟩
      · exact (eaten_onTrade t.detector trade tick).trans (h.eaten tick)
      · obtain ⟨hmem, hreported⟩ := h.counted tick e he
        refine ⟨Numbered.mem_append hmem _, ?_⟩
        change ∃ c ∈ t.reported, (t.detector.onTrade trade).tickOf c.price = tick ∧
          (t.detector.onTrade trade).isMatch c e.1 = true
        -- a trade changes neither ticks nor what matches
        rw [(onTrade_keeps trade).tickOf, (onTrade_keeps trade).isMatch]
        exact hreported
  | bookUpdate traceId upd =>
      rw [IcebergTally.step]
      split_ifs with hticker
      · exact h
      · -- the changes are matched one by one, now that all of them are reported
        refine Sound.foldl_onChange ⟨h.history, h.eaten, fun tick e he => ?_⟩
          (fun c hc => List.mem_append_right _ hc) (fun e he => mem_received_of_joined he)
        obtain ⟨hmem, c, hc, hmatch⟩ := h.counted tick e he
        exact ⟨hmem, c, List.mem_append_left _ hc, hmatch⟩
  | frame frame =>
      have hkeeps : Keeps t.detector (t.detector.onFrame frame) := onFrame_keeps frame
      refine ⟨?_, fun tick => ?_, fun tick e he => ?_⟩
      · exact (congrArg CircularBuffer.entries (tradeHistory_onFrame frame)).trans h.history
      · -- a frame may forget what was eaten at a tick, together with its matches
        refine (eaten_onFrame t.detector frame tick).trans ?_
        rw [IcebergTally.step]
        dsimp only
        split_ifs
        · rfl
        · exact h.eaten tick
      · change _ ∧ ∃ c ∈ t.reported, (t.detector.onFrame frame).tickOf c.price = tick ∧
          (t.detector.onFrame frame).isMatch c e.1 = true
        rw [hkeeps.tickOf, hkeeps.isMatch]
        rw [IcebergTally.step] at he
        dsimp only at he
        split_ifs at he
        · cases he
        · exact h.counted tick e he

/-! ## Runs -/

theorem detector_foldl_onChange (changes : List PriceLevel) (t : IcebergTally) :
    (changes.foldl (IcebergTally.onChange traceId now trades) t).detector
      = changes.foldl (fun d c => (d.onChange traceId now (trades.map Prod.fst) c).1) t.detector :=
  (List.foldl_hom IcebergTally.detector (fun _ _ => rfl)).symm

theorem received_foldl_onChange (changes : List PriceLevel) (t : IcebergTally) :
    (changes.foldl (IcebergTally.onChange traceId now trades) t).received = t.received ∧
      (changes.foldl (IcebergTally.onChange traceId now trades) t).reported = t.reported := by
  induction changes generalizing t with
  | nil => exact ⟨rfl, rfl⟩
  | cons c changes ih => exact ih _

theorem Sound.detector_step (h : t.Sound) (op : IcebergOp) :
    (t.step op).detector = t.detector.step op := by
  cases op with
  | trade trade => rfl
  | bookUpdate traceId upd =>
      rw [IcebergTally.step, IcebergDetector.step]
      split_ifs with hticker
      · rw [onBookUpdate, if_pos hticker]
      · rw [detector_foldl_onChange, h.map_joined, fst_onBookUpdate (not_not.1 hticker)]
  | frame frame => rfl

theorem Sound.foldl_step (h : t.Sound) (ops : List IcebergOp) : (ops.foldl IcebergTally.step t).Sound :=
  Runs.invariant Sound (fun _ op h => h.step op) ops h

theorem Sound.detector_foldl (h : t.Sound) (ops : List IcebergOp) :
    (ops.foldl IcebergTally.step t).detector = t.detector.run ops := by
  induction ops generalizing t with
  | nil => rfl
  | cons op ops ih =>
      rw [List.foldl_cons, ih (h.step op), h.detector_step]
      rfl

theorem received_step (t : IcebergTally) (op : IcebergOp) :
    (t.step op).received = t.received ++ receivedTrades [op] ∧
      (t.step op).reported = t.reported ++ reportedChanges t.detector.ticker [op] := by
  cases op with
  | trade trade => exact ⟨rfl, (List.append_nil _).symm⟩
  | bookUpdate traceId upd =>
      rw [IcebergTally.step]
      by_cases hticker : upd.ticker = t.detector.ticker
      · rw [if_neg (not_not.2 hticker)]
        obtain ⟨hreceived, hreported⟩ := received_foldl_onChange upd.changes
          { t with reported := t.reported ++ upd.changes }
        rw [hreceived, hreported]
        simp [receivedTrades, reportedChanges, hticker]
      · simp [receivedTrades, reportedChanges, hticker]
  | frame frame => exact ⟨(List.append_nil _).symm, (List.append_nil _).symm⟩

theorem Sound.received_foldl (h : t.Sound) (ops : List IcebergOp) :
    (ops.foldl IcebergTally.step t).received = t.received ++ receivedTrades ops ∧
      (ops.foldl IcebergTally.step t).reported = t.reported ++ reportedChanges t.detector.ticker ops := by
  induction ops generalizing t with
  | nil => exact ⟨(List.append_nil _).symm, (List.append_nil _).symm⟩
  | cons op ops ih =>
      obtain ⟨hreceived, hreported⟩ := ih (h.step op)
      obtain ⟨hreceived', hreported'⟩ := received_step t op
      have hticker : (t.step op).detector.ticker = t.detector.ticker := by
        rw [h.detector_step, (step_keeps op).ticker]
      rw [List.foldl_cons, hreceived, hreported, hreceived', hreported', hticker]
      constructor
      · simp [receivedTrades]
      · simp [reportedChanges]

/-! ## Runs in which every trade counts once -/

theorem nodup_joined (t : IcebergTally) (now : TimePoint) : (t.joined now).Nodup := by
  have hreceived : (t.received.zipIdx.rtake 1024).Nodup :=
    (Numbered.nodup_zipIdx t.received).sublist (List.drop_sublist _ _)
  have hnewest := List.nodup_reverse.2 hreceived
  rw [joined, joinWindow]
  exact (hnewest.sublist (List.takeWhile_sublist _)).filter _

theorem nodup_onChange (htrades : trades.Nodup) (h : ∀ tick, (t.counted tick).Nodup)
    (hnew : NotYetCounted trades t c) (tick : ℤ) :
    ((onChange traceId now trades t c).counted tick).Nodup := by
  rw [counted_onChange]
  split_ifs with hrefill
  · refine List.Nodup.append (h tick) (htrades.filter _) (fun e hcounted he => ?_)
    obtain ⟨hmem, hmatch⟩ := List.mem_filter.1 he
    exact hnew hrefill.2 e hmem hmatch (hrefill.1 ▸ hcounted)
  · rw [List.append_nil]
    exact h tick

/-- No trade is counted twice, and none is negative. -/
structure Once (t : IcebergTally) : Prop where
  nodup : ∀ tick, (t.counted tick).Nodup
  nonneg : ∀ trade ∈ t.received, 0 ≤ trade.size

theorem Once.step (h : t.Once) (hop : t.CountsOnce op) : (t.step op).Once := by
  cases op with
  | trade trade =>
      refine ⟨h.nodup, fun trade' hmem => ?_⟩
      rcases List.mem_append.1 hmem with hmem | hmem
      · exact h.nonneg trade' hmem
      · rw [List.mem_singleton.1 hmem]
        exact hop
  | bookUpdate traceId upd =>
      refine ⟨fun tick => ?_, ?_⟩
      · rw [IcebergTally.step]
        split_ifs with hticker
        · exact h.nodup tick
        · exact (hop (not_not.1 hticker)).invariant (fun s => ∀ tick, (s.counted tick).Nodup)
            (fun _ _ hs hnew => nodup_onChange (t.nodup_joined upd.ts) hs hnew) h.nodup tick
      · rw [(received_step t (.bookUpdate traceId upd)).1]
        simpa [receivedTrades] using h.nonneg
  | frame frame =>
      refine ⟨fun tick => ?_, h.nonneg⟩
      rw [IcebergTally.step]
      dsimp only
      split_ifs
      · exact List.nodup_nil
      · exact h.nodup tick

theorem Sound.eaten_le (h : t.Sound) (honce : t.Once) (tick : ℤ) :
    t.detector.eaten tick ≤ t.detector.opposingVolume t.received t.reported tick := by
  rw [h.eaten, opposingVolume]
  refine Numbered.sum_picked_le (honce.nodup tick) (fun e he => (h.counted tick e he).1)
    (fun e he => ?_) honce.nonneg
  obtain ⟨-, c, hc, htick, hmatch⟩ := h.counted tick e he
  rw [List.any_eq_true]
  exact ⟨c, hc, by rw [htick, hmatch, decide_eq_true rfl]; rfl⟩

end IcebergTally

namespace IcebergDetector

variable (ticker : Ticker) (cfg : IcebergConfig) (priceIncrement : ℚ) (calibratedMinSizeUsd : ℚ → ℚ)
  (now : TimePoint)

theorem sound_init :
    IcebergTally.Sound { detector := init ticker cfg priceIncrement calibratedMinSizeUsd now } :=
  ⟨by simp [init], fun _ => rfl, fun _ _ h => absurd h List.not_mem_nil⟩

/-- In the runs in which no trade is joined with two refills of a level, the volume that is attributed
    to a tick is at most that of the opposing trades at the tick, each taken once. -/
theorem eaten_le_opposingVolume (ops : List IcebergOp)
    (h : Along IcebergTally.step IcebergTally.CountsOnce
      { detector := init ticker cfg priceIncrement calibratedMinSizeUsd now } ops) (tick : ℤ) :
    let d := (init ticker cfg priceIncrement calibratedMinSizeUsd now).run ops
    d.eaten tick ≤ d.opposingVolume (receivedTrades ops) (reportedChanges ticker ops) tick := by
  intro d
  have hsound := sound_init ticker cfg priceIncrement calibratedMinSizeUsd now
  have honce := h.invariant IcebergTally.Once (fun _ _ honce hop => honce.step hop)
    ⟨fun _ => List.nodup_nil, List.forall_mem_nil _⟩
  have hle := (hsound.foldl_step ops).eaten_le honce tick
  obtain ⟨hreceived, hreported⟩ := hsound.received_foldl ops
  rw [hsound.detector_foldl, hreceived, hreported] at hle
  exact hle

/-! A trade of 10 coins against an ask that stays at 10 coins. -/

/-- A report of ten coins offered, at a millisecond. -/
def askReport (ms : ℤ) : IcebergOp :=
  .bookUpdate 0 { ticker := "BTCUSDT", changes := [⟨50000, 10, .sell⟩], ts := ms * 1000000 }

/-- A trade that takes ten of them. -/
def askTrade (ms : ℤ) : IcebergOp := .trade ⟨50000, 10, .buy, ms * 1000000⟩

/-- Two refills a second apart. -/
theorem eaten_le_refilled :
    let d := (init "BTCUSDT" {} (1 / 100) id 0).run
      [askReport 0, askTrade 10, askReport 10, askTrade 1010, askReport 1010]
    0 < d.eaten 5000000 ∧ d.eaten 5000000 ≤ d.opposingVolume
      (receivedTrades [askReport 0, askTrade 10, askReport 10, askTrade 1010, askReport 1010])
      (reportedChanges "BTCUSDT" [askReport 0, askTrade 10, askReport 10, askTrade 1010, askReport 1010])
      5000000 :=
  ⟨by decide +kernel, eaten_le_opposingVolume "BTCUSDT" {} (1 / 100) id 0
    [askReport 0, askTrade 10, askReport 10, askTrade 1010, askReport 1010] (by decide +kernel) 5000000⟩

/-- The level is reported again before the trade leaves the window: its 10 coins count twice. -/
theorem eaten_twice :
    ¬ ∀ (ticker : Ticker) (cfg : IcebergConfig) (priceIncrement : ℚ) (calibratedMinSizeUsd : ℚ → ℚ)
        (now : TimePoint) (ops : List IcebergOp), (∀ trade ∈ receivedTrades ops, 0 ≤ trade.size) →
        ∀ tick, let d := (init ticker cfg priceIncrement calibratedMinSizeUsd now).run ops
          d.eaten tick ≤ d.opposingVolume (receivedTrades ops) (reportedChanges ticker ops) tick := by
  intro hall
  have hle := hall "BTCUSDT" {} (1 / 100) id 0
    [askReport 0, askTrade 10, askReport 10, askReport 60] (by decide +kernel) 5000000
  exact absurd hle (by decide +kernel)

end IcebergDetector

end TradeBot
