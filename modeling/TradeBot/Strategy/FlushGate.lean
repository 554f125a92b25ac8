import TradeBot.Signals.DensityDetector
import TradeBot.Strategy.FlushReversal

set_option autoImplicit false

/-! # What a reversal plan has passed

A plan of FlushReversal trades a level break back that has come with stop-outs and has died down. C8 is
to keep it from trading against a density that is being eaten in the direction of the flush. A
`DensityEating` carries the side of the density, which after a break downwards is the bid; C8 looks for
the ask.

The condition of the result is on what the context holds when the plan is made: a `DensityEating`
that is recent enough for C8 to be looked at. Everything else that the plan has passed is stated
check by check. -/

namespace TradeBot

namespace FlushReversal

section

variable (cfg : Config) (now : TimePoint) (s : StrategyBase)

/-- The side of the trades that made the break. -/
def flushText (flushedDown : Bool) : String := if flushedDown then "Sell" else "Buy"

/-- The side of the densities that these trades eat. -/
def eatenText (flushedDown : Bool) : String := restingSide (if flushedDown then .buy else .sell)

/-- The volume of the last second on the side of the flush. -/
def flushVol1s (frame : FeatureFrame) (flushedDown : Bool) : ℚ :=
  if flushedDown then frame.sellVol1s else frame.buyVol1s

/-- The volume of the last five seconds on that side. -/
def flushVol5s (frame : FeatureFrame) (flushedDown : Bool) : ℚ :=
  if flushedDown then frame.sellVol5s else frame.buyVol5s

/-- What a plan on the break `brk` is to promise, apart from the price having turned. -/
structure GateSound (brk : Signal) (plan : StrategyPlan) : Prop where
  side : plan.side = if brk.payload.distBps < 0 then .buy else .sell
  distance : s.threshold cfg.tierMinFlushDistBps cfg.minFlushDistBps ≤ |brk.payload.distBps|
  touches : cfg.minLevelTouches ≤ brk.payload.touches
  count : 1 < cfg.minFlushCount → cfg.minFlushCount ≤ s.ctx.signalHistory.countP (fun sig =>
    decide (now - sig.timestamp ≤ seconds cfg.flushCountWindow) && decide (sig.kind = .tapeFlush))
  flush : ∃ flush ∈ s.ctx.recentSignals .tapeFlush,
    now - flush.timestamp ≤ seconds cfg.tapeFlushMaxAge ∧
      brk.timestamp - flush.timestamp ≤ seconds 3
  faded : flushVol1s s.ctx.lastFrame (decide (brk.payload.distBps < 0)) < cfg.maxVolFadeRatio *
    max 1 (flushVol5s s.ctx.lastFrame (decide (brk.payload.distBps < 0)) / 5)
  burst : ∀ burst ∈ s.ctx.recentSignals .tapeBurst, now - burst.timestamp ≤ seconds 5 →
    burst.payload.side ≠ flushText (decide (brk.payload.distBps < 0))
  eating : ∀ eating ∈ s.ctx.recentSignals .densityEating, now - eating.timestamp ≤ seconds 5 →
    eating.payload.side ≠ eatenText (decide (brk.payload.distBps < 0))

end

/-! ## The checks one by one -/

section

variable {cfg : Config} {now : TimePoint} {s : StrategyBase} {brk : Signal}

theorem volFadeRatio_lt_iff {frame : FeatureFrame} {flushedDown : Bool} {limit : ℚ} :
    volFadeRatio frame flushedDown < limit ↔
      flushVol1s frame flushedDown < limit * max 1 (flushVol5s frame flushedDown / 5) := by
  have hfloor : max 1 (if 0 < flushVol5s frame flushedDown then flushVol5s frame flushedDown / 5 else 1)
      = max 1 (flushVol5s frame flushedDown / 5) := by
    by_cases hvol : 0 < flushVol5s frame flushedDown
    · rw [if_pos hvol]
    · rw [if_neg hvol, max_self, max_eq_left (by linarith)]
  have hpos : (0 : ℚ) < max 1 (flushVol5s frame flushedDown / 5) := lt_max_of_lt_left one_pos
  rw [← div_lt_iff₀ hpos, ← hfloor]
  rfl

theorem tapeFlush?_eq_some {flush : Signal} (h : tapeFlush? cfg now s brk = some flush) :
    (flush ∈ s.ctx.recentSignals .tapeFlush ∧
      now - flush.timestamp ≤ seconds cfg.tapeFlushMaxAge ∧
      brk.timestamp - flush.timestamp ≤ seconds 3) ∧
    (1 < cfg.minFlushCount → cfg.minFlushCount ≤ s.ctx.signalHistory.countP (fun sig =>
      decide (now - sig.timestamp ≤ seconds cfg.flushCountWindow) && decide (sig.kind = .tapeFlush))) := by
  simp only [tapeFlush?, Option.bind_eq_bind, Option.bind_eq_some_iff, Option.guard_eq_some',
    exists_const, Option.pure_def, Option.some.injEq] at h
  obtain ⟨flush', hrecent, hbreak, hcount, rfl⟩ := h
  obtain ⟨hmem, hage⟩ := StrategyContext.recent?_eq_some.1 hrecent
  refine ⟨⟨hmem, hage, by linarith⟩, fun hmany => ?_⟩
  have hwindow (sig : Signal) : now - seconds cfg.flushCountWindow ≤ sig.timestamp ↔
      now - sig.timestamp ≤ seconds cfg.flushCountWindow := by
    constructor <;> intro h <;> linarith
  simp only [hwindow] at hcount
  exact hcount.resolve_left (not_le.2 hmany)

theorem any_recent?_eq_false {kind : SignalKind} {maxAge : TimePoint} {p : Signal → Bool} :
    (s.ctx.recent? kind maxAge now).any p = false ↔
      ∀ sig ∈ s.ctx.recentSignals kind, now - sig.timestamp ≤ maxAge → p sig = false := by
  rw [Option.any_eq_false_iff_get]
  constructor
  · intro h sig hsig hage
    have hrecent := StrategyContext.recent?_eq_some.2 ⟨hsig, hage⟩
    simpa [hrecent] using h
  · intro h hsome
    obtain ⟨hsig, hage⟩ := StrategyContext.recent?_eq_some.1 (Option.some_get hsome).symm
    exact h _ hsig hage

/-- C7 finds a burst on the side of the flush, and C8 a density eaten on the other side of the book. -/
theorem not_isContinued_iff {flushedDown : Bool} :
    isContinued now s (if flushedDown then .buy else .sell) = false ↔
      (∀ burst ∈ s.ctx.recentSignals .tapeBurst, now - burst.timestamp ≤ seconds 5 →
        burst.payload.side ≠ flushText flushedDown) ∧
      ∀ eating ∈ s.ctx.recentSignals .densityEating, now - eating.timestamp ≤ seconds 5 →
        eating.payload.side ≠ eatenText (!flushedDown) := by
  rw [isContinued, Bool.or_eq_false_iff, any_recent?_eq_false, any_recent?_eq_false]
  cases flushedDown <;> simp [Side.isText, flushText, eatenText, restingSide]

theorem restingSide_eq (side : Side) (flushedDown : Bool) :
    restingSide side = eatenText flushedDown ∨ restingSide side = eatenText (!flushedDown) := by
  cases side <;> cases flushedDown <;> simp [eatenText, restingSide]

/-! ## Returned plans -/

theorem plan?_passed {plan : StrategyPlan} (hbrk : brk ∈ s.ctx.recentSignals .levelBreak)
    (h : plan? cfg now s = some plan) :
    (GateSound cfg now s brk plan ↔
      ∀ eating ∈ s.ctx.recentSignals .densityEating, now - eating.timestamp ≤ seconds 5 →
        eating.payload.side ≠ eatenText (decide (brk.payload.distBps < 0))) ∧
    ∀ eating ∈ s.ctx.recentSignals .densityEating, now - eating.timestamp ≤ seconds 5 →
      eating.payload.side ≠ eatenText (!decide (brk.payload.distBps < 0)) := by
  simp only [plan?, Option.bind_eq_bind, Option.bind_eq_some_iff, Option.guard_eq_some',
    exists_const] at h
  obtain ⟨-, -, brk', hbrk', hdistance, htouches, flush, hflush, hfaded, -, hquiet, hplan⟩ := h
  cases Option.mem_unique hbrk' hbrk
  obtain ⟨hlatest, hcount⟩ := tapeFlush?_eq_some hflush
  obtain ⟨hburst, heating⟩ := not_isContinued_iff.1 ((Bool.not_eq_true' _).mp hquiet)
  have hside : plan.side = if brk.payload.distBps < 0 then .buy else .sell := by
    simp only [planOn, Option.bind_eq_bind, Option.bind_eq_some_iff, Option.guard_eq_some',
      exists_const, Option.pure_def, Option.some.injEq] at hplan
    obtain ⟨-, rfl⟩ := hplan
    simp [StrategyBase.traced]
  exact ⟨⟨GateSound.eating, fun hcontinues => ⟨hside, hdistance, htouches, hcount, ⟨flush, hlatest⟩,
    volFadeRatio_lt_iff.1 hfaded, hburst, hcontinues⟩⟩, heating⟩

/-- Of the plans made while every `DensityEating` carries the side of a density, those keep the promise
    that are made without one of the last five seconds. -/
theorem onSignal_gateSound_iff {plan : StrategyPlan}
    (hemitted : ∀ eating ∈ s.ctx.recentSignals .densityEating,
      ∃ side, eating.payload.side = restingSide side)
    (h : ((playbook cfg).onSignal brk now s).2 = some plan) :
    GateSound cfg now (s.notice brk) brk plan ↔
      ∀ eating ∈ s.ctx.recentSignals .densityEating, seconds 5 < now - eating.timestamp := by
  have hbrk := (playbook cfg).recentSignals_of_onSignal h
  have hkept : (s.notice brk).ctx.recentSignals .densityEating = s.ctx.recentSignals .densityEating := by
    rw [StrategyBase.notice, StrategyContext.updateSignal_recent,
      (playbook cfg).kind_of_onSignal h]
    exact if_neg (by decide : SignalKind.densityEating ≠ .levelBreak)
  obtain ⟨hiff, hother⟩ := plan?_passed hbrk ((playbook cfg).onSignal_snd h)
  rw [hiff, hkept]
  rw [hkept] at hother
  constructor
  · intro hnot eating heating
    by_contra hage
    -- a density is on the one side of the book or on the other
    obtain ⟨side, hside⟩ := hemitted eating heating
    rcases restingSide_eq side (decide (brk.payload.distBps < 0)) with htext | htext
    · exact hnot eating heating (not_lt.1 hage) (hside.trans htext)
    · exact hother eating heating (not_lt.1 hage) (hside.trans htext)
  · exact fun hold eating heating hage => absurd hage (hold eating heating).not_ge

end

/-! ## A bid eaten after a break downwards -/

/-- The frame of a break downwards that has turned. -/
def turnedFrame : FeatureFrame where
  ticker := "T"
  spreadBps := 2
  sellVol1s := 5
  sellVol5s := 200
  buyVol1s := 5
  buyVol5s := 100
  priceChange1s := 1 / 10

/-- An aggressive print below the level. -/
def stopOut (timestamp : TimePoint) : Signal where
  kind := .tapeFlush
  timestamp := timestamp
  ticker := "T"
  price := 49970
  payload := { side := "Sell", deltaBps := -6 }

/-- A bid that is being eaten. -/
def bidEaten (timestamp : TimePoint) : Signal where
  kind := .densityEating
  timestamp := timestamp
  ticker := "T"
  price := 49960
  payload := { side := "Bid", eatenRatio := 3 / 5 }

/-- The price is 5 basis points below the level. -/
def breakDown : Signal where
  kind := .levelBreak
  timestamp := seconds 10
  ticker := "T"
  price := 50000
  payload := { distBps := -5, touches := 2 }

/-- Two stop-outs in the last seconds, after a bid has been eaten. -/
def flushedState (eatenAt : TimePoint) : StrategyBase :=
  [bidEaten eatenAt, stopOut (seconds 8), stopOut (seconds 9)].foldl (fun s sig => s.notice sig)
    { ticker := "T", priceIncrement := 1 / 100, ctx := { lastFrame := turnedFrame } }

theorem flushedState_eating (eatenAt : TimePoint) :
    (flushedState eatenAt).ctx.recentSignals .densityEating = some (bidEaten eatenAt) := by
  simp [flushedState, StrategyBase.notice, StrategyContext.updateSignal_recent, stopOut, bidEaten]

theorem flushedState_emitted (eatenAt : TimePoint) :
    ∀ eating ∈ (flushedState eatenAt).ctx.recentSignals .densityEating,
      ∃ side, eating.payload.side = restingSide side := by
  rw [flushedState_eating]
  rintro _ ⟨⟩
  exact ⟨.buy, rfl⟩

/-- A bid eaten ten seconds ago does not count. -/
theorem onSignal_gateSound_iff_flushed : ∃ plan,
    ((playbook {}).onSignal breakDown (seconds 10) (flushedState 0)).2 = some plan ∧
      GateSound {} (seconds 10) ((flushedState 0).notice breakDown) breakDown plan := by
  obtain ⟨plan, hplan⟩ := Option.isSome_iff_exists.1
    (by decide +kernel : ((playbook {}).onSignal breakDown (seconds 10) (flushedState 0)).2.isSome)
  refine ⟨plan, hplan, (onSignal_gateSound_iff (flushedState_emitted 0) hplan).2 ?_⟩
  rw [flushedState_eating]
  rintro _ ⟨⟩
  decide

/-- A bid eaten one second ago does not keep a long from being planned. -/
theorem bidEaten_planned : ∃ plan,
    ((playbook {}).onSignal breakDown (seconds 10) (flushedState (seconds 9))).2 = some plan ∧
      ¬ GateSound {} (seconds 10) ((flushedState (seconds 9)).notice breakDown) breakDown plan := by
  obtain ⟨plan, hplan⟩ := Option.isSome_iff_exists.1
    (by decide +kernel :
      ((playbook {}).onSignal breakDown (seconds 10) (flushedState (seconds 9))).2.isSome)
  have heating : ((flushedState (seconds 9)).notice breakDown).ctx.recentSignals .densityEating
      = some (bidEaten (seconds 9)) := by
    rw [StrategyBase.notice, StrategyContext.updateSignal_recent, if_neg (by decide),
      flushedState_eating]
  exact ⟨plan, hplan, fun hsound =>
    hsound.eating (bidEaten (seconds 9)) heating (by decide) (by decide +kernel)⟩

end FlushReversal

end TradeBot
