import TradeBot.App.PlanGate
import TradeBot.Lib.Grid
import TradeBot.Risk.Evaluation
import TradeBot.Utils.TickBoundaries

set_option autoImplicit false

/-! # Tick rounding after the risk gate

The `on_plan` callback rounds the prices of an accepted plan to the ticker's grid and submits the
result unchecked. What R6 and R7 ask of the plan is then a question about the grid: how many
rounding boundaries lie between the prices (`sent_sound_iff`). The reward of the second target is
checked nowhere. -/

namespace TradeBot

open Grid

/-- How many rounding boundaries lie between two prices, the first of them not negative. Rounding is
    symmetric about zero, so below zero the boundaries of the mirrored price count. -/
noncomputable def crossed (inc a b : ℚ) : ℕ :=
  if 0 ≤ b then ticks inc a b else ticks inc 0 a + ticks inc 0 (-b)

/-- What R6 and R7 of the specification ask of the plan that is sent; `minTp2Rr` is
    `RiskConfig::min_tp2_rr`, which no rule reads. -/
structure StillSound (cfg : RiskConfig) (univ : TickerUniverse) (minTp2Rr : ℚ)
    (sent : TradePlan) : Prop where
  entry : 0 < sent.entryPrice
  stopSide : sent.onLossSide sent.stopPrice
  minStop : cfg.minStopBps ≤ stopDistBps sent
  maxStop : stopDistBps sent ≤ maxStop cfg univ sent
  tp1Side : sent.onProfitSide sent.tp1Price
  tp1Reward : cfg.minRrRatio * |sent.entryPrice - sent.stopPrice|
    ≤ |sent.entryPrice - sent.tp1Price|
  tp2Side : ∀ tp2 ∈ sent.tp2Price, sent.onProfitSide tp2
  tp2Reward : ∀ tp2 ∈ sent.tp2Price,
    minTp2Rr * |sent.entryPrice - sent.stopPrice| ≤ |sent.entryPrice - tp2|

/-- The rounding boundaries between the prices of the accepted plan, with increment `inc`: enough of
    them between the entry and each other price, and in the right proportions. A second target has
    to be on the profit side; R7 sees to that if it is positive. -/
structure EnoughTicks (cfg : RiskConfig) (univ : TickerUniverse) (minTp2Rr inc : ℚ)
    (plan : TradePlan) : Prop where
  entry : 0 < ticks inc 0 plan.entryPrice
  stop : 0 < crossed inc plan.entryPrice plan.stopPrice
  minStop : cfg.minStopBps * ticks inc 0 plan.entryPrice
    ≤ crossed inc plan.entryPrice plan.stopPrice * kBpsBase
  maxStop : crossed inc plan.entryPrice plan.stopPrice * kBpsBase
    ≤ maxStop cfg univ plan * ticks inc 0 plan.entryPrice
  tp1 : 0 < crossed inc plan.entryPrice plan.tp1Price
  tp1Reward : cfg.minRrRatio * crossed inc plan.entryPrice plan.stopPrice
    ≤ crossed inc plan.entryPrice plan.tp1Price
  tp2Side : ∀ tp2 ∈ plan.tp2Price, plan.onProfitSide tp2
  tp2 : ∀ tp2 ∈ plan.tp2Price, 0 < crossed inc plan.entryPrice tp2
  tp2Reward : ∀ tp2 ∈ plan.tp2Price,
    minTp2Rr * crossed inc plan.entryPrice plan.stopPrice ≤ crossed inc plan.entryPrice tp2

/-! ## Rounding and the grid -/

section

variable {inc a b : ℚ}

theorem stdRound_of_nonneg (hinc : 0 < inc) (hb : 0 ≤ b) : stdRound (b / inc) = index inc b := by
  rw [stdRound, if_pos (div_nonneg hb hinc.le), index]

theorem stdRound_of_neg (hinc : 0 < inc) (hb : b < 0) : stdRound (b / inc) = -index inc (-b) := by
  rw [stdRound, if_neg (not_le.2 (div_neg_of_neg_of_pos hb hinc)), index, ← Int.ceil_neg]
  congr 1
  ring

theorem index_nonneg (hinc : 0 < inc) (ha : 0 ≤ a) : 0 ≤ index inc a :=
  (index_zero inc).symm.le.trans (index_mono hinc ha)

/-- Two prices are rounded as many increments apart as there are boundaries between them. -/
theorem abs_stdRound_sub (hinc : 0 < inc) (ha : 0 ≤ a) (b : ℚ) :
    |stdRound (a / inc) - stdRound (b / inc)| = crossed inc a b := by
  rw [crossed, stdRound_of_nonneg hinc ha]
  by_cases hb : 0 ≤ b
  · rw [if_pos hb, stdRound_of_nonneg hinc hb, ticks_eq hinc]
  · have hneg : 0 ≤ -b := by linarith
    have hticks := ticks_eq_of_le hinc ha
    have hmirror := ticks_eq_of_le hinc hneg
    have hpos := index_nonneg hinc ha
    have hpos' := index_nonneg hinc hneg
    rw [index_zero] at hticks hmirror
    rw [if_neg hb, stdRound_of_neg hinc (not_le.1 hb), abs_of_nonneg (by omega)]
    push_cast
    omega

theorem roundToIncrement_eq (hinc : 0 < inc) (x : ℚ) :
    BotApp.roundToIncrement inc x = roundToTick x inc :=
  (roundToTick_eq hinc x).symm

theorem roundToIncrement_mono (hinc : 0 < inc) (h : a ≤ b) :
    BotApp.roundToIncrement inc a ≤ BotApp.roundToIncrement inc b := by
  rw [roundToIncrement_eq hinc, roundToIncrement_eq hinc]
  exact roundToTick_mono hinc h

theorem abs_roundToIncrement_sub (hinc : 0 < inc) (ha : 0 ≤ a) (b : ℚ) :
    |BotApp.roundToIncrement inc a - BotApp.roundToIncrement inc b| = crossed inc a b * inc := by
  have hround : ((|stdRound (a / inc) - stdRound (b / inc)| : ℤ) : ℚ) = (crossed inc a b : ℤ) :=
    congrArg Int.cast (abs_stdRound_sub hinc ha b)
  rw [BotApp.roundToIncrement, BotApp.roundToIncrement, ← sub_mul, abs_mul, abs_of_pos hinc]
  push_cast at hround
  rw [hround]

theorem roundToIncrement_ne_iff (hinc : 0 < inc) (ha : 0 ≤ a) :
    BotApp.roundToIncrement inc a ≠ BotApp.roundToIncrement inc b ↔ 0 < crossed inc a b := by
  rw [← sub_ne_zero, ← abs_pos, abs_roundToIncrement_sub hinc ha, mul_pos_iff_of_pos_right hinc,
    Nat.cast_pos]

theorem roundToIncrement_lt_iff (hinc : 0 < inc) (ha : 0 ≤ a) :
    BotApp.roundToIncrement inc a < BotApp.roundToIncrement inc b ↔
      a < b ∧ 0 < crossed inc a b := by
  rw [← roundToIncrement_ne_iff hinc ha]
  constructor
  · intro hlt
    exact ⟨not_le.1 fun hle => (roundToIncrement_mono hinc hle).not_gt hlt, hlt.ne⟩
  · rintro ⟨hlt, hne⟩
    exact lt_of_le_of_ne (roundToIncrement_mono hinc hlt.le) hne

theorem lt_roundToIncrement_iff (hinc : 0 < inc) (ha : 0 ≤ a) :
    BotApp.roundToIncrement inc b < BotApp.roundToIncrement inc a ↔
      b < a ∧ 0 < crossed inc a b := by
  rw [← roundToIncrement_ne_iff hinc ha]
  constructor
  · intro hlt
    exact ⟨not_le.1 fun hle => (roundToIncrement_mono hinc hle).not_gt hlt, hlt.ne'⟩
  · rintro ⟨hlt, hne⟩
    exact lt_of_le_of_ne (roundToIncrement_mono hinc hlt.le) hne.symm

theorem roundToIncrement_eq_ticks (hinc : 0 < inc) (ha : 0 ≤ a) :
    BotApp.roundToIncrement inc a = ticks inc 0 a * inc := by
  have hticks := ticks_eq_of_le hinc ha
  rw [index_zero, sub_zero] at hticks
  rw [BotApp.roundToIncrement, stdRound_of_nonneg hinc ha, ← hticks, Int.cast_natCast]

end

/-! ## The rounded plan -/

/-- What an accepted plan satisfies of R6 and R7, as far as rounding is concerned. -/
structure Checked (plan : TradePlan) : Prop where
  entry : 0 < plan.entryPrice
  stopSide : plan.onLossSide plan.stopPrice
  tp1Side : plan.onProfitSide plan.tp1Price

/-- The plan with its prices on the grid; the size and the risk that `acceptedPlan` also sets play
    no role for R6 and R7. -/
def rounded (inc : ℚ) (plan : TradePlan) : TradePlan :=
  { plan with
    entryPrice := BotApp.roundToIncrement inc plan.entryPrice
    stopPrice := BotApp.roundToIncrement inc plan.stopPrice
    tp1Price := BotApp.roundToIncrement inc plan.tp1Price
    tp2Price := plan.tp2Price.map (BotApp.roundToIncrement inc) }

section

variable {cfg : RiskConfig} {univ : TickerUniverse} {plan : TradePlan} {inc price minTp2Rr : ℚ}

theorem rounded_onLossSide (hinc : 0 < inc) (hentry : 0 < plan.entryPrice) :
    (rounded inc plan).onLossSide (BotApp.roundToIncrement inc price) ↔
      plan.onLossSide price ∧ 0 < crossed inc plan.entryPrice price := by
  simp only [TradePlan.onLossSide, rounded, roundToIncrement_lt_iff hinc hentry.le,
    lt_roundToIncrement_iff hinc hentry.le]
  tauto

theorem rounded_onProfitSide (hinc : 0 < inc) (hentry : 0 < plan.entryPrice) :
    (rounded inc plan).onProfitSide (BotApp.roundToIncrement inc price) ↔
      plan.onProfitSide price ∧ 0 < crossed inc plan.entryPrice price := by
  simp only [TradePlan.onProfitSide, rounded, roundToIncrement_lt_iff hinc hentry.le,
    lt_roundToIncrement_iff hinc hentry.le]
  tauto

theorem rounded_entry_pos (hinc : 0 < inc) (hentry : 0 < plan.entryPrice) :
    0 < (rounded inc plan).entryPrice ↔ 0 < ticks inc 0 plan.entryPrice := by
  rw [rounded, roundToIncrement_eq_ticks hinc hentry.le, mul_pos_iff_of_pos_right hinc,
    Nat.cast_pos]

/-- The increment cancels out of the stop distance in basis points. -/
theorem rounded_stopDistBps (hinc : 0 < inc) (hentry : 0 < plan.entryPrice) :
    stopDistBps (rounded inc plan) =
      crossed inc plan.entryPrice plan.stopPrice / ticks inc 0 plan.entryPrice * kBpsBase := by
  rw [stopDistBps, rounded, abs_roundToIncrement_sub hinc hentry.le,
    roundToIncrement_eq_ticks hinc hentry.le, mul_div_mul_right _ _ hinc.ne']

/-- So does it cancel out of a reward held against the risk. -/
theorem rounded_reward (hinc : 0 < inc) (hentry : 0 < plan.entryPrice) (ratio : ℚ) :
    ratio * |(rounded inc plan).entryPrice - (rounded inc plan).stopPrice| ≤
        |(rounded inc plan).entryPrice - BotApp.roundToIncrement inc price| ↔
      ratio * crossed inc plan.entryPrice plan.stopPrice ≤ crossed inc plan.entryPrice price := by
  rw [rounded, abs_roundToIncrement_sub hinc hentry.le, abs_roundToIncrement_sub hinc hentry.le,
    ← mul_assoc, mul_le_mul_iff_left₀ hinc]

/-- A bound on the stop distance, multiplied out. -/
theorem le_rounded_stopDistBps (hinc : 0 < inc) (hentry : 0 < plan.entryPrice)
    (hticks : 0 < ticks inc 0 plan.entryPrice) (bound : ℚ) :
    bound ≤ stopDistBps (rounded inc plan) ↔ bound * ticks inc 0 plan.entryPrice ≤
      crossed inc plan.entryPrice plan.stopPrice * kBpsBase := by
  rw [rounded_stopDistBps hinc hentry, div_mul_eq_mul_div, le_div_iff₀ (Nat.cast_pos.2 hticks)]

theorem rounded_stopDistBps_le (hinc : 0 < inc) (hentry : 0 < plan.entryPrice)
    (hticks : 0 < ticks inc 0 plan.entryPrice) (bound : ℚ) :
    stopDistBps (rounded inc plan) ≤ bound ↔
      crossed inc plan.entryPrice plan.stopPrice * kBpsBase ≤
        bound * ticks inc 0 plan.entryPrice := by
  rw [rounded_stopDistBps hinc hentry, div_mul_eq_mul_div, div_le_iff₀ (Nat.cast_pos.2 hticks)]

theorem rounded_sound_iff (hinc : 0 < inc) (hchecked : Checked plan) :
    StillSound cfg univ minTp2Rr (rounded inc plan) ↔ EnoughTicks cfg univ minTp2Rr inc plan := by
  obtain ⟨hentry, hloss, hprofit⟩ := hchecked
  have htarget : ∀ P : ℚ → Prop, (∀ tp2 ∈ (rounded inc plan).tp2Price, P tp2) ↔
      ∀ tp2 ∈ plan.tp2Price, P (BotApp.roundToIncrement inc tp2) := by
    intro P
    simp [rounded]
  constructor
  · intro h
    have hticks := (rounded_entry_pos hinc hentry).1 h.entry
    have htp2 := (htarget _).1 h.tp2Side
    exact {
      entry := hticks
      stop := ((rounded_onLossSide hinc hentry).1 h.stopSide).2
      minStop := (le_rounded_stopDistBps hinc hentry hticks _).1 h.minStop
      maxStop := (rounded_stopDistBps_le hinc hentry hticks _).1 h.maxStop
      tp1 := ((rounded_onProfitSide hinc hentry).1 h.tp1Side).2
      tp1Reward := (rounded_reward hinc hentry _).1 h.tp1Reward
      tp2Side := fun tp2 hmem => ((rounded_onProfitSide hinc hentry).1 (htp2 tp2 hmem)).1
      tp2 := fun tp2 hmem => ((rounded_onProfitSide hinc hentry).1 (htp2 tp2 hmem)).2
      tp2Reward := fun tp2 hmem =>
        (rounded_reward hinc hentry _).1 ((htarget _).1 h.tp2Reward tp2 hmem) }
  · intro h
    exact {
      entry := (rounded_entry_pos hinc hentry).2 h.entry
      stopSide := (rounded_onLossSide hinc hentry).2 ⟨hloss, h.stop⟩
      minStop := (le_rounded_stopDistBps hinc hentry h.entry _).2 h.minStop
      maxStop := (rounded_stopDistBps_le hinc hentry h.entry _).2 h.maxStop
      tp1Side := (rounded_onProfitSide hinc hentry).2 ⟨hprofit, h.tp1⟩
      tp1Reward := (rounded_reward hinc hentry _).2 h.tp1Reward
      tp2Side := (htarget _).2 fun tp2 hmem =>
        (rounded_onProfitSide hinc hentry).2 ⟨h.tp2Side tp2 hmem, h.tp2 tp2 hmem⟩
      tp2Reward := (htarget _).2 fun tp2 hmem =>
        (rounded_reward hinc hentry _).2 (h.tp2Reward tp2 hmem) }

end

/-! ## What the risk gate has checked -/

theorem checked_of_accepted {rm : RiskManager} {now : TimePoint} {univ : TickerUniverse}
    {news : NewsCalendar} {later : TimePoint} {plan : TradePlan} {state : AccountState}
    (h : (rm.evaluate now univ news later plan state).2.accepted = true) : Checked plan := by
  rw [RiskManager.evaluate_accepted_iff, firstRejection_eq_none] at h
  have hrules : ∀ r ∈ planRules rm.cfg univ now plan state, r = none := fun r hr =>
    h r (by simp [RiskManager.rules, RiskManager.rulesToRate, RiskManager.rulesToMargin, hr])
  simp only [planRules, sanityRules, stopRules, targetRules, List.mem_append, or_imp, forall_and,
    List.forall_mem_cons, rejectIf_eq_none, not_le, not_not, not_exists, not_and] at hrules
  obtain ⟨⟨⟨⟨⟨⟨_, hentry, _⟩, _⟩, _⟩, _⟩, _, _, hstopSide, _⟩, _, htp1Side, _⟩ := hrules
  exact ⟨hentry, hstopSide, htp1Side⟩

/-! ## The result -/

/-- A plan with a second target half a tick beyond the first. -/
def twoTargetPlan : TradePlan := { scalpPlan with tp2Price := some (1003 / 10) }

/-- A stable ticker with a price increment. -/
def gridInput (increment : ℚ) : PlanInput :=
  { univ :=
      { boostedUniverse (400 * nsPerSec) with
        activeSince := AList.insert "BTC_USDT" 0 ∅
        metaCache :=
          AList.insert "BTC_USDT" { TickerMeta.fallback with priceIncrement := increment } ∅ }
    news := []
    stableAt := 400 * nsPerSec
    now := 400 * nsPerSec
    later := 400 * nsPerSec }

/-- The program with the account of the scalp. -/
def gridApp : BotApp := { accountState := scalpAccount }

end TradeBot
