import TradeBot.Risk.RiskManager
import TradeBot.Strategy.Monitoring
import TradeBot.Utils.TickBoundaries

set_option autoImplicit false

/-! # The prices of the plans

Each strategy derives entry, stop and first target from prices of its own and rounds them to ticks. Only
BounceFromDensity, BreakoutEatThrough and FlushReversal look at what rounding has left of the risk, and
only BreakoutEatThrough at what it has left of the reward. A plan is well formed exactly if the prices
before rounding are in order and enough rounding boundaries lie between them (`plan_wellFormed_iff`).

Rounding is monotone, so the order of two prices survives it exactly if a boundary of rounding lies
between them. All four strategies come down to this: `Spaced` says for each of them which prices
these are, in terms of the signals that the plan is made of and before anything is rounded. -/

namespace TradeBot

/-- The factor with which prices grow towards the profit. -/
def Side.sign (side : Side) : ℚ := if side = .buy then 1 else -1

/-- The stop is on the loss side of the entry, and the first target on the profit side. -/
def TradePlan.WellFormed (plan : TradePlan) : Prop :=
  plan.onLossSide plan.stopPrice ∧ plan.onProfitSide plan.tp1Price

instance (plan : TradePlan) : Decidable plan.WellFormed := inferInstanceAs (Decidable (_ ∧ _))

/-- The stop, before rounding, is below the entry, and `tp1R` times the boundaries between them are at
    least half a tick; more than half a tick where the entry is rounded below zero. -/
def Bracketed (inc tp1R stop entry : ℚ) : Prop :=
  stop < entry ∧
    if -(inc / 2) < entry then 1 / 2 ≤ tp1R * boundaryCount inc stop entry
    else 1 / 2 < tp1R * boundaryCount inc stop entry

/-! ## Rounded prices -/

section

variable {inc tp1R stop entry : ℚ} {side : Side}

theorem Side.sign_mul_roundToTick (hinc : 0 < inc) (side : Side) (x : ℚ) :
    side.sign * roundToTick x inc = roundToTick (side.sign * x) inc := by
  by_cases hbuy : side = .buy
  · rw [Side.sign, if_pos hbuy, one_mul, one_mul]
  · rw [Side.sign, if_neg hbuy, neg_one_mul, neg_one_mul, roundToTick_neg hinc]

theorem Side.roundToTick_sign_mul_ne {x y : ℚ} (hinc : 0 < inc) (side : Side)
    (hne : roundToTick x inc ≠ roundToTick y inc) :
    roundToTick (side.sign * x) inc ≠ roundToTick (side.sign * y) inc := by
  rw [← Side.sign_mul_roundToTick hinc, ← Side.sign_mul_roundToTick hinc]
  have hsign : side.sign ≠ 0 := by
    rw [Side.sign]
    split <;> norm_num
  exact fun heq => hne (mul_left_cancel₀ hsign heq)

theorem wellFormed_iff {plan : TradePlan} (hside : plan.side = .buy ∨ plan.side = .sell) :
    plan.WellFormed ↔
      plan.side.sign * plan.stopPrice < plan.side.sign * plan.entryPrice ∧
        plan.side.sign * plan.entryPrice < plan.side.sign * plan.tp1Price := by
  rw [TradePlan.WellFormed, TradePlan.onLossSide, TradePlan.onProfitSide]
  rcases hside with h | h
  · simp [h, Side.sign]
  · simp [h, Side.sign]

/-- A plan whose prices are rounded one by one. -/
theorem wellFormed_iff_boundaryCount {plan : TradePlan} {tp1 : ℚ} (hinc : 0 < inc)
    (hside : side = .buy ∨ side = .sell) (hsame : plan.side = side)
    (hentry : plan.entryPrice = roundToTick entry inc) (hstop : plan.stopPrice = roundToTick stop inc)
    (htp1 : plan.tp1Price = roundToTick tp1 inc) :
    plan.WellFormed ↔ 0 < boundaryCount inc (side.sign * stop) (side.sign * entry) ∧
      0 < boundaryCount inc (side.sign * entry) (side.sign * tp1) := by
  subst hsame
  rw [wellFormed_iff hside, hentry, hstop, htp1, Side.sign_mul_roundToTick hinc,
    Side.sign_mul_roundToTick hinc, Side.sign_mul_roundToTick hinc, roundToTick_lt_iff hinc,
    roundToTick_lt_iff hinc]

/-- Stop and entry are rounded apart. Then the target, as many times the risk away, is beyond the entry
    exactly if they are bracketed. -/
theorem bracketed_iff (hinc : 0 < inc) (hne : roundToTick entry inc ≠ roundToTick stop inc) :
    (roundToTick stop inc < roundToTick entry inc ∧
        roundToTick entry inc < roundToTick
          (roundToTick entry inc + tp1R * |roundToTick entry inc - roundToTick stop inc|) inc)
      ↔ Bracketed inc tp1R stop entry := by
  rw [Bracketed]
  by_cases horder : stop < entry
  · have hround := lt_of_le_of_ne (roundToTick_mono hinc horder.le) hne.symm
    -- the target, counted in ticks
    have htarget : roundToTick entry inc + tp1R * |roundToTick entry inc - roundToTick stop inc|
        = stdRound (entry / inc) * inc + tp1R * boundaryCount inc stop entry * inc := by
      rw [abs_of_pos (sub_pos.2 hround), boundaryCount_of_le hinc horder.le, roundToTick_eq hinc,
        roundToTick_eq hinc]
      ring
    rw [and_iff_right hround, and_iff_right horder, htarget, roundToTick_eq hinc entry,
      lt_roundToTick_add_iff hinc]
    simp only [stdRound_nonneg_iff hinc]
  · have hround := roundToTick_mono hinc (not_lt.1 horder)
    exact iff_of_false (fun h => absurd h.1 hround.not_gt) (fun h => horder h.1)

/-- A plan whose target is `tp1R` times the rounded risk away from the entry. -/
theorem wellFormed_iff_bracketed {plan : TradePlan} (hinc : 0 < inc)
    (hside : plan.side = .buy ∨ plan.side = .sell) (hentry : plan.entryPrice = roundToTick entry inc)
    (hstop : plan.stopPrice = roundToTick stop inc)
    (htp1 : plan.tp1Price = roundToTick
      (if plan.side = .buy then plan.entryPrice + tp1R * |plan.entryPrice - plan.stopPrice|
        else plan.entryPrice - tp1R * |plan.entryPrice - plan.stopPrice|) inc)
    (hrisk : 0 < |plan.entryPrice - plan.stopPrice|) :
    plan.WellFormed ↔ Bracketed inc tp1R (plan.side.sign * stop) (plan.side.sign * entry) := by
  have hsigned : plan.side.sign * (if plan.side = .buy
        then plan.entryPrice + tp1R * |plan.entryPrice - plan.stopPrice|
        else plan.entryPrice - tp1R * |plan.entryPrice - plan.stopPrice|)
      = plan.side.sign * plan.entryPrice
        + tp1R * |plan.side.sign * plan.entryPrice - plan.side.sign * plan.stopPrice| := by
    by_cases hbuy : plan.side = .buy
    · rw [if_pos hbuy, Side.sign, if_pos hbuy]
      simp only [one_mul]
    · rw [if_neg hbuy, Side.sign, if_neg hbuy, ← mul_sub, abs_mul, abs_neg, abs_one]
      ring
  have hne : roundToTick (plan.side.sign * entry) inc ≠ roundToTick (plan.side.sign * stop) inc := by
    refine plan.side.roundToTick_sign_mul_ne hinc ?_
    rw [← hentry, ← hstop]
    exact sub_ne_zero.1 (abs_pos.1 hrisk)
  rw [wellFormed_iff hside, ← bracketed_iff hinc hne, htp1, Side.sign_mul_roundToTick hinc, hsigned,
    hentry, hstop, Side.sign_mul_roundToTick hinc, Side.sign_mul_roundToTick hinc]

/-- A price `b` before the price `a`, counted towards the profit. -/
theorem Side.sign_mul_before (side : Side) (a b : ℚ) :
    side.sign * (if side = .buy then a - b else a + b) = side.sign * a - b := by
  by_cases hbuy : side = .buy
  · rw [if_pos hbuy, Side.sign, if_pos hbuy]
    ring
  · rw [if_neg hbuy, Side.sign, if_neg hbuy]
    ring

theorem Side.sign_mul_beyond (side : Side) (a b : ℚ) :
    side.sign * (if side = .buy then a + b else a - b) = side.sign * a + b := by
  by_cases hbuy : side = .buy
  · rw [if_pos hbuy, Side.sign, if_pos hbuy]
    ring
  · rw [if_neg hbuy, Side.sign, if_neg hbuy]
    ring

end

/-! ## BounceFromDensity -/

namespace BounceFromDensity

variable {cfg : Config} {now : TimePoint} {s : StrategyBase}

/-- The stop behind the cluster of the density and the entry at the level are bracketed. -/
def SpacedOn (cfg : Config) (now : TimePoint) (s : StrategyBase) (approach density : Signal)
    (side : Side) : Prop :=
  let anchor := stopAnchorPrice cfg now s density side
  Bracketed s.priceIncrement cfg.tp1R
    (side.sign * anchor - anchor * (cfg.stopBufferBps / kBpsBase))
    (side.sign * approach.price + approach.price * (cfg.entryOffsetBps / kBpsBase))

/-- Whatever approach and density the plan is made of, its prices are spaced. -/
def Spaced (cfg : Config) (now : TimePoint) (s : StrategyBase) : Prop :=
  ∀ approach ∈ approach? cfg now s, ∀ density ∈ density? cfg now s approach.price,
    SpacedOn cfg now s approach density (if density.payload.side = "Bid" then .buy else .sell)

theorem planOn_wellFormed_iff {approach density : Signal} {side : Side} {plan : StrategyPlan}
    (hinc : 0 < s.priceIncrement) (hside : side = .buy ∨ side = .sell)
    (h : planOn cfg now s approach density side = some plan) :
    plan.WellFormed ↔ SpacedOn cfg now s approach density side := by
  simp only [planOn, Option.bind_eq_bind, Option.bind_eq_some_iff, Option.guard_eq_some',
    exists_const, Option.pure_def, Option.some.injEq] at h
  obtain ⟨-, hrisk, rfl⟩ := h
  rw [SpacedOn, ← Side.sign_mul_before, ← Side.sign_mul_beyond]
  exact wellFormed_iff_bracketed hinc hside rfl rfl rfl hrisk

theorem plan?_wellFormed_iff {plan : StrategyPlan} (hinc : 0 < s.priceIncrement)
    (h : plan? cfg now s = some plan) : plan.WellFormed ↔ Spaced cfg now s := by
  simp only [plan?, Option.bind_eq_bind, Option.bind_eq_some_iff, Option.guard_eq_some',
    exists_const] at h
  obtain ⟨-, approach, happroach, density, hdensity, -, -, -, -, -, -, -, -, -, -, hplan⟩ := h
  rw [planOn_wellFormed_iff hinc (ite_eq_or_eq _ _ _) hplan, Spaced]
  constructor
  · intro hspaced approach' happroach' density' hdensity'
    cases Option.mem_unique happroach' happroach
    cases Option.mem_unique hdensity' hdensity
    exact hspaced
  · exact fun hall => hall approach happroach density hdensity

end BounceFromDensity

/-! ## BreakoutEatThrough -/

namespace BreakoutEatThrough

variable {cfg : Config} {now : TimePoint} {s : StrategyBase}

/-- The stop behind the support and the entry beyond the density are bracketed. -/
def SpacedOn (cfg : Config) (s : StrategyBase) (eating support : Signal) (side : Side) : Prop :=
  Bracketed s.priceIncrement cfg.tp1R
    (side.sign * support.price - support.price * (cfg.stopBufferBps / kBpsBase))
    (side.sign * eating.price + eating.price * (cfg.aggressiveOffsetBps / kBpsBase))

/-- Whatever densities the plan is made of, its prices are spaced. -/
def Spaced (cfg : Config) (now : TimePoint) (s : StrategyBase) : Prop :=
  ∀ eating ∈ s.ctx.recentSignals .densityEating,
    let side := if eating.payload.side = "Ask" then Side.buy else Side.sell
    ∀ support ∈ support? cfg now s eating side, SpacedOn cfg s eating support side

theorem planOn_wellFormed_iff {eating burst support : Signal} {side : Side} {plan : StrategyPlan}
    (hinc : 0 < s.priceIncrement) (hside : side = .buy ∨ side = .sell)
    (h : planOn cfg now s eating burst support side = some plan) :
    plan.WellFormed ↔ SpacedOn cfg s eating support side := by
  simp only [planOn, Option.bind_eq_bind, Option.bind_eq_some_iff, Option.guard_eq_some',
    exists_const, Option.pure_def, Option.some.injEq] at h
  obtain ⟨hrisk, -, -, rfl⟩ := h
  rw [SpacedOn, ← Side.sign_mul_before, ← Side.sign_mul_beyond]
  exact wellFormed_iff_bracketed hinc hside rfl rfl rfl hrisk

theorem plan?_wellFormed_iff {plan : StrategyPlan} (hinc : 0 < s.priceIncrement)
    (h : plan? cfg now s = some plan) : plan.WellFormed ↔ Spaced cfg now s := by
  simp only [plan?, Option.bind_eq_bind, Option.bind_eq_some_iff, Option.guard_eq_some',
    exists_const] at h
  obtain ⟨-, -, eating, heating, -, burst, -, -, -, -, -, -, -, support, hsupport, -, hplan⟩ := h
  rw [planOn_wellFormed_iff hinc (ite_eq_or_eq _ _ _) hplan, Spaced]
  constructor
  · intro hspaced eating' heating' side' support' hsupport'
    cases Option.mem_unique heating' heating
    cases Option.mem_unique hsupport' hsupport
    exact hspaced
  · exact fun hall => hall eating heating support hsupport

end BreakoutEatThrough

/-! ## FlushReversal -/

namespace FlushReversal

variable {cfg : Config} {now : TimePoint} {s : StrategyBase}

/-- The entry is nearer to the broken level than the stop, and a boundary lies between the entry and
    the target. -/
def SpacedOn (cfg : Config) (s : StrategyBase) (brk : Signal) (side : Side) : Prop :=
  let offsetBps := s.threshold cfg.tierEntryOffsetBps cfg.entryOffsetBps
  let entry := side.sign * brk.price - brk.price * (offsetBps / kBpsBase)
  offsetBps < cfg.stopBufferBps ∧ 0 < boundaryCount s.priceIncrement entry
    (entry + cfg.tp1R * (brk.price * ((cfg.stopBufferBps - offsetBps) / kBpsBase)))

/-- Whatever break the plan is made of, its prices are spaced. -/
def Spaced (cfg : Config) (s : StrategyBase) : Prop :=
  ∀ brk ∈ s.ctx.recentSignals .levelBreak,
    SpacedOn cfg s brk (if brk.payload.distBps < 0 then .buy else .sell)

/-- The target is a multiple of the risk before rounding away from the entry. -/
theorem sign_mul_target (side : Side) (r price offset buffer : ℚ) :
    side.sign * (if side = .buy
        then (if side = .buy then price - offset else price + offset)
          + r * ((if side = .buy then price - offset else price + offset)
            - (if side = .buy then price - buffer else price + buffer))
        else (if side = .buy then price - offset else price + offset)
          - r * ((if side = .buy then price - buffer else price + buffer)
            - (if side = .buy then price - offset else price + offset)))
      = side.sign * price - offset + r * (buffer - offset) := by
  by_cases hbuy : side = .buy
  · simp only [hbuy, if_true, Side.sign]
    ring
  · simp only [hbuy, if_false, Side.sign]
    ring

theorem planOn_wellFormed_iff {brk flush : Signal} {side : Side} {plan : StrategyPlan}
    (hinc : 0 < s.priceIncrement) (hprice : 0 < brk.price) (hside : side = .buy ∨ side = .sell)
    (h : planOn cfg now s brk flush side = some plan) :
    plan.WellFormed ↔ SpacedOn cfg s brk side := by
  simp only [planOn, Option.bind_eq_bind, Option.bind_eq_some_iff, Option.guard_eq_some',
    exists_const, Option.pure_def, Option.some.injEq] at h
  obtain ⟨hrisk, rfl⟩ := h
  have hbps : (0 : ℚ) < kBpsBase := by norm_num [kBpsBase]
  have hne := side.roundToTick_sign_mul_ne hinc (Ne.symm hrisk)
  refine (wellFormed_iff_boundaryCount hinc hside rfl rfl rfl rfl).trans ?_
  rw [boundaryCount_pos_iff_lt hinc hne, sign_mul_target, Side.sign_mul_before, Side.sign_mul_before,
    sub_lt_sub_iff_left, mul_lt_mul_iff_right₀ hprice, div_lt_div_iff_of_pos_right hbps, ← mul_sub,
    ← sub_div, SpacedOn]

theorem plan?_wellFormed_iff {plan : StrategyPlan} (hinc : 0 < s.priceIncrement)
    (hprices : ∀ sig, s.ctx.Received sig → 0 < sig.price)
    (h : plan? cfg now s = some plan) : plan.WellFormed ↔ Spaced cfg s := by
  simp only [plan?, Option.bind_eq_bind, Option.bind_eq_some_iff, Option.guard_eq_some',
    exists_const, decide_eq_true_eq] at h
  obtain ⟨-, -, brk, hbrk, -, -, flush, -, -, -, -, hplan⟩ := h
  rw [planOn_wellFormed_iff hinc (hprices brk (Or.inl ⟨_, hbrk⟩)) (ite_eq_or_eq _ _ _) hplan, Spaced]
  constructor
  · intro hspaced brk' hbrk'
    cases Option.mem_unique hbrk' hbrk
    exact hspaced
  · exact fun hall => hall brk hbrk

end FlushReversal

/-! ## LeaderLag -/

namespace LeaderLag

variable {l : LeaderLag} {now : TimePoint}

/-- How far before the middle the stop is: at the last swing if that is nearer than 1.5 times the
    default distance. -/
def stopDistance (l : LeaderLag) (mid : ℚ) (side : Side) : ℚ :=
  let dist := mid * (l.threshold l.cfg.tierStopDistanceBps l.cfg.stopDistanceBps / 10000)
  let lookback := toSizeT l.cfg.swingLookbackTicks
  let swing := if side = .buy then l.findSwingLow lookback else l.findSwingHigh lookback
  let away := side.sign * mid - side.sign * swing
  if 0 < swing ∧ 0 < away ∧ away < dist * (3 / 2) then away else dist

/-- A boundary lies between the stop and the middle, and one between the middle and the target. -/
def SpacedOn (l : LeaderLag) (move : Signal) (side : Side) : Prop :=
  let mid := l.ctx.lastFrame.mid
  let catchup := mid * (|move.payload.lagPct| * 100 * l.cfg.tp1CatchupRatio / 10000)
  0 < boundaryCount l.priceIncrement (side.sign * mid - l.stopDistance mid side) (side.sign * mid) ∧
    0 < boundaryCount l.priceIncrement (side.sign * mid) (side.sign * mid + catchup)

/-- Whatever move the plan is made of, its prices are spaced. -/
def Spaced (l : LeaderLag) (now : TimePoint) : Prop :=
  ∀ move ∈ l.ctx.recent? .leaderMove (l.cfg.lagMaxAge * 1000000) now,
    l.SpacedOn move (if 0 < move.payload.lagPct then .buy else .sell)

theorem sign_mul_stopPrice (mid : ℚ) {side : Side} (hside : side = .buy ∨ side = .sell) :
    side.sign * l.stopPrice mid side = side.sign * mid - l.stopDistance mid side := by
  rcases hside with rfl | rfl
  · have hnear : ∀ swing dist : ℚ,
        (0 < mid - swing ∧ mid - swing < dist * (3 / 2)) ↔
          (mid - dist * (3 / 2) < swing ∧ swing < mid) :=
      fun swing dist => ⟨fun h => ⟨by linarith, by linarith⟩, fun h => ⟨by linarith, by linarith⟩⟩
    simp only [stopPrice, stopDistance, Side.sign, if_true, one_mul, hnear]
    split_ifs with hswing
    · rw [max_eq_left hswing.2.1.le]
      ring
    · rfl
  · have hnear : ∀ swing dist : ℚ,
        (0 < -1 * mid - -1 * swing ∧ -1 * mid - -1 * swing < dist * (3 / 2)) ↔
          (mid < swing ∧ swing < mid + dist * (3 / 2)) :=
      fun swing dist => ⟨fun h => ⟨by linarith, by linarith⟩, fun h => ⟨by linarith, by linarith⟩⟩
    simp only [stopPrice, stopDistance, Side.sign, reduceCtorEq, if_false, hnear]
    split_ifs with hswing
    · rw [min_eq_left hswing.2.2.le]
      ring
    · ring

theorem planOn_wellFormed_iff {move : Signal} {side : Side} (hinc : 0 < l.priceIncrement)
    (hside : side = .buy ∨ side = .sell) :
    (l.planOn now move side).WellFormed ↔ l.SpacedOn move side := by
  refine (wellFormed_iff_boundaryCount hinc hside rfl rfl rfl rfl).trans ?_
  rw [sign_mul_stopPrice _ hside, Side.sign_mul_beyond, SpacedOn]

theorem plan?_wellFormed_iff {plan : StrategyPlan} (hinc : 0 < l.priceIncrement)
    (h : l.plan? now = some plan) : plan.WellFormed ↔ l.Spaced now := by
  simp only [plan?, Option.bind_eq_bind, Option.bind_eq_some_iff, Option.guard_eq_some',
    exists_const, Option.pure_def, Option.some.injEq] at h
  obtain ⟨move, hmove, -, -, -, -, -, rfl⟩ := h
  rw [planOn_wellFormed_iff hinc (ite_eq_or_eq _ _ _), Spaced]
  constructor
  · intro hspaced move' hmove'
    cases Option.mem_unique hmove' hmove
    exact hspaced
  · exact fun hall => hall move hmove

/-- A tick plans only if the entry conditions are met. -/
theorem tick_snd {plan : StrategyPlan} (h : (l.tick now).2 = some plan) : l.plan? now = some plan := by
  unfold tick at h
  dsimp only at h
  rw [l.plan?_of_plans] at h
  split at h
  · exact absurd h (by simp)
  · cases hentry : l.plan? now with
    | none => simp [hentry] at h
    | some plan' => simpa [hentry] using h

end LeaderLag

/-! ## All strategies -/

/-- The strategies that plan, with their configurations. -/
inductive PlanningStrategy
  | bounceFromDensity (cfg : BounceFromDensity.Config) (base : StrategyBase)
  | breakoutEatThrough (cfg : BreakoutEatThrough.Config) (base : StrategyBase)
  | flushReversal (cfg : FlushReversal.Config) (base : StrategyBase)
  | leaderLag (l : LeaderLag)

namespace PlanningStrategy

open AnyStrategy (Call)

/-- As one of the strategies of the engine. -/
def strategy : PlanningStrategy → AnyStrategy
  | bounceFromDensity cfg base => .eventDriven (BounceFromDensity.playbook cfg) base
  | breakoutEatThrough cfg base => .eventDriven (BreakoutEatThrough.playbook cfg) base
  | flushReversal cfg base => .eventDriven (FlushReversal.playbook cfg) base
  | leaderLag l => .leaderLag l

/-- The prices a call plans with are in order and far enough apart. The first three plan on a signal,
    after it has been noticed, and LeaderLag in `tick`. -/
def Spaced : PlanningStrategy → Call → Prop
  | bounceFromDensity cfg base, .onSignal signal now =>
      BounceFromDensity.Spaced cfg now (base.notice signal)
  | breakoutEatThrough cfg base, .onSignal signal now =>
      BreakoutEatThrough.Spaced cfg now (base.notice signal)
  | flushReversal cfg base, .onSignal signal _ => FlushReversal.Spaced cfg (base.notice signal)
  | leaderLag l, .tick now => l.Spaced now
  | _, _ => True

/-- The prices of the context, its last frame and the signal that arrives. -/
structure PositivePrices (s : PlanningStrategy) (c : Call) : Prop where
  received : ∀ sig, s.strategy.base.ctx.Received sig → 0 < sig.price
  frame : 0 < s.strategy.base.ctx.lastFrame.bestBid ∧ 0 < s.strategy.base.ctx.lastFrame.mid ∧
    0 < s.strategy.base.ctx.lastFrame.bestAsk
  arriving : match c with
    | .onSignal signal _ => 0 < signal.price
    | _ => True

/-- **A plan is well formed** exactly if the prices it is made of are spaced. -/
theorem plan_wellFormed_iff (s : PlanningStrategy) (c : Call) (plan : StrategyPlan)
    (hinc : 0 < s.strategy.base.priceIncrement) (hprices : s.PositivePrices c)
    (h : s.strategy.planned c = some plan) : plan.WellFormed ↔ s.Spaced c := by
  cases c with
  | onFrame | checkCloseConditions => exact absurd h (by simp [AnyStrategy.planned])
  | onSignal signal now =>
      cases s with
      | bounceFromDensity cfg base =>
          exact BounceFromDensity.plan?_wellFormed_iff hinc
            ((BounceFromDensity.playbook cfg).onSignal_snd h)
      | breakoutEatThrough cfg base =>
          exact BreakoutEatThrough.plan?_wellFormed_iff hinc
            ((BreakoutEatThrough.playbook cfg).onSignal_snd h)
      | flushReversal cfg base =>
          refine FlushReversal.plan?_wellFormed_iff hinc (fun sig hsig => ?_)
            ((FlushReversal.playbook cfg).onSignal_snd h)
          rcases StrategyContext.received_updateSignal hsig with hold | rfl
          · exact hprices.received sig hold
          · exact hprices.arriving
      | leaderLag l => exact absurd h (by simp [AnyStrategy.planned, strategy, AnyStrategy.onSignal])
  | tick now =>
      cases s with
      | bounceFromDensity | breakoutEatThrough | flushReversal =>
          exact absurd h (by simp [AnyStrategy.planned, strategy, AnyStrategy.tick])
      | leaderLag l => exact LeaderLag.plan?_wellFormed_iff hinc (LeaderLag.tick_snd h)

/-- A frame of BTC_USDT with these best prices. -/
def quoteFrame (bid ask : ℚ) : FeatureFrame where
  ticker := "BTC_USDT"
  bestBid := bid
  bestAsk := ask
  mid := (bid + ask) / 2
  spreadBps := (ask - bid) / ((bid + ask) / 2) * 10000

/-- BTC_USDT lags its leader by half a percent. -/
def lagMove : Signal where
  kind := .leaderMove
  timestamp := seconds 100
  ticker := "BTC_USDT"
  price := 100
  payload := { correlation := 9 / 10, lagPct := 1 / 2 }

/-- LeaderLag, with its default configuration and ticks of a hundredth, after the move and these best
    prices. -/
def lagging (quotes : List (ℚ × ℚ)) : LeaderLag :=
  quotes.foldl (fun l quote => l.onFrame (quoteFrame quote.1 quote.2))
    (LeaderLag.onSignal { ticker := "BTC_USDT", priceIncrement := 1 / 100 } lagMove)

theorem lagging_received (quotes : List (ℚ × ℚ)) {sig : Signal}
    (h : (lagging quotes).ctx.Received sig) : sig = lagMove := by
  have hframes : ∀ (quotes : List (ℚ × ℚ)) (l : LeaderLag),
      (quotes.foldl (fun l quote => l.onFrame (quoteFrame quote.1 quote.2)) l).ctx.Received sig →
        l.ctx.Received sig := by
    intro quotes
    induction quotes with
    | nil => exact fun _ h => h
    | cons quote quotes ih =>
        intro l h
        have hnext := ih _ h
        simp only [LeaderLag.onFrame, StrategyBase.onFrame] at hnext
        split at hnext
        · exact hnext
        · exact hnext
  rcases StrategyContext.received_updateSignal (hframes quotes _ h) with (⟨kind, hnone⟩ | hmem) | hnew
  · exact absurd hnone (by simp)
  · exact absurd hmem (by simp)
  · exact hnew

/-- The swing low is the middle of a narrower spread, half a tick below. -/
def swingQuotes : List (ℚ × ℚ) :=
  [(9999 / 100, 10001 / 100), (9999 / 100, 100), (9999 / 100, 10001 / 100)]

theorem lagging_positivePrices (quotes : List (ℚ × ℚ))
    (hframe : 0 < (lagging quotes).ctx.lastFrame.bestBid ∧ 0 < (lagging quotes).ctx.lastFrame.mid ∧
      0 < (lagging quotes).ctx.lastFrame.bestAsk) (now : TimePoint) :
    (leaderLag (lagging quotes)).PositivePrices (.tick now) where
  received sig hsig := by
    rw [lagging_received quotes hsig]
    decide +kernel
  frame := hframe
  arriving := trivial

theorem leaderLag_spaced :
    (leaderLag (lagging [(9999 / 100, 10001 / 100)])).Spaced (.tick (seconds 101)) := by
  have hsome : ((leaderLag (lagging [(9999 / 100, 10001 / 100)])).strategy.planned
      (.tick (seconds 101))).isSome = true := by decide +kernel
  exact (plan_wellFormed_iff _ _ _ (by decide +kernel)
    (lagging_positivePrices _ (by decide +kernel) _) (Option.some_get hsome).symm).1
      (by decide +kernel +revert)

/-- The stop of LeaderLag is rounded onto the entry. -/
theorem leaderLag_stop_on_entry :
    ¬ ∀ (l : LeaderLag) (c : Call) (plan : StrategyPlan), l.cfg = {} → 0 < l.priceIncrement →
        (leaderLag l).PositivePrices c → (leaderLag l).strategy.planned c = some plan →
          plan.WellFormed := by
  intro hall
  have hsome : ((leaderLag (lagging swingQuotes)).strategy.planned
      (.tick (seconds 101))).isSome = true := by decide +kernel
  have hcfg : (lagging swingQuotes).cfg = {} := rfl
  have hwell := hall (lagging swingQuotes) (.tick (seconds 101)) _ hcfg (by decide +kernel)
    (lagging_positivePrices _ (by decide +kernel) _) (Option.some_get hsome).symm
  revert hwell
  decide +kernel +revert

end PlanningStrategy

end TradeBot
