import Mathlib.Tactic.FieldSimp
import TradeBot.Risk.AcceptedSizes

set_option autoImplicit false

/-! # What acceptance says about the risk of a plan

An accepted plan keeps the bounds of R6 to R9, up to the slack of the rounding, and no evaluation
divides by zero (`accepted_within_bounds`).

`ruleSteps` lists the rules with what each of them divides by, in the order of `evaluate`. A division
is reached only if the rules before it have let the plan pass, and these reject what would make its
divisor zero (`zero_notMem_dividing_append`). -/

namespace TradeBot

/-! ## The bounds -/

/-- The slack of the rounding: a billionth of an increment. -/
def sizeSlack (tm : TickerMeta) : ℚ := max 0 tm.sizeIncrement / 1000000000

/-- The bounds on a plan of size `size`. -/
structure WithinBounds (cfg : RiskConfig) (univ : TickerUniverse) (plan : TradePlan)
    (state : AccountState) (slack size : ℚ) : Prop where
  risk : (size - slack) * |plan.entryPrice - plan.stopPrice|
    ≤ state.equityUsd * cfg.maxPerTradeRiskPct / 100
  value : (size - slack) * plan.entryPrice ≤ state.equityUsd * cfg.maxPositionValuePct / 100
  margin : size * plan.entryPrice / cfg.maxLeverage ≤ state.freeBalanceUsd * cfg.marginSafetyRatio
  stopSide : plan.onLossSide plan.stopPrice
  minStop : cfg.minStopBps ≤ stopDistBps plan
  maxStop : stopDistBps plan ≤ maxStop cfg univ plan
  tp1Side : plan.onProfitSide plan.tp1Price
  tp1Reward : cfg.minRrRatio * |plan.entryPrice - plan.stopPrice| ≤ |plan.tp1Price - plan.entryPrice|
  tp2Side : ∀ tp2 ∈ plan.tp2Price, 0 < tp2 → plan.onProfitSide tp2

section

variable {cfg : RiskConfig} {plan : TradePlan} {state : AccountState} {tm : TickerMeta}

/-- The size after rounding is within the allowed one, up to the slack. -/
theorem adjustedSize_le (hentry : 0 < plan.entryPrice) :
    adjustedSize cfg plan state tm - sizeSlack tm ≤ allowedSize cfg plan state := by
  rw [adjustedSize_eq hentry, sizeSlack]
  by_cases h : RoundsSize cfg plan state tm
  · rw [if_pos h, max_eq_right h.1.le]
    linarith [floorToIncrement_le h.1 (x := allowedSize cfg plan state)]
  · rw [if_neg h]
    have hslack : 0 ≤ max 0 tm.sizeIncrement := le_max_left _ _
    linarith

/-- R8 in terms of the prices: the stop distance in bps is the distance again. -/
theorem sizeCoin_mul (hentry : 0 < plan.entryPrice) (hdist : 0 < stopDistBps plan) :
    sizeCoin cfg plan state * |plan.entryPrice - plan.stopPrice|
      = state.equityUsd * cfg.maxPerTradeRiskPct / 100 := by
  have hprice : plan.entryPrice * stopDistBps plan / kBpsBase = |plan.entryPrice - plan.stopPrice| := by
    rw [stopDistBps, kBpsBase]
    field_simp
  have hpos : 0 < |plan.entryPrice - plan.stopPrice| := by
    rw [← hprice, kBpsBase]
    positivity
  rw [sizeCoin, hprice, div_mul_cancel₀ _ hpos.ne']

theorem risk_le (hentry : 0 < plan.entryPrice) (hdist : 0 < stopDistBps plan) {size : ℚ}
    (h : size ≤ allowedSize cfg plan state) :
    size * |plan.entryPrice - plan.stopPrice| ≤ state.equityUsd * cfg.maxPerTradeRiskPct / 100 := by
  rw [← sizeCoin_mul hentry hdist]
  exact mul_le_mul_of_nonneg_right (h.trans (min_le_left _ _)) (abs_nonneg _)

theorem value_le (hentry : 0 < plan.entryPrice) {size : ℚ} (h : size ≤ allowedSize cfg plan state) :
    size * plan.entryPrice ≤ state.equityUsd * cfg.maxPositionValuePct / 100 :=
  (le_div_iff₀ hentry).1 (h.trans (min_le_right _ _))

end

/-! ## Divisions -/

/-- A rule with the numbers that are divided by on the way to its check. -/
abbrev RuleStep := List ℚ × Option Rejection

/-- The numbers divided by up to the first rule that rejects. -/
def reachedDivisors : List RuleStep → List ℚ
  | [] => []
  | step :: steps => step.1 ++ if step.2.isSome then [] else reachedDivisors steps

/-- Rules that divide by the same numbers. -/
def dividing (divisors : List ℚ) (rules : List (Option Rejection)) : List RuleStep :=
  rules.map (fun rule => (divisors, rule))

/-- Rules that divide by nonzero numbers come first, and the steps after them are reached only where none
    of these rules rejects. -/
theorem zero_notMem_dividing_append {divisors : List ℚ} {rules : List (Option Rejection)}
    {steps : List RuleStep} (hne : 0 ∉ divisors)
    (hrest : (∀ rule ∈ rules, rule = none) → 0 ∉ reachedDivisors steps) :
    0 ∉ reachedDivisors (dividing divisors rules ++ steps) := by
  induction rules with
  | nil => exact hrest (by simp)
  | cons rule rules ih =>
      rw [dividing, List.map_cons, List.cons_append, reachedDivisors, List.mem_append, not_or]
      refine ⟨hne, ?_⟩
      cases rule with
      | some r => simp
      | none =>
          rw [if_neg (by simp)]
          exact ih (fun hnone => hrest (List.forall_mem_cons.2 ⟨rfl, hnone⟩))

namespace RiskManager

variable (rm : RiskManager) (now : TimePoint) (univ : TickerUniverse) (news : NewsCalendar)
  (plan : TradePlan) (state : AccountState)

/-- What R8 divides by for the size, and for its increments. -/
def sizeDivisors (tm : TickerMeta) : List ℚ :=
  (plan.entryPrice * stopDistBps plan / kBpsBase) :: if tm.sizesRounded then [tm.sizeIncrement] else []

/-- What the cap on the position's value divides by. -/
def capDivisors (tm : TickerMeta) : List ℚ :=
  if state.equityUsd * rm.cfg.maxPositionValuePct / 100
      < normalizedSize rm.cfg plan state tm * plan.entryPrice then
    plan.entryPrice :: if 0 < tm.sizeIncrement then [tm.sizeIncrement] else []
  else []

/-- All rules, each with the divisions on the way to it. R6 tests the stop price before it divides by
    the entry price for the first time; this lists the divisor with that test already. -/
def ruleSteps : List RuleStep :=
  let tm := univ.metaOrFallback (toInternalTicker plan.ticker)
  dividing [] (sanityRules rm.cfg plan state ++ [killSwitchRule state]) ++
    dividing [state.startingEquityUsd] [dailyLossRule rm.cfg state] ++
    dividing [] (positionRules rm.cfg plan state ++ universeRules rm.cfg univ now plan) ++
    dividing [plan.entryPrice] (stopRules rm.cfg univ plan) ++
    dividing [] (targetRules rm.cfg plan) ++
    dividing (sizeDivisors plan tm) [minSizeRule rm.cfg plan state tm] ++
    dividing (rm.capDivisors plan state tm ++ [(rm.cfg.maxLeverage : ℚ)])
      [marginRule rm.cfg plan state (adjustedSize rm.cfg plan state tm)] ++
    dividing [] ([(rm.pruneTrades now).rateRule, rm.cooloffRule now] ++ rm.newsRules now news plan ++
      rm.fundingRules now plan) ++
    dividing (if 0 < state.markPrice then [state.markPrice] else []) [rm.slippageRule plan state]

/-- The rules are those of `evaluate`, in its order. -/
theorem map_snd_ruleSteps :
    (rm.ruleSteps now univ news plan state).map Prod.snd = rm.rules now univ news plan state := by
  have hmap : ∀ divisors rules, (dividing divisors rules).map Prod.snd = rules := by
    intro divisors rules
    rw [dividing, List.map_map]
    exact List.map_id rules
  simp only [ruleSteps, List.map_append, hmap, rules, rulesToRate, rulesToMargin, rulesFromNews,
    planRules, List.append_assoc, List.cons_append, List.nil_append]

/-- The numbers that `evaluate` divides by, constants apart. -/
def divisors : List ℚ := reachedDivisors (rm.ruleSteps now univ news plan state)

variable {plan} in
theorem stopDistBps_pos {cfg : RiskConfig} {univ : TickerUniverse}
    (h : ∀ rule ∈ stopRules cfg univ plan, rule = none) : 0 < stopDistBps plan := by
  simp only [stopRules, List.forall_mem_cons, rejectIf_eq_none, not_le] at h
  exact h.2.1

theorem zero_notMem_divisors : 0 ∉ rm.divisors now univ news plan state := by
  unfold divisors ruleSteps
  dsimp only
  generalize univ.metaOrFallback (toInternalTicker plan.ticker) = tm
  simp only [List.append_assoc]
  refine zero_notMem_dividing_append (by simp) fun hguards => ?_
  -- the guards come first, and everything after them may use what they have checked
  have hsane : SaneInput rm.cfg plan state :=
    saneInput_of_sanityRules (fun rule hrule => hguards rule (by simp [hrule]))
  have hentry : 0 < plan.entryPrice := hsane.entryPrice
  have hleverage : (0 : ℚ) < rm.cfg.maxLeverage := Int.cast_pos.2 hsane.maxLeverage
  refine zero_notMem_dividing_append (by simp [hsane.startingEquity.ne]) fun _ => ?_
  refine zero_notMem_dividing_append (by simp) fun _ => ?_
  refine zero_notMem_dividing_append (by simp [hentry.ne]) fun hstop => ?_
  -- R6 has rejected a stop on the entry
  have hdist : 0 < stopDistBps plan := stopDistBps_pos hstop
  refine zero_notMem_dividing_append (by simp) fun _ => ?_
  refine zero_notMem_dividing_append ?_ fun _ => ?_
  · -- R8: the price at risk, and the increment where sizes are rounded
    have hrisk : 0 < plan.entryPrice * stopDistBps plan / kBpsBase := by
      rw [kBpsBase]
      positivity
    rw [sizeDivisors, List.mem_cons, not_or]
    refine ⟨hrisk.ne, ?_⟩
    split
    · next hrounded => simp [hrounded.2.ne]
    · simp
  refine zero_notMem_dividing_append ?_ fun _ => ?_
  · -- the cap and R9
    rw [List.mem_append, not_or, capDivisors]
    refine ⟨?_, by simpa using hleverage.ne⟩
    split
    · rw [List.mem_cons, not_or]
      refine ⟨hentry.ne, ?_⟩
      split
      · next hinc => simp [hinc.ne]
      · simp
    · simp
  refine zero_notMem_dividing_append (by simp) fun _ => ?_
  rw [← List.append_nil (dividing _ _)]
  refine zero_notMem_dividing_append ?_ fun _ => by simp [reachedDivisors]
  split
  · next hmark => simp [hmark.ne]
  · simp

/-! ## The result -/

variable {rm now univ news plan state} in
/-- What R6, R7 and R9 let through. -/
theorem withinBounds_of_accepted {later : TimePoint}
    (h : (rm.evaluate now univ news later plan state).2.accepted = true) :
    WithinBounds rm.cfg univ plan state
      (sizeSlack (univ.metaOrFallback (toInternalTicker plan.ticker)))
      (rm.evaluate now univ news later plan state).2.adjustedSizeCoin := by
  have hentry : 0 < plan.entryPrice := (saneInput_of_accepted h).entryPrice
  have hrules := rulesToMargin_of_accepted h
  rw [adjustedSizeCoin_of_accepted h]
  simp only [rulesToMargin, planRules, List.forall_mem_append, List.forall_mem_cons] at hrules
  generalize univ.metaOrFallback (toInternalTicker plan.ticker) = tm at hrules ⊢
  obtain ⟨⟨⟨-, hstop⟩, htarget⟩, -, hmargin, -⟩ := hrules
  have hdist : 0 < stopDistBps plan := stopDistBps_pos hstop
  simp only [stopRules, List.forall_mem_cons, rejectIf_eq_none, not_le, not_lt, not_not] at hstop
  simp only [targetRules, List.forall_mem_cons, rejectIf_eq_none, not_le, not_lt, not_not] at htarget
  obtain ⟨-, -, hside, hmin, hmax, -⟩ := hstop
  obtain ⟨-, htp1, hreward, htp2, -⟩ := htarget
  have hsize : adjustedSize rm.cfg plan state tm - sizeSlack tm ≤ allowedSize rm.cfg plan state :=
    adjustedSize_le hentry
  exact
    { risk := risk_le hentry hdist hsize
      value := value_le hentry hsize
      margin := not_lt.1 (rejectIf_eq_none.1 hmargin)
      stopSide := hside
      minStop := hmin
      maxStop := hmax
      tp1Side := htp1
      tp1Reward := hreward
      tp2Side := fun tp2 hmem hpos => not_not.1 (fun hwrong => htp2 ⟨tp2, hmem, hpos, hwrong⟩) }

/-- No evaluation divides by zero, and an accepted plan is within the bounds. -/
theorem accepted_within_bounds (rm : RiskManager) (now : TimePoint) (univ : TickerUniverse)
    (news : NewsCalendar) (later : TimePoint) (plan : TradePlan) (state : AccountState) :
    0 ∉ rm.divisors now univ news plan state ∧
      ((rm.evaluate now univ news later plan state).2.accepted = true →
        WithinBounds rm.cfg univ plan state
          (sizeSlack (univ.metaOrFallback (toInternalTicker plan.ticker)))
          (rm.evaluate now univ news later plan state).2.adjustedSizeCoin) :=
  ⟨rm.zero_notMem_divisors now univ news plan state, withinBounds_of_accepted⟩

/-- The scalp is within the bounds. -/
theorem accepted_within_bounds_scalp :
    WithinBounds {} (boostedUniverse 0) scalpPlan scalpAccount
      (sizeSlack ((boostedUniverse 0).metaOrFallback (toInternalTicker scalpPlan.ticker)))
      (scalpDecision scalpAccount).adjustedSizeCoin :=
  (accepted_within_bounds {} 0 (boostedUniverse 0) [] 0 scalpPlan scalpAccount).2 (by decide +kernel)

end RiskManager

end TradeBot
