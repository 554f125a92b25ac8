import TradeBot.Lib.Runs
import TradeBot.Risk.RiskManager

set_option autoImplicit false

/-! # Evaluations, and runs of the risk manager

`evaluate_cases` says what one call of `evaluate` answers and what it does to the books, case by case;
later modules use it and never unfold `evaluate`. `RiskOp` lists the calls of a `RiskManager`, and
`run` performs a list of them. -/

namespace TradeBot

@[simp] theorem firstRejection_nil : firstRejection [] = none := rfl

theorem firstRejection_cons (r : Option Rejection) (rules : List (Option Rejection)) :
    firstRejection (r :: rules) = r.or (firstRejection rules) :=
  firstRejection_append [r] rules |>.trans (by cases r <;> rfl)

theorem firstRejection_eq_none {rules : List (Option Rejection)} :
    firstRejection rules = none ↔ ∀ r ∈ rules, r = none := by
  simp [firstRejection, List.findSome?_eq_none_iff]

theorem rejectIf_eq_none {c : Prop} [Decidable c] {reason : RejectReason} {details : String} :
    rejectIf c reason details = none ↔ ¬ c := by
  simp [rejectIf]

@[simp] theorem Rejection.decision_accepted (r : Rejection) (size risk : ℚ) :
    (r.decision size risk).accepted = false := rfl

namespace RiskManager

variable (rm : RiskManager) (now : TimePoint) (univ : TickerUniverse) (news : NewsCalendar)
  (later : TimePoint) (plan : TradePlan) (state : AccountState)

/-! ## One evaluation -/

/-- The rules R1 to R9, which do not read the books. -/
def rulesToMargin : List (Option Rejection) :=
  let tm := univ.metaOrFallback (toInternalTicker plan.ticker)
  planRules rm.cfg univ now plan state ++
    [minSizeRule rm.cfg plan state tm,
      marginRule rm.cfg plan state (adjustedSize rm.cfg plan state tm)]

/-- The rules R1 to R10. -/
def rulesToRate : List (Option Rejection) :=
  rm.rulesToMargin now univ plan state ++ [(rm.pruneTrades now).rateRule]

/-- The rules R12 to R15. -/
def rulesFromNews : List (Option Rejection) :=
  rm.newsRules now news plan ++ rm.fundingRules now plan ++ [rm.slippageRule plan state]

/-- All rules. -/
def rules : List (Option Rejection) :=
  rm.rulesToRate now univ plan state ++ [rm.cooloffRule now] ++
    rm.rulesFromNews now news plan state

/-- What `evaluate` may answer, with the state it leaves. -/
inductive Evaluated : RiskManager × RiskDecision → Prop
  /-- One of R1 to R9 rejects. -/
  | unbooked {r : Rejection} (size risk : ℚ)
      (hrules : firstRejection (rm.rulesToMargin now univ plan state) = some r) :
      Evaluated (rm, r.decision size risk)
  /-- R10 or R11 rejects. -/
  | limited {r : Rejection} (size risk : ℚ)
      (hrules : firstRejection (rm.rulesToMargin now univ plan state) = none)
      (hbooks : firstRejection [(rm.pruneTrades now).rateRule, rm.cooloffRule now] = some r) :
      Evaluated (rm.pruneTrades now, r.decision size risk)
  /-- One of R12 to R15 rejects. -/
  | late {r : Rejection} (size risk : ℚ)
      (hrules : firstRejection (rm.rulesToRate now univ plan state) = none)
      (hcool : rm.cooloffRule now = none)
      (hlate : firstRejection (rm.rulesFromNews now news plan state) = some r) :
      Evaluated ((rm.pruneTrades now).expireCooloff, r.decision size risk)
  | accepted (size risk : ℚ)
      (hrules : firstRejection (rm.rulesToRate now univ plan state) = none)
      (hcool : rm.cooloffRule now = none)
      (hlate : firstRejection (rm.rulesFromNews now news plan state) = none) :
      Evaluated
        ({ (rm.pruneTrades now).expireCooloff with
            tradeHistory := (rm.pruneTrades now).tradeHistory ++ [later] },
          { accepted := true, adjustedSizeCoin := size, riskUsd := risk })

/-- The rules after R11 do not see what R10 and R11 did to the books. -/
theorem rulesFromNews_books :
    ((rm.pruneTrades now).expireCooloff).rulesFromNews now news plan state
      = rm.rulesFromNews now news plan state := by
  unfold expireCooloff
  split <;> rfl

theorem expireCooloff_tradeHistory : rm.expireCooloff.tradeHistory = rm.tradeHistory := by
  unfold expireCooloff
  split <;> rfl

theorem evaluate_cases :
    rm.Evaluated now univ news later plan state
      (rm.evaluate now univ news later plan state) := by
  unfold evaluate
  dsimp only
  -- R1 to R7
  cases hplan : firstRejection (planRules rm.cfg univ now plan state) with
  | some r =>
      exact .unbooked 0 0 (by simp [rulesToMargin, firstRejection_append, hplan])
  | none =>
  cases hmin : minSizeRule rm.cfg plan state (univ.metaOrFallback (toInternalTicker plan.ticker)) with
  | some r =>
      exact .unbooked _ 0 (by simp [rulesToMargin, firstRejection_append, firstRejection_cons,
        hplan, hmin])
  | none =>
  cases hmargin : marginRule rm.cfg plan state (adjustedSize rm.cfg plan state
    (univ.metaOrFallback (toInternalTicker plan.ticker))) with
  | some r =>
      exact .unbooked _ _ (by simp [rulesToMargin, firstRejection_append, firstRejection_cons,
        hplan, hmin, hmargin])
  | none =>
  have hrules : firstRejection (rm.rulesToMargin now univ plan state) = none := by
    simp [rulesToMargin, firstRejection_append, firstRejection_cons, hplan, hmin, hmargin]
  unfold evaluateBooks
  dsimp only
  -- R10 and R11
  cases hbooks : firstRejection [(rm.pruneTrades now).rateRule, rm.cooloffRule now] with
  | some r =>
      have hbooks' : firstRejection [(rm.pruneTrades now).rateRule,
        (rm.pruneTrades now).cooloffRule now] = some r := hbooks
      rw [hbooks']
      exact .limited _ _ hrules hbooks
  | none =>
  have hbooks' : firstRejection [(rm.pruneTrades now).rateRule,
    (rm.pruneTrades now).cooloffRule now] = none := hbooks
  rw [hbooks']
  have hrate : (rm.pruneTrades now).rateRule = none := firstRejection_eq_none.1 hbooks _ (by simp)
  have hcool : rm.cooloffRule now = none := firstRejection_eq_none.1 hbooks _ (by simp)
  have hrules' : firstRejection (rm.rulesToRate now univ plan state) = none := by
    simp [rulesToRate, firstRejection_append, firstRejection_cons, hrules, hrate]
  -- R12 to R15
  have hlate := rm.rulesFromNews_books now news plan state
  unfold rulesFromNews at hlate
  dsimp only
  rw [hlate, expireCooloff_tradeHistory]
  cases hnews : firstRejection (rm.newsRules now news plan ++ rm.fundingRules now plan ++
    [rm.slippageRule plan state]) with
  | some r => exact .late _ _ hrules' hcool hnews
  | none => exact .accepted _ _ hrules' hcool hnews

theorem firstRejection_rules :
    firstRejection (rm.rules now univ news plan state) =
      (firstRejection (rm.rulesToMargin now univ plan state)).or
        ((rm.pruneTrades now).rateRule.or
          ((rm.cooloffRule now).or (firstRejection (rm.rulesFromNews now news plan state)))) := by
  simp only [rules, rulesToRate, firstRejection_append, firstRejection_cons, firstRejection_nil,
    Option.or_none, Option.or_assoc]

theorem firstRejection_rulesToRate_eq_none :
    firstRejection (rm.rulesToRate now univ plan state) = none ↔
      firstRejection (rm.rulesToMargin now univ plan state) = none ∧
        (rm.pruneTrades now).rateRule = none := by
  simp only [rulesToRate, firstRejection_append, firstRejection_cons, firstRejection_nil,
    Option.or_none, Option.or_eq_none_iff]

/-- The decision is that of the first rule that rejects. -/
theorem evaluate_decision :
    (rm.evaluate now univ news later plan state).2.accepted =
        (firstRejection (rm.rules now univ news plan state)).isNone ∧
      (rm.evaluate now univ news later plan state).2.reason =
        ((firstRejection (rm.rules now univ news plan state)).map Rejection.reason).getD .none := by
  have hcases := rm.evaluate_cases now univ news later plan state
  generalize rm.evaluate now univ news later plan state = out at hcases
  rw [firstRejection_rules]
  cases hcases with
  | unbooked size risk hrules =>
      rw [hrules]
      exact ⟨rfl, rfl⟩
  | limited size risk hrules hbooks =>
      rw [firstRejection_cons, firstRejection_cons, firstRejection_nil, Option.or_none] at hbooks
      rw [hrules, Option.none_or, ← Option.or_assoc, hbooks]
      exact ⟨rfl, rfl⟩
  | late size risk hrules hcool hlate =>
      obtain ⟨hmargin, hrate⟩ :=
        (rm.firstRejection_rulesToRate_eq_none now univ plan state).1 hrules
      rw [hmargin, hrate, hcool, hlate]
      exact ⟨rfl, rfl⟩
  | accepted size risk hrules hcool hlate =>
      obtain ⟨hmargin, hrate⟩ :=
        (rm.firstRejection_rulesToRate_eq_none now univ plan state).1 hrules
      rw [hmargin, hrate, hcool, hlate]
      exact ⟨rfl, rfl⟩

theorem evaluate_accepted_iff :
    (rm.evaluate now univ news later plan state).2.accepted = true ↔
      firstRejection (rm.rules now univ news plan state) = none := by
  rw [(rm.evaluate_decision now univ news later plan state).1, Option.isNone_iff_eq_none]

theorem evaluate_reason :
    (rm.evaluate now univ news later plan state).2.reason =
      ((firstRejection (rm.rules now univ news plan state)).map Rejection.reason).getD .none :=
  (rm.evaluate_decision now univ news later plan state).2

/-! ## Runs -/

end RiskManager

/-- The calls of a `RiskManager`, with the readings of the clock. -/
inductive RiskOp
  | evaluate (now : TimePoint) (univ : TickerUniverse) (news : NewsCalendar) (later : TimePoint)
      (plan : TradePlan) (state : AccountState)
  | recordTradeEnd (isLoss : Bool) (ts : TimePoint)
  | updateFundingTime (now : TimePoint) (ticker : Ticker) (ts : TimePoint)

namespace RiskManager

/-- The manager after a call. The decision of an evaluation is left out. -/
def step (rm : RiskManager) : RiskOp → RiskManager
  | .evaluate now univ news later plan state => (rm.evaluate now univ news later plan state).1
  | .recordTradeEnd isLoss ts => rm.recordTradeEnd isLoss ts
  | .updateFundingTime now ticker ts => rm.updateFundingTime now ticker ts

/-- The manager after some calls. -/
def run (rm : RiskManager) (ops : List RiskOp) : RiskManager := ops.foldl step rm

theorem expireCooloff_cfg (rm : RiskManager) : rm.expireCooloff.cfg = rm.cfg := by
  unfold expireCooloff
  split <;> rfl

/-- An evaluation does not change the configuration. -/
theorem evaluate_cfg (rm : RiskManager) (now : TimePoint) (univ : TickerUniverse)
    (news : NewsCalendar) (later : TimePoint) (plan : TradePlan) (state : AccountState) :
    (rm.evaluate now univ news later plan state).1.cfg = rm.cfg := by
  have hcases := rm.evaluate_cases now univ news later plan state
  generalize rm.evaluate now univ news later plan state = out at hcases
  cases hcases with
  | unbooked | limited => rfl
  | late | accepted => exact (rm.pruneTrades now).expireCooloff_cfg

theorem step_cfg (rm : RiskManager) (op : RiskOp) : (rm.step op).cfg = rm.cfg := by
  cases op with
  | evaluate now univ news later plan state => exact rm.evaluate_cfg now univ news later plan state
  | recordTradeEnd isLoss ts => rfl
  | updateFundingTime now ticker ts => rfl

theorem run_cfg (rm : RiskManager) (ops : List RiskOp) : (rm.run ops).cfg = rm.cfg :=
  Runs.invariant (fun rm' : RiskManager => rm'.cfg = rm.cfg)
    (fun rm' op h => (rm'.step_cfg op).trans h) ops rfl

end RiskManager

/-! A plan that passes every rule of the default configuration while its ticker is boosted. -/

/-- A plan with a stop ten basis points away. -/
def scalpPlan : TradePlan :=
  { ticker := "BTC_USDT", side := .buy, entryPrice := 100, stopPrice := 999 / 10,
    tp1Price := 1002 / 10, tp1SizeRatio := 1 / 2, sizeCoin := 1, strategyName := "LeaderLag" }

/-- An account without positions. -/
def scalpAccount : AccountState :=
  { equityUsd := 10000, startingEquityUsd := 10000, freeBalanceUsd := 10000 }

/-- A universe in which R5 lets the ticker through. -/
def boostedUniverse (now : TimePoint) : TickerUniverse :=
  { boosts := AList.insert "BTC_USDT" now ∅ }

/-- Evaluate the plan at `now`. -/
def scalpCall (now : TimePoint) (news : NewsCalendar := []) : RiskOp :=
  .evaluate now (boostedUniverse now) news now scalpPlan scalpAccount

end TradeBot
