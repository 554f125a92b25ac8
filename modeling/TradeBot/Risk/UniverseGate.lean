import TradeBot.Risk.Evaluation
import TradeBot.Universe.Affinity

set_option autoImplicit false

/-! # The universe gate against the affinity layer

R5 looks the name that a plan carries up in the affinity layer, and the layer only knows the
strategies' keys (`run_namesUnknown`). A plan of a registered strategy gets past R5 only where R5 does
not ask the layer: on a boosted or whitelisted ticker.

The affinity layer is run with any events, and the names it may come to know are fixed by its
configuration. A registered strategy plans under the name of its class, which is none of these; so
the gate is decided without a look at what the layer has computed. -/

namespace TradeBot

/-! ## The decision of R5 -/

/-- The rules before R5. -/
def rulesBeforeUniverse (cfg : RiskConfig) (plan : TradePlan) (state : AccountState) :
    List (Option Rejection) :=
  sanityRules cfg plan state ++ [killSwitchRule state, dailyLossRule cfg state] ++
    positionRules cfg plan state

/-- Some rule before R5 rejects the plan. -/
def RejectedBeforeUniverse (cfg : RiskConfig) (plan : TradePlan) (state : AccountState) : Prop :=
  ∃ r ∈ rulesBeforeUniverse cfg plan state, r ≠ none

/-- The ticker is boosted or whitelisted. -/
def UniverseExempt (cfg : RiskConfig) (univ : TickerUniverse) (now : TimePoint) (ticker : Ticker) :
    Prop :=
  univ.isBoosted (toInternalTicker ticker) now = true ∨
    ∃ listed ∈ cfg.whitelistTickers, sameTicker ticker listed = true

theorem rejectIf_eq_some {c : Prop} [Decidable c] {reason : RejectReason} {details : String}
    {r : Rejection} : rejectIf c reason details = some r ↔ c ∧ r = ⟨reason, details⟩ := by
  rw [rejectIf]
  by_cases h : c
  · simp [h, eq_comm]
  · simp [h]

theorem forall_mem_rejectIf {c : Prop} [Decidable c] {reason : RejectReason} {details : String}
    {P : Rejection → Prop} :
    (∀ r ∈ rejectIf c reason details, P r) ↔ (c → P ⟨reason, details⟩) := by
  simp only [Option.mem_def, rejectIf_eq_some, and_imp]
  exact ⟨fun h hc => h _ hc rfl, fun h r hc hr => hr ▸ h hc⟩

/-- No rule of the list rejects for this reason. -/
def NeverFor (reason : RejectReason) (rules : List (Option Rejection)) : Prop :=
  ∀ rule ∈ rules, ∀ r ∈ rule, r.reason ≠ reason

theorem NeverFor.of_firstRejection {reason : RejectReason} {rules : List (Option Rejection)}
    (h : NeverFor reason rules) {r : Rejection} (hfirst : firstRejection rules = some r) :
    r.reason ≠ reason := by
  obtain ⟨rule, hmem, hrule⟩ := List.exists_of_findSome?_eq_some hfirst
  exact h rule hmem r hrule

section

variable {rm : RiskManager} {now : TimePoint} {univ : TickerUniverse} {news : NewsCalendar}
  {later : TimePoint} {plan : TradePlan} {state : AccountState}

theorem neverFor_before : NeverFor .notInUniverse (rulesBeforeUniverse rm.cfg plan state) := by
  simp only [NeverFor, rulesBeforeUniverse, sanityRules, killSwitchRule, dailyLossRule,
    positionRules, List.forall_mem_append, List.forall_mem_cons, forall_mem_rejectIf]
  simp

/-- The rules after R5. -/
def rulesAfterUniverse (rm : RiskManager) (now : TimePoint) (univ : TickerUniverse)
    (news : NewsCalendar) (plan : TradePlan) (state : AccountState) : List (Option Rejection) :=
  let tm := univ.metaOrFallback (toInternalTicker plan.ticker)
  stopRules rm.cfg univ plan ++ targetRules rm.cfg plan ++
    [minSizeRule rm.cfg plan state tm,
      marginRule rm.cfg plan state (adjustedSize rm.cfg plan state tm),
      (rm.pruneTrades now).rateRule, rm.cooloffRule now] ++
    rm.rulesFromNews now news plan state

theorem neverFor_after :
    NeverFor .notInUniverse (rulesAfterUniverse rm now univ news plan state) := by
  simp only [NeverFor, rulesAfterUniverse, stopRules, targetRules, minSizeRule, marginRule,
    RiskManager.rateRule, RiskManager.cooloffRule, RiskManager.rulesFromNews, RiskManager.newsRules,
    RiskManager.fundingRules, RiskManager.slippageRule, List.forall_mem_append,
    List.forall_mem_cons, forall_mem_rejectIf]
  simp

theorem rules_eq :
    rm.rules now univ news plan state = rulesBeforeUniverse rm.cfg plan state ++
      universeRules rm.cfg univ now plan ++ rulesAfterUniverse rm now univ news plan state := by
  simp [RiskManager.rules, RiskManager.rulesToRate, RiskManager.rulesToMargin, planRules,
    rulesBeforeUniverse, rulesAfterUniverse]

/-- R5 rejects for one reason. -/
theorem universeRules_reason {r : Rejection}
    (h : firstRejection (universeRules rm.cfg univ now plan) = some r) :
    r.reason = .notInUniverse := by
  obtain ⟨rule, hmem, hrule⟩ := List.exists_of_findSome?_eq_some h
  simp only [universeRules, List.mem_cons, List.not_mem_nil, or_false] at hmem
  obtain rfl | rfl := hmem
  · rw [(rejectIf_eq_some.1 hrule).2]
  · rw [(rejectIf_eq_some.1 hrule).2]

/-- For a strategy that the layer does not have enabled, R5 is the exemption alone. -/
theorem universeRules_eq_none (hname : univ.isStrategyEnabled (toInternalTicker plan.ticker)
      plan.strategyName = false) :
    firstRejection (universeRules rm.cfg univ now plan) = none ↔
      UniverseExempt rm.cfg univ now plan.ticker := by
  simp only [firstRejection_eq_none, universeRules, List.forall_mem_cons, rejectIf_eq_none, hname,
    and_true, UniverseExempt, ← List.any_eq_true, ← Bool.or_eq_true, Bool.not_eq_false,
    List.not_mem_nil, false_implies, implies_true]
  constructor
  · intro h
    exact h.2
  · intro h
    exact ⟨fun hno => by simp [h] at hno, h⟩

/-- The decision is R5's exactly if no earlier rule rejects and R5 does. -/
theorem evaluate_notInUniverse_iff :
    (rm.evaluate now univ news later plan state).2.reason = .notInUniverse ↔
      ¬ RejectedBeforeUniverse rm.cfg plan state ∧
        firstRejection (universeRules rm.cfg univ now plan) ≠ none := by
  have hbefore : ¬ RejectedBeforeUniverse rm.cfg plan state ↔
      firstRejection (rulesBeforeUniverse rm.cfg plan state) = none := by
    rw [firstRejection_eq_none, RejectedBeforeUniverse]
    push Not
    rfl
  rw [hbefore, rm.evaluate_reason, rules_eq, firstRejection_append, firstRejection_append]
  cases hfirst : firstRejection (rulesBeforeUniverse rm.cfg plan state) with
  | some r =>
      have hne := neverFor_before.of_firstRejection hfirst
      simp [hne]
  | none =>
  cases hgate : firstRejection (universeRules rm.cfg univ now plan) with
  | some r => simp [universeRules_reason hgate]
  | none =>
  cases hafter : firstRejection (rulesAfterUniverse rm now univ news plan state) with
  | some r =>
      have hne := neverFor_after.of_firstRejection hafter
      simp [hne]
  | none => simp

end

/-! ## Registered strategies -/

namespace AffinityLayer

/-- The layer before the first refresh. -/
def init (cfg : AffinityConfig) (boostTtl : TimePoint) : AffinityLayer :=
  { cfg := cfg, univ := { boostTtl := boostTtl } }

/-- A plan of the instance of `s` that trades `ticker`. -/
structure PlanOf (s : Strategy) (ticker : Ticker) (plan : TradePlan) : Prop where
  ticker : plan.ticker = ticker
  strategyName : plan.strategyName = s.name

/-- Whatever the layer has done, a plan of a strategy that is registered in the engine is not
    rejected by R5 exactly if its ticker is boosted or whitelisted, or an earlier rule rejects it. -/
theorem universeGate_iff (cfg : AffinityConfig) (boostTtl : TimePoint) (ops : List Op)
    (rm : RiskManager) (now : TimePoint) (news : NewsCalendar) (later : TimePoint)
    (state : AccountState) :
    ∀ ticker, ∀ s ∈ ((init cfg boostTtl).run ops).strategiesOf ticker,
      ∀ plan, PlanOf s ticker plan →
        ((rm.evaluate now ((init cfg boostTtl).run ops).univ news later plan state).2.reason
            ≠ .notInUniverse ↔
          UniverseExempt rm.cfg ((init cfg boostTtl).run ops).univ now ticker ∨
            RejectedBeforeUniverse rm.cfg plan state) := by
  rintro ticker s - plan ⟨rfl, hname⟩
  have hunknown : NamesUnknown ((init cfg boostTtl).run ops).univ.affinity :=
    run_namesUnknown (fun t entry hmem => by simp [init] at hmem) ops
  have henabled := hunknown.isStrategyEnabled (toInternalTicker plan.ticker) s
  rw [← hname] at henabled
  rw [Ne, evaluate_notInUniverse_iff, Ne, universeRules_eq_none henabled, not_and_or, not_not,
    not_not, or_comm]

/-! Bounce trades one ticker; a plan of it before and after the ticker is boosted. -/

/-- A plan under the name that the class gives itself. -/
def bouncePlan : TradePlan := { scalpPlan with strategyName := Strategy.bounceFromDensity.name }

/-- The pool is the one ticker, without statistics, so every score admits it. -/
def admitBtc : List Op :=
  [.refreshPool ["BTC_USDT"] (fun _ => 1) 0, .refreshAffinity (fun _ => none)]

/-- A big event boosts the ticker. -/
def boostBtc : Op := .onBigEvent "BTC_USDT" (fun _ => none) 0

theorem universeGate_iff_boosted :
    (({} : RiskManager).evaluate 0 ((init {} (300 * nsPerSec)).run (admitBtc ++ [boostBtc])).univ []
      0 bouncePlan scalpAccount).2.reason ≠ .notInUniverse :=
  (universeGate_iff {} (300 * nsPerSec) (admitBtc ++ [boostBtc]) {} 0 [] 0 scalpAccount "BTC_USDT"
    .bounceFromDensity (by decide +kernel) bouncePlan ⟨rfl, rfl⟩).2 (.inl (.inl (by decide +kernel)))

/-- On a ticker of the pool that is not boosted, the plan of an enabled and registered strategy is
    rejected. -/
theorem registered_rejected :
    ¬ ∀ (cfg : AffinityConfig) (boostTtl : TimePoint) (ops : List Op) (rm : RiskManager)
        (now : TimePoint) (news : NewsCalendar) (later : TimePoint) (state : AccountState)
        (ticker : Ticker) (s : Strategy) (plan : TradePlan),
        ticker ∈ ((init cfg boostTtl).run ops).active →
        ((init cfg boostTtl).run ops).univ.isStrategyEnabled ticker s.key = true →
        s ∈ ((init cfg boostTtl).run ops).strategiesOf ticker → PlanOf s ticker plan →
        (rm.evaluate now ((init cfg boostTtl).run ops).univ news later plan state).2.reason
          ≠ .notInUniverse := by
  intro hall
  have hno := hall {} (300 * nsPerSec) admitBtc {} 0 [] 0 scalpAccount "BTC_USDT" .bounceFromDensity
    bouncePlan (by decide +kernel) (by decide +kernel) (by decide +kernel) ⟨rfl, rfl⟩
  revert hno
  decide +kernel

end AffinityLayer

end TradeBot
