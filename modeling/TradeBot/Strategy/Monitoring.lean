import TradeBot.Lib.Runs
import TradeBot.Strategy.Strategies

set_option autoImplicit false

/-! # Monitoring a trade

Until it has requested a close, a strategy should monitor the trade of the plan that was accepted and
plan no other. The pending plan expires before the trade ends. From then on BounceFromDensity still
makes no plan; BreakoutEatThrough and FlushReversal look at the pending plan only, and LeaderLag drops
the trade together with it. -/

namespace TradeBot

open Runs

/-- The entry conditions look at neither plan. -/
theorem LeaderLag.plan?_of_plans (l : LeaderLag) (now : TimePoint)
    (pending trade : Option StrategyPlan) :
    { l with activePlan := pending, activeTradeInfo := trade }.plan? now = l.plan? now :=
  rfl

namespace AnyStrategy

/-- A call of a strategy between the acceptance of a plan and a reset. -/
inductive Call
  | onFrame (frame : FeatureFrame)
  | onSignal (signal : Signal) (now : TimePoint)
  | tick (now : TimePoint)
  | checkCloseConditions (now : TimePoint) (frame : FeatureFrame)

/-- The strategy after the call. -/
def step (s : AnyStrategy) : Call → AnyStrategy
  | .onFrame frame => s.onFrame frame
  | .onSignal signal now => (s.onSignal signal now).1
  | .tick now => (s.tick now).1
  | .checkCloseConditions now frame => (s.checkCloseConditions now frame).1

/-- The plan that the call returns. -/
def planned (s : AnyStrategy) : Call → Option StrategyPlan
  | .onSignal signal now => (s.onSignal signal now).2
  | .tick now => (s.tick now).2
  | _ => none

/-- The close that the call requests. -/
def closing (s : AnyStrategy) : Call → Option String
  | .checkCloseConditions now frame => (s.checkCloseConditions now frame).2
  | _ => none

/-- Up to the first close it requests, the strategy returns no plan and goes on monitoring this one. -/
def Monitors (plan : StrategyPlan) : AnyStrategy → List Call → Prop
  | _, [] => True
  | s, c :: cs => s.planned c = none ∧ ((s.closing c).isSome = true ∨
      (s.step c).base.activeTradeInfo = some plan ∧ Monitors plan (s.step c) cs)

/-- While a trade is monitored, LeaderLag is not called after its pending plan has expired, and a
    strategy whose pending plan is gone is not called when its entry conditions are met, unless it makes
    one trade at a time. -/
def Quiet (s : AnyStrategy) (c : Call) : Prop :=
  s.base.activeTradeInfo.isSome = true →
    match s, c with
    | eventDriven book base, .onSignal signal now =>
        signal.ticker = base.ticker → signal.kind = book.trigger → base.activePlan = none →
          book.oneTrade = false → book.plan? now (base.notice signal) = none
    | leaderLag l, .tick now =>
        (∀ plan ∈ l.activePlan, now ≤ plan.validUntil) ∧ (l.activePlan = none → l.plan? now = none)
    | _, _ => True

variable {s : AnyStrategy} {plan : StrategyPlan}

/-! ## One call -/

/-- A signal changes no trade, and is planned on if the strategy is not blocked. -/
theorem planned_onSignal_iff (book : Playbook) (base : StrategyBase) (signal : Signal)
    (now : TimePoint) (htrade : base.activeTradeInfo = some plan) :
    (eventDriven book base).planned (.onSignal signal now) = none ↔
      (signal.ticker = base.ticker → signal.kind = book.trigger → base.activePlan = none →
        book.oneTrade = false → book.plan? now (base.notice signal) = none) := by
  have hblocked : book.blocked base = false ↔ base.activePlan = none ∧ book.oneTrade = false := by
    simp [Playbook.blocked, htrade]
  have hplanned : (eventDriven book base).planned (.onSignal signal now)
      = (book.onSignal signal now base).2 := rfl
  rw [hplanned]
  unfold Playbook.onSignal
  by_cases hticker : signal.ticker = base.ticker
  · rw [if_neg (not_not.2 hticker)]
    by_cases hkind : signal.kind = book.trigger
    · by_cases hfree : book.blocked base = false
      · rw [if_neg (by simp [hkind, hfree])]
        have hcond := hblocked.1 hfree
        cases book.plan? now (base.notice signal) with
        | none => simp
        | some plan' => simp [hticker, hkind, hcond]
      · rw [if_pos (Or.inr (by simpa using hfree))]
        have hcond := mt hblocked.2 hfree
        exact iff_of_true rfl (fun _ _ hplan hone => absurd ⟨hplan, hone⟩ hcond)
    · rw [if_pos (Or.inl hkind)]
      exact iff_of_true rfl (fun _ hkind' => absurd hkind' hkind)
  · rw [if_pos hticker]
    exact iff_of_true rfl (fun hticker' => absurd hticker' hticker)

/-- A tick of LeaderLag keeps the trade unless the pending plan has expired, and plans if there is none
    and the entry conditions are met. -/
theorem leaderLag_tick (l : LeaderLag) (now : TimePoint) (htrade : l.activeTradeInfo = some plan) :
    ((l.tick now).2 = none ∧ (l.tick now).1.activeTradeInfo = some plan) ↔
      (∀ pending ∈ l.activePlan, now ≤ pending.validUntil) ∧
        (l.activePlan = none → l.plan? now = none) := by
  have hplan := fun pending trade => l.plan?_of_plans now pending trade
  unfold LeaderLag.tick
  dsimp only
  cases hpending : l.activePlan with
  | none =>
      rw [if_neg (by simp), hplan]
      cases hentry : l.plan? now with
      | none => simp [htrade]
      | some plan' => simp
  | some pending =>
      by_cases hexpired : pending.validUntil < now
      · rw [if_neg (by simp [hexpired]), hplan]
        refine iff_of_false ?_ (fun h => absurd (h.1 pending rfl) (not_le.2 hexpired))
        cases hentry : l.plan? now with
        | none => simp [hexpired]
        | some plan' => simp
      · rw [if_pos (by simp [hexpired])]
        exact iff_of_true ⟨rfl, htrade⟩ ⟨by simpa using hexpired, by simp⟩

theorem step_onFrame_trade (frame : FeatureFrame) (s : AnyStrategy) :
    (s.step (.onFrame frame)).base.activeTradeInfo = s.base.activeTradeInfo := by
  simp only [step, base_onFrame, StrategyBase.onFrame]
  split <;> rfl

theorem step_onSignal_trade (signal : Signal) (now : TimePoint) (s : AnyStrategy) :
    (s.step (.onSignal signal now)).base.activeTradeInfo = s.base.activeTradeInfo := by
  cases s with
  | eventDriven book base => exact (book.onSignal_fst signal now base).1
  | leaderLag l =>
      simp only [step, onSignal, LeaderLag.onSignal]
      split <;> rfl

theorem step_tick_trade (book : Playbook) (base : StrategyBase) (now : TimePoint) :
    ((eventDriven book base).step (.tick now)).base.activeTradeInfo = base.activeTradeInfo := by
  simp only [step, tick, StrategyBase.expirePlan]
  split <;> rfl

/-- A check requests a close and drops the trade, or keeps it. -/
theorem step_checkCloseConditions_trade (now : TimePoint) (frame : FeatureFrame) (s : AnyStrategy) :
    ((s.closing (.checkCloseConditions now frame)).isSome = true ∧
        (s.step (.checkCloseConditions now frame)).base.activeTradeInfo = none) ∨
      (s.closing (.checkCloseConditions now frame) = none ∧
        (s.step (.checkCloseConditions now frame)).base.activeTradeInfo = s.base.activeTradeInfo) := by
  have hcheck : ∀ (base : StrategyBase) (rule : StrategyPlan → Option String),
      ((base.checkClose rule).2.isSome = true ∧ (base.checkClose rule).1.activeTradeInfo = none) ∨
        ((base.checkClose rule).2 = none ∧
          (base.checkClose rule).1.activeTradeInfo = base.activeTradeInfo) := by
    intro base rule
    unfold StrategyBase.checkClose
    cases htrade : base.activeTradeInfo with
    | none => exact Or.inr ⟨rfl, htrade⟩
    | some plan =>
        dsimp only
        cases rule plan with
        | none => exact Or.inr ⟨rfl, htrade⟩
        | some reason => exact Or.inl ⟨rfl, rfl⟩
  cases s with
  | eventDriven book base => exact hcheck base _
  | leaderLag l => exact hcheck l.toStrategyBase _

/-- A call returns no plan, and keeps the trade or requests a close, exactly if it is quiet. -/
theorem quiet_iff (c : Call) (htrade : s.base.activeTradeInfo = some plan) :
    s.Quiet c ↔ s.planned c = none ∧ ((s.closing c).isSome = true ∨
      (s.step c).base.activeTradeInfo = some plan) := by
  have hsome : s.base.activeTradeInfo.isSome = true := by rw [htrade]; rfl
  cases c with
  | onFrame frame =>
      have hquiet : s.Quiet (.onFrame frame) := by cases s <;> exact fun _ => trivial
      exact iff_of_true hquiet ⟨rfl, Or.inr ((step_onFrame_trade frame s).trans htrade)⟩
  | checkCloseConditions now frame =>
      have hquiet : s.Quiet (.checkCloseConditions now frame) := by
        cases s <;> exact fun _ => trivial
      exact iff_of_true hquiet ⟨rfl, (step_checkCloseConditions_trade now frame s).imp And.left
        (fun hkept => hkept.2.trans htrade)⟩
  | onSignal signal now =>
      have hkeeps := (step_onSignal_trade signal now s).trans htrade
      rw [and_iff_left (Or.inr hkeeps)]
      cases s with
      | eventDriven book base =>
          rw [planned_onSignal_iff book base signal now htrade]
          exact ⟨fun hquiet => hquiet hsome, fun hcond _ => hcond⟩
      | leaderLag l => exact iff_of_true (fun _ => trivial) rfl
  | tick now =>
      cases s with
      | eventDriven book base =>
          exact iff_of_true (fun _ => trivial)
            ⟨rfl, Or.inr ((step_tick_trade book base now).trans htrade)⟩
      | leaderLag l =>
          have htick := leaderLag_tick l now htrade
          have hclosing : ¬ ((leaderLag l).closing (.tick now)).isSome = true := by simp [closing]
          rw [or_iff_right hclosing]
          exact ⟨fun hquiet => htick.2 (hquiet hsome), fun hkeeps _ => htick.1 hkeeps⟩

/-- A call that requests a close drops the trade. -/
theorem step_of_closing {c : Call} (hclosing : (s.closing c).isSome = true) :
    (s.step c).base.activeTradeInfo = none := by
  cases c with
  | onFrame | onSignal | tick => simp [closing] at hclosing
  | checkCloseConditions now frame =>
      rcases step_checkCloseConditions_trade now frame s with ⟨-, hdropped⟩ | ⟨hnone, -⟩
      · exact hdropped
      · rw [hnone] at hclosing
        exact absurd hclosing (by simp)

/-- A strategy without a trade is not given one by a call. -/
theorem step_without_trade (c : Call) (hnone : s.base.activeTradeInfo = none) :
    (s.step c).base.activeTradeInfo = none := by
  cases c with
  | onFrame frame => exact (step_onFrame_trade frame s).trans hnone
  | onSignal signal now => exact (step_onSignal_trade signal now s).trans hnone
  | checkCloseConditions now frame =>
      exact (step_checkCloseConditions_trade now frame s).elim And.right
        (fun hkept => hkept.2.trans hnone)
  | tick now =>
      cases s with
      | eventDriven book base => exact (step_tick_trade book base now).trans hnone
      | leaderLag l =>
          have htrade : l.activeTradeInfo = none := hnone
          simp only [step, tick, LeaderLag.tick, htrade, ite_self]
          split
          · exact htrade
          · split <;> rfl

/-! ## Whole runs -/

theorem quiet_without_trade {cs : List Call} (hnone : s.base.activeTradeInfo = none) :
    Along step Quiet s cs := by
  induction cs generalizing s with
  | nil => trivial
  | cons c cs ih => exact ⟨fun hsome => by simp [hnone] at hsome, ih (step_without_trade c hnone)⟩

theorem monitors_iff_quiet {cs : List Call} (htrade : s.base.activeTradeInfo = some plan) :
    s.Monitors plan cs ↔ Along step Quiet s cs := by
  induction cs generalizing s with
  | nil => exact Iff.rfl
  | cons c cs ih =>
      rw [Monitors, Along, quiet_iff c htrade, and_assoc]
      refine and_congr_right (fun _ => ?_)
      by_cases hclosing : (s.closing c).isSome = true
      · exact iff_of_true (Or.inl hclosing)
          ⟨Or.inl hclosing, quiet_without_trade (step_of_closing hclosing)⟩
      · rw [or_iff_right hclosing, or_iff_right hclosing]
        exact and_congr_right (fun hkept => ih hkept)

/-- A playbook that makes one trade at a time is always quiet. -/
theorem oneTrade_quiet {book : Playbook} (hone : book.oneTrade = true) (base : StrategyBase) (c : Call) :
    (eventDriven book base).Quiet c := by
  intro _
  cases c with
  | onFrame | tick | checkCloseConditions => trivial
  | onSignal signal now => exact fun _ _ _ hfree => absurd hone (by simp [hfree])

/-- The calls of BounceFromDensity all are. -/
theorem bounce_monitors (cfg : BounceFromDensity.Config) {base : StrategyBase} (cs : List Call)
    (htrade : base.activeTradeInfo = some plan) :
    Monitors plan (eventDriven (BounceFromDensity.playbook cfg) base) cs := by
  have hquiet : ∀ base, Along step Quiet (eventDriven (BounceFromDensity.playbook cfg) base) cs := by
    induction cs with
    | nil => exact fun _ => trivial
    | cons c cs ih => exact fun base => ⟨oneTrade_quiet rfl base c, by cases c <;> exact ih _⟩
  have hbase : (eventDriven (BounceFromDensity.playbook cfg) base).base.activeTradeInfo = some plan :=
    htrade
  exact (monitors_iff_quiet hbase).2 (hquiet base)

/-- **A strategy monitors the trade of an accepted plan** until it requests a close exactly in the runs
    whose calls are quiet. -/
theorem monitors_iff (s : AnyStrategy) (plan : StrategyPlan) (cs : List Call)
    (hname : plan.strategyName = s.name) :
    Monitors plan (IStrategy.onPlanAccepted plan s) cs
      ↔ Along step Quiet (IStrategy.onPlanAccepted plan s) cs := by
  refine monitors_iff_quiet ?_
  have hbase : (IStrategy.onPlanAccepted plan s).base = s.base.onPlanAccepted s.name plan :=
    mapBase_base _ s
  rw [hbase, StrategyBase.onPlanAccepted, if_pos hname]

/-- A plan of a strategy for BTC_USDT that expires after ten seconds. -/
def expiringPlan (name : String) : StrategyPlan where
  ticker := "BTC_USDT"
  side := .buy
  strategyName := name
  validUntil := seconds 10

/-- A strategy for BTC_USDT with such a plan pending. -/
def pendingBase (name : String) : StrategyBase where
  ticker := "BTC_USDT"
  activePlan := some (expiringPlan name)

/-- An approach to a level. -/
def approachSignal : Signal where
  kind := .levelApproach
  timestamp := seconds 12
  ticker := "BTC_USDT"
  price := 100

/-- BounceFromDensity goes on monitoring after the plan has expired, and does not plan on an approach. -/
theorem bounce_monitors_past_expiry :
    Monitors (expiringPlan "BounceFromDensity")
      (IStrategy.onPlanAccepted (expiringPlan "BounceFromDensity")
        (eventDriven (BounceFromDensity.playbook {}) (pendingBase "BounceFromDensity")))
      [.tick (seconds 11), .onSignal approachSignal (seconds 12)] :=
  (monitors_iff _ _ _ rfl).2 ⟨oneTrade_quiet rfl _ _, oneTrade_quiet rfl _ _, trivial⟩

/-- LeaderLag drops the trade with the pending plan. -/
theorem leaderLag_drops_trade :
    ¬ ∀ (s : AnyStrategy) (plan : StrategyPlan) (cs : List Call), plan.strategyName = s.name →
        Monitors plan (IStrategy.onPlanAccepted plan s) cs := by
  intro hall
  obtain ⟨-, hclosed | ⟨hkept, -⟩⟩ := hall
    (leaderLag { toStrategyBase := pendingBase "LeaderLag" }) (expiringPlan "LeaderLag")
    [.tick (seconds 11)] rfl
  · exact absurd hclosed (by decide)
  · revert hkept
    decide +kernel

end AnyStrategy

end TradeBot
