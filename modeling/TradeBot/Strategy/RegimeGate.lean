import TradeBot.Lib.Runs
import TradeBot.Strategy.Strategies

set_option autoImplicit false

/-! # Regime suppression

Plans leave the engine from its tick, which drops those that the ticker's regime suppresses, and from
the subscription to the signal bus, which does not look at the regime.

The callback of plans is a parameter, and `offers` is what it was called with. The result holds for
any strategies, and says of a run exactly when the gate is kept: what the tick offers is never
suppressed, and what a signal leads to is offered without a look at the regime. -/

namespace TradeBot

/-- An offer of a plan that its ticker's regime suppresses. -/
def Offer.Suppressed (o : Offer) : Prop := StrategyEngine.suppresses o.regime o.plan = true

instance (o : Offer) : Decidable o.Suppressed := inferInstanceAs (Decidable (_ = true))

namespace StrategyEngine

/-! ## Offers -/

/-- The engine has made the offers `new` and has the regimes it had. -/
structure Offers {σ : Type} (eng eng' : StrategyEngine σ) (new : List Offer) : Prop where
  regimes : eng'.regimes = eng.regimes
  offers : eng'.offers = eng.offers ++ new

section

variable {σ : Type} {eng eng' eng'' : StrategyEngine σ} {new new' : List Offer}

theorem Offers.refl (eng : StrategyEngine σ) : Offers eng eng [] :=
  ⟨rfl, (List.append_nil _).symm⟩

theorem Offers.trans (h : Offers eng eng' new) (h' : Offers eng' eng'' new') :
    Offers eng eng'' (new ++ new') :=
  ⟨h'.regimes.trans h.regimes, by rw [h'.offers, h.offers, List.append_assoc]⟩

theorem Offers.currentRegime (h : Offers eng eng' new) (ticker : Ticker) :
    eng'.currentRegime ticker = eng.currentRegime ticker := by
  rw [StrategyEngine.currentRegime, StrategyEngine.currentRegime, h.regimes]

/-- A loop whose turns make no offers makes none. -/
theorem offers_foldl {ι : Type} {f : StrategyEngine σ → ι → StrategyEngine σ}
    (h : ∀ eng i, Offers eng (f eng i) []) (is : List ι) (eng : StrategyEngine σ) :
    Offers eng (is.foldl f eng) [] :=
  Runs.invariant (fun eng' => Offers eng eng' []) (fun _ i hs => hs.trans (h _ i)) is
    (Offers.refl eng)

theorem offers_store (a : Address) (s : σ) (eng : StrategyEngine σ) :
    Offers eng (eng.store a s) [] := ⟨rfl, (List.append_nil _).symm⟩

theorem offers_modify (a : Address) (f : σ → σ) (eng : StrategyEngine σ) :
    Offers eng (eng.modify a f) [] := by
  unfold modify
  split
  · exact offers_store a _ eng
  · exact Offers.refl eng

theorem offers_call {α : Type} (a : Address) (f : σ → σ × Option α) (eng : StrategyEngine σ) :
    Offers eng (eng.call a f).1 [] := by
  unfold call
  split
  · exact offers_store a _ eng
  · exact Offers.refl eng

end

section

variable {σ ω : Type} [IStrategy σ] {eng eng' : StrategyEngine σ}

theorem offers_modifyNamed (ticker : Ticker) (name : String) (f : σ → σ) (eng : StrategyEngine σ) :
    Offers eng (eng.modifyNamed ticker name f) [] :=
  offers_foldl (fun eng a => offers_modify a f eng) _ eng

theorem offers_resetPlans (plans : List PlanWithPriority) (eng : StrategyEngine σ) :
    Offers eng (eng.resetPlans plans) [] :=
  offers_foldl (fun eng (pw : PlanWithPriority) => offers_modify pw.strategy _ eng) plans eng

/-- The offer of a plan, and nothing else, with the regime the ticker has. -/
theorem offers_offer (gate : Gate ω) (a : Address) (plan : StrategyPlan)
    (st : StrategyEngine σ × ω) :
    Offers st.1 (offer (some gate) a plan st).1
      [⟨plan, a, st.1.currentRegime plan.ticker, (gate plan st.2).2.isSome⟩] := by
  unfold offer
  dsimp only
  cases (gate plan st.2).2 with
  | none =>
      have h := offers_modifyNamed plan.ticker plan.strategyName IStrategy.resetActivePlan
        { st.1 with offers := st.1.offers ++ [⟨plan, a, st.1.currentRegime plan.ticker, false⟩] }
      exact ⟨h.regimes, h.offers.trans (List.append_nil _)⟩
  | some accepted =>
      have h := offers_modifyNamed accepted.ticker accepted.strategyName
        (IStrategy.onPlanAccepted accepted)
        { st.1 with offers := st.1.offers ++ [⟨plan, a, st.1.currentRegime plan.ticker, true⟩] }
      exact ⟨h.regimes, h.offers.trans (List.append_nil _)⟩

/-! ## The tick -/

/-- The plans of one ticker are offered with its regime, if at all. -/
theorem tryPlans_offers (gate : Gate ω) {ticker : Ticker} {plans : List PlanWithPriority}
    (hticker : ∀ pw ∈ plans, pw.plan.ticker = ticker) (st : StrategyEngine σ × ω)
    (hkept : ∀ pw ∈ plans, suppresses (st.1.currentRegime ticker) pw.plan = false) :
    ∃ new, Offers st.1 (tryPlans gate plans st).1 new ∧ ∀ o ∈ new, ¬ o.Suppressed := by
  induction plans generalizing st with
  | nil => exact ⟨[], Offers.refl _, List.forall_mem_nil _⟩
  | cons pw plans ih =>
      have hoffer := offers_offer gate pw.strategy pw.plan st
      have hnew : ¬ Offer.Suppressed ⟨pw.plan, pw.strategy, st.1.currentRegime pw.plan.ticker,
          (gate pw.plan st.2).2.isSome⟩ := by
        rw [Offer.Suppressed, hticker pw (List.mem_cons_self ..), hkept pw (List.mem_cons_self ..)]
        exact Bool.false_ne_true
      unfold tryPlans
      dsimp only
      split
      · exact ⟨_, hoffer, List.forall_mem_singleton.2 hnew⟩
      · obtain ⟨new, hrest, hall⟩ := ih (fun x hx => hticker x (List.mem_cons_of_mem _ hx))
          (offer (some gate) pw.strategy pw.plan st) (fun x hx => by
            rw [hoffer.currentRegime]
            exact hkept x (List.mem_cons_of_mem _ hx))
        exact ⟨_, hoffer.trans hrest, List.forall_mem_append.2
          ⟨List.forall_mem_singleton.2 hnew, hall⟩⟩

theorem choose_offers (ps : PlanSort) (onPlan : Option (Gate ω)) (st : StrategyEngine σ × ω)
    (group : Ticker × List PlanWithPriority)
    (hgroup : ∀ pw ∈ group.2, pw.plan.ticker = group.1) :
    ∃ new, Offers st.1 (choose ps onPlan st group).1 new ∧ ∀ o ∈ new, ¬ o.Suppressed := by
  have hreset : Offers st.1 (st.1.suppress (st.1.currentRegime group.1) group.2).1 [] :=
    offers_resetPlans _ st.1
  unfold choose
  dsimp only
  cases onPlan with
  | none => exact ⟨[], hreset, List.forall_mem_nil _⟩
  | some gate =>
      have hmem : ∀ pw ∈ ps.sort (st.1.suppress (st.1.currentRegime group.1) group.2).2,
          pw ∈ group.2 ∧ suppresses (st.1.currentRegime group.1) pw.plan = false := by
        intro pw hpw
        have hin := (ps.perm _).mem_iff.1 hpw
        rw [suppress, List.mem_filter, Bool.not_eq_true'] at hin
        exact hin
      obtain ⟨new, hnew, hall⟩ := tryPlans_offers gate (fun pw hpw => hgroup pw (hmem pw hpw).1)
        ((st.1.suppress (st.1.currentRegime group.1) group.2).1, st.2) (fun pw hpw => by
          rw [hreset.currentRegime]
          exact (hmem pw hpw).2)
      exact ⟨_, hreset.trans hnew, hall⟩

theorem collect_offers (now : TimePoint)
    (st : StrategyEngine σ × BucketMap Ticker PlanWithPriority) (a : Address) :
    Offers st.1 (collect now st a).1 [] := by
  have h := offers_call a (IStrategy.tick now) st.1
  unfold collect
  dsimp only
  split <;> exact h

/-- Plans are collected under their tickers. -/
theorem collect_wellKeyed (now : TimePoint)
    (st : StrategyEngine σ × BucketMap Ticker PlanWithPriority) (a : Address)
    (h : BucketMap.WellKeyed (fun pw => pw.plan.ticker) st.2) :
    BucketMap.WellKeyed (fun pw => pw.plan.ticker) (collect now st a).2 := by
  unfold collect
  dsimp only
  split
  · exact h.push rfl
  · exact h

theorem tick_offers (ps : PlanSort) (onPlan : Option (Gate ω)) (now : TimePoint)
    (st : StrategyEngine σ × ω) :
    ∃ new, Offers st.1 (tick ps onPlan now st).1 new ∧ ∀ o ∈ new, ¬ o.Suppressed := by
  have hcollect : Offers st.1 (st.1.addresses.foldl (collect now) (st.1, [])).1 [] ∧
      BucketMap.WellKeyed (fun pw => pw.plan.ticker)
        (st.1.addresses.foldl (collect now) (st.1, [])).2 :=
    Runs.invariant
      (fun st' => Offers st.1 st'.1 [] ∧ BucketMap.WellKeyed (fun pw => pw.plan.ticker) st'.2)
      (fun st' a h => ⟨h.1.trans (collect_offers now st' a), collect_wellKeyed now st' a h.2⟩)
      st.1.addresses ⟨Offers.refl _, BucketMap.wellKeyed_nil _⟩
  unfold tick
  dsimp only
  generalize st.1.addresses.foldl (collect now) (st.1, []) = r at hcollect
  obtain ⟨hoffers, hkeyed⟩ := hcollect
  have hchoose : ∀ groups : BucketMap Ticker PlanWithPriority, ∀ st' : StrategyEngine σ × ω,
      (∀ e ∈ groups, ∀ pw ∈ e.2, pw.plan.ticker = e.1) →
        ∃ new, Offers st'.1 (groups.foldl (choose ps onPlan) st').1 new ∧
          ∀ o ∈ new, ¬ o.Suppressed := by
    intro groups
    induction groups with
    | nil => exact fun st' _ => ⟨[], Offers.refl _, List.forall_mem_nil _⟩
    | cons e groups ih =>
        intro st' hgroups
        obtain ⟨new, hnew, hall⟩ := choose_offers ps onPlan st' e
          (hgroups e (List.mem_cons_self ..))
        obtain ⟨new', hnew', hall'⟩ := ih (choose ps onPlan st' e)
          (fun e' he' => hgroups e' (List.mem_cons_of_mem _ he'))
        exact ⟨_, hnew.trans hnew', List.forall_mem_append.2 ⟨hall, hall'⟩⟩
  obtain ⟨new, hnew, hall⟩ := hchoose r.2 (r.1, st.2) hkeyed.keyed
  exact ⟨_, hoffers.trans hnew, hall⟩

/-! ## Signals -/

/-- What a strategy answers to a signal. -/
def answer (s : Signal) (now : TimePoint) (eng : StrategyEngine σ) (a : Address) :
    Option StrategyPlan :=
  (eng.call a (IStrategy.onSignal s now)).2

/-- A strategy's answer is not a plan that the regime of the plan's ticker suppresses. -/
def AnswersAllowed (s : Signal) (now : TimePoint) (st : StrategyEngine σ × ω) (a : Address) : Prop :=
  ∀ plan, answer s now st.1 a = some plan →
    suppresses (st.1.currentRegime plan.ticker) plan = false

theorem deliver_offers (gate : Gate ω) (s : Signal) (now : TimePoint) (st : StrategyEngine σ × ω)
    (a : Address) :
    ∃ new, Offers st.1 (deliver (some gate) s now st a).1 new ∧
      ((∀ o ∈ new, ¬ o.Suppressed) ↔ AnswersAllowed s now st a) := by
  have hcall := offers_call a (IStrategy.onSignal s now) st.1
  unfold deliver AnswersAllowed answer
  dsimp only
  cases (st.1.call a (IStrategy.onSignal s now)).2 with
  | none => exact ⟨[], hcall, by simp⟩
  | some plan =>
      have hoffer := offers_offer gate a plan ((st.1.call a (IStrategy.onSignal s now)).1, st.2)
      refine ⟨_, hcall.trans hoffer, ?_⟩
      rw [List.nil_append, List.forall_mem_singleton, Offer.Suppressed, hcall.currentRegime,
        Bool.not_eq_true]
      simp

/-- Without a callback nothing is offered. -/
theorem deliver_none (s : Signal) (now : TimePoint) (st : StrategyEngine σ × ω) (a : Address) :
    (deliver none s now st a).1.offers = st.1.offers := by
  have hcall := offers_call a (IStrategy.onSignal s now) st.1
  unfold deliver
  dsimp only
  split <;> exact hcall.offers.trans (List.append_nil _)

theorem foldl_deliver_offers (gate : Gate ω) (s : Signal) (now : TimePoint)
    (st : StrategyEngine σ × ω) (as : List Address) :
    ∃ new, Offers st.1 (as.foldl (deliver (some gate) s now) st).1 new ∧
      ((∀ o ∈ new, ¬ o.Suppressed) ↔
        Runs.Along (deliver (some gate) s now) (AnswersAllowed s now) st as) := by
  induction as generalizing st with
  | nil => exact ⟨[], Offers.refl _, by simp [Runs.Along]⟩
  | cons a as ih =>
      obtain ⟨new, hnew, hall⟩ := deliver_offers gate s now st a
      obtain ⟨new', hnew', hall'⟩ := ih (deliver (some gate) s now st a)
      exact ⟨_, hnew.trans hnew', by rw [List.forall_mem_append, hall, hall', Runs.Along]⟩

/-! ## Runs -/

/-- No strategy answers a published signal with a plan that the regime suppresses. -/
def Allowed (st : StrategyEngine σ × ω) : Op σ ω → Prop
  | .signal (some gate) s now =>
      Runs.Along (deliver (some gate) s now) (AnswersAllowed s now) st (st.1.recipients s)
  | _ => True

theorem addStrategy_offers (s : σ) (eng : StrategyEngine σ) :
    (eng.addStrategy s).offers = eng.offers := by
  unfold addStrategy
  dsimp only
  split <;> rfl

theorem removeStrategy_offers (ticker : Ticker) (name : String) (eng : StrategyEngine σ) :
    (eng.removeStrategy ticker name).offers = eng.offers := by
  unfold removeStrategy
  split
  · rfl
  split
  · rfl
  split <;> rfl

theorem checkClose_offers (now : TimePoint) (frame : FeatureFrame) (eng : StrategyEngine σ)
    (a : Address) : Offers eng (eng.checkClose now frame a) [] := by
  have h := offers_call a (IStrategy.checkCloseConditions now frame) eng
  unfold checkClose
  dsimp only
  split
  · exact ⟨h.regimes, h.offers⟩
  · exact h

theorem onFrame_offers (closing : Bool) (now : TimePoint) (frame : FeatureFrame)
    (eng : StrategyEngine σ) : (eng.onFrame closing now frame).offers = eng.offers := by
  have hframe := offers_foldl (fun eng a => offers_modify a (IStrategy.onFrame frame) eng)
    (eng.strategiesOf frame.ticker ++ eng.globalStrategies) eng
  unfold onFrame
  dsimp only
  generalize (eng.strategiesOf frame.ticker ++ eng.globalStrategies).foldl
    (fun eng a => eng.modify a (IStrategy.onFrame frame)) eng = eng' at hframe
  split
  · have hclose := offers_foldl (checkClose_offers now frame) (eng'.strategiesOf frame.ticker) eng'
    exact (hframe.trans hclose).offers.trans (List.append_nil _)
  · exact hframe.offers.trans (List.append_nil _)

/-- What a step adds to the offers is not suppressed exactly if the step is allowed. -/
theorem step_offers (st : StrategyEngine σ × ω) (op : Op σ ω) :
    ∃ new, (step st op).1.offers = st.1.offers ++ new ∧
      ((∀ o ∈ new, ¬ o.Suppressed) ↔ Allowed st op) := by
  have hquiet : ∀ eng' : StrategyEngine σ, eng'.offers = st.1.offers →
      ∃ new, eng'.offers = st.1.offers ++ new ∧ ((∀ o ∈ new, ¬ o.Suppressed) ↔ True) :=
    fun eng' h => ⟨[], h.trans (List.append_nil _).symm, by simp⟩
  cases op with
  | addStrategy s => exact hquiet _ (addStrategy_offers s st.1)
  | removeStrategy ticker name => exact hquiet _ (removeStrategy_offers ticker name st.1)
  | onFrame closing now frame => exact hquiet _ (onFrame_offers closing now frame st.1)
  | resetStrategyPlan ticker name =>
      have h := offers_modifyNamed ticker name IStrategy.resetActivePlan st.1
      exact hquiet _ (h.offers.trans (List.append_nil _))
  | notifyPlanAccepted plan =>
      have h := offers_modifyNamed plan.ticker plan.strategyName (IStrategy.onPlanAccepted plan) st.1
      exact hquiet _ (h.offers.trans (List.append_nil _))
  | tick ps onPlan now =>
      obtain ⟨new, hnew, hall⟩ := tick_offers ps onPlan now st
      exact ⟨new, hnew.offers, iff_of_true hall trivial⟩
  | signal onPlan s now =>
      cases onPlan with
      | some gate =>
          obtain ⟨new, hnew, hall⟩ := foldl_deliver_offers gate s now st (st.1.recipients s)
          exact ⟨new, hnew.offers, hall⟩
      | none =>
          refine hquiet _ ?_
          exact Runs.invariant (fun st' : StrategyEngine σ × ω => st'.1.offers = st.1.offers)
            (fun st' a h => (deliver_none s now st' a).trans h) (st.1.recipients s) rfl

/-- A run offers no suppressed plan exactly if no strategy answers a published signal with one. -/
theorem offers_allowed_iff (w : ω) (ops : List (Op σ ω)) :
    (∀ o ∈ (run w ops).1.offers, ¬ o.Suppressed) ↔ Runs.Along step Allowed ({}, w) ops := by
  have hrun : ∀ st : StrategyEngine σ × ω, ∃ new, (ops.foldl step st).1.offers = st.1.offers ++ new ∧
      ((∀ o ∈ new, ¬ o.Suppressed) ↔ Runs.Along step Allowed st ops) := by
    induction ops with
    | nil => exact fun st => ⟨[], (List.append_nil _).symm, by simp [Runs.Along]⟩
    | cons op ops ih =>
        intro st
        obtain ⟨new, hnew, hall⟩ := step_offers st op
        obtain ⟨new', hnew', hall'⟩ := ih (step st op)
        refine ⟨new ++ new', ?_, by rw [List.forall_mem_append, hall, hall', Runs.Along]⟩
        rw [List.foldl_cons, hnew', hnew, List.append_assoc]
  obtain ⟨new, hnew, hall⟩ := hrun ({}, w)
  rw [run, hnew, ← hall]
  rfl

end

/-- News, two aggressive prints and a break of a level: FlushReversal answers the break with a plan. -/
def breakInNews : List (Op AnyStrategy Unit) :=
  let frame : FeatureFrame :=
    { ticker := "BTC_USDT", spreadBps := 1, sellVol5s := 10, priceChange1s := 1 / 10
      volatility1minBps := 100 }
  let print : Signal :=
    { kind := .tapeFlush, timestamp := seconds 100, ticker := "BTC_USDT", price := 100 }
  let levelBreak : Signal :=
    { print with kind := .levelBreak, payload := { distBps := -10, touches := 3 } }
  let onPlan : Gate Unit := fun plan w => (w, some plan)
  [ .addStrategy (.eventDriven (FlushReversal.playbook {})
      { ticker := "BTC_USDT", priceIncrement := 1 / 100 }),
    .onFrame true (seconds 100) frame,
    .signal (some onPlan) print (seconds 100),
    .signal (some onPlan) print (seconds 100),
    .signal (some onPlan) levelBreak (seconds 100) ]

theorem not_offers_allowed_breakInNews :
    ¬ ∀ o ∈ (run () breakInNews).1.offers, ¬ o.Suppressed := by
  decide +kernel

end StrategyEngine

end TradeBot
