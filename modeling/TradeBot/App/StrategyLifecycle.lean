import TradeBot.App.PlanGate
import TradeBot.App.PositionLimits
import TradeBot.Strategy.PlanSelection

set_option autoImplicit false

/-! # Strategies and their trades

The strategy engine with the program behind its callbacks: `on_plan` goes through the gates of
`BotApp.onPlan` and submits, and the close callback calls `close_trade`. A strategy takes up the
monitoring of a trade when it is notified of the acceptance; nothing notifies it when a trade ends. -/

namespace TradeBot

namespace AnyStrategy

/-- It monitors a trade. -/
def monitors (s : AnyStrategy) : Bool := s.base.activeTradeInfo.isSome

/-- The guard at the head of its planning that keeps it from making a plan. -/
def heldBack : AnyStrategy → Bool
  | eventDriven book base => book.blocked base
  | leaderLag l => l.activePlan.isSome

/-- It has become one of the same name and ticker, which monitors no trade that it did not. -/
def Settles (s s' : AnyStrategy) : Prop :=
  SameIdentity s s' ∧ (s'.monitors = true → s.monitors = true)

theorem monitors_of_eq {s s' : AnyStrategy}
    (h : s'.base.activeTradeInfo = s.base.activeTradeInfo) :
    s'.monitors = true → s.monitors = true := by
  rw [monitors, monitors, h]
  exact id

theorem onSignal_monitors (signal : Signal) (now : TimePoint) (s : AnyStrategy) :
    (s.onSignal signal now).1.base.activeTradeInfo = s.base.activeTradeInfo := by
  cases s with
  | eventDriven book base => exact (book.onSignal_fst signal now base).1
  | leaderLag l =>
      simp only [onSignal, LeaderLag.onSignal]
      split <;> rfl

theorem tick_monitors (now : TimePoint) (s : AnyStrategy) :
    (s.tick now).1.monitors = true → s.monitors = true := by
  cases s with
  | eventDriven book base =>
      refine monitors_of_eq ?_
      show (base.expirePlan now).activeTradeInfo = base.activeTradeInfo
      unfold StrategyBase.expirePlan
      split <;> rfl
  | leaderLag l =>
      unfold monitors tick LeaderLag.tick
      dsimp only
      split
      · exact id
      -- the trade of an expired plan is dropped, whatever is planned next
      cases l.activePlan.any (fun plan => decide (plan.validUntil < now)) with
      | false => split <;> exact id
      | true => split <;> exact fun h => absurd h (by simp [base])

theorem checkCloseConditions_monitors (now : TimePoint) (frame : FeatureFrame) (s : AnyStrategy) :
    (s.checkCloseConditions now frame).1.monitors = true → s.monitors = true := by
  have hkeeps : ∀ (rule : StrategyPlan → Option String) (b : StrategyBase),
      (b.checkClose rule).1.activeTradeInfo.isSome = true → b.activeTradeInfo.isSome = true := by
    intro rule b h
    obtain ⟨plan, hplan⟩ := Option.isSome_iff_exists.1 h
    exact Option.isSome_of_mem ((b.checkClose_fst rule).2 plan hplan)
  cases s with
  | eventDriven book base => exact hkeeps _ base
  | leaderLag l => exact hkeeps _ l.toStrategyBase

theorem quiet_settles :
    StrategyEngine.QuietMethods (fun _ => True) (fun _ => True) Settles where
  refl s := ⟨methods_identity.refl s, id⟩
  trans s s' s'' h h' := ⟨methods_identity.trans s s' s'' h.1 h'.1, fun hs => h.2 (h'.2 hs)⟩
  onFrame frame s hf := by
    refine ⟨methods_identity.onFrame frame s hf, monitors_of_eq ?_⟩
    have hbase : (IStrategy.onFrame frame s).base = s.base.onFrame frame := base_onFrame frame s
    rw [hbase]
    unfold StrategyBase.onFrame
    split <;> rfl
  onSignal signal now s hs :=
    ⟨methods_identity.onSignal signal now s hs, monitors_of_eq (onSignal_monitors signal now s)⟩
  tick now s := ⟨methods_identity.tick now s, tick_monitors now s⟩
  resetActivePlan s := by
    refine ⟨methods_identity.resetActivePlan s, fun h => ?_⟩
    have hbase : (IStrategy.resetActivePlan s).base = s.base.resetActivePlan := mapBase_base _ s
    rw [monitors, hbase] at h
    exact absurd h (by simp [StrategyBase.resetActivePlan])
  checkCloseConditions now frame s :=
    ⟨methods_identity.checkCloseConditions now frame s, checkCloseConditions_monitors now frame s⟩

/-- A strategy that is notified of a plan takes up its trade if the plan bears its name. -/
theorem onPlanAccepted_monitors (plan : StrategyPlan) (s : AnyStrategy)
    (h : (IStrategy.onPlanAccepted plan s).monitors = true) :
    s.monitors = true ∨ s.name = plan.strategyName := by
  have hbase : (IStrategy.onPlanAccepted plan s).base = s.base.onPlanAccepted s.name plan :=
    mapBase_base _ s
  by_cases hname : plan.strategyName = s.name
  · exact Or.inr hname.symm
  · rw [monitors, hbase, StrategyBase.onPlanAccepted, if_neg hname] at h
    exact Or.inl h

/-- What a strategy does that monitors no trade: it is held back by a pending plan only, and asks for
    no close. -/
theorem of_not_monitors {s : AnyStrategy} (h : s.monitors = false) :
    s.heldBack = s.base.activePlan.isSome ∧
      ∀ now frame, (s.checkCloseConditions now frame).2 = none := by
  have hnone : s.base.activeTradeInfo = none := by simpa [monitors] using h
  cases s with
  | eventDriven book b =>
      have hb : b.activeTradeInfo = none := hnone
      refine ⟨by simp [heldBack, Playbook.blocked, hb, base], fun now frame => ?_⟩
      simp [checkCloseConditions, Playbook.checkCloseConditions, StrategyBase.checkClose, hb]
  | leaderLag l =>
      have hb : l.toStrategyBase.activeTradeInfo = none := hnone
      refine ⟨rfl, fun now frame => ?_⟩
      simp [checkCloseConditions, StrategyBase.checkClose, hb]

end AnyStrategy

/-! ## The system -/

/-- What the `on_plan` callback reads from outside while it handles a plan. -/
structure PlanCall where
  inp : PlanInput
  env : Env := .accepting
  ns : ℕ := 0
  submittedAt : TimePoint := 0

/-- The `on_plan` callback, on a thread that no other one interrupts. -/
def onPlanGate (call : StrategyPlan → BotApp → PlanCall) : Gate BotApp := fun plan app =>
  let c := call plan app
  let (rm, verdict) := app.onPlan c.inp plan.toTradePlan
  match verdict.plan? with
  | some sent =>
      ({ app with
          riskManager := rm
          executor := app.executor.submit c.env c.ns c.submittedAt sent
          submitted := app.submitted ++ [sent] },
        some { plan with toTradePlan := sent })
  | none => ({ app with riskManager := rm }, none)

/-- The close callback. -/
def closeRequested (env : Env) (ex : LiveExecutor) (request : Ticker × String) : LiveExecutor :=
  ex.closeTrade env request.1 request.2

/-- A trade of that ticker and strategy that is not closed. -/
def LiveExecutor.Live (ex : LiveExecutor) (ticker : Ticker) (name : String) : Prop :=
  ∃ x ∈ ex.openPlans, x.2.ticker = ticker ∧ x.2.strategyName = name

instance (ex : LiveExecutor) (ticker : Ticker) (name : String) : Decidable (ex.Live ticker name) :=
  inferInstanceAs (Decidable (∃ x ∈ ex.openPlans, _))

namespace StrategyLifecycle

/-- The engine, and the program behind its callbacks. -/
abbrev State := StrategyEngine AnyStrategy × BotApp

/-- What can happen: to the engine, whose callbacks are those of the program, and to the program. New
    strategies monitor nothing. -/
inductive Op
  | addStrategy (s : {s : AnyStrategy // s.monitors = false})
  | removeStrategy (ticker : Ticker) (name : String)
  | frame (env : Env) (now : TimePoint) (frame : FeatureFrame)
  | signal (call : StrategyPlan → BotApp → PlanCall) (s : Signal) (now : TimePoint)
  | engineTick (ps : PlanSort) (call : StrategyPlan → BotApp → PlanCall) (now : TimePoint)
  | app (ev : BotApp.AppEvent)

/-- The closes that the strategies request on a frame. -/
def requests (now : TimePoint) (frame : FeatureFrame) (eng : StrategyEngine AnyStrategy) :
    List (Ticker × String) :=
  (eng.onFrame true now frame).closeRequests.drop eng.closeRequests.length

/-- The executor after the closes requested on a frame. -/
def closeAll (env : Env) (now : TimePoint) (frame : FeatureFrame) (st : State) : LiveExecutor :=
  (requests now frame st.1).foldl (closeRequested env) st.2.executor

/-- The two after an operation. -/
def step (st : State) : Op → State
  | .addStrategy s => (st.1.addStrategy s.1, st.2)
  | .removeStrategy ticker name => (st.1.removeStrategy ticker name, st.2)
  | .frame env now frame =>
      (st.1.onFrame true now frame, { st.2 with executor := closeAll env now frame st })
  | .signal call s now => StrategyEngine.onSignal (some (onPlanGate call)) s now st
  | .engineTick ps call now => StrategyEngine.tick ps (some (onPlanGate call)) now st
  | .app ev => (st.1, st.2.step ev)

/-- The program with a new executor and no strategies yet. -/
def start (cfg : ExecutorConfig) (app : BotApp) : State := ({}, { app with executor := .init cfg })

/-- A registered strategy of that ticker and name monitors a trade. -/
def Monitored (eng : StrategyEngine AnyStrategy) (ticker : Ticker) (name : String) : Prop :=
  ∃ a ∈ eng.addresses, ∃ s, eng.objects a = some s ∧ s.monitors = true ∧
    s.base.ticker = ticker ∧ s.name = name

/-- Monitoring follows the trades: a strategy monitors a trade only while there is one of its own. One
    without a trade is free to plan, unless it has a plan pending, and requests no close. -/
structure FollowsTrades (st : State) : Prop where
  live : ∀ ticker name, Monitored st.1 ticker name → st.2.executor.Live ticker name
  free : ∀ a ∈ st.1.addresses, ∀ s, st.1.objects a = some s →
    ¬ st.2.executor.Live s.base.ticker s.name → s.heldBack = s.base.activePlan.isSome
  quiet : ∀ a ∈ st.1.addresses, ∀ s, st.1.objects a = some s →
    ¬ st.2.executor.Live s.base.ticker s.name →
      ∀ now frame, (s.checkCloseConditions now frame).2 = none

theorem FollowsTrades.of_live {st : State}
    (h : ∀ ticker name, Monitored st.1 ticker name → st.2.executor.Live ticker name) :
    FollowsTrades st := by
  have hnot : ∀ a ∈ st.1.addresses, ∀ s, st.1.objects a = some s →
      ¬ st.2.executor.Live s.base.ticker s.name → s.monitors = false := by
    intro a ha s hs hdead
    refine Bool.eq_false_of_not_eq_true fun hmon => ?_
    exact hdead (h _ _ ⟨a, ha, s, hs, hmon, rfl, rfl⟩)
  exact ⟨h, fun a ha s hs hdead => (AnyStrategy.of_not_monitors (hnot a ha s hs hdead)).1,
    fun a ha s hs hdead => (AnyStrategy.of_not_monitors (hnot a ha s hs hdead)).2⟩

/-! ## What ends a trade -/

/-- No trade ends that is the last one of a strategy which monitors it. -/
def Spared (eng : StrategyEngine AnyStrategy) (ex ex' : LiveExecutor) : Prop :=
  ∀ ticker name, Monitored eng ticker name → ex.Live ticker name → ex'.Live ticker name

/-- The event may close a trade. -/
def mayClose : BotApp.AppEvent → Prop
  | .tick _ | .kill _ => True
  | .executorOp op => op.mayClose
  | _ => False

/-- No strategy loses its last trade while it monitors it: neither by the executor's own doing, nor by
    `close_trade` on another strategy's request. -/
def Spares (st : State) : Op → Prop
  | .frame env now frame =>
      Spared (st.1.onFrame true now frame) st.2.executor (closeAll env now frame st)
  | .app ev => mayClose ev → Spared st.1 st.2.executor (st.2.step ev).executor
  | _ => True

/-! ## The executor's side -/

section

variable {ex ex' : LiveExecutor} {ticker : Ticker} {name : String}

theorem live_mono (h : ex.openPlans ⊆ ex'.openPlans) (hlive : ex.Live ticker name) :
    ex'.Live ticker name := by
  obtain ⟨x, hx, heq⟩ := hlive
  exact ⟨x, h hx, heq⟩

/-- `submit` always leaves a trade, if only one that the exchange may not know of. -/
theorem live_submit (env : Env) (ns : ℕ) (now : TimePoint) (plan : TradePlan) (ex : LiveExecutor) :
    (ex.submit env ns now plan).Live plan.ticker plan.strategyName := by
  unfold LiveExecutor.submit
  obtain ⟨state, -, hst, -, htrades, -⟩ := submitPush_spec now (LiveExecutor.submitReserve ns plan ex).2
    (LiveExecutor.submitPlace env (LiveExecutor.submitReserve ns plan ex).2
      (LiveExecutor.submitReserve ns plan ex).1).2
    (LiveExecutor.submitPlace env (LiveExecutor.submitReserve ns plan ex).2
      (LiveExecutor.submitReserve ns plan ex).1).1
  refine ⟨(ex.nextUid, plan), LiveExecutor.mem_openPlans.2
    ⟨{ (LiveExecutor.submitReserve ns plan ex).2.trade with state := state }, ?_, ?_, rfl, rfl⟩,
    rfl, rfl⟩
  · unfold LiveExecutor.allTrades
    dsimp only
    rw [htrades, BucketMap.mem_values_push]
    exact Or.inl rfl
  · rcases hst with rfl | rfl <;> simp [LiveExecutor.submitReserve]

theorem closeAll_wf {st : State} (hwf : st.2.executor.WF) (env : Env) (now : TimePoint)
    (frame : FeatureFrame) : (closeAll env now frame st).WF :=
  Runs.invariant LiveExecutor.WF
    (fun _ (req : Ticker × String) h => h.step (.closeTrade env req.1 req.2)) _ hwf

theorem step_executor_wf {app : BotApp} (hwf : app.executor.WF) (ev : BotApp.AppEvent) :
    (app.step ev).executor.WF := by
  cases ev with
  | executorOp op => exact hwf.step op
  | _ => exact BotApp.step_wf hwf trivial

/-- An event that may not close a trade closes none. -/
theorem step_openPlans {app : BotApp} (hwf : app.executor.WF) {ev : BotApp.AppEvent}
    (hev : ¬ mayClose ev) : app.executor.openPlans ⊆ (app.step ev).executor.openPlans := by
  -- submitting adds a trade at most
  have hsubmit : ∀ env ns now plan,
      app.executor.openPlans ⊆ (app.executor.submit env ns now plan).openPlans :=
    fun env ns now plan =>
      LiveExecutor.step_openPlans_superset hwf (.submit env ns now plan) id
  cases ev with
  | trigger => exact List.Subset.refl _
  | slowTimer controllers =>
      simp only [BotApp.step, BotApp.beginKillSwitch]
      split
      · split <;> exact List.Subset.refl _
      · exact List.Subset.refl _
      · exact List.Subset.refl _
  | dashboardTimer controllers marks =>
      simp only [BotApp.step, BotApp.beginKillSwitch]
      split
      · split <;> exact List.Subset.refl _
      · cases marks with
        | none => exact List.Subset.refl _
        | some marks =>
            exact LiveExecutor.step_openPlans_superset hwf (.setMarkPrices marks) id
      · exact List.Subset.refl _
  | tick inp => exact absurd trivial hev
  | kill inp => exact absurd trivial hev
  | offer caller inp plan =>
      simp only [BotApp.step, BotApp.offer]
      split <;> exact List.Subset.refl _
  | submit caller env ns now =>
      simp only [BotApp.step, BotApp.submit]
      split
      · exact hsubmit env ns now _
      · exact hsubmit env ns now _
      · exact List.Subset.refl _
  | drainClosedTrades => exact LiveExecutor.step_openPlans_superset hwf .popClosedTrades id
  | executorOp op => exact LiveExecutor.step_openPlans_superset hwf op hev

end

/-! ## The engine's side -/

section

variable {eng eng' : StrategyEngine AnyStrategy} {ticker : Ticker} {name : String}

theorem Monitored.of_evolves (h : StrategyEngine.Evolves AnyStrategy.Settles eng eng')
    (hmon : Monitored eng' ticker name) : Monitored eng ticker name := by
  obtain ⟨a, ha, s', hs', hmon, hticker, hname⟩ := hmon
  obtain ⟨s, hs, hidentity, himp⟩ := h.some_right hs'
  refine ⟨a, ?_, s, hs, himp hmon, hidentity.2.symm.trans hticker, hidentity.1.symm.trans hname⟩
  unfold StrategyEngine.addresses at ha ⊢
  rw [h.tickerStrategies, h.globalStrategies] at ha
  exact ha

/-- What a notification makes of a strategy. -/
def Notified (plan : StrategyPlan) (s s' : AnyStrategy) : Prop :=
  SameIdentity s s' ∧ (s'.monitors = true → s.monitors = true ∨ s.name = plan.strategyName)

theorem notified_refl (plan : StrategyPlan) (s : AnyStrategy) : Notified plan s s :=
  ⟨AnyStrategy.methods_identity.refl s, Or.inl⟩

theorem notified_trans (plan : StrategyPlan) (s s' s'' : AnyStrategy) (h : Notified plan s s')
    (h' : Notified plan s' s'') : Notified plan s s'' := by
  refine ⟨AnyStrategy.methods_identity.trans s s' s'' h.1 h'.1, fun hmon => ?_⟩
  rcases h'.2 hmon with hmon | hname
  · exact h.2 hmon
  · exact Or.inr (h.1.1.symm.trans hname)

theorem notified_accepted (plan : StrategyPlan) (s : AnyStrategy) :
    Notified plan s (IStrategy.onPlanAccepted plan s) :=
  ⟨AnyStrategy.methods_identity.onPlanAccepted plan s, AnyStrategy.onPlanAccepted_monitors plan s⟩

/-- After a notification, strategies monitor what they did, or the trade of the plan. -/
theorem Monitored.of_notified (hreg : StrategyEngine.Registered eng) (plan : StrategyPlan)
    (hmon : Monitored (eng.notifyPlanAccepted plan) ticker name) :
    Monitored eng ticker name ∨ (ticker = plan.ticker ∧ name = plan.strategyName) := by
  obtain ⟨a, ha, s', hs', hmon, hticker, hname⟩ := hmon
  have hev : StrategyEngine.Evolves (Notified plan) eng (eng.notifyPlanAccepted plan) :=
    StrategyEngine.evolves_foldl id (notified_refl plan) (notified_trans plan)
      (fun eng a => StrategyEngine.evolves_modify (notified_refl plan) (notified_accepted plan) a eng)
      _ eng
  have ha' : a ∈ eng.addresses := by
    unfold StrategyEngine.addresses at ha ⊢
    rw [hev.tickerStrategies, hev.globalStrategies] at ha
    exact ha
  obtain ⟨s, hs, hidentity, himp⟩ := hev.some_right hs'
  have hticker' : s.base.ticker = ticker := hidentity.2.symm.trans hticker
  have hname' : s.name = name := hidentity.1.symm.trans hname
  by_cases hin : a ∈ eng.strategiesOf plan.ticker
  · rcases himp hmon with hold | hnamed
    · exact Or.inl ⟨a, ha', s, hs, hold, hticker', hname'⟩
    · -- it is under the plan's ticker, so the trade is of its own
      have hat := (hreg.tickerAt_of_mem hin).1
      rw [StrategyEngine.tickerAt, hs, Option.map_some, Option.getD_some] at hat
      exact Or.inr ⟨hticker'.symm.trans hat, hname'.symm.trans hnamed⟩
  · have hsame : (eng.notifyPlanAccepted plan).objects a = eng.objects a :=
      StrategyEngine.foldl_modify_objects (fun h => hin (List.mem_of_mem_filter h)) eng
    rw [hs', hs, Option.some.injEq] at hsame
    exact Or.inl ⟨a, ha', s, hs, hsame ▸ hmon, hticker', hname'⟩

end

/-! ## Steps -/

/-- What holds of the system as long as strategies are spared. -/
structure Inv (st : State) : Prop where
  registered : StrategyEngine.Registered st.1
  wf : st.2.executor.WF
  live : ∀ ticker name, Monitored st.1 ticker name → st.2.executor.Live ticker name

section

variable {st : State} {eng : StrategyEngine AnyStrategy}

theorem Inv.evolves (h : Inv st) (hev : StrategyEngine.Evolves AnyStrategy.Settles st.1 eng) :
    Inv (eng, st.2) :=
  ⟨h.registered.evolves (hev.mono fun _ _ hs => hs.1), h.wf,
    fun ticker name hmon => h.live ticker name (hmon.of_evolves hev)⟩

/-- The engine's record of its offers matters to nothing. -/
theorem Inv.of_lists (h : Inv st) (hobjects : eng.objects = st.1.objects)
    (hticker : eng.tickerStrategies = st.1.tickerStrategies)
    (hglobal : eng.globalStrategies = st.1.globalStrategies)
    (hnext : eng.nextAddress = st.1.nextAddress) : Inv (eng, st.2) := by
  refine h.evolves ⟨fun a => ?_, hticker, hglobal, hnext⟩
  rw [hobjects]
  exact (StrategyEngine.Evolves.refl AnyStrategy.quiet_settles.refl st.1).objects a

/-- A notification after the submission. -/
theorem Inv.accepted (h : Inv st) (plan : StrategyPlan) {app : BotApp}
    (hwf : app.executor.WF) (hkept : st.2.executor.openPlans ⊆ app.executor.openPlans)
    (hsent : app.executor.Live plan.ticker plan.strategyName) :
    Inv (st.1.notifyPlanAccepted plan, app) := by
  have hidentity : StrategyEngine.Evolves SameIdentity st.1 (st.1.notifyPlanAccepted plan) :=
    AnyStrategy.methods_identity.modifyNamed (AnyStrategy.methods_identity.onPlanAccepted plan) _ _ _
  refine ⟨h.registered.evolves hidentity, hwf, fun ticker name hmon => ?_⟩
  rcases hmon.of_notified h.registered plan with hold | ⟨rfl, rfl⟩
  · exact live_mono hkept (h.live ticker name hold)
  · exact hsent

theorem Inv.offer (h : Inv st) (call : StrategyPlan → BotApp → PlanCall) (a : Address)
    (plan : StrategyPlan) :
    Inv (StrategyEngine.offer (some (onPlanGate call)) a plan st) := by
  unfold StrategyEngine.offer onPlanGate
  dsimp only
  cases hplan : (st.2.onPlan (call plan st.2).inp plan.toTradePlan).2.plan? with
  | none =>
      have hrejected : Inv ({ st.1 with offers := st.1.offers ++
          [⟨plan, a, st.1.currentRegime plan.ticker, false⟩] }, st.2) := h.of_lists rfl rfl rfl rfl
      have hreset := hrejected.evolves (AnyStrategy.quiet_settles.modifyNamed
        AnyStrategy.quiet_settles.resetActivePlan plan.ticker plan.strategyName _)
      exact ⟨hreset.registered, hreset.wf, hreset.live⟩
  | some sent =>
      have hoffered : Inv ({ st.1 with offers := st.1.offers ++
          [⟨plan, a, st.1.currentRegime plan.ticker, true⟩] }, st.2) := h.of_lists rfl rfl rfl rfl
      exact hoffered.accepted { plan with toTradePlan := sent }
        (h.wf.step (.submit _ _ _ sent))
        (LiveExecutor.step_openPlans_superset h.wf (.submit _ _ _ sent) id)
        (live_submit _ _ _ sent _)

theorem Inv.signal (h : Inv st) (call : StrategyPlan → BotApp → PlanCall) (s : Signal)
    (now : TimePoint) : Inv (StrategyEngine.onSignal (some (onPlanGate call)) s now st) := by
  refine Runs.invariant Inv (fun st a hst => ?_) (st.1.recipients s) h
  have hcall : Inv ((st.1.call a (IStrategy.onSignal s now)).1, st.2) :=
    hst.evolves (StrategyEngine.evolves_call AnyStrategy.quiet_settles.refl
      (fun strat => AnyStrategy.quiet_settles.onSignal s now strat trivial) a st.1)
  unfold StrategyEngine.deliver
  dsimp only
  split
  · exact hcall.offer call a _
  · exact hcall

theorem Inv.tryPlans (h : Inv st) (call : StrategyPlan → BotApp → PlanCall)
    (plans : List PlanWithPriority) :
    Inv (StrategyEngine.tryPlans (onPlanGate call) plans st) := by
  induction plans generalizing st with
  | nil => exact h
  | cons pw plans ih =>
      have hoffer := h.offer call pw.strategy pw.plan
      unfold StrategyEngine.tryPlans
      dsimp only
      split
      · exact hoffer
      · exact ih hoffer

theorem Inv.tick (h : Inv st) (ps : PlanSort) (call : StrategyPlan → BotApp → PlanCall)
    (now : TimePoint) : Inv (StrategyEngine.tick ps (some (onPlanGate call)) now st) := by
  have hcollect : StrategyEngine.Evolves AnyStrategy.Settles st.1
      (StrategyEngine.collected now st.1).1 :=
    StrategyEngine.evolves_foldl Prod.fst AnyStrategy.quiet_settles.refl
      AnyStrategy.quiet_settles.trans (AnyStrategy.quiet_settles.collect now) _ (st.1, [])
  refine Runs.invariant Inv (fun st group hst => ?_) (StrategyEngine.collected now st.1).2
    (h.evolves hcollect)
  rw [StrategyEngine.choose_eq ps (onPlanGate call) st group rfl]
  exact (hst.evolves (AnyStrategy.quiet_settles.resetPlans _ st.1)).tryPlans call _

theorem Inv.addStrategy (h : Inv st) (s : AnyStrategy) (hs : s.monitors = false) :
    Inv (st.1.addStrategy s, st.2) := by
  refine ⟨StrategyEngine.registered_addStrategy h.registered s, h.wf, ?_⟩
  rintro ticker name ⟨a, ha, s', hs', hmon, heq⟩
  rw [StrategyEngine.addStrategy_objects] at hs'
  by_cases hnew : a = st.1.nextAddress
  · rw [hnew, Function.update_self, Option.some.injEq] at hs'
    exact absurd (hs.symm.trans (hs' ▸ hmon)) Bool.false_ne_true
  · rw [Function.update_of_ne hnew] at hs'
    have ha' := (StrategyEngine.mem_addresses_addStrategy ha).resolve_left hnew
    exact h.live ticker name ⟨a, ha', s', hs', hmon, heq⟩

theorem Inv.removeStrategy (h : Inv st) (ticker : Ticker) (name : String) :
    Inv (st.1.removeStrategy ticker name, st.2) := by
  refine ⟨StrategyEngine.registered_removeStrategy h.registered ticker name, h.wf, ?_⟩
  rintro ticker' name' ⟨a, ha, s', hs', hmon, heq⟩
  rw [StrategyEngine.removeStrategy_objects] at hs'
  have ha' := StrategyEngine.addresses_removeStrategy_subset ticker name st.1 ha
  exact h.live ticker' name' ⟨a, ha', s', hs', hmon, heq⟩

/-- A step from which strategies are spared. -/
theorem Inv.step (h : Inv st) {op : Op} (hop : Spares st op) : Inv (step st op) := by
  cases op with
  | addStrategy s => exact h.addStrategy s.1 s.2
  | removeStrategy ticker name => exact h.removeStrategy ticker name
  | frame env now frame =>
      have hev : StrategyEngine.Evolves AnyStrategy.Settles st.1 (st.1.onFrame true now frame) :=
        AnyStrategy.quiet_settles.onFrame' true now trivial st.1
      have hframe := h.evolves hev
      exact ⟨hframe.registered, closeAll_wf h.wf env now frame,
        fun ticker name hmon => hop ticker name hmon (hframe.live ticker name hmon)⟩
  | signal call s now => exact h.signal call s now
  | engineTick ps call now => exact h.tick ps call now
  | app ev =>
      refine ⟨h.registered, step_executor_wf h.wf ev, fun ticker name hmon => ?_⟩
      by_cases hev : mayClose ev
      · exact hop hev ticker name hmon (h.live ticker name hmon)
      · exact live_mono (step_openPlans h.wf hev) (h.live ticker name hmon)

end

/-! ## Runs -/

/-- The monitoring follows the trades in every state of a run exactly if each step spares the
    strategies. -/
theorem followsTrades_iff (cfg : ExecutorConfig) (app : BotApp) (ops : List Op) :
    Runs.Along step (fun st op => FollowsTrades (step st op)) (start cfg app) ops ↔
      Runs.Along step Spares (start cfg app) ops := by
  have hstart : Inv (start cfg app) := by
    refine ⟨StrategyEngine.registered_run app [], LiveExecutor.wf_init cfg, ?_⟩
    rintro ticker name ⟨a, ha, -⟩
    exact absurd ha List.not_mem_nil
  constructor
  · intro h
    refine h.imp (fun _ => True) (fun _ _ _ _ => trivial) (fun st op _ hfollows => ?_) trivial
    cases op with
    | frame env now frame => exact fun ticker name hmon _ => hfollows.live ticker name hmon
    | app ev => exact fun _ ticker name hmon _ => hfollows.live ticker name hmon
    | _ => trivial
  · intro h
    exact h.imp Inv (fun st op hst hop => hst.step hop)
      (fun st op hst hop => .of_live (hst.step hop).live) hstart

/-! ## A stop fill -/

/-- LeaderLag plans on its leader's move, and the plan is accepted and submitted. -/
def leaderEntry : List Op :=
  let frame : FeatureFrame :=
    { ticker := "BTC_USDT", mid := 100, spreadBps := 1, priceChange30s := 1 }
  let move : Signal :=
    { kind := .leaderMove, timestamp := seconds 100, ticker := "BTC_USDT", price := 100
      payload := { correlation := 9 / 10, lagPct := 1 / 2 } }
  let call : StrategyPlan → BotApp → PlanCall := fun _ _ => { inp := BotApp.sampleInput }
  [ .addStrategy ⟨.leaderLag { ticker := "BTC_USDT", priceIncrement := 1 / 100 }, rfl⟩,
    .frame .accepting (seconds 100) frame, .signal call move (seconds 100),
    .engineTick StrategyEngine.stableSort call (seconds 101) ]

/-- The entry fills, the stop fills, and a slow tick processes the closed trade. -/
def stoppedOut : List Op :=
  let fill : OrderUpdate := { sampleFill 1 with size := 10, filledSize := 10 }
  let stop : OrderUpdate :=
    { fill with orderId := 3, side := .sell, type := .stopLoss, filledPrice := 2498 / 25 }
  [ .app (.executorOp (.onOrderUpdate .accepting fill)),
    .app (.executorOp (.onOrderUpdate .accepting stop)), .app .drainClosedTrades,
    .app (.slowTimer []) ] ++ List.replicate 5 (.app BotApp.sampleTick)

/-- The trade is closed and processed, and the strategy still monitors it. -/
theorem not_followsTrades :
    let st := (leaderEntry ++ stoppedOut).foldl step (start {} BotApp.sampleApp)
    st.2.executor.allTrades = [] ∧ st.2.closedTradeQueue = [] ∧ ¬ FollowsTrades st := by
  intro st
  refine ⟨by decide +kernel, by decide +kernel, fun h => ?_⟩
  have hmon : ∃ s, st.1.objects 0 = some s ∧ s.monitors = true ∧ s.base.ticker = "BTC_USDT" ∧
      s.name = "LeaderLag" := by
    refine ⟨(st.1.objects 0).get (by decide +kernel), (Option.some_get _).symm, ?_⟩
    decide +kernel
  obtain ⟨s, hs, hmon⟩ := hmon
  have hlive := h.live "BTC_USDT" "LeaderLag" ⟨0, by decide +kernel, s, hs, hmon⟩
  revert hlive
  decide +kernel

end StrategyLifecycle

end TradeBot
