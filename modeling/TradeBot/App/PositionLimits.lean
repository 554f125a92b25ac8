import TradeBot.App.PlanGate
import TradeBot.Executor.OpenTrades
import TradeBot.Risk.UniverseGate

set_option autoImplicit false

/-! # Position limits

R3 and R4 read the number of positions from the account state, which a slow tick rebuilds from the
trades in `Open` and `Exiting`. A plan takes up a position from its acceptance until its trade is
closed (`occupied`). The limits hold over a run exactly as far as the cached numbers show, whenever a
plan is offered, that a limit is reached (`positions_limited`).

A plan is accepted and submitted in different steps, and `occupied` counts it from the first of them
on, so that submitting it takes up nothing more (`Submits.occupied_le`). Every event then takes up at
most one position, and only by an acceptance (`step_occupies`).

At the gate the rules compare the cached numbers. What the account state shows may be older than the
trades, in both directions. The condition of the result is therefore on the moments when a plan is
offered, and asks that what is shown is not less than what there is where that decides. -/

namespace TradeBot

open Runs LiveExecutor

/-- The plan that the main thread has accepted and not submitted yet. -/
def MainThread.plan? : MainThread → Option TradePlan
  | .submitting plan => some plan
  | _ => none

theorem MainThread.plan?_of_killing {main : MainThread} (h : main.killing = true) :
    main.plan? = none := by
  cases main with
  | submitting => cases h
  | _ => rfl

namespace BotApp

/-! ## Occupied positions -/

/-- The plans that are accepted and not submitted yet. -/
def inFlight (app : BotApp) : List TradePlan := app.processor.toList ++ app.main.plan?.toList

/-- The trades that are not closed and the plans in flight, those with `p`. -/
def occupied (app : BotApp) (p : TradePlan → Bool) : ℕ :=
  app.executor.openPlans.countP (fun x => p x.2) + app.inFlight.countP p

/-- The thread may call the `on_plan` callback. -/
def IsFree (app : BotApp) : Caller → Prop
  | .processor => app.processor = none
  | .main => app.main = .ticking .strategies

/-- Trades come from the strategies' plans only: nothing is submitted or injected past the
    callback. -/
def AppEvent.FromStrategies : AppEvent → Prop
  | .executorOp op => ¬ op.takesIn
  | _ => True

/-- No position is taken up. -/
structure Frees (app app' : BotApp) : Prop where
  executor : Shrinks app.executor app'.executor
  inFlight : app'.inFlight = app.inFlight

section

variable {app : BotApp}

theorem Frees.of_main {app' : BotApp} (hexec : Shrinks app.executor app'.executor)
    (hproc : app'.processor = app.processor) (hmain : app'.main.plan? = app.main.plan?) :
    Frees app app' := ⟨hexec, by rw [BotApp.inFlight, BotApp.inFlight, hproc, hmain]⟩

theorem retryClose_shrinks (hwf : app.executor.WF) (env : Env) (positions : List PositionUpdate)
    (retries : AList (fun _ : Ticker => ℕ)) :
    Shrinks app.executor (positions.foldl (retryClose env) (app.executor, retries)).1 := by
  refine Runs.invariant
    (fun r : LiveExecutor × AList (fun _ : Ticker => ℕ) => Shrinks app.executor r.1) ?_ positions
    (.refl hwf)
  intro r pos h
  unfold retryClose
  dsimp only
  split
  · exact h.step (.closeTrade env pos.ticker "KillSwitch") id
  · exact h

theorem killPart_frees (hwf : app.executor.WF) (inp : KillInput) :
    Frees app (app.killPart inp app.main) := by
  have hsame : Shrinks app.executor app.executor := .refl hwf
  obtain ⟨executor, main, hstep, heq⟩ := killPart_cases inp app
  rw [heq]
  cases hstep with
  | rest => exact .of_main hsame rfl rfl
  | proceeds hmain hnext =>
      exact .of_main hsame rfl
        ((MainThread.plan?_of_killing hnext).trans (MainThread.plan?_of_killing hmain).symm)
  | @cancels ticker _ hmain =>
      exact .of_main (hsame.step (.cancelAll inp.env ticker) id) rfl (by rw [hmain]; rfl)
  | @closes pos _ hmain =>
      exact .of_main (hsame.step (.closeTrade inp.env pos.ticker "KillSwitch") id) rfl
        (by rw [hmain]; rfl)
  | @retries positions tries hmain =>
      exact .of_main (retryClose_shrinks hwf inp.env positions tries) rfl (by rw [hmain]; rfl)

theorem processClosedTrades_frame (now : TimePoint) :
    (app.processClosedTrades now).executor = app.executor ∧
      (app.processClosedTrades now).processor = app.processor ∧
      (app.processClosedTrades now).riskManager.cfg = app.riskManager.cfg := by
  unfold processClosedTrades
  refine Runs.invariant (fun app' : BotApp => app'.executor = app.executor ∧
    app'.processor = app.processor ∧ app'.riskManager.cfg = app.riskManager.cfg) ?_
    app.closedTradeQueue ⟨rfl, rfl, rfl⟩
  rintro app' ct ⟨hexec, hproc, hcfg⟩
  exact ⟨hexec, hproc, hcfg⟩

theorem tickPart_frees (hwf : app.executor.WF) (inp : TickInput) {stage : TickStage}
    (hmain : app.main = .ticking stage) : Frees app (app.tickPart inp stage) := by
  have hsame : Shrinks app.executor app.executor := .refl hwf
  have hnone : app.main.plan? = none := by
    rw [hmain]
    rfl
  cases stage with
  | exchange =>
      refine .of_main ?_ ?_ hnone.symm
      all_goals
        simp only [tickPart, updateAccountFromExchange]
        split
        · first | exact hsame | rfl
        · split <;> first | exact hsame | rfl
  | dailyReset =>
      refine .of_main ?_ ?_ hnone.symm
      all_goals
        simp only [tickPart, checkDailyReset]
        split <;> first | exact hsame | rfl
  | strategies => exact .of_main hsame rfl hnone.symm
  | executor => exact .of_main (hsame.step (.tick inp.env inp.now) id) rfl hnone.symm
  | closedTrades =>
      obtain ⟨hexec, hproc, _⟩ := app.processClosedTrades_frame inp.now
      refine .of_main ?_ hproc hnone.symm
      show Shrinks app.executor (app.processClosedTrades inp.now).executor
      rw [hexec]
      exact hsame
  | positions => exact .of_main hsame rfl hnone.symm
  | killSwitch active => exact .of_main hsame rfl hnone.symm
  | markPrices active => exact .of_main (hsame.step (.setMarkPrices inp.marks) id) rfl hnone.symm

theorem beginKillSwitch_frees (hwf : app.executor.WF) (hmain : app.main = .idle)
    (controllers : List Ticker) : Frees app (app.beginKillSwitch controllers) := by
  unfold beginKillSwitch
  split
  · exact .of_main (.refl hwf) rfl rfl
  · exact .of_main (.refl hwf) rfl (by rw [hmain]; rfl)

/-- The callback accepts a plan of a free thread; it is in flight from now on. -/
structure Accepts (app : BotApp) (ev : AppEvent) (sent : TradePlan) : Prop where
  event : ∃ caller inp plan, ev = .offer caller inp plan ∧ app.IsFree caller ∧
    (app.onPlan inp plan).2 = .accepted sent
  executor : (app.step ev).executor = app.executor
  inFlight : (app.step ev).inFlight.Perm (sent :: app.inFlight)

/-- A plan in flight is submitted. -/
structure Submits (app : BotApp) (ev : AppEvent) (plan : TradePlan) : Prop where
  executor : ∃ env ns now, (app.step ev).executor = app.executor.submit env ns now plan
  inFlight : app.inFlight.Perm (plan :: (app.step ev).inFlight)

theorem Verdict.plan?_eq_some {v : Verdict} {plan : TradePlan} :
    v.plan? = some plan ↔ v = .accepted plan := by
  cases v <;> simp [Verdict.plan?]

theorem offer_occupies (hwf : app.executor.WF) (caller : Caller) (inp : PlanInput)
    (plan : TradePlan) :
    Frees app (app.offer caller inp plan) ∨ ∃ sent, Accepts app (.offer caller inp plan) sent := by
  have hsame : Shrinks app.executor app.executor := .refl hwf
  cases hplan : (app.onPlan inp plan).2.plan? with
  | none =>
      refine .inl ?_
      unfold offer
      simp only [hplan, Option.map_none, Option.getD_none]
      split
      case h_1 hproc => exact .of_main hsame hproc.symm rfl
      all_goals exact .of_main hsame rfl rfl
  | some sent =>
      -- an accepted plan takes a place, if its thread is there to take it
      have haccepted := Verdict.plan?_eq_some.1 hplan
      cases caller with
      | processor =>
          cases hproc : app.processor with
          | none =>
              refine .inr ⟨sent, ⟨⟨.processor, inp, plan, rfl, hproc, haccepted⟩, ?_, ?_⟩⟩
              · simp only [step, offer, hproc]
              · simp [step, offer, hproc, hplan, inFlight]
          | some other =>
              refine .inl ?_
              simp only [offer, hproc]
              exact .of_main hsame rfl rfl
      | main =>
          -- only the strategies of a tick may offer on the main thread
          by_cases hmain : app.main = .ticking .strategies
          · refine .inr ⟨sent, ⟨⟨.main, inp, plan, rfl, hmain, haccepted⟩, ?_, ?_⟩⟩
            · simp only [step, offer, hmain]
            · simp [step, offer, hmain, hplan, inFlight, MainThread.plan?,
                List.perm_append_singleton]
          · refine .inl ?_
            simp only [offer]
            split
            case h_1 hcaller _ => cases hcaller
            case h_2 h => exact absurd h hmain
            case h_3 => exact .of_main hsame rfl rfl

theorem submit_occupies (hwf : app.executor.WF) (caller : Caller) (env : Env) (ns : ℕ)
    (now : TimePoint) :
    Frees app (app.submit caller env ns now) ∨
      ∃ plan, Submits app (.submit caller env ns now) plan := by
  unfold submit
  split
  case h_1 plan hproc =>
    refine .inr ⟨plan, ⟨⟨env, ns, now, ?_⟩, ?_⟩⟩
    · simp only [step, submit, hproc]
    · simp [step, submit, hproc, inFlight]
  case h_2 plan hmain =>
    refine .inr ⟨plan, ⟨⟨env, ns, now, ?_⟩, ?_⟩⟩
    · simp only [step, submit, hmain]
    · simp [step, submit, hmain, inFlight, MainThread.plan?, List.perm_append_singleton]
  case h_3 => exact .inl (.of_main (.refl hwf) rfl rfl)

/-- An event takes no position up, or accepts a plan, or submits one. -/
theorem step_occupies (hwf : app.executor.WF) {ev : AppEvent} (hev : ev.FromStrategies) :
    Frees app (app.step ev) ∨ (∃ sent, Accepts app ev sent) ∨ ∃ plan, Submits app ev plan := by
  have hsame : Shrinks app.executor app.executor := .refl hwf
  cases ev with
  | trigger => exact .inl (.of_main hsame rfl rfl)
  | slowTimer controllers =>
      refine .inl ?_
      simp only [step]
      split
      case h_1 hidle _ => exact beginKillSwitch_frees hwf hidle controllers
      case h_2 hidle _ => exact .of_main hsame rfl (by rw [hidle]; rfl)
      case h_3 => exact .of_main hsame rfl rfl
  | dashboardTimer controllers marks =>
      refine .inl ?_
      simp only [step]
      split
      case h_1 hidle _ => exact beginKillSwitch_frees hwf hidle controllers
      case h_2 =>
        cases marks with
        | none => exact .of_main hsame rfl rfl
        | some marks => exact .of_main (hsame.step (.setMarkPrices marks) id) rfl rfl
      case h_3 => exact .of_main hsame rfl rfl
  | tick inp =>
      refine .inl ?_
      simp only [step]
      split
      case h_1 stage hmain => exact tickPart_frees hwf inp hmain
      case h_2 => exact .of_main hsame rfl rfl
  | kill inp => exact .inl (killPart_frees hwf inp)
  | offer caller inp plan => exact (offer_occupies hwf caller inp plan).imp id .inl
  | submit caller env ns now => exact (submit_occupies hwf caller env ns now).imp id .inr
  | drainClosedTrades => exact .inl (.of_main (hsame.step .popClosedTrades id) rfl rfl)
  | executorOp op => exact .inl (.of_main (hsame.step op hev) rfl rfl)

/-! ## What an event adds -/

theorem Frees.occupied_le {app' : BotApp} (h : Frees app app') (p : TradePlan → Bool) :
    app'.occupied p ≤ app.occupied p := by
  have hplans := h.executor.countP_le (fun x => p x.2)
  rw [occupied, occupied, h.inFlight]
  omega

/-- Submitting a plan in flight does not take up another position. -/
theorem Submits.occupied_le {ev : AppEvent} {plan : TradePlan} (hwf : app.executor.WF)
    (h : Submits app ev plan) (p : TradePlan → Bool) :
    (app.step ev).occupied p ≤ app.occupied p := by
  obtain ⟨env, ns, now, hexec⟩ := h.executor
  have hplans := submit_countP_le hwf env ns now plan (fun x => p x.2)
  have hflight := h.inFlight.countP_eq p
  rw [List.countP_cons] at hplans hflight
  dsimp only at hplans
  rw [occupied, occupied, hexec]
  omega

theorem Accepts.occupied_eq {ev : AppEvent} {sent : TradePlan} (h : Accepts app ev sent)
    (p : TradePlan → Bool) :
    (app.step ev).occupied p = app.occupied p + if p sent then 1 else 0 := by
  rw [occupied, occupied, h.executor, h.inFlight.countP_eq p, List.countP_cons, Nat.add_assoc]

theorem step_wf (hwf : app.executor.WF) {ev : AppEvent} (hev : ev.FromStrategies) :
    (app.step ev).executor.WF := by
  obtain h | ⟨sent, h⟩ | ⟨plan, h⟩ := step_occupies hwf hev
  · exact h.executor.wf
  · rw [h.executor]
    exact hwf
  · obtain ⟨env, ns, now, hexec⟩ := h.executor
    rw [hexec]
    exact hwf.step (.submit env ns now plan)

theorem onPlan_cfg (inp : PlanInput) (plan : TradePlan) :
    (app.onPlan inp plan).1.cfg = app.riskManager.cfg := by
  have hcfg := app.riskManager.evaluate_cfg inp.now inp.univ inp.news inp.later plan app.accountState
  unfold onPlan
  split_ifs
  · rfl
  · rfl
  · dsimp only
    split <;> exact hcfg

/-- The risk manager's configuration stays as it is. -/
theorem step_riskConfig (ev : AppEvent) : (app.step ev).riskManager.cfg = app.riskManager.cfg := by
  rcases app.step_riskManager ev with hrm | ⟨inp, plan, hrm⟩ | ⟨now, hrm⟩
  · rw [hrm]
  · rw [hrm]
    exact app.onPlan_cfg inp plan
  · rw [hrm]
    exact (app.processClosedTrades_frame now).2.2

end

/-! ## The limits at the gate -/

/-- The rule of R4 that is not a limit: without hedging, one position per ticker. -/
def duplicateRule (cfg : RiskConfig) (plan : TradePlan) (state : AccountState) :
    Option Rejection :=
  rejectIf (state.activeTickers.any (sameTicker plan.ticker) = true ∧ cfg.allowHedge = false)
    .duplicatePosition ("Already has position in " ++ plan.ticker)

/-- The rules besides the two limits. -/
def rulesBesideLimits (app : BotApp) (inp : PlanInput) (plan : TradePlan) :
    List (Option Rejection) :=
  let rm := app.riskManager
  sanityRules rm.cfg plan app.accountState ++
    [killSwitchRule app.accountState, dailyLossRule rm.cfg app.accountState,
      duplicateRule rm.cfg plan app.accountState] ++
    universeRules rm.cfg inp.univ inp.now plan ++
    rulesAfterUniverse rm inp.now inp.univ inp.news plan app.accountState

/-- If a limit is reached, the account state shows it. -/
structure LimitsKnown (app : BotApp) (plan : TradePlan) : Prop where
  all : app.riskManager.cfg.maxConcurrentPositions ≤ (app.occupied (fun _ => true) : ℤ) →
    app.riskManager.cfg.maxConcurrentPositions ≤ app.accountState.activePositions
  perTicker : app.riskManager.cfg.maxPositionsPerTicker
      ≤ (app.occupied (fun other => sameTicker plan.ticker other.ticker) : ℤ) →
    app.riskManager.cfg.maxPositionsPerTicker ≤ tickerCount plan app.accountState

/-- Whenever a plan is offered that everything but the limits lets pass, the account state shows the
    limits that are reached. -/
def LimitsKnownAt (app : BotApp) : AppEvent → Prop
  | .offer caller inp plan => app.IsFree caller → app.ReachesRisk inp plan →
      (∀ r ∈ app.rulesBesideLimits inp plan, r = none) → app.LimitsKnown plan
  | _ => True

/-- No more positions are occupied than the limits allow. -/
structure WithinLimits (cfg : RiskConfig) (app : BotApp) : Prop where
  all : (app.occupied (fun _ => true) : ℤ) ≤ cfg.maxConcurrentPositions
  perTicker : ∀ ticker, (app.occupied (fun plan => sameTicker ticker plan.ticker) : ℤ)
    ≤ cfg.maxPositionsPerTicker

/-- A started program: no trades, and no plan in flight. -/
structure Started (app : BotApp) : Prop where
  executor : ∃ cfg, app.executor = .init cfg
  inFlight : app.inFlight = []

section

variable {app : BotApp}

/-- Every rule lets an accepted plan pass: the limits are not reached as far as the account state
    shows. -/
theorem rules_of_accepted {inp : PlanInput} {plan sent : TradePlan}
    (h : (app.onPlan inp plan).2 = .accepted sent) :
    app.accountState.activePositions < app.riskManager.cfg.maxConcurrentPositions ∧
      tickerCount plan app.accountState < app.riskManager.cfg.maxPositionsPerTicker ∧
      ∀ r ∈ app.rulesBesideLimits inp plan, r = none := by
  obtain ⟨_, d, rfl, haccepted, _⟩ := onPlan_eq_accepted h
  rw [RiskManager.evaluate_accepted_iff, firstRejection_eq_none, rules_eq] at haccepted
  simp only [rulesBeforeUniverse, positionRules, List.forall_mem_append, List.forall_mem_cons]
    at haccepted
  obtain ⟨⟨⟨⟨hsanity, hkill, hdaily, _⟩, hall, hdup, hper, _⟩, huniverse⟩, hafter⟩ := haccepted
  refine ⟨not_le.1 (rejectIf_eq_none.1 hall), not_le.1 (rejectIf_eq_none.1 hper), ?_⟩
  simp only [rulesBesideLimits, List.forall_mem_append, List.forall_mem_cons]
  exact ⟨⟨⟨hsanity, hkill, hdaily, hdup, by simp⟩, huniverse⟩, hafter⟩

/-- An event that does not take a position up keeps the limits. -/
theorem WithinLimits.of_le {cfg : RiskConfig} {app' : BotApp} (h : WithinLimits cfg app)
    (hle : ∀ p, app'.occupied p ≤ app.occupied p) : WithinLimits cfg app' where
  all := (Int.ofNat_le.2 (hle _)).trans h.all
  perTicker := fun ticker => (Int.ofNat_le.2 (hle _)).trans (h.perTicker ticker)

/-- A plan that is accepted while the account state shows the limits finds room. -/
theorem WithinLimits.accept {inp : PlanInput} {plan sent : TradePlan} {ev : AppEvent}
    (h : WithinLimits app.riskManager.cfg app) (hknown : app.LimitsKnown plan)
    (haccepted : (app.onPlan inp plan).2 = .accepted sent) (hstep : Accepts app ev sent) :
    WithinLimits app.riskManager.cfg (app.step ev) := by
  obtain ⟨hall, hper, _⟩ := rules_of_accepted haccepted
  have hticker : sent.ticker = plan.ticker := by
    obtain ⟨_, d, _, _, rfl⟩ := onPlan_eq_accepted haccepted
    unfold acceptedPlan
    dsimp only
    split <;> rfl
  have hroom := mt hknown.all (not_le.2 hall)
  have hroom' := mt hknown.perTicker (not_le.2 hper)
  constructor
  · rw [hstep.occupied_eq]
    push_cast
    simp only [if_true]
    omega
  · intro ticker
    rw [hstep.occupied_eq]
    by_cases hsame : sameTicker ticker sent.ticker = true
    · have hcount : (fun other : TradePlan => sameTicker ticker other.ticker)
          = fun other => sameTicker plan.ticker other.ticker := by
        rw [sameTicker, beq_iff_eq, hticker] at hsame
        funext other
        rw [sameTicker, sameTicker, hsame]
      rw [if_pos hsame, hcount]
      omega
    · rw [if_neg hsame, Nat.add_zero]
      exact h.perTicker ticker

theorem WithinLimits.step {ev : AppEvent} (hwf : app.executor.WF) (hev : ev.FromStrategies)
    (h : WithinLimits app.riskManager.cfg app) (hknown : app.LimitsKnownAt ev) :
    WithinLimits app.riskManager.cfg (app.step ev) := by
  obtain hfrees | ⟨sent, hstep⟩ | ⟨plan, hsubmits⟩ := step_occupies hwf hev
  · exact h.of_le hfrees.occupied_le
  · -- an accepted plan: the rules saw numbers that left room for it
    obtain ⟨caller, inp, plan, rfl, hfree, haccepted⟩ := hstep.event
    have hreach := (onPlan_eq_accepted haccepted).1
    exact h.accept (hknown hfree hreach (rules_of_accepted haccepted).2.2) haccepted hstep
  · exact h.of_le (hsubmits.occupied_le hwf)

end

/-! ## The result -/

/-- In every run in which the account state shows a limit that is reached whenever a plan is offered
    that everything else lets pass, the trades that are not closed stay within the limits. -/
theorem positions_limited (app : BotApp) (hstart : app.Started)
    (hall : 0 ≤ app.riskManager.cfg.maxConcurrentPositions)
    (hper : 0 ≤ app.riskManager.cfg.maxPositionsPerTicker) (events : List AppEvent)
    (hsource : ∀ ev ∈ events, ev.FromStrategies)
    (hknown : Along step LimitsKnownAt app events) :
    ((app.run events).executor.openTrades (fun _ => true) : ℤ)
        ≤ app.riskManager.cfg.maxConcurrentPositions ∧
      ∀ ticker, ((app.run events).executor.openTrades
          (fun plan => sameTicker ticker plan.ticker) : ℤ)
        ≤ app.riskManager.cfg.maxPositionsPerTicker := by
  obtain ⟨cfg, hexec⟩ := hstart.executor
  have hnone : ∀ p, app.occupied p = 0 := by
    intro p
    rw [occupied, hstart.inFlight, hexec]
    rfl
  have hfrom : Along step (fun _ ev => ev.FromStrategies) app events :=
    along_of_mem fun ev hmem _ => hsource ev hmem
  obtain ⟨_, hcfg, hlimits⟩ := (hknown.and hfrom).invariant
    (fun app' => app'.executor.WF ∧ app'.riskManager.cfg = app.riskManager.cfg ∧
      WithinLimits app.riskManager.cfg app')
    (fun app' ev ⟨hwf, hcfg, hlimits⟩ ⟨hknown, hev⟩ =>
      ⟨step_wf hwf hev, (step_riskConfig ev).trans hcfg, hcfg ▸ (hcfg ▸ hlimits).step hwf hev hknown⟩)
    ⟨hexec ▸ wf_init cfg, rfl, ⟨by simpa [hnone] using hall, by simpa [hnone] using hper⟩⟩
  constructor
  · refine le_trans ?_ hlimits.all
    rw [openTrades_eq, occupied]
    exact_mod_cast Nat.le_add_right _ _
  · intro ticker
    refine le_trans ?_ (hlimits.perTicker ticker)
    rw [openTrades_eq, occupied]
    exact_mod_cast Nat.le_add_right _ _

theorem sampleApp_started : sampleApp.Started := ⟨⟨{}, rfl⟩, rfl⟩

/-- A plan is submitted and filled, and a slow tick counts it. -/
def countedEntry : List AppEvent :=
  lateEntry ++
    [.executorOp (.onOrderUpdate .accepting { sampleFill 1 with size := 10, filledSize := 10 }),
      .slowTimer [], sampleTick, sampleTick, sampleTick, sampleTick, sampleTick, sampleTick,
      sampleTick, sampleTick]

/-- The same plan once more. -/
def repeatedEntry : List AppEvent := countedEntry ++ lateEntry

/-- After the slow tick the account state shows that the ticker has its one position. -/
theorem positions_limited_counted :
    ((sampleApp.run repeatedEntry).executor.openTrades (fun _ => true) : ℤ) ≤ 3 ∧
      ∀ ticker, ((sampleApp.run repeatedEntry).executor.openTrades
        (fun plan => sameTicker ticker plan.ticker) : ℤ) ≤ 1 := by
  have hsource : ∀ ev ∈ repeatedEntry, ev.FromStrategies := by
    simp [repeatedEntry, countedEntry, lateEntry, sampleTick, AppEvent.FromStrategies, Op.takesIn]
  have hknown : Along step LimitsKnownAt sampleApp repeatedEntry :=
    ⟨fun _ _ _ => ⟨by decide +kernel, by decide +kernel⟩, trivial, trivial, trivial, trivial, trivial,
      trivial, trivial, trivial, trivial, trivial, trivial,
      fun _ _ _ => ⟨by decide +kernel, by decide +kernel⟩, trivial, trivial⟩
  exact positions_limited sampleApp sampleApp_started (by decide) (by decide) repeatedEntry hsource
    hknown

/-- Between two slow ticks the same plan is accepted and submitted four times. -/
theorem positions_exceed_limits :
    ¬ ∀ app : BotApp, app.Started → 0 ≤ app.riskManager.cfg.maxConcurrentPositions →
        0 ≤ app.riskManager.cfg.maxPositionsPerTicker → ∀ events : List AppEvent,
        (∀ ev ∈ events, ev.FromStrategies) →
        ((app.run events).executor.openTrades (fun _ => true) : ℤ)
            ≤ app.riskManager.cfg.maxConcurrentPositions ∧
          ∀ ticker, ((app.run events).executor.openTrades
              (fun plan => sameTicker ticker plan.ticker) : ℤ)
            ≤ app.riskManager.cfg.maxPositionsPerTicker := by
  intro hclaim
  have hsource : ∀ ev ∈ lateEntry ++ lateEntry ++ lateEntry ++ lateEntry, ev.FromStrategies := by
    simp [lateEntry, AppEvent.FromStrategies]
  have hcount := (hclaim sampleApp sampleApp_started (by decide) (by decide) _ hsource).1
  revert hcount
  decide +kernel

end BotApp

end TradeBot
