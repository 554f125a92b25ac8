import TradeBot.Lib.Runs
import TradeBot.App.BotApp

set_option autoImplicit false

/-! # The plan gate after the kill switch

R1 rejects every plan while the account state says that the kill switch is triggered. Only a slow tick
copies the trigger into the account state, and `handle_kill_switch_` runs in place of the slow tick:
once it has begun, the account state never changes (`step_of_killing`). So R1 guards the shutdown
exactly if a slow tick saw the trigger before, and then nothing is submitted any more
(`no_entry_after_killSwitch`).

The proof follows a plan through the callback. What is accepted has passed R1, so with the flag set
nothing is (`onPlan_of_killSwitch`). During the shutdown only the processor thread still takes steps
that matter, and its only way to submit is a plan that was accepted before (`step_submits_nothing`).

The condition is on the moment when the shutdown begins: the flag is set, and no accepted plan is on
its way. -/

namespace TradeBot

open Runs

namespace BotApp

section

variable {app : BotApp}

/-! ## Plans against the flag -/

/-- The plan gets past the gates before the risk manager. -/
def ReachesRisk (app : BotApp) (inp : PlanInput) (plan : TradePlan) : Prop :=
  ¬ (app.liveExecutor = true ∧ plan.strategyName = "FlushReversal") ∧
    inp.univ.isAffinityStable plan.ticker kAffinityStableMin inp.stableAt = true

/-- The callback does not submit the plan; a plan that gets to the risk manager is rejected there, by
    R1 unless it is malformed. -/
def Rejects (app : BotApp) (inp : PlanInput) (plan : TradePlan) : Prop :=
  (app.onPlan inp plan).2.plan? = none ∧
    (app.ReachesRisk inp plan → ∃ d, (app.onPlan inp plan).2 = .rejected d ∧
      (SaneInput app.riskManager.cfg plan app.accountState → d.reason = .killSwitchActive))

/-- A plan that is handed on got to the risk manager and was accepted there. -/
theorem onPlan_eq_accepted {inp : PlanInput} {plan sent : TradePlan}
    (h : (app.onPlan inp plan).2 = .accepted sent) :
    app.ReachesRisk inp plan ∧ ∃ d : RiskDecision,
      (app.riskManager.evaluate inp.now inp.univ inp.news inp.later plan app.accountState).2 = d ∧
        d.accepted = true ∧ sent = acceptedPlan inp.univ d plan := by
  unfold onPlan at h
  split_ifs at h with hflush hstable
  dsimp only at h
  split at h
  case isTrue haccepted =>
      refine ⟨⟨fun hno => hflush ⟨hno.1, hno.2, rfl⟩, by simpa using hstable⟩, _, rfl, haccepted, ?_⟩
      cases h
      rfl
  case isFalse => cases h

/-- With the flag set a plan is rejected, and the risk manager's books stay as they are. -/
theorem onPlan_of_killSwitch (h : app.accountState.killSwitchTriggered = true) (inp : PlanInput)
    (plan : TradePlan) :
    (app.onPlan inp plan).1 = app.riskManager ∧ app.Rejects inp plan := by
  obtain ⟨r, heval, hreason⟩ := app.riskManager.evaluate_of_killSwitch inp.now inp.univ inp.news
    inp.later plan h
  by_cases hgate : app.liveExecutor = true ∧ plan.strategyName = "FlushReversal"
  · have heq : app.onPlan inp plan = (app.riskManager, .dropped) :=
      if_pos ⟨hgate.1, hgate.2, rfl⟩
    rw [Rejects, heq]
    exact ⟨rfl, rfl, fun hreach => absurd hgate hreach.1⟩
  · have hlive : ¬ (app.liveExecutor = true ∧ plan.strategyName = "FlushReversal" ∧
        liveGateSatisfied plan = false) := fun hno => hgate ⟨hno.1, hno.2.1⟩
    cases hstable : inp.univ.isAffinityStable plan.ticker kAffinityStableMin inp.stableAt with
    | false =>
        have heq : app.onPlan inp plan = (app.riskManager, .dropped) := by
          rw [onPlan, if_neg hlive, if_pos hstable]
        rw [Rejects, heq]
        exact ⟨rfl, rfl, fun hreach => absurd hreach.2 (by simp [hstable])⟩
    | true =>
        have heq : app.onPlan inp plan = (app.riskManager, .rejected (r.decision 0 0)) := by
          rw [onPlan, if_neg hlive, if_neg (by simp [hstable]), heval]
          rfl
        rw [Rejects, heq]
        exact ⟨rfl, rfl, fun _ => ⟨_, rfl, hreason⟩⟩

/-- With the flag set an offered plan changes nothing. -/
theorem offer_of_killSwitch (h : app.accountState.killSwitchTriggered = true) (caller : Caller)
    (inp : PlanInput) (plan : TradePlan) : app.offer caller inp plan = app := by
  obtain ⟨hrm, hnone, _⟩ := onPlan_of_killSwitch h inp plan
  unfold offer
  simp only [hrm, hnone, Option.map_none, Option.getD_none]
  split
  case h_1 hproc => rw [← hproc]
  all_goals rfl

/-! ## One step of the shutdown -/

/-- What a step of `handle_kill_switch_` makes of the executor and of the main thread. -/
inductive KillStep (inp : KillInput) (app : BotApp) : LiveExecutor → MainThread → Prop
  | rest : KillStep inp app app.executor app.main
  | proceeds {next : MainThread} (hmain : app.main.killing = true) (hnext : next.killing = true) :
      KillStep inp app app.executor next
  | cancels {ticker : Ticker} {rest : List Ticker} (hmain : app.main = .cancelling (ticker :: rest)) :
      KillStep inp app (app.executor.cancelAll inp.env ticker).1 (.cancelling rest)
  | closes {pos : PositionUpdate} {rest : List PositionUpdate}
      (hmain : app.main = .closing (pos :: rest)) :
      KillStep inp app (app.executor.closeTrade inp.env pos.ticker "KillSwitch") (.closing rest)
  | retries {positions : List PositionUpdate} {tries : AList (fun _ : Ticker => ℕ)}
      (hmain : app.main = .polling tries) :
      KillStep inp app (positions.foldl (retryClose inp.env) (app.executor, tries)).1
        (.polling (positions.foldl (retryClose inp.env) (app.executor, tries)).2)

/-- It writes nothing else. -/
theorem killPart_cases (inp : KillInput) (app : BotApp) :
    ∃ executor main, KillStep inp app executor main ∧
      app.killPart inp app.main = { app with executor := executor, main := main } := by
  have hproceeds : ∀ next : MainThread, app.main.killing = true → next.killing = true →
      ∃ executor main, KillStep inp app executor main ∧
        { app with main := next } = { app with executor := executor, main := main } :=
    fun next hmain hnext => ⟨_, _, .proceeds hmain hnext, rfl⟩
  have hrest : ∃ executor main, KillStep inp app executor main ∧
      app = { app with executor := executor, main := main } := ⟨_, _, .rest, rfl⟩
  cases hmain : app.main with
  | idle | ticking | submitting | exited => exact hrest
  | cancelling rest =>
      cases rest with
      | nil => exact hproceeds _ (by rw [hmain]; rfl) rfl
      | cons ticker rest =>
          simp only [killPart]
          split
          · exact ⟨_, _, .cancels hmain, rfl⟩
          · exact hproceeds _ (by rw [hmain]; rfl) rfl
  | closing rest =>
      cases rest with
      | nil => exact hproceeds _ (by rw [hmain]; rfl) rfl
      | cons pos rest =>
          simp only [killPart]
          split_ifs
          · exact hproceeds _ (by rw [hmain]; rfl) rfl
          · exact ⟨_, _, .closes hmain, rfl⟩
          · exact hproceeds _ (by rw [hmain]; rfl) rfl
  | polling tries =>
      -- step 5 polls again as long as positions are left and cannot be fetched
      simp only [killPart]
      split
      · split
        · exact hrest
        · split
          · exact hproceeds _ (by rw [hmain]; rfl) rfl
          · exact ⟨_, _, .retries hmain, rfl⟩
      · exact hproceeds _ (by rw [hmain]; rfl) rfl

/-- A step of `handle_kill_switch_` itself. -/
theorem killPart_frame (inp : KillInput) (hkill : app.main.killing = true) :
    (app.killPart inp app.main).main.killing = true ∧
      (app.killPart inp app.main).accountState = app.accountState ∧
      (app.killPart inp app.main).processor = app.processor ∧
      (app.killPart inp app.main).submitted = app.submitted := by
  obtain ⟨executor, main, hstep, heq⟩ := killPart_cases inp app
  rw [heq]
  refine ⟨?_, rfl, rfl, rfl⟩
  cases hstep with
  | rest => exact hkill
  | proceeds _ hnext => exact hnext
  | cancels | closes | retries => rfl

/-- Once `handle_kill_switch_` has begun, it goes on, and the account state is not written again. Only
    the processor thread still takes plans and submits them. -/
theorem step_of_killing (hkill : app.main.killing = true) (ev : AppEvent) :
    (app.step ev).main.killing = true ∧ (app.step ev).accountState = app.accountState ∧
      ((app.step ev).processor = app.processor ∧ (app.step ev).submitted = app.submitted ∨
        (∃ inp plan, ev = .offer .processor inp plan) ∨
          ∃ env ns now, ev = .submit .processor env ns now) := by
  -- the main thread is past the point where it could begin a shutdown or a tick
  have hidle : app.main ≠ .idle := fun h => by simp [h, MainThread.killing] at hkill
  cases ev with
  | trigger | drainClosedTrades | executorOp => exact ⟨hkill, rfl, .inl ⟨rfl, rfl⟩⟩
  | slowTimer controllers =>
      simp only [step]
      split
      case h_1 h _ | h_2 h _ => exact absurd h hidle
      case h_3 => exact ⟨hkill, rfl, .inl ⟨rfl, rfl⟩⟩
  | dashboardTimer controllers marks =>
      simp only [step]
      split
      case h_1 h _ | h_2 h _ => exact absurd h hidle
      case h_3 => exact ⟨hkill, rfl, .inl ⟨rfl, rfl⟩⟩
  | tick inp =>
      simp only [step]
      split
      case h_1 stage h => simp [h, MainThread.killing] at hkill
      case h_2 => exact ⟨hkill, rfl, .inl ⟨rfl, rfl⟩⟩
  -- the parts of the shutdown write nothing that counts here
  | kill inp =>
      obtain ⟨hmain, hacc, hproc, hsub⟩ := killPart_frame inp hkill
      exact ⟨hmain, hacc, .inl ⟨hproc, hsub⟩⟩
  | offer caller inp plan =>
      simp only [step, offer]
      split
      case h_1 => exact ⟨hkill, rfl, .inr (.inl ⟨inp, plan, rfl⟩)⟩
      -- the main thread would have to be in its strategies
      case h_2 h => simp [h, MainThread.killing] at hkill
      case h_3 => exact ⟨hkill, rfl, .inl ⟨rfl, rfl⟩⟩
  | submit caller env ns now =>
      simp only [step, submit]
      split
      case h_1 => exact ⟨hkill, rfl, .inr (.inr ⟨env, ns, now, rfl⟩)⟩
      case h_2 h => simp [h, MainThread.killing] at hkill
      case h_3 => exact ⟨hkill, rfl, .inl ⟨rfl, rfl⟩⟩

/-- If the flag is set and no accepted plan waits, none is accepted and none submitted. -/
theorem step_submits_nothing (hkill : app.main.killing = true)
    (hflag : app.accountState.killSwitchTriggered = true) (hfree : app.processor = none)
    (ev : AppEvent) :
    (app.step ev).processor = none ∧ (app.step ev).submitted = app.submitted := by
  obtain ⟨_, _, ⟨hproc, hsub⟩ | ⟨inp, plan, rfl⟩ | ⟨env, ns, now, rfl⟩⟩ := step_of_killing hkill ev
  · exact ⟨hproc.trans hfree, hsub⟩
  · rw [step, offer_of_killSwitch hflag]
    exact ⟨hfree, rfl⟩
  · have hsame : app.submit .processor env ns now = app := by
      simp only [submit, hfree]
    rw [step, hsame]
    exact ⟨hfree, rfl⟩

/-! ## A step and the risk manager -/

theorem beginKillSwitch_riskManager (controllers : List Ticker) (app : BotApp) :
    (app.beginKillSwitch controllers).riskManager = app.riskManager := by
  unfold beginKillSwitch
  split <;> rfl

theorem tickPart_riskManager (inp : TickInput) (app : BotApp) (stage : TickStage) :
    (app.tickPart inp stage).riskManager = app.riskManager ∨
      (app.tickPart inp stage).riskManager = (app.processClosedTrades inp.now).riskManager := by
  cases stage with
  | exchange =>
      left
      simp only [tickPart, updateAccountFromExchange]
      split
      · rfl
      · split <;> rfl
  | dailyReset =>
      left
      simp only [tickPart, checkDailyReset]
      split <;> rfl
  | closedTrades => exact .inr rfl
  | strategies | executor | positions | killSwitch | markPrices => exact .inl rfl

/-- Only a plan that is offered, and closed trades, change the risk manager. -/
theorem step_riskManager (app : BotApp) (ev : AppEvent) :
    (app.step ev).riskManager = app.riskManager ∨
      (∃ inp plan, (app.step ev).riskManager = (app.onPlan inp plan).1) ∨
        ∃ now, (app.step ev).riskManager = (app.processClosedTrades now).riskManager := by
  cases ev with
  | trigger | drainClosedTrades | executorOp => exact .inl rfl
  | slowTimer controllers =>
      left
      simp only [step]
      split
      · exact beginKillSwitch_riskManager controllers app
      · rfl
      · rfl
  | dashboardTimer controllers marks =>
      left
      simp only [step]
      split
      · exact beginKillSwitch_riskManager controllers app
      · rfl
      · rfl
  | tick inp =>
      simp only [step]
      split
      case h_1 stage _ =>
        exact (tickPart_riskManager inp app stage).imp_right (fun h => .inr ⟨inp.now, h⟩)
      case h_2 => exact .inl rfl
  -- the shutdown asks the executor only
  | kill inp =>
      obtain ⟨executor, main, -, heq⟩ := killPart_cases inp app
      rw [step, heq]
      exact .inl rfl
  | offer caller inp plan =>
      simp only [step, offer]
      split
      · exact .inr (.inl ⟨inp, plan, rfl⟩)
      · exact .inr (.inl ⟨inp, plan, rfl⟩)
      · exact .inl rfl
  | submit caller env ns now =>
      left
      simp only [step, submit]
      split <;> rfl

/-! ## The beginning of the shutdown -/

/-- The event makes `handle_kill_switch_` begin. -/
def BeginsKill (app : BotApp) : AppEvent → Prop
  | .slowTimer _ | .dashboardTimer _ _ =>
      app.main = .idle ∧ app.killSwitchTriggered = true ∧ app.shutdownInitiated = false
  | _ => False

theorem beginKillSwitch_frame (controllers : List Ticker) :
    (app.beginKillSwitch controllers).accountState = app.accountState ∧
      (app.beginKillSwitch controllers).processor = app.processor := by
  unfold beginKillSwitch
  split <;> exact ⟨rfl, rfl⟩

theorem beginKillSwitch_initiates {controllers : List Ticker} (hmain : app.main.killing = false)
    (hkill : (app.beginKillSwitch controllers).main.killing = true) :
    app.shutdownInitiated = false := by
  by_contra h
  rw [beginKillSwitch, if_pos (by simpa using h), hmain] at hkill
  cases hkill

theorem step_begins (hmain : app.main.killing = false) {ev : AppEvent}
    (hkill : (app.step ev).main.killing = true) :
    app.BeginsKill ev ∧ (app.step ev).accountState = app.accountState ∧
      (app.step ev).processor = app.processor := by
  cases ev with
  | trigger | drainClosedTrades | executorOp => simp [step, hmain] at hkill
  -- only the two timers begin a shutdown
  | slowTimer controllers =>
      simp only [step] at hkill ⊢
      split at hkill
      case h_1 hidle htrig =>
        exact ⟨⟨hidle, htrig, beginKillSwitch_initiates hmain hkill⟩, beginKillSwitch_frame _⟩
      case h_2 => cases hkill
      case h_3 => simp [hmain] at hkill
  | dashboardTimer controllers marks =>
      simp only [step] at hkill ⊢
      split at hkill
      case h_1 hidle htrig =>
        exact ⟨⟨hidle, htrig, beginKillSwitch_initiates hmain hkill⟩, beginKillSwitch_frame _⟩
      case h_2 => simp [hmain] at hkill
      case h_3 => simp [hmain] at hkill
  | tick inp =>
      simp only [step] at hkill
      split at hkill
      case h_1 stage _ => cases stage <;> cases hkill
      case h_2 => simp [hmain] at hkill
  -- a part of the shutdown runs only if it has begun
  | kill inp =>
      simp only [step] at hkill
      cases hm : app.main with
      | idle | ticking | submitting => simp [hm, killPart, MainThread.killing] at hkill
      | cancelling | closing | polling | exited => simp [hm, MainThread.killing] at hmain
  | offer caller inp plan =>
      simp only [step, offer] at hkill
      split at hkill
      case h_1 => simp [hmain] at hkill
      case h_2 h =>
        dsimp only at hkill
        cases hplan : (app.onPlan inp plan).2.plan? <;> simp [hplan, h, MainThread.killing] at hkill
      case h_3 => simp [hmain] at hkill
  | submit caller env ns now =>
      simp only [step, submit] at hkill
      split at hkill
      case h_1 => simp [hmain] at hkill
      case h_2 => cases hkill
      case h_3 => simp [hmain] at hkill

/-! ## Runs -/

/-- When `handle_kill_switch_` begins, the account state says so already and no accepted plan waits to
    be submitted. -/
def KillsFlagged (app : BotApp) (ev : AppEvent) : Prop :=
  app.BeginsKill ev → app.accountState.killSwitchTriggered = true ∧ app.processor = none

/-- While `handle_kill_switch_` runs, the flag is set and no accepted plan waits. -/
def Guarded (app : BotApp) : Prop :=
  app.main.killing = true → app.accountState.killSwitchTriggered = true ∧ app.processor = none

theorem Guarded.step {ev : AppEvent} (hinv : app.Guarded) (h : app.KillsFlagged ev) :
    (app.step ev).Guarded := by
  intro hkill'
  cases hkill : app.main.killing with
  | false =>
      obtain ⟨hbegins, hacc, hproc⟩ := step_begins hkill hkill'
      rw [hacc, hproc]
      exact h hbegins
  | true =>
      obtain ⟨hflag, hfree⟩ := hinv hkill
      obtain ⟨_, hacc, _⟩ := step_of_killing hkill ev
      exact ⟨hacc ▸ hflag, (step_submits_nothing hkill hflag hfree ev).1⟩

/-- The shutdown as a whole: it never submits a plan, and stays guarded. -/
theorem run_submits_nothing (hinv : app.Guarded) (hkill : app.main.killing = true)
    (events : List AppEvent) :
    (app.run events).Guarded ∧ (app.run events).main.killing = true ∧
      (app.run events).submitted = app.submitted := by
  refine invariant (fun app' : BotApp => app'.Guarded ∧ app'.main.killing = true ∧
    app'.submitted = app.submitted) ?_ events ⟨hinv, hkill, rfl⟩
  rintro app' ev ⟨hinv', hkill', hsub⟩
  obtain ⟨hflag, hfree⟩ := hinv' hkill'
  obtain ⟨hkilling, hacc, _⟩ := step_of_killing hkill' ev
  obtain ⟨hproc, hsame⟩ := step_submits_nothing hkill' hflag hfree ev
  exact ⟨fun _ => ⟨hacc ▸ hflag, hproc⟩, hkilling, hsame.trans hsub⟩

end

/-! ## The results -/

/-- In every run in which the account state has the trigger and no accepted plan waits when
    `handle_kill_switch_` begins, nothing is submitted from then on, whatever the processor thread
    does, and every plan is rejected. -/
theorem no_entry_after_killSwitch (app : BotApp) (hstart : app.main.killing = false)
    (before after : List AppEvent) (h : Along step KillsFlagged app before)
    (hkill : (app.run before).main.killing = true) :
    (app.run (before ++ after)).submitted = (app.run before).submitted ∧
      ∀ inp plan, (app.run (before ++ after)).Rejects inp plan := by
  have hinv : (app.run before).Guarded := h.invariant Guarded
    (fun _ _ hinv hflagged => hinv.step hflagged) (fun hk => by simp [hstart] at hk)
  rw [run_append]
  obtain ⟨hguarded, hkilling, hsub⟩ := run_submits_nothing hinv hkill after
  exact ⟨hsub, fun inp plan => (onPlan_of_killSwitch (hguarded hkilling).1 inp plan).2⟩

/-! A started program, a plan it accepts, and a boosted ticker to trade it on. -/

/-- The program with 10000 USD. -/
def sampleApp : BotApp :=
  { accountState := { equityUsd := 10000, startingEquityUsd := 10000, freeBalanceUsd := 10000 }
    equityAccumulator := 10000
    freeBalanceAccumulator := 10000 }

/-- A plan whose targets are close, for the rules on risk and reward. -/
def tightPlan : TradePlan :=
  { samplePlan with stopPrice := 999 / 10, tp1Price := 1002 / 10, strategyName := "LeaderLag" }

/-- A ticker that was active for long enough. -/
def sampleInput : PlanInput :=
  { univ :=
      { boosts := AList.insert "BTC_USDT" (400 * nsPerSec) ∅
        activeSince := AList.insert "BTC_USDT" 0 ∅ }
    news := []
    stableAt := 400 * nsPerSec
    now := 400 * nsPerSec
    later := 400 * nsPerSec }

/-- A slow tick in which the exchange has nothing to say. -/
def sampleTick : AppEvent :=
  .tick { env := .accepting, now := 400 * nsPerSec, finres := none, isNewDay := false, marks := ∅ }

/-- The processor thread accepts a plan and submits it. -/
def lateEntry : List AppEvent :=
  [.offer .processor sampleInput tightPlan, .submit .processor .accepting 0 0]

/-- The switch is triggered during a slow tick, which copies it into the account state. -/
def flaggedRun : List AppEvent :=
  [.slowTimer [], sampleTick, sampleTick, sampleTick, sampleTick, sampleTick, sampleTick, .trigger,
    sampleTick, sampleTick, .slowTimer ["BTC_USDT"]]

/-- The same late entry after such a run. -/
theorem no_entry_after_killSwitch_flagged :
    (sampleApp.run (flaggedRun ++ lateEntry)).submitted = [] := by
  have hflagged : Along step KillsFlagged sampleApp flaggedRun :=
    ⟨fun h => absurd h.2.1 (by decide), False.elim, False.elim, False.elim, False.elim, False.elim,
      False.elim, False.elim, False.elim, False.elim, fun _ => by decide +kernel, trivial⟩
  have hkept := (no_entry_after_killSwitch sampleApp rfl flaggedRun lateEntry hflagged rfl).1
  exact hkept.trans (by decide +kernel)

/-- The switch is triggered between two slow ticks: `handle_kill_switch_` begins, and the next plan is
    accepted and submitted. -/
theorem entry_after_killSwitch :
    ¬ ∀ (app : BotApp) (before after : List AppEvent), app.main.killing = false →
        (app.run before).main.killing = true →
        (app.run (before ++ after)).submitted = (app.run before).submitted ∧
          ∀ inp plan, (app.run (before ++ after)).Rejects inp plan := by
  intro hall
  have hsub := (hall sampleApp [.trigger, .slowTimer ["BTC_USDT"]] lateEntry rfl rfl).1
  revert hsub
  decide +kernel

end BotApp

end TradeBot
