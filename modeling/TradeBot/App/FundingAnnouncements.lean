import TradeBot.App.PlanGate
import TradeBot.Risk.Blackouts
import TradeBot.Transport.ListenerCalls

set_option autoImplicit false

/-! # Funding announcements and the risk gate

The feed stores the funding times that the exchange announces. The risk manager learns a funding time
from `update_funding_time`, and the only caller of that is `tick_controllers_`, which `tick` no longer
calls. So no run of the program books a funding time, and R13 never rejects a plan.

The program and the feed share nothing but the messages, so a run is one of the program with messages
in between. An announcement is found again in the feed (`funding_of_announces`), while no step of the
program writes the risk manager's funding times (`step_fundingTimes`).

What is left of the claim that plans are rejected around an announced funding time is then a matter
of the other rules: it holds exactly where one of these rejects the plan (`announcedFunding_iff`). -/

namespace TradeBot

open MarketDataFeed

/-- The program with its feed. -/
structure Program where
  app : BotApp
  feed : MarketDataFeed AppListener

namespace Program

/-- An event of the program, or a message to its feed. -/
inductive Event
  | app (ev : BotApp.AppEvent)
  /-- A message of the exchange is handled by the feed. What the executor does with it is an event of
      the program. -/
  | message (clock : TimePoint) (j : Json)

/-- The program and its feed after an event. -/
def step (s : Program) : Event → Program
  | .app ev => { s with app := s.app.step ev }
  | .message clock j => { s with feed := (handleMessage clock s.feed j).1 }

/-- The two after some events. -/
def run (s : Program) (events : List Event) : Program := events.foldl step s

/-- A program that starts with a risk manager of its configuration. -/
def start (cfg : RiskConfig) (app : BotApp) (feed : MarketDataFeed AppListener) : Program :=
  { app := { app with riskManager := { cfg := cfg } }, feed := feed }

/-! ## Announcements -/

/-- The funding time that an event announces for a ticker. -/
def Event.announces? (ticker : Ticker) : Event → Option TimePoint
  | .message _ j =>
      if messageType j = some "funding_update" then
        match fundingOf (messageData j) with
        | some (t, fd) => if t = ticker then some fd.nextFundingTime else none
        | none => none
      else none
  | .app _ => none

/-- The feed stores what is announced. -/
theorem funding_of_announces {s : Program} {ev : Event} {ticker : Ticker} {funding : TimePoint}
    (h : ev.announces? ticker = some funding) :
    ((s.step ev).feed.funding ticker).map FundingData.nextFundingTime = some funding := by
  cases ev with
  | app ev => cases h
  | message clock j =>
      simp only [Event.announces?] at h
      split at h
      · next htype =>
          split at h
          · next t fd hfd =>
              split at h
              · next ht =>
                  subst ht
                  simp only [step, handleMessage, htype]
                  rw [if_neg (by simp [isHotType])]
                  simpa [callbackOf, store, hfd] using h
              · cases h
          · cases h
      · cases h

/-- The next slow timer starts a tick. -/
def IsReady (app : BotApp) : Prop := app.main = .idle ∧ app.killSwitchTriggered = false

/-- A slow tick has begun and come to its end since `funding` was announced for a ticker with a
    controller, and nothing else has been announced for it. -/
def AnnouncedBeforeTick (s : Program) (events : List Event) (ticker : Ticker)
    (funding : TimePoint) : Prop :=
  ∃ before announcement between controllers ticking after,
    events = before ++ [announcement] ++ between ++ [.app (.slowTimer controllers)] ++ ticking ++
        after ∧
      announcement.announces? ticker = some funding ∧ ticker ∈ controllers ∧
      (∀ ev ∈ between ++ ticking ++ after, ev.announces? ticker = none) ∧
      IsReady (s.run (before ++ [announcement] ++ between)).app ∧
      (s.run (before ++ [announcement] ++ between ++ [.app (.slowTimer controllers)] ++
        ticking)).app.main = .idle

/-! ## What the risk manager learns -/

/-- No step of the program writes the risk manager's funding times. -/
theorem step_fundingTimes (app : BotApp) (ev : BotApp.AppEvent) :
    (app.step ev).riskManager.fundingTimes = app.riskManager.fundingTimes ∧
      (app.step ev).riskManager.prevFundingTimes = app.riskManager.prevFundingTimes := by
  rcases app.step_riskManager ev with hrm | ⟨inp, plan, hrm⟩ | ⟨now, hrm⟩
  · rw [hrm]
    exact ⟨rfl, rfl⟩
  · rw [hrm]
    have hsame := app.riskManager.evaluate_funding inp.now inp.univ inp.news inp.later plan
      app.accountState
    unfold BotApp.onPlan
    split_ifs
    · exact ⟨rfl, rfl⟩
    · exact ⟨rfl, rfl⟩
    · dsimp only
      split <;> exact hsame
  · rw [hrm]
    unfold BotApp.processClosedTrades
    refine Runs.invariant (fun app' : BotApp =>
      app'.riskManager.fundingTimes = app.riskManager.fundingTimes ∧
        app'.riskManager.prevFundingTimes = app.riskManager.prevFundingTimes) ?_
      app.closedTradeQueue ⟨rfl, rfl⟩
    exact fun app' ct h => h

/-- Whatever is announced, the books of a run stay empty. -/
theorem run_fundingTimes (cfg : RiskConfig) (app : BotApp) (feed : MarketDataFeed AppListener)
    (events : List Event) :
    ((start cfg app feed).run events).app.riskManager.fundingTimes = ∅ ∧
      ((start cfg app feed).run events).app.riskManager.prevFundingTimes = ∅ := by
  refine Runs.invariant (fun s : Program => s.app.riskManager.fundingTimes = ∅ ∧
    s.app.riskManager.prevFundingTimes = ∅) ?_ events ⟨rfl, rfl⟩
  rintro s ev ⟨hnext, hprev⟩
  cases ev with
  | message clock j => exact ⟨hnext, hprev⟩
  | app ev =>
      obtain ⟨hnext', hprev'⟩ := step_fundingTimes s.app ev
      exact ⟨hnext'.trans hnext, hprev'.trans hprev⟩

/-- After any run, that a plan is rejected before an announced funding time is right exactly if
    another rule than R13 rejects it. -/
theorem announcedFunding_iff (cfg : RiskConfig) (app : BotApp) (feed : MarketDataFeed AppListener)
    (events : List Event) (funding now : TimePoint) (univ : TickerUniverse) (news : NewsCalendar)
    (later : TimePoint) (plan : TradePlan) :
    let s := start cfg app feed
    let rm := (s.run events).app.riskManager
    let state := (s.run events).app.accountState
    let inWindow := s.AnnouncedBeforeTick events (toInternalTicker plan.ticker) funding ∧
      funding - cfg.fundingBlackoutPreSec * nsPerSec ≤ now ∧ now < funding
    (inWindow → (rm.evaluate now univ news later plan state).2.accepted = false) ↔
      (inWindow → rm.RejectedBesideFunding now univ news plan state) := by
  intro s rm state inWindow
  obtain ⟨hnext, hprev⟩ := run_fundingTimes cfg app feed events
  have hbooked : rm.FundingBooked (toInternalTicker plan.ticker) [] :=
    ⟨by rw [hnext]; exact AList.lookup_empty _, by rw [hprev]; exact AList.lookup_empty _⟩
  have huncovered : ¬ FundingCovered rm.cfg [] now := by
    rintro (⟨_, h, -⟩ | ⟨_, h, -⟩) <;> cases h
  refine imp_congr_right fun _ => ?_
  rw [← Bool.not_eq_true, hbooked.accepted_iff, and_iff_right huncovered, not_not]

/-- Funding of `BTCUSDT` a minute after the epoch. -/
def fundingMessage : Event :=
  .message 0 (.obj
    [("Type", .str "funding_update"),
      ("Data", .obj
        [("Ticker", .str "BTCUSDT"), ("FundingRate", .dec (1 / 10000)),
          ("FundingTime", .str "1970-01-01T00:01:00Z")])])

/-- A slow tick with all of its parts. -/
def tickEvents : List Event := List.replicate 8 (.app BotApp.sampleTick)

/-- An announcement, a slow tick of its controller, and the ticks that make the account. -/
def announcedRun : List Event :=
  [fundingMessage] ++ [.app (.slowTimer ["BTC_USDT"])] ++ tickEvents

/-- Twenty seconds before the announced funding time the plan is accepted. -/
theorem announcedFunding_accepted :
    (start {} BotApp.sampleApp {}).AnnouncedBeforeTick announcedRun
        (toInternalTicker scalpPlan.ticker) (60 * nsPerSec) ∧
      60 * nsPerSec - ({} : RiskConfig).fundingBlackoutPreSec * nsPerSec ≤ 40 * nsPerSec ∧
      40 * nsPerSec < 60 * nsPerSec ∧
      (let s := (start {} BotApp.sampleApp {}).run announcedRun;
        (s.app.riskManager.evaluate (40 * nsPerSec) (boostedUniverse (40 * nsPerSec)) []
          (40 * nsPerSec) scalpPlan s.app.accountState).2.accepted = true) := by
  refine ⟨⟨[], fundingMessage, [], ["BTC_USDT"], tickEvents, [], ?_, ?_, ?_, ?_, ?_, ?_⟩, ?_, ?_, ?_⟩
  · simp [announcedRun]
  · decide +kernel
  · decide +kernel
  · decide +kernel
  · exact ⟨rfl, rfl⟩
  · rfl
  · decide
  · decide
  · decide +kernel

end Program

end TradeBot
