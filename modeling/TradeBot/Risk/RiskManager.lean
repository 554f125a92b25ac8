import TradeBot.Risk.NewsCalendar
import TradeBot.Universe.TickerUniverse
import TradeBot.Utils.Numeric

set_option autoImplicit false

/-! # RiskManager

`risk/RiskManager.{hpp,cpp}` and `risk/AccountState.hpp`: the rules R1 to R13 and R15 that a plan has
to pass before it is submitted, in the order of the source, with the texts of their rejections. The
rules up to R9 read the plan, the account and the configuration only; R10 and R11 also keep books on
accepted trades and on losses. Logging is left out.

A rule is a list of rejections of which the first one counts, and the rules are chained in the same
way. Those that read the plan and the account only are functions of their own (`planRules`); those
with books return what they leave of the books as well. R14 is not among them: it is checked after an
entry has been filled. -/

namespace TradeBot

/-- The fields of `AccountState` that the risk rules and the account sync use. -/
structure AccountState where
  equityUsd : ℚ := 0
  startingEquityUsd : ℚ := 0
  realizedPnlTodayUsd : ℚ := 0
  unrealizedPnlUsd : ℚ := 0
  freeBalanceUsd : ℚ := 0
  markPrice : ℚ := 0
  activePositions : ℤ := 0
  activeTickers : List Ticker := []
  killSwitchTriggered : Bool := false
  deriving DecidableEq

/-- Why a plan is not submitted. -/
inductive RejectReason
  | none
  | killSwitchActive
  | dailyLossLimitHit
  | tooManyPositions
  | duplicatePosition
  | notInUniverse
  | stopTooTight
  | stopTooWide
  | invalidStopSide
  | poorRewardRisk
  | sizeBelowMinimum
  | insufficientMargin
  | tradeRateLimitHit
  | lossStreakCircuitBreaker
  | newsBlackout
  | fundingBlackout
  | singlePositionLossExceeded
  | entrySlippageExceeded
  | internalError
  deriving DecidableEq, Repr

/-- The answer to a plan. A rejected plan has the text of its rejection. -/
structure RiskDecision where
  accepted : Bool := false
  reason : RejectReason := .none
  adjustedSizeCoin : ℚ := 0
  riskUsd : ℚ := 0
  details : String := ""
  deriving DecidableEq

/-- `RiskManager::Config`. -/
structure RiskConfig where
  maxDailyLossPct : ℚ := 3
  maxConcurrentPositions : ℤ := 3
  maxPositionsPerTicker : ℤ := 1
  allowHedge : Bool := false
  minStopBps : ℚ := 3
  maxStopBps : ℚ := 20
  minRrRatio : ℚ := 1
  maxPerTradeRiskPct : ℚ := 1 / 2
  maxPositionValuePct : ℚ := 10
  marginSafetyRatio : ℚ := 4 / 5
  maxLeverage : ℤ := 5
  tradesWindowMin : ℤ := 5
  maxTradesPerWindow : ℤ := 6
  maxTradeHistory : ℕ := 10000
  lossStreakWindowMin : ℤ := 15
  maxConsecutiveLosses : ℤ := 3
  lossStreakCooloffMin : ℤ := 10
  maxLossHistory : ℕ := 10000
  maxEntrySlippageBps : ℚ := 5
  newsBlackoutMin : ℤ := 5
  newsCalendarCheckMin : ℤ := 60
  newsCalendarRequireFresh : Bool := false
  fundingBlackoutPreSec : ℤ := 30
  fundingBlackoutPostSec : ℤ := 30
  whitelistTickers : List String := []

/-- The configuration, and what R10, R11 and R13 remember. -/
structure RiskManager where
  cfg : RiskConfig := {}
  /-- Times of accepted trades, oldest first. -/
  tradeHistory : List TimePoint := []
  /-- Times of ended trades, and whether they were losses, oldest first. -/
  lossHistory : List (TimePoint × Bool) := []
  /-- `0` is the epoch: no cooloff is running. -/
  lastLossStreakTs : TimePoint := 0
  fundingTimes : AList (fun _ : Ticker => TimePoint) := ∅
  prevFundingTimes : AList (fun _ : Ticker => TimePoint) := ∅

/-! ## Rules -/

/-- What a rule answers when it rejects. -/
structure Rejection where
  reason : RejectReason
  details : String
  deriving DecidableEq

/-- `if (c) { d.reason = reason; d.details = details; return d; }` -/
def rejectIf (c : Prop) [Decidable c] (reason : RejectReason) (details : String) :
    Option Rejection :=
  if c then some ⟨reason, details⟩ else none

/-- The rejection of the first rule that rejects. -/
def firstRejection (rules : List (Option Rejection)) : Option Rejection := rules.findSome? id

/-- The decision with the size and the risk known so far. -/
def Rejection.decision (r : Rejection) (size risk : ℚ) : RiskDecision :=
  { reason := r.reason, details := r.details, adjustedSizeCoin := size, riskUsd := risk }

theorem firstRejection_append (rules rules' : List (Option Rejection)) :
    firstRejection (rules ++ rules') = (firstRejection rules).or (firstRejection rules') :=
  List.findSome?_append

theorem firstRejection_some (r : Rejection) (rules : List (Option Rejection)) :
    firstRejection (some r :: rules) = some r := rfl

/-- The tickers' spellings do not matter. -/
def sameTicker (ticker other : Ticker) : Bool := toInternalTicker other == toInternalTicker ticker

section

variable (cfg : RiskConfig) (univ : TickerUniverse) (now : TimePoint) (plan : TradePlan)
  (state : AccountState)

/-- The guards against malformed inputs. -/
def sanityRules : List (Option Rejection) :=
  [rejectIf (state.startingEquityUsd ≤ 0) .internalError "starting_equity_usd is not positive",
    rejectIf (plan.entryPrice ≤ 0) .internalError "entry_price is not positive",
    rejectIf (cfg.maxLeverage ≤ 0) .internalError "max_leverage is not positive"]

/-- The inputs that the guards let pass. -/
structure SaneInput : Prop where
  startingEquity : 0 < state.startingEquityUsd
  entryPrice : 0 < plan.entryPrice
  maxLeverage : 0 < cfg.maxLeverage

variable {cfg plan state} in
theorem SaneInput.sanityRules (h : SaneInput cfg plan state) :
    firstRejection (sanityRules cfg plan state) = none := by
  simp only [firstRejection, TradeBot.sanityRules, rejectIf, not_le.2 h.startingEquity,
    not_le.2 h.entryPrice, not_le.2 h.maxLeverage, if_false, List.findSome?_cons, id,
    List.findSome?_nil]

/-- R1. -/
def killSwitchRule : Option Rejection :=
  rejectIf (state.killSwitchTriggered = true) .killSwitchActive "Kill-switch is active"

/-- The result of the day, realized or not, in percent of the equity at its start. -/
def dailyPnlPct : ℚ :=
  (state.realizedPnlTodayUsd + state.unrealizedPnlUsd) / state.startingEquityUsd * 100

/-- R2. -/
def dailyLossRule : Option Rejection :=
  rejectIf (dailyPnlPct state ≤ -cfg.maxDailyLossPct) .dailyLossLimitHit
    ("Daily loss limit hit: " ++ stdToString (dailyPnlPct state) ++ "%")

/-- How many of the active tickers are the plan's. -/
def tickerCount : ℤ := (state.activeTickers.countP (sameTicker plan.ticker) : ℕ)

/-- R3, R4 and R4b. -/
def positionRules : List (Option Rejection) :=
  [rejectIf (cfg.maxConcurrentPositions ≤ state.activePositions) .tooManyPositions
      ("Too many concurrent positions: " ++ toString state.activePositions),
    rejectIf (state.activeTickers.any (sameTicker plan.ticker) = true ∧ cfg.allowHedge = false)
      .duplicatePosition ("Already has position in " ++ plan.ticker),
    rejectIf (cfg.maxPositionsPerTicker ≤ tickerCount plan state) .duplicatePosition
      ("Per-ticker limit reached for " ++ plan.ticker ++ ": " ++ toString (tickerCount plan state) ++
        "/" ++ toString cfg.maxPositionsPerTicker)]

/-- R5. A boosted or whitelisted ticker needs neither the pool nor the strategy's affinity. -/
def universeRules : List (Option Rejection) :=
  let ticker := toInternalTicker plan.ticker
  let exempt := univ.isBoosted ticker now || cfg.whitelistTickers.any (sameTicker plan.ticker)
  [rejectIf (univ.isInPool ticker = false ∧ exempt = false) .notInUniverse
      ("Ticker not in tradable universe or whitelist: " ++ plan.ticker),
    rejectIf (exempt = false ∧ univ.isStrategyEnabled ticker plan.strategyName = false)
      .notInUniverse
      ("Ticker " ++ plan.ticker ++ " not enabled for strategy " ++ plan.strategyName)]

/-- How far the stop is away from the entry. -/
def stopDistBps : ℚ := |plan.entryPrice - plan.stopPrice| / plan.entryPrice * kBpsBase

/-- Is `price` on the side of the entry where the plan loses? -/
def TradePlan.onLossSide (price : ℚ) : Prop :=
  plan.side = .buy ∧ price < plan.entryPrice ∨ plan.side = .sell ∧ plan.entryPrice < price

/-- Is `price` on the side of the entry where the plan wins? -/
def TradePlan.onProfitSide (price : ℚ) : Prop :=
  plan.side = .buy ∧ plan.entryPrice < price ∨ plan.side = .sell ∧ price < plan.entryPrice

instance (price : ℚ) : Decidable (plan.onLossSide price) :=
  inferInstanceAs (Decidable (_ ∨ _))

instance (price : ℚ) : Decidable (plan.onProfitSide price) :=
  inferInstanceAs (Decidable (_ ∨ _))

/-- The widest stop, wider for tickers of small volume. -/
def maxStop : ℚ := min (cfg.maxStopBps * univ.invSqrtScale (toInternalTicker plan.ticker)) 100

/-- R6. -/
def stopRules : List (Option Rejection) :=
  [rejectIf (plan.stopPrice ≤ 0) .invalidStopSide "Stop price must be positive",
    rejectIf (stopDistBps plan ≤ 0) .stopTooTight "Stop distance is zero",
    rejectIf (¬ plan.onLossSide plan.stopPrice) .invalidStopSide "Stop price on wrong side of entry",
    rejectIf (stopDistBps plan < cfg.minStopBps) .stopTooTight
      ("Stop too tight: " ++ stdToString (stopDistBps plan) ++ " bps"),
    rejectIf (maxStop cfg univ plan < stopDistBps plan) .stopTooWide
      ("Stop too wide: " ++ stdToString (stopDistBps plan) ++ " bps (max=" ++
        stdToString (maxStop cfg univ plan) ++ ")")]

/-- R7. -/
def targetRules : List (Option Rejection) :=
  [rejectIf (plan.tp1Price ≤ 0) .poorRewardRisk "TP1 price must be positive",
    rejectIf (¬ plan.onProfitSide plan.tp1Price) .poorRewardRisk "TP1 price on wrong side of entry",
    rejectIf (|plan.tp1Price - plan.entryPrice| < cfg.minRrRatio * |plan.entryPrice - plan.stopPrice|)
      .poorRewardRisk "TP1 R:R too low",
    rejectIf (∃ tp2 ∈ plan.tp2Price, 0 < tp2 ∧ ¬ plan.onProfitSide tp2) .poorRewardRisk
      "TP2 price on wrong side of entry"]

/-- The rules before sizing. -/
def planRules : List (Option Rejection) :=
  sanityRules cfg plan state ++ [killSwitchRule state, dailyLossRule cfg state] ++
    positionRules cfg plan state ++ universeRules cfg univ now plan ++
    stopRules cfg univ plan ++ targetRules cfg plan

/-! ## Sizing -/

/-- R8: the size that risks the configured share of the equity. -/
def sizeCoin : ℚ :=
  state.equityUsd * cfg.maxPerTradeRiskPct / 100 / (plan.entryPrice * stopDistBps plan / kBpsBase)

/-- Round a size down to whole increments. -/
def floorToIncrement (size increment : ℚ) : ℚ :=
  (⌊size / increment + 1 / 1000000000⌋ : ℤ) * increment

/-- Are sizes rounded, and held against the minimal size? -/
def TickerMeta.sizesRounded (tm : TickerMeta) : Prop := 0 < tm.priceIncrement ∧ 0 < tm.sizeIncrement

instance (tm : TickerMeta) : Decidable tm.sizesRounded := inferInstanceAs (Decidable (_ ∧ _))

/-- A ticker without an increment leaves the size as it is. -/
def normalizedSize (tm : TickerMeta) : ℚ :=
  if tm.sizesRounded then floorToIncrement (sizeCoin cfg plan state) tm.sizeIncrement
  else sizeCoin cfg plan state

/-- The check on the normalized size. -/
def minSizeRule (tm : TickerMeta) : Option Rejection :=
  rejectIf (tm.sizesRounded ∧ normalizedSize cfg plan state tm < tm.minSize) .sizeBelowMinimum
    ("Size " ++ stdToString (normalizedSize cfg plan state tm) ++ " < min " ++ stdToString tm.minSize)

/-- The size after the cap on the position's value, which is not held against the minimal size. -/
def adjustedSize (tm : TickerMeta) : ℚ :=
  let maxValUsd := state.equityUsd * cfg.maxPositionValuePct / 100
  let size := normalizedSize cfg plan state tm
  if maxValUsd < size * plan.entryPrice then
    let capped := maxValUsd / plan.entryPrice
    if 0 < tm.sizeIncrement then floorToIncrement capped tm.sizeIncrement else capped
  else size

/-- What the stop would cost. -/
def riskOfSize (size : ℚ) : ℚ := size * plan.entryPrice * stopDistBps plan / kBpsBase

/-- R9. -/
def marginRule (size : ℚ) : Option Rejection :=
  rejectIf (state.freeBalanceUsd * cfg.marginSafetyRatio < size * plan.entryPrice / cfg.maxLeverage)
    .insufficientMargin "Insufficient margin"

end

namespace RiskManager

variable (rm : RiskManager) (now : TimePoint)

/-! ## The rules with books -/

/-- R10: drop the accepted trades that no longer count. -/
def pruneTrades : RiskManager :=
  { rm with
    tradeHistory := (rm.tradeHistory.drop (rm.tradeHistory.length - rm.cfg.maxTradeHistory)).dropWhile
      (fun t => rm.cfg.tradesWindowMin * nsPerMin < now - t) }

/-- R10. -/
def rateRule : Option Rejection :=
  rejectIf (toSizeT rm.cfg.maxTradesPerWindow ≤ rm.tradeHistory.length) .tradeRateLimitHit
    "Trade rate limit hit"

/-- R11. -/
def cooloffRule : Option Rejection :=
  rejectIf (rm.lastLossStreakTs ≠ 0 ∧ now - rm.lastLossStreakTs < rm.cfg.lossStreakCooloffMin * nsPerMin)
    .lossStreakCircuitBreaker "Loss streak cooloff active"

/-- R11, past its rule: an expired cooloff clears the history of losses. -/
def expireCooloff : RiskManager :=
  if rm.lastLossStreakTs ≠ 0 then { rm with lossHistory := [], lastLossStreakTs := 0 } else rm

/-- R12. -/
def newsRules (news : NewsCalendar) (plan : TradePlan) : List (Option Rejection) :=
  let staleMin := rm.cfg.newsCalendarCheckMin * 60
  [rejectIf (∃ mins ∈ news.minutesToNextNews now (toInternalTicker plan.ticker),
        |mins| ≤ rm.cfg.newsBlackoutMin)
      .newsBlackout "News blackout active",
    rejectIf (((∃ mins ∈ news.minutesSinceLatestEvent now, staleMin < mins) ∨
        ∃ mins ∈ news.minutesToNextNews now "", staleMin < mins) ∧
        rm.cfg.newsCalendarRequireFresh = true)
      .newsBlackout "News calendar is stale"]

/-- R13. -/
def fundingRules (plan : TradePlan) : List (Option Rejection) :=
  let ticker := toInternalTicker plan.ticker
  let secs (d : TimePoint) : ℤ := d.tdiv nsPerSec
  [rejectIf (∃ next ∈ rm.fundingTimes.lookup ticker,
        0 < secs (next - now) ∧ secs (next - now) ≤ rm.cfg.fundingBlackoutPreSec)
      .fundingBlackout "Funding blackout (pre-window)",
    rejectIf (∃ prev ∈ rm.prevFundingTimes.lookup ticker,
        0 ≤ secs (now - prev) ∧ secs (now - prev) ≤ rm.cfg.fundingBlackoutPostSec)
      .fundingBlackout "Funding blackout (post-window)"]

/-- How far the market has moved away from the entry. -/
def slippageBps (plan : TradePlan) (state : AccountState) : ℚ :=
  |state.markPrice - plan.entryPrice| / state.markPrice * kBpsBase

/-- R15. -/
def slippageRule (plan : TradePlan) (state : AccountState) : Option Rejection :=
  rejectIf (0 < state.markPrice ∧ rm.cfg.maxEntrySlippageBps < slippageBps plan state)
    .entrySlippageExceeded
    ("Entry slippage too high: " ++ stdToString (slippageBps plan state) ++ " bps")

/-- The rules R10 to R15. `later` is the clock's second reading, the time an acceptance is booked. -/
def evaluateBooks (news : NewsCalendar) (later : TimePoint) (plan : TradePlan) (state : AccountState)
    (size risk : ℚ) : RiskManager × RiskDecision :=
  let rm := rm.pruneTrades now
  match firstRejection [rm.rateRule, rm.cooloffRule now] with
  | some r => (rm, r.decision size risk)
  | none =>
      let rm := rm.expireCooloff
      match firstRejection (rm.newsRules now news plan ++ rm.fundingRules now plan ++
        [rm.slippageRule plan state]) with
      | some r => (rm, r.decision size risk)
      | none =>
          ({ rm with tradeHistory := rm.tradeHistory ++ [later] },
            { accepted := true, adjustedSizeCoin := size, riskUsd := risk })

/-- `evaluate`, with the universe and the calendar as they are at the time. -/
def evaluate (univ : TickerUniverse) (news : NewsCalendar) (later : TimePoint) (plan : TradePlan)
    (state : AccountState) : RiskManager × RiskDecision :=
  let tm := univ.metaOrFallback (toInternalTicker plan.ticker)
  let size := adjustedSize rm.cfg plan state tm
  let risk := riskOfSize plan size
  match firstRejection (planRules rm.cfg univ now plan state) with
  | some r => (rm, r.decision 0 0)
  | none =>
      match minSizeRule rm.cfg plan state tm with
      | some r => (rm, r.decision (normalizedSize rm.cfg plan state tm) 0)
      | none =>
          match marginRule rm.cfg plan state size with
          | some r => (rm, r.decision size risk)
          | none => rm.evaluateBooks now news later plan state size risk

/-! ## The books' other entries -/

/-- `update_funding_time`. -/
def updateFundingTime (ticker : Ticker) (ts : TimePoint) : RiskManager :=
  let key := toInternalTicker ticker
  { rm with
    fundingTimes := rm.fundingTimes.insert key ts
    prevFundingTimes :=
      match rm.fundingTimes.lookup key with
      | some next => rm.prevFundingTimes.insert key next
      | none => if ts < now then rm.prevFundingTimes.insert key ts else rm.prevFundingTimes }

/-- `record_trade_end`: a long enough run of losses at the end of the window starts a cooloff. -/
def recordTradeEnd (isLoss : Bool) (ts : TimePoint) : RiskManager :=
  let all := rm.lossHistory ++ [(ts, isLoss)]
  let history := (all.drop (all.length - rm.cfg.maxLossHistory)).dropWhile
    (fun p => rm.cfg.lossStreakWindowMin * nsPerMin < ts - p.1)
  let consecutiveLosses : ℤ := ((history.reverse.takeWhile Prod.snd).length : ℕ)
  { rm with
    lossHistory := history
    lastLossStreakTs :=
      if rm.cfg.maxConsecutiveLosses ≤ consecutiveLosses then ts else rm.lastLossStreakTs }

/-! ## The kill switch -/

section

variable (univ : TickerUniverse) (news : NewsCalendar) (later : TimePoint) (plan : TradePlan)
  {state : AccountState}

/-- A plan that a rule before sizing rejects leaves the books as they are. -/
theorem evaluate_eq_of_planRules {r : Rejection}
    (h : firstRejection (planRules rm.cfg univ now plan state) = some r) :
    rm.evaluate now univ news later plan state = (rm, r.decision 0 0) := by
  simp only [evaluate, h]

/-- With the flag set no plan gets past R1, and only malformed inputs are rejected before it. -/
theorem evaluate_of_killSwitch (h : state.killSwitchTriggered = true) :
    ∃ r : Rejection, rm.evaluate now univ news later plan state = (rm, r.decision 0 0) ∧
      (SaneInput rm.cfg plan state → r.reason = .killSwitchActive) := by
  have hrule : killSwitchRule state = some ⟨.killSwitchActive, "Kill-switch is active"⟩ := by
    simp only [killSwitchRule, rejectIf, h, if_true]
  cases hsane : firstRejection (sanityRules rm.cfg plan state) with
  | some r =>
      refine ⟨r, rm.evaluate_eq_of_planRules now univ news later plan ?_, fun hwf => ?_⟩
      · simp only [planRules, firstRejection_append, hsane, Option.some_or]
      · rw [hwf.sanityRules] at hsane
        cases hsane
  | none =>
      refine ⟨⟨.killSwitchActive, "Kill-switch is active"⟩,
        rm.evaluate_eq_of_planRules now univ news later plan ?_, fun _ => rfl⟩
      simp only [planRules, firstRejection_append, hsane, hrule, firstRejection_some,
        Option.none_or, Option.some_or]

end

end RiskManager

end TradeBot
