import Mathlib.Data.List.Induction
import TradeBot.Risk.Evaluation

set_option autoImplicit false

/-! # The blackouts of news and of funding

R12 asks the calendar for the next event only. It rejects before an event, but not after one: a plan
close to a past event is rejected only if an event to come is close too, or by another rule.

Both results name the condition under which the promise of a blackout is kept all the same: the event
or the funding time is covered by what the rule looks at, or another rule rejects the plan.
`InNewsBlackout` and `InFundingBlackout` are the promises, stated over the elements of the calendar
file and over all announcements, not over what the code has kept of them. -/

namespace TradeBot

namespace RiskManager

variable (rm : RiskManager) (now : TimePoint) (univ : TickerUniverse) (news : NewsCalendar)
  (later : TimePoint) (plan : TradePlan) (state : AccountState)

/-- All rules but the news blackout itself: the second news rule rejects stale calendars. -/
def rulesBesideNews : List (Option Rejection) :=
  rm.rulesToRate now univ plan state ++ [rm.cooloffRule now] ++
    (rm.newsRules now news plan).tail ++ rm.fundingRules now plan ++ [rm.slippageRule plan state]

/-- Some rule other than the news blackout rejects the plan. -/
def RejectedBesideNews : Prop := ∃ r ∈ rm.rulesBesideNews now univ news plan state, r ≠ none

/-- The element of the calendar file concerns the plan, and lies at most `news_blackout_min` minutes
    before or after `now`. -/
def InNewsBlackout (item : NewsCalendar.NewsItem) : Prop :=
  item.concerns plan.ticker ∧ |item.tsUtc - now| ≤ rm.cfg.newsBlackoutMin * nsPerMin

/-- The element concerns the plan and is still to come, in less than `news_blackout_min + 1`
    minutes. -/
def AheadOfNews (item : NewsCalendar.NewsItem) : Prop :=
  item.concerns plan.ticker ∧ now ≤ item.tsUtc ∧
    item.tsUtc - now < (rm.cfg.newsBlackoutMin + 1) * nsPerMin

/-- The news blackout itself. -/
def blackoutRule : Option Rejection :=
  rejectIf (∃ mins ∈ news.minutesToNextNews now (toInternalTicker plan.ticker),
    |mins| ≤ rm.cfg.newsBlackoutMin) .newsBlackout "News blackout active"

theorem mem_rules_iff_news (r : Option Rejection) :
    r ∈ rm.rules now univ news plan state ↔
      r = rm.blackoutRule now news plan ∨ r ∈ rm.rulesBesideNews now univ news plan state := by
  have hnews : rm.newsRules now news plan
      = rm.blackoutRule now news plan :: (rm.newsRules now news plan).tail := rfl
  rw [rules, rulesFromNews, rulesBesideNews, hnews]
  simp only [List.mem_append, List.mem_cons, List.tail_cons]
  tauto

variable {rm now univ news later plan state} {items : List NewsCalendar.NewsItem}

theorem blackoutRule_eq_none_iff (hparse : NewsCalendar.Parsed items news) :
    rm.blackoutRule now news plan = none ↔ ¬ ∃ item ∈ items, rm.AheadOfNews now plan item := by
  rw [blackoutRule, rejectIf_eq_none, hparse.minutesToNextNews_le_iff]
  simp only [NewsCalendar.NewsItem.concerns, AheadOfNews, toInternalTicker_idem]

/-- A plan is accepted if no event is close ahead and every other rule lets it pass. -/
theorem accepted_iff_news (hparse : NewsCalendar.Parsed items news) :
    (rm.evaluate now univ news later plan state).2.accepted = true ↔
      (¬ ∃ item ∈ items, rm.AheadOfNews now plan item) ∧
        ¬ rm.RejectedBesideNews now univ news plan state := by
  rw [evaluate_accepted_iff, firstRejection_eq_none, ← blackoutRule_eq_none_iff hparse,
    RejectedBesideNews]
  simp only [mem_rules_iff_news, forall_eq_or_imp, ne_eq, not_exists, not_and, not_not]

/-- For every calendar, configuration, plan and time: that no plan is accepted in a blackout is right
    exactly if no event is that close, or one is close ahead, or another rule rejects the plan. -/
theorem newsBlackout_iff (rm : RiskManager) (items : List NewsCalendar.NewsItem)
    (news : NewsCalendar) (hparse : NewsCalendar.Parsed items news) (now : TimePoint)
    (univ : TickerUniverse) (later : TimePoint) (plan : TradePlan) (state : AccountState) :
    ((∃ item ∈ items, rm.InNewsBlackout now plan item) →
        (rm.evaluate now univ news later plan state).2.accepted = false) ↔
      (¬ ∃ item ∈ items, rm.InNewsBlackout now plan item) ∨
        (∃ item ∈ items, rm.AheadOfNews now plan item) ∨
          rm.RejectedBesideNews now univ news plan state := by
  rw [← Bool.not_eq_true, accepted_iff_news hparse]
  by_cases hnear : ∃ item ∈ items, rm.InNewsBlackout now plan item
  · simp only [hnear, forall_const, not_and_or, not_not, not_true_eq_false, false_or]
  · simp only [hnear, false_implies, not_false_eq_true, true_or]

/-- An event five minutes ahead blocks the plan. -/
theorem newsBlackout_iff_ahead :
    (({} : RiskManager).evaluate 0 (boostedUniverse 0) [{ tsUtc := 5 * nsPerMin }] 0 scalpPlan
      scalpAccount).2.accepted = false := by
  have hparse : NewsCalendar.Parsed [{ tsUtc := 5 * nsPerMin }] [{ tsUtc := 5 * nsPerMin }] :=
    ⟨.refl _, List.pairwise_singleton _ _⟩
  refine (newsBlackout_iff {} [{ tsUtc := 5 * nsPerMin }] _ hparse 0 (boostedUniverse 0) 0 scalpPlan
    scalpAccount).2 (Or.inr (Or.inl ?_)) ?_
  · exact ⟨_, List.mem_singleton_self _, by simp [NewsCalendar.NewsItem.concerns], by decide,
      by decide⟩
  · exact ⟨_, List.mem_singleton_self _, by simp [NewsCalendar.NewsItem.concerns], by decide⟩

/-- A minute after an event that concerns every ticker the plan is accepted. -/
theorem accepted_after_news :
    ¬ ∀ (rm : RiskManager) (items : List NewsCalendar.NewsItem) (news : NewsCalendar),
        NewsCalendar.Parsed items news →
        ∀ (now : TimePoint) (univ : TickerUniverse) (later : TimePoint) (plan : TradePlan)
          (state : AccountState), (∃ item ∈ items, rm.InNewsBlackout now plan item) →
          (rm.evaluate now univ news later plan state).2.accepted = false := by
  intro hall
  have hno := hall {} [{ tsUtc := 0 }] [{ tsUtc := 0 }] ⟨.refl _, List.pairwise_singleton _ _⟩
    nsPerMin (boostedUniverse 0) nsPerMin scalpPlan scalpAccount
    ⟨_, List.mem_singleton_self _, by simp [NewsCalendar.NewsItem.concerns], by decide⟩
  revert hno
  decide +kernel

end RiskManager

/-! ## The funding blackout

R13 looks before the latest announced funding time of a ticker, and after the time of the announcement
before it. So the blackout has gaps: nothing looks after the latest time until it is announced anew or
replaced, nothing looks before a replaced time, a repeated announcement makes the code forget the time
that was replaced, and the last second before a funding time counts for neither side. -/

/-- The clock's reading and the funding time of an announcement for the ticker of internal spelling
    `key`. -/
def RiskOp.announcement? (key : Ticker) : RiskOp → Option (TimePoint × TimePoint)
  | .updateFundingTime now ticker ts => if toInternalTicker ticker = key then some (now, ts) else none
  | _ => none

/-- The announcements for a ticker, newest first. -/
def announcements (key : Ticker) (ops : List RiskOp) : List (TimePoint × TimePoint) :=
  (ops.filterMap (RiskOp.announcement? key)).reverse

theorem announcements_concat (key : Ticker) (ops : List RiskOp) (op : RiskOp) :
    announcements key (ops ++ [op]) = (op.announcement? key).toList ++ announcements key ops := by
  rw [announcements, List.filterMap_append, List.reverse_append]
  cases h : op.announcement? key <;> simp [h, announcements]

/-- The latest announced funding time. -/
def latestFunding (as : List (TimePoint × TimePoint)) : Option TimePoint := as.head?.map Prod.snd

/-- The funding time that the latest one replaced: the last announced time that differs from it. -/
def replacedFunding (as : List (TimePoint × TimePoint)) : Option TimePoint :=
  ((as.map Prod.snd).dropWhile (fun ts => decide (some ts = latestFunding as))).head?

/-- The funding time of the announcement before the latest, the same time or not; of the first
    announcement, if it was past already. -/
def previousFunding : List (TimePoint × TimePoint) → Option TimePoint
  | [] => none
  | [(now, ts)] => if ts < now then some ts else none
  | _ :: (_, ts) :: _ => some ts

namespace RiskManager

/-! ### What the books say -/

/-- The entries of the books for one ticker. -/
def FundingBooked (rm : RiskManager) (key : Ticker) (as : List (TimePoint × TimePoint)) : Prop :=
  rm.fundingTimes.lookup key = latestFunding as ∧ rm.prevFundingTimes.lookup key = previousFunding as

theorem evaluate_funding (rm : RiskManager) (now : TimePoint) (univ : TickerUniverse)
    (news : NewsCalendar) (later : TimePoint) (plan : TradePlan) (state : AccountState) :
    (rm.evaluate now univ news later plan state).1.fundingTimes = rm.fundingTimes ∧
      (rm.evaluate now univ news later plan state).1.prevFundingTimes = rm.prevFundingTimes := by
  have hcases := rm.evaluate_cases now univ news later plan state
  generalize rm.evaluate now univ news later plan state = out at hcases
  have hexpire : (rm.pruneTrades now).expireCooloff.fundingTimes = rm.fundingTimes ∧
      (rm.pruneTrades now).expireCooloff.prevFundingTimes = rm.prevFundingTimes := by
    unfold expireCooloff
    split <;> exact ⟨rfl, rfl⟩
  cases hcases with
  | unbooked | limited => exact ⟨rfl, rfl⟩
  | late | accepted => exact hexpire

variable {rm : RiskManager} {key : Ticker} {as : List (TimePoint × TimePoint)}

/-- An announcement for the ticker. -/
theorem FundingBooked.update (h : rm.FundingBooked key as) (now : TimePoint) {ticker : Ticker}
    (hkey : toInternalTicker ticker = key) (ts : TimePoint) :
    (rm.updateFundingTime now ticker ts).FundingBooked key ((now, ts) :: as) := by
  obtain ⟨hnext, hprev⟩ := h
  subst hkey
  refine ⟨AList.lookup_insert _, ?_⟩
  unfold updateFundingTime
  dsimp only
  rw [hnext]
  cases as with
  | nil =>
      -- the first announcement replaces nothing, but a time already past is booked as both
      by_cases hpast : ts < now
      · simp only [latestFunding, List.head?_nil, Option.map_none, previousFunding, hpast, if_true]
        exact AList.lookup_insert _
      · simp only [latestFunding, List.head?_nil, Option.map_none, previousFunding, hpast, if_false]
        exact hprev
  | cons a as => exact AList.lookup_insert _

/-- An announcement for another ticker. -/
theorem FundingBooked.update_ne (h : rm.FundingBooked key as) (now : TimePoint) {ticker : Ticker}
    (hkey : toInternalTicker ticker ≠ key) (ts : TimePoint) :
    (rm.updateFundingTime now ticker ts).FundingBooked key as := by
  obtain ⟨hnext, hprev⟩ := h
  have hne : key ≠ toInternalTicker ticker := fun heq => hkey heq.symm
  refine ⟨(AList.lookup_insert_ne hne).trans hnext, ?_⟩
  unfold updateFundingTime
  dsimp only
  split
  · exact (AList.lookup_insert_ne hne).trans hprev
  · split
    · exact (AList.lookup_insert_ne hne).trans hprev
    · exact hprev

theorem FundingBooked.step (h : rm.FundingBooked key as) (op : RiskOp) :
    (rm.step op).FundingBooked key ((op.announcement? key).toList ++ as) := by
  cases op with
  | recordTradeEnd isLoss ts => exact h
  | evaluate now univ news later plan state =>
      obtain ⟨hnext, hprev⟩ := rm.evaluate_funding now univ news later plan state
      show (rm.evaluate now univ news later plan state).1.FundingBooked key as
      rw [FundingBooked, hnext, hprev]
      exact h
  | updateFundingTime now ticker ts =>
      by_cases hkey : toInternalTicker ticker = key
      · simp only [RiskOp.announcement?, hkey, if_true, Option.toList_some, List.singleton_append]
        exact h.update now hkey ts
      · simp only [RiskOp.announcement?, hkey, if_false, Option.toList_none, List.nil_append]
        exact h.update_ne now hkey ts

theorem run_fundingBooked (cfg : RiskConfig) (key : Ticker) (ops : List RiskOp) :
    (({ cfg := cfg } : RiskManager).run ops).FundingBooked key (announcements key ops) := by
  induction ops using List.reverseRecOn with
  | nil => exact ⟨AList.lookup_empty key, AList.lookup_empty key⟩
  | append_singleton ops op ih =>
      rw [announcements_concat, run, List.foldl_append]
      exact ih.step op

/-! ### What R13 covers -/

/-- Whole seconds, counted up to a time ahead. -/
theorem tdiv_pos_le_iff {d p : ℤ} :
    0 < d.tdiv nsPerSec ∧ d.tdiv nsPerSec ≤ p ↔ nsPerSec ≤ d ∧ d < (p + 1) * nsPerSec := by
  unfold nsPerSec
  -- `tdiv` truncates towards zero: the two signs are mirror images
  rcases le_total 0 d with hd | hd
  · rw [Int.tdiv_eq_ediv_of_nonneg hd]
    omega
  · obtain ⟨e, rfl⟩ : ∃ e, d = -e := ⟨-d, by omega⟩
    rw [Int.neg_tdiv, Int.tdiv_eq_ediv_of_nonneg (by omega)]
    omega

/-- Whole seconds, counted from a time that is past, or less than a second ahead. -/
theorem tdiv_nonneg_le_iff {d p : ℤ} :
    0 ≤ d.tdiv nsPerSec ∧ d.tdiv nsPerSec ≤ p ↔
      0 ≤ p ∧ -nsPerSec < d ∧ d < (p + 1) * nsPerSec := by
  unfold nsPerSec
  rcases le_total 0 d with hd | hd
  · rw [Int.tdiv_eq_ediv_of_nonneg hd]
    omega
  · obtain ⟨e, rfl⟩ : ∃ e, d = -e := ⟨-d, by omega⟩
    rw [Int.neg_tdiv, Int.tdiv_eq_ediv_of_nonneg (by omega)]
    omega

end RiskManager

/-- The times at which R13 rejects: from `pre_sec` (and a fraction of a second) to one second before
    the latest funding time, and from less than a second before to `post_sec` (and a fraction) after
    that of the announcement before. -/
def FundingCovered (cfg : RiskConfig) (as : List (TimePoint × TimePoint)) (now : TimePoint) : Prop :=
  (∃ next ∈ latestFunding as,
      nsPerSec ≤ next - now ∧ next - now < (cfg.fundingBlackoutPreSec + 1) * nsPerSec) ∨
    ∃ prev ∈ previousFunding as, 0 ≤ cfg.fundingBlackoutPostSec ∧
      -nsPerSec < now - prev ∧ now - prev < (cfg.fundingBlackoutPostSec + 1) * nsPerSec

/-- `now` is in the blackout around the latest funding time or around the one it replaced. -/
def InFundingBlackout (cfg : RiskConfig) (as : List (TimePoint × TimePoint)) (now : TimePoint) :
    Prop :=
  ∃ funding, (funding ∈ latestFunding as ∨ funding ∈ replacedFunding as) ∧
    funding - cfg.fundingBlackoutPreSec * nsPerSec ≤ now ∧
      now ≤ funding + cfg.fundingBlackoutPostSec * nsPerSec

namespace RiskManager

/-- All rules but R13. -/
def rulesBesideFunding (rm : RiskManager) (now : TimePoint) (univ : TickerUniverse)
    (news : NewsCalendar) (plan : TradePlan) (state : AccountState) : List (Option Rejection) :=
  rm.rulesToRate now univ plan state ++ [rm.cooloffRule now] ++ rm.newsRules now news plan ++
    [rm.slippageRule plan state]

/-- Some rule other than R13 rejects the plan. -/
def RejectedBesideFunding (rm : RiskManager) (now : TimePoint) (univ : TickerUniverse)
    (news : NewsCalendar) (plan : TradePlan) (state : AccountState) : Prop :=
  ∃ r ∈ rm.rulesBesideFunding now univ news plan state, r ≠ none

variable {rm : RiskManager} {as : List (TimePoint × TimePoint)} {now : TimePoint}
  {univ : TickerUniverse} {news : NewsCalendar} {later : TimePoint} {plan : TradePlan}
  {state : AccountState}

theorem FundingBooked.fundingRules_iff (h : rm.FundingBooked (toInternalTicker plan.ticker) as) :
    (∀ r ∈ rm.fundingRules now plan, r = none) ↔ ¬ FundingCovered rm.cfg as now := by
  obtain ⟨hnext, hprev⟩ := h
  simp only [fundingRules, List.forall_mem_cons, rejectIf_eq_none, List.not_mem_nil, false_implies,
    implies_true, and_true, hnext, hprev, tdiv_pos_le_iff, tdiv_nonneg_le_iff, FundingCovered,
    not_or]

theorem FundingBooked.accepted_iff (h : rm.FundingBooked (toInternalTicker plan.ticker) as) :
    (rm.evaluate now univ news later plan state).2.accepted = true ↔
      ¬ FundingCovered rm.cfg as now ∧
        ¬ rm.RejectedBesideFunding now univ news plan state := by
  have hmem : ∀ r, r ∈ rm.rules now univ news plan state ↔
      r ∈ rm.fundingRules now plan ∨ r ∈ rm.rulesBesideFunding now univ news plan state := by
    intro r
    simp only [rules, rulesFromNews, rulesBesideFunding, List.mem_append]
    tauto
  rw [evaluate_accepted_iff, firstRejection_eq_none, ← h.fundingRules_iff, RejectedBesideFunding]
  simp only [hmem, or_imp, forall_and, ne_eq, not_exists, not_and, not_not]

/-- After any calls: that no plan is accepted in a funding blackout is right exactly if `now` is in no
    blackout, or R13 covers it, or another rule rejects the plan. -/
theorem fundingBlackout_iff (cfg : RiskConfig) (ops : List RiskOp) (now : TimePoint)
    (univ : TickerUniverse) (news : NewsCalendar) (later : TimePoint) (plan : TradePlan)
    (state : AccountState) :
    (InFundingBlackout cfg (announcements (toInternalTicker plan.ticker) ops) now →
        ((({ cfg := cfg } : RiskManager).run ops).evaluate
          now univ news later plan state).2.accepted = false) ↔
      ¬ InFundingBlackout cfg (announcements (toInternalTicker plan.ticker) ops) now ∨
        FundingCovered cfg (announcements (toInternalTicker plan.ticker) ops) now ∨
          (({ cfg := cfg } : RiskManager).run ops).RejectedBesideFunding now univ news plan state := by
  have hbooked := run_fundingBooked cfg (toInternalTicker plan.ticker) ops
  rw [← Bool.not_eq_true, hbooked.accepted_iff, run_cfg]
  generalize announcements (toInternalTicker plan.ticker) ops = as
  by_cases hin : InFundingBlackout cfg as now
  · simp only [hin, forall_const, not_and_or, not_not, not_true_eq_false, false_or]
  · simp only [hin, false_implies, not_false_eq_true, true_or]

/-- Ten seconds after a funding time that was announced before it came, the plan is accepted. -/
theorem accepted_after_funding :
    ¬ ∀ (cfg : RiskConfig) (ops : List RiskOp) (now : TimePoint) (univ : TickerUniverse)
        (news : NewsCalendar) (later : TimePoint) (plan : TradePlan) (state : AccountState),
        InFundingBlackout cfg (announcements (toInternalTicker plan.ticker) ops) now →
          ((({ cfg := cfg } : RiskManager).run ops).evaluate
            now univ news later plan state).2.accepted = false := by
  intro hall
  have hin : InFundingBlackout {} (announcements (toInternalTicker scalpPlan.ticker)
      [.updateFundingTime 0 "BTCUSDT" (60 * nsPerSec)]) (70 * nsPerSec) :=
    ⟨60 * nsPerSec, Or.inl (by decide +kernel), by decide, by decide⟩
  have hno := hall {} _ _ (boostedUniverse 0) [] 0 scalpPlan scalpAccount hin
  revert hno
  decide +kernel

end RiskManager

end TradeBot
