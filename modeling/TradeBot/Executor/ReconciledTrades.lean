import TradeBot.Executor.UnknownSubmits

set_option autoImplicit false

/-! # The trade that a reconciliation result concerns

`handle_reconciled_` looks for the result's trade among those of all tickers, by side and size only. It
touches no trade of another ticker exactly if the first one it finds is on the intent's.

The search goes through the buckets in the order of the tickers, so the trade that is found may be
another one than the result is about. Two changes of different trades are never the same change
(`eq_of_replaced`), which makes the condition necessary: a result that picks a trade of another
ticker does change that ticker. -/

namespace TradeBot

open LiveExecutor

/-- A trade that a result for the intent is about: of unknown outcome, and for the intent's ticker, side
    and size. -/
structure OrderIntent.Concerns (intent : OrderIntent) (t : ActiveTrade) : Prop where
  unknown : t.state = .submitUnknown
  ticker : toInternalTicker t.plan.ticker = toInternalTicker intent.ticker
  side : t.plan.side = intent.side
  size : |intent.size - t.plan.sizeCoin| ≤ max intent.size t.plan.sizeCoin * (1 / 10000)

/-- The executor's members and all its trades are as before. -/
def Untouched (ex ex' : LiveExecutor) : Prop :=
  ex'.toMembers = ex.toMembers ∧ ex'.allTrades = ex.allTrades

/-- At most one trade changes, one with the property `p`; if there is none, nothing changes. -/
structure TouchesOnly (p : ActiveTrade → Prop) (ex ex' : LiveExecutor) : Prop where
  one : Untouched ex ex' ∨ ∃ pre t t' post,
    p t ∧ ex.allTrades = pre ++ t :: post ∧ ex'.allTrades = pre ++ t' :: post
  none : (∀ t ∈ ex.allTrades, ¬ p t) → Untouched ex ex'

theorem TouchesOnly.of_untouched {p : ActiveTrade → Prop} {ex ex' : LiveExecutor}
    (h : Untouched ex ex') : TouchesOnly p ex ex' :=
  ⟨Or.inl h, fun _ => h⟩

theorem TouchesOnly.of_replaced {p : ActiveTrade → Prop} {ex ex' : LiveExecutor}
    {pre post : List ActiveTrade} {t t' : ActiveTrade} (hp : p t)
    (hold : ex.allTrades = pre ++ t :: post) (hnew : ex'.allTrades = pre ++ t' :: post) :
    TouchesOnly p ex ex' :=
  ⟨Or.inr ⟨pre, t, t', post, hp, hold, hnew⟩, fun hno => absurd hp (hno t (by simp [hold]))⟩

/-- Replacing a trade by another and replacing one elsewhere in the list are different changes. -/
theorem eq_of_replaced {α : Type} {pre pre' post post' : List α} {a a' b b' : α}
    (hold : pre ++ a :: post = pre' ++ b :: post') (hnew : pre ++ a' :: post = pre' ++ b' :: post')
    (hne : a ≠ a') : a = b := by
  rcases List.append_eq_append_iff.1 hold with ⟨mid, rfl, hmid⟩ | ⟨mid, rfl, hmid⟩
  · cases mid with
    | nil => exact (List.cons.inj hmid).1
    | cons x mid =>
        rw [List.append_assoc, List.append_cancel_left_eq] at hnew
        exact absurd ((List.cons.inj hmid).1.trans (List.cons.inj hnew).1.symm) hne
  · cases mid with
    | nil => exact (List.cons.inj hmid).1.symm
    | cons x mid =>
        rw [List.append_assoc, List.append_cancel_left_eq] at hnew
        have hold' : post' = mid ++ a :: post := (List.cons.inj hmid).2
        have hnew' : mid ++ a' :: post = post' := (List.cons.inj hnew).2
        rw [hold', List.append_cancel_left_eq] at hnew'
        exact absurd (List.cons.inj hnew').1.symm hne

theorem TouchesOnly.of_changed {p : ActiveTrade → Prop} {ex ex' : LiveExecutor}
    {pre post : List ActiveTrade} {t t' : ActiveTrade} (h : TouchesOnly p ex ex')
    (hold : ex.allTrades = pre ++ t :: post) (hnew : ex'.allTrades = pre ++ t' :: post)
    (hne : t ≠ t') : p t := by
  rcases h.one with ⟨-, hsame⟩ | ⟨pre', s, s', post', hp, hold', hnew'⟩
  · rw [hold, hnew, List.append_cancel_left_eq] at hsame
    exact absurd (List.cons.inj hsame).1.symm hne
  · exact eq_of_replaced (hold.symm.trans hold') (hnew.symm.trans hnew') hne ▸ hp

theorem selectUnknown_eq_some {intent : OrderIntent} {t : ActiveTrade} :
    selectUnknown intent t = some () ↔
      t.state = .submitUnknown ∧ intent.side = t.plan.side ∧
        |intent.size - t.plan.sizeCoin| ≤ max intent.size t.plan.sizeCoin * (1 / 10000) := by
  simp [selectUnknown]

/-- Is the trade one that the comparison of `handle_reconciled_` picks? -/
def OrderIntent.picks (intent : OrderIntent) (t : ActiveTrade) : Bool :=
  (selectUnknown intent t).isSome

theorem concerns_iff {intent : OrderIntent} {t : ActiveTrade}
    (hsel : selectUnknown intent t = some ()) :
    intent.Concerns t ↔ toInternalTicker t.plan.ticker = toInternalTicker intent.ticker := by
  obtain ⟨hstate, hside, hsize⟩ := selectUnknown_eq_some.1 hsel
  exact ⟨fun h => h.ticker, fun h => ⟨hstate, h, hside.symm, hsize⟩⟩

/-- A result touches only its own ticker exactly if it is `Pending`, or the first trade that its intent
    picks, among those of all tickers, is on the intent's ticker. -/
theorem handleReconciled_touchesOnly_iff (ex : LiveExecutor) (res : ReconcileResult)
    (intent : OrderIntent) (hintent : res.intent = some intent) :
    TouchesOnly intent.Concerns ex (ex.handleReconciled res) ↔
      res.outcome = .pending ∨ ∀ t ∈ ex.allTrades.find? intent.picks,
        toInternalTicker t.plan.ticker = toInternalTicker intent.ticker := by
  by_cases hout : res.outcome = .pending
  · rw [handleReconciled, if_pos hout]
    exact ⟨fun _ => Or.inl hout, fun _ => .of_untouched ⟨rfl, rfl⟩⟩
  rw [or_iff_right hout]
  obtain ⟨hnone, hmembers, htrades⟩ | ⟨pre, t, post, hold, hpre, hsel, -, hnew⟩ :=
    handleReconciled_spec ex hout hintent
  · have hfind : ex.allTrades.find? intent.picks = none :=
      List.find?_eq_none.2 (fun t ht => by simp [OrderIntent.picks, hnone t ht])
    rw [hfind]
    exact ⟨fun _ t ht => by simp at ht, fun _ => .of_untouched ⟨hmembers, htrades⟩⟩
  · have hfind : ex.allTrades.find? intent.picks = some t := by
      rw [hold, List.find?_append, List.find?_eq_none.2 (fun x hx => by
        simp [OrderIntent.picks, hpre x hx]), Option.none_or, List.find?_cons_of_pos]
      simp [OrderIntent.picks, hsel]
    have hchanged : t ≠ (applyReconciled res ex.toMembers t ()).2 := by
      intro heq
      have hst : t.state = .submitUnknown := submitUnknown_of_selectUnknown hsel
      rcases applyReconciled_state hout ex.toMembers t with h | h
      · exact absurd (hst.symm.trans ((congrArg ActiveTrade.state heq).trans h)) (by simp)
      · exact absurd (hst.symm.trans ((congrArg ActiveTrade.state heq).trans h)) (by simp)
    have hfirst : (∀ t' ∈ ex.allTrades.find? intent.picks,
        toInternalTicker t'.plan.ticker = toInternalTicker intent.ticker) ↔ intent.Concerns t := by
      rw [hfind, concerns_iff hsel]
      exact ⟨fun h => h t rfl, fun h t' ht' => Option.some.inj ht' ▸ h⟩
    rw [hfirst]
    exact ⟨fun h => h.of_changed hold hnew hchanged, fun h => .of_replaced h hold hnew⟩

/-- Submissions fail ambiguously on ETH_USDT and then on BTC_USDT, for the same side and size. -/
def twoFailures : LiveExecutor :=
  (init {}).run [.submit (.refusing (fun _ => true)) 0 0 { samplePlan with ticker := "ETH_USDT" },
    .submit (.refusing (fun _ => true)) 0 0 samplePlan]

/-- The trades of `twoFailures`. -/
def unknownTrade (ticker : Ticker) (seq : ℕ) : ActiveTrade :=
  { plan := { samplePlan with ticker := ticker }, entryClientOrderId := generateClientOrderId 0 seq,
    uid := seq, state := .submitUnknown }

/-- The intent of a failed submission on the ticker. -/
def failedIntent (ticker : Ticker) : OrderIntent :=
  { localOrderId := 0, ticker := ticker, side := .buy, type := .limit, price := 100, size := 1 }

/-- Its order was found under the number 7. -/
def foundOn (ticker : Ticker) : ReconcileResult :=
  { outcome := .resolved, localOrderId := 0, serverOrderId := some 7,
    intent := some (failedIntent ticker) }

/-- A result for the ticker whose trade comes first. -/
theorem handleReconciled_touchesOnly_btc :
    TouchesOnly (failedIntent "BTC_USDT").Concerns twoFailures
      (twoFailures.handleReconciled (foundOn "BTC_USDT")) :=
  (handleReconciled_touchesOnly_iff twoFailures (foundOn "BTC_USDT") _ rfl).2
    (Or.inr (by decide +kernel))

/-- The order found on ETH_USDT becomes the entry of the BTC_USDT trade. -/
theorem handleReconciled_crosses_tickers :
    ¬ ∀ (ex : LiveExecutor) (res : ReconcileResult) (intent : OrderIntent), ex.Reachable →
        res.intent = some intent → TouchesOnly intent.Concerns ex (ex.handleReconciled res) := by
  intro hall
  have hold : twoFailures.allTrades = [] ++ unknownTrade "BTC_USDT" 1 :: [unknownTrade "ETH_USDT" 0] := by
    decide +kernel
  have hnew : (twoFailures.handleReconciled (foundOn "ETH_USDT")).allTrades
      = [] ++ { unknownTrade "BTC_USDT" 1 with entryOrderId := 7, state := .pendingEntry } ::
        [unknownTrade "ETH_USDT" 0] := by
    decide +kernel
  have htouches := hall twoFailures (foundOn "ETH_USDT") _ ⟨{}, _, rfl⟩ rfl
  have hconcerns := htouches.of_changed hold hnew (by decide +kernel)
  exact absurd hconcerns.ticker (by decide +kernel)

end TradeBot
