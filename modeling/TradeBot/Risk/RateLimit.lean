import TradeBot.Lib.SlidingWindow
import TradeBot.Risk.Evaluation

set_option autoImplicit false

/-! # The trade rate limit

R10 keeps the times of the accepted plans in a deque, which it prunes by age and by length, and
rejects while the deque is full. The deque is the log of a sliding window (`SlidingWindow.Bounded`):
as long as the limit does not exceed the deque's capacity, every window of the configured length
contains at most `max_trades_per_window` accepted plans.

The claim is about windows of time wherever they lie, and not only about those that end at a call. So
the deque is compared with the list of all bookings, and what it has forgotten is too old for any
window that reaches a later call. -/

namespace TradeBot

open SlidingWindow

/-- The readings of the clock in a call of `evaluate`, in order. -/
def RiskOp.readings : RiskOp → List TimePoint
  | .evaluate now _ _ later _ _ => [now, later]
  | _ => []

/-- `trades_window_min` as a duration. -/
def RiskConfig.tradesWindow (cfg : RiskConfig) : TimePoint := cfg.tradesWindowMin * nsPerMin

namespace RiskManager

/-- The time under which the call books an accepted plan. -/
def booked (rm : RiskManager) : RiskOp → List TimePoint
  | .evaluate now univ news later plan state =>
      if (rm.evaluate now univ news later plan state).2.accepted then [later] else []
  | _ => []

/-- The times under which the calls book accepted plans, oldest first. -/
def bookings : RiskManager → List RiskOp → List TimePoint
  | _, [] => []
  | rm, op :: ops => rm.booked op ++ (rm.step op).bookings ops

/-! ## The deque as a log -/

/-- The limit fits the deque. -/
structure RateConfig (cfg : RiskConfig) : Prop where
  nonneg : 0 ≤ cfg.maxTradesPerWindow
  fits : cfg.maxTradesPerWindow ≤ cfg.maxTradeHistory

/-- The deque is an honest log of the accepted plans. -/
def Limited (rm : RiskManager) (booked future : List TimePoint) : Prop :=
  Bounded rm.cfg.tradesWindow rm.cfg.maxTradesPerWindow.toNat rm.tradeHistory booked future

theorem toSizeT_le {n : ℤ} (h : 0 ≤ n) : toSizeT n ≤ n.toNat := by
  have hmod : n % 2 ^ 64 ≤ n := by omega
  exact Int.toNat_le_toNat hmod

variable {rm : RiskManager} {booked future : List TimePoint}

/-- Short enough a deque is not cut to its capacity: R10 only forgets what is old. -/
theorem Limited.tradeHistory_pruneTrades (hcfg : RateConfig rm.cfg)
    (h : rm.Limited booked future) (now : TimePoint) :
    (rm.pruneTrades now).tradeHistory = prune rm.cfg.tradesWindow now rm.tradeHistory := by
  have hlen : rm.tradeHistory.length - rm.cfg.maxTradeHistory = 0 := by
    have hle := h.length_le
    have hfits := hcfg.fits
    have hnonneg := hcfg.nonneg
    omega
  simp only [pruneTrades, hlen, List.drop_zero]
  rfl

theorem Limited.pruneTrades (hcfg : RateConfig rm.cfg) (h : rm.Limited booked future)
    {now : TimePoint} (hnow : ∀ r ∈ future, now ≤ r) :
    (rm.pruneTrades now).Limited booked future := by
  show Bounded rm.cfg.tradesWindow rm.cfg.maxTradesPerWindow.toNat
    (rm.pruneTrades now).tradeHistory booked future
  rw [h.tradeHistory_pruneTrades hcfg now]
  exact h.prune hnow

theorem Limited.of_eq {rm' : RiskManager} (h : rm.Limited booked future) (hcfg : rm'.cfg = rm.cfg)
    (hhistory : rm'.tradeHistory = rm.tradeHistory) : rm'.Limited booked future := by
  rw [Limited, hcfg, hhistory]
  exact h

/-- R10 lets a plan pass only while the deque is short. -/
theorem length_lt_of_rateRule (hcfg : RateConfig rm.cfg) (h : rm.rateRule = none) :
    rm.tradeHistory.length < rm.cfg.maxTradesPerWindow.toNat := by
  have hshort : rm.tradeHistory.length < toSizeT rm.cfg.maxTradesPerWindow :=
    not_le.1 (rejectIf_eq_none.1 h)
  exact hshort.trans_le (toSizeT_le hcfg.nonneg)

/-- One call keeps the deque honest. -/
theorem Limited.step (hcfg : RateConfig rm.cfg) {op : RiskOp}
    (h : rm.Limited booked (op.readings ++ future))
    (hsorted : (op.readings ++ future).Pairwise (· ≤ ·)) :
    (rm.step op).Limited (booked ++ rm.booked op) future := by
  cases op with
  | recordTradeEnd isLoss ts => exact (List.append_nil booked).symm ▸ h
  | updateFundingTime now ticker ts => exact (List.append_nil booked).symm ▸ h
  | evaluate now univ news later plan state =>
      obtain ⟨hnow, hlater⟩ : (∀ r ∈ later :: future, now ≤ r) ∧ ∀ r ∈ future, later ≤ r := by
        obtain ⟨hnow, hrest⟩ := List.pairwise_cons.1 hsorted
        exact ⟨hnow, (List.pairwise_cons.1 hrest).1⟩
      have hlog : rm.Limited booked (later :: future) :=
        Bounded.of_subset h (fun r hr => List.mem_cons_of_mem _ hr)
      have hpruned : (rm.pruneTrades now).Limited booked (later :: future) :=
        hlog.pruneTrades hcfg hnow
      -- a call that books nothing uses up its second reading
      have drop : ∀ {rm' : RiskManager}, rm'.Limited booked (later :: future) →
          rm'.Limited booked future :=
        fun h => Bounded.of_subset h (fun r hr => List.mem_cons_of_mem _ hr)
      have hcases := rm.evaluate_cases now univ news later plan state
      show (rm.evaluate now univ news later plan state).1.Limited
        (booked ++ if (rm.evaluate now univ news later plan state).2.accepted then [later] else [])
        future
      generalize rm.evaluate now univ news later plan state = out at hcases
      cases hcases with
      | unbooked => simpa using drop hlog
      | limited => simpa using drop hpruned
      | late =>
          have hlate := hpruned.of_eq (expireCooloff_cfg _) (expireCooloff_tradeHistory _)
          simpa using drop hlate
      | accepted size risk hrules =>
          have hrate : (rm.pruneTrades now).rateRule = none :=
            firstRejection_eq_none.1 hrules _ (by simp [rulesToRate])
          have hadmit := Bounded.admit hpruned hlater (length_lt_of_rateRule hcfg hrate)
          show Bounded ((rm.pruneTrades now).expireCooloff.cfg).tradesWindow _ _ _ _
          rw [expireCooloff_cfg]
          exact hadmit

theorem Limited.run (hcfg : RateConfig rm.cfg) {ops : List RiskOp}
    (h : rm.Limited booked (ops.flatMap RiskOp.readings))
    (hsorted : (ops.flatMap RiskOp.readings).Pairwise (· ≤ ·)) :
    (rm.run ops).Limited (booked ++ rm.bookings ops) [] := by
  induction ops generalizing rm booked with
  | nil => exact (List.append_nil booked).symm ▸ h
  | cons op ops ih =>
      rw [List.flatMap_cons] at h hsorted
      have hstep := h.step hcfg hsorted
      have hcfg' : RateConfig (rm.step op).cfg := rm.step_cfg op ▸ hcfg
      have hrest := ih hcfg' hstep (List.pairwise_append.1 hsorted).2.1
      rw [List.append_assoc] at hrest
      exact hrest

/-- Whatever the calls, as long as the clock does not run backwards: no window of
    `trades_window_min` minutes contains more than `max_trades_per_window` accepted plans. -/
theorem bookings_in_window (cfg : RiskConfig) (hnonneg : 0 ≤ cfg.maxTradesPerWindow)
    (hfits : cfg.maxTradesPerWindow ≤ cfg.maxTradeHistory) (ops : List RiskOp)
    (hsorted : (ops.flatMap RiskOp.readings).Pairwise (· ≤ ·)) (start : TimePoint) :
    ((({ cfg := cfg } : RiskManager).bookings ops).countP
        (fun t => decide (start ≤ t ∧ t ≤ start + cfg.tradesWindowMin * nsPerMin)) : ℤ)
      ≤ cfg.maxTradesPerWindow := by
  have hempty : ({ cfg := cfg } : RiskManager).Limited [] (ops.flatMap RiskOp.readings) :=
    Bounded.nil
  have hrun := hempty.run ⟨hnonneg, hfits⟩ hsorted
  have hcount := hrun.countIn_le start
  rw [run_cfg] at hcount
  show ((countIn cfg.tradesWindow start (({ cfg := cfg } : RiskManager).bookings ops) : ℕ) : ℤ) ≤ _
  have hlimit : ((cfg.maxTradesPerWindow.toNat : ℕ) : ℤ) = cfg.maxTradesPerWindow :=
    Int.toNat_of_nonneg hnonneg
  rw [← hlimit]
  exact_mod_cast hcount

/-- Two plans a minute apart are both booked, and count against the default limit of six. -/
theorem bookings_in_window_two :
    ({ cfg := {} } : RiskManager).bookings [scalpCall 1, scalpCall nsPerMin] = [1, nsPerMin] ∧
      ((({ cfg := {} } : RiskManager).bookings [scalpCall 1, scalpCall nsPerMin]).countP
        (fun t => decide (1 ≤ t ∧ t ≤ 1 + 5 * nsPerMin)) : ℤ) ≤ 6 :=
  ⟨by decide +kernel, bookings_in_window {} (by decide) (by decide)
    [scalpCall 1, scalpCall nsPerMin] (by decide) 1⟩

end RiskManager

end TradeBot
