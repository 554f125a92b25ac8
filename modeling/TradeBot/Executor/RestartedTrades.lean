import Mathlib.Tactic.FieldSimp
import Mathlib.Tactic.Linarith
import TradeBot.Executor.LiveExecutor
import TradeBot.Risk.AccountStatePersister

set_option autoImplicit false

/-! # Trades after a restart

Whether a trade that was persisted, read back and injected into a new executor is treated by `tick`
as it was before. The time it opened at is not persisted, so every timeout has run out for the trade
that comes back.

A decision depends on the time only through two timeouts, so two opening times give the same
decisions exactly if both timeouts have run out for both or for neither at every moment, unless
another rule decides first (`verdict_eq_iff`). After the restart the opening time is the epoch, for
which both have run out long ago. -/

namespace TradeBot

namespace LiveExecutor

/-- What `tick` decides at the time `now` and the mark `mark` for a trade. -/
def decision (ex : LiveExecutor) (now : TimePoint) (mark : ℚ) (t : ActiveTrade) : Option String :=
  closeReason? (expireReservation now (ex.setMarkPrice t.plan.ticker mark).toMembers) now t

/-- The decisions are the close actions of `tick`'s first phase. -/
theorem mem_tickCollect {ex : LiveExecutor} {now : TimePoint} {mark : ℚ} {t : ActiveTrade}
    {reason : String} (h : ex.decision now mark t = some reason)
    (ht : t ∈ (ex.setMarkPrice t.plan.ticker mark).allTrades) :
    ∃ act ∈ ((ex.setMarkPrice t.plan.ticker mark).tickCollect now).2,
      act.trade = t ∧ act.reason = reason := by
  have hact : closeAction? (expireReservation now (ex.setMarkPrice t.plan.ticker mark).toMembers) now t
      = some ⟨t, reason, _⟩ := congrArg (Option.map _) h
  exact ⟨_, List.mem_filterMap.2 ⟨t, ht, hact⟩, rfl, rfl⟩

end LiveExecutor

/-! ## A decision and its two timeouts -/

section

variable {t : ActiveTrade} {since : TimePoint}

/-- What is decided for an open trade, by whether the two timeouts have run out. -/
def verdict (cfg : ExecutorConfig) (t : ActiveTrade) (timeout grace : Prop) [Decidable timeout]
    [Decidable grace] (mark : ℚ) : Option String :=
  if timeout ∧ noProgress t mark = true then some "NoProgress"
  else if grace ∧ 0 < t.plan.minFollowThroughBps ∧ moveBps t mark < t.plan.minFollowThroughBps then
    some "FollowThrough"
  else if cfg.maxSinglePositionLossPct < lossPct t mark then some "R14"
  else none

theorem expireReservation_cfg (now : TimePoint) (m : Members) :
    (LiveExecutor.expireReservation now m).cfg = m.cfg := by
  unfold LiveExecutor.expireReservation
  split <;> rfl

theorem expireReservation_markPrices (now : TimePoint) (m : Members) :
    (LiveExecutor.expireReservation now m).markPrices = m.markPrices := by
  unfold LiveExecutor.expireReservation
  split <;> rfl

/-- `tick` has no decision to take for the trade. -/
def Idle (t : ActiveTrade) : Prop :=
  t.state ≠ .opened ∨ t.executedSize ≤ 0 ∨ t.avgEntryPrice ≤ 0

theorem decision_eq_none (ex : LiveExecutor) (now : TimePoint) (mark : ℚ) (h : Idle t ∨ mark ≤ 0) :
    ex.decision now mark t = none := by
  unfold LiveExecutor.decision closeReason?
  rw [expireReservation_markPrices]
  split
  · rfl
  next hst =>
  split
  · rfl
  next hsz =>
  rcases h with (hidle | hidle) | hmark
  · exact absurd hidle hst
  · exact absurd hidle hsz
  · rw [show ((ex.setMarkPrice t.plan.ticker mark).markPrices.lookup t.plan.ticker) = some mark from
      AList.lookup_insert _]
    exact if_pos hmark

theorem decision_eq_verdict (ex : LiveExecutor) (now : TimePoint) {mark : ℚ} (h : ¬ Idle t)
    (hmark : 0 < mark) :
    ex.decision now mark t = verdict ex.cfg t (t.plan.noProgressTimeoutSec < t.elapsedSec now)
      (t.plan.postEntryGraceSec < t.elapsedSec now) mark := by
  rw [Idle, not_or, not_not] at h
  unfold LiveExecutor.decision closeReason?
  rw [expireReservation_markPrices, expireReservation_cfg, if_neg (not_not.2 h.1), if_neg h.2,
    show ((ex.setMarkPrice t.plan.ticker mark).markPrices.lookup t.plan.ticker) = some mark from
      AList.lookup_insert _]
  exact if_neg (not_le.2 hmark)

theorem moveBps_entry (t : ActiveTrade) : moveBps t t.avgEntryPrice = 0 := by
  unfold moveBps
  split <;> simp

/-- A price that has moved by `bps` in the trade's favour. -/
def movedBy (t : ActiveTrade) (bps : ℚ) : ℚ :=
  if t.plan.side = .buy then t.avgEntryPrice * (1 + bps / kBpsBase)
  else t.avgEntryPrice * (1 - bps / kBpsBase)

theorem moveBps_movedBy (havg : 0 < t.avgEntryPrice) (bps : ℚ) :
    moveBps t (movedBy t bps) = bps := by
  unfold moveBps movedBy kBpsBase
  split
  · field_simp
    ring
  · field_simp
    ring

theorem movedBy_pos (havg : 0 < t.avgEntryPrice) {bps : ℚ} (h0 : 0 < bps) (h : bps < kBpsBase) :
    0 < movedBy t bps := by
  unfold movedBy
  unfold kBpsBase at *
  split
  · positivity
  · refine mul_pos havg ?_
    have hlt : bps / 10000 < 1 := by rw [div_lt_one (by norm_num)]; exact h
    linarith

/-- Without progress the price has moved by one basis point at most. -/
theorem noProgress_iff (hside : t.plan.side ≠ .none) (havg : 0 < t.avgEntryPrice) (mark : ℚ) :
    noProgress t mark = true ↔ moveBps t mark ≤ 1 := by
  unfold noProgress moveBps kBpsBase
  rw [decide_eq_true_eq]
  cases h : t.plan.side with
  | none => exact absurd h hside
  | buy =>
      rw [if_pos rfl, div_mul_eq_mul_div, div_le_one havg]
      constructor
      · rintro (⟨_, hle⟩ | ⟨hno, _⟩)
        · linarith
        · cases hno
      · exact fun hle => Or.inl ⟨rfl, by linarith⟩
  | sell =>
      rw [if_neg (by decide), div_mul_eq_mul_div, div_le_one havg]
      constructor
      · rintro (⟨hno, _⟩ | ⟨_, hle⟩)
        · cases hno
        · linarith
      · exact fun hle => Or.inr ⟨rfl, by linarith⟩

theorem noProgress_of_none (hside : t.plan.side = .none) (mark : ℚ) : noProgress t mark = false := by
  simp [noProgress, hside]

variable {cfg : ExecutorConfig} {timeout timeout' grace grace' : Prop} [Decidable timeout]
  [Decidable timeout'] [Decidable grace] [Decidable grace'] {mark : ℚ}

theorem verdict_eq_noProgress :
    verdict cfg t timeout grace mark = some "NoProgress" ↔ timeout ∧ noProgress t mark = true := by
  unfold verdict
  refine ⟨fun h => ?_, fun h => if_pos h⟩
  by_contra hno
  rw [if_neg hno] at h
  split at h
  · exact absurd h (by decide)
  split at h
  · exact absurd h (by decide)
  · cases h

theorem verdict_eq_followThrough :
    verdict cfg t timeout grace mark = some "FollowThrough" ↔
      ¬ (timeout ∧ noProgress t mark = true) ∧ grace ∧ 0 < t.plan.minFollowThroughBps ∧
        moveBps t mark < t.plan.minFollowThroughBps := by
  unfold verdict
  refine ⟨fun h => ?_, fun h => (if_neg h.1).trans (if_pos h.2)⟩
  by_cases hno : timeout ∧ noProgress t mark = true
  · rw [if_pos hno] at h
    exact absurd h (by decide)
  refine ⟨hno, ?_⟩
  by_contra hft
  rw [if_neg hno, if_neg hft] at h
  split at h
  · exact absurd h (by decide)
  · cases h

theorem verdict_congr (htimeout : timeout ∧ noProgress t mark = true ↔
      timeout' ∧ noProgress t mark = true)
    (hgrace : ¬ (timeout ∧ noProgress t mark = true) → 0 < t.plan.minFollowThroughBps →
      moveBps t mark < t.plan.minFollowThroughBps → (grace ↔ grace')) :
    verdict cfg t timeout grace mark = verdict cfg t timeout' grace' mark := by
  unfold verdict
  by_cases hno : timeout ∧ noProgress t mark = true
  · rw [if_pos hno, if_pos (htimeout.1 hno)]
  · have hft : grace ∧ 0 < t.plan.minFollowThroughBps ∧ moveBps t mark < t.plan.minFollowThroughBps ↔
        grace' ∧ 0 < t.plan.minFollowThroughBps ∧ moveBps t mark < t.plan.minFollowThroughBps :=
      and_congr_left (fun h => hgrace hno h.1 h.2)
    rw [if_neg hno, if_neg (fun h => hno (htimeout.2 h)), if_congr hft rfl rfl]

/-- The decisions of a trade without a side do not depend on the timeout. -/
theorem verdict_eq_iff_of_none (hside : t.plan.side = .none) (havg : 0 < t.avgEntryPrice) :
    (∀ mark, 0 < mark →
      verdict cfg t timeout grace mark = verdict cfg t timeout' grace' mark) ↔
      (0 < t.plan.minFollowThroughBps → (grace ↔ grace')) := by
  have hnone := noProgress_of_none hside
  constructor
  · intro h hmin
    have hft := verdict_eq_followThrough.symm.trans
      ((Eq.congr_left (h _ havg)).trans verdict_eq_followThrough)
    simpa [hnone, moveBps_entry, hmin] using hft
  · exact fun h mark _ => verdict_congr (by simp [hnone]) (fun _ hmin _ => h hmin)

/-- The decisions of a trade are the same at every price exactly if the timeout has run out for both
    or for neither, and the grace period too, unless the timeout always decides first. -/
theorem verdict_eq_iff (hside : t.plan.side ≠ .none) (havg : 0 < t.avgEntryPrice) :
    (∀ mark, 0 < mark →
      verdict cfg t timeout grace mark = verdict cfg t timeout' grace' mark) ↔
      (timeout ↔ timeout') ∧ (0 < t.plan.minFollowThroughBps → (grace ↔ grace') ∨
        timeout ∧ t.plan.minFollowThroughBps ≤ 1) := by
  have hprogress := noProgress_iff hside havg
  constructor
  · intro h
    have hno : ∀ mark : ℚ, 0 < mark →
        (timeout ∧ noProgress t mark = true ↔ timeout' ∧ noProgress t mark = true) :=
      fun mark hmark => verdict_eq_noProgress.symm.trans
        ((Eq.congr_left (h mark hmark)).trans verdict_eq_noProgress)
    have hft : ∀ mark : ℚ, 0 < mark →
        (verdict cfg t timeout grace mark = some "FollowThrough" ↔
          verdict cfg t timeout' grace' mark = some "FollowThrough") :=
      fun mark hmark => Eq.congr_left (h mark hmark)
    -- at the entry price only the timeout decides
    have htimeout : timeout ↔ timeout' := by
      have hentry := hno _ havg
      rw [hprogress, moveBps_entry] at hentry
      simpa using hentry
    refine ⟨htimeout, fun hmin => ?_⟩
    by_cases hout : timeout
    · by_cases hone : t.plan.minFollowThroughBps ≤ 1
      · exact Or.inr ⟨hout, hone⟩
      -- the price has moved by more than one basis point, and by less than the follow-through
      have hlow : 1 < (1 + min t.plan.minFollowThroughBps 2) / 2 := by
        have := lt_min (not_le.1 hone) (by norm_num : (1 : ℚ) < 2)
        linarith
      have hhigh : (1 + min t.plan.minFollowThroughBps 2) / 2 < t.plan.minFollowThroughBps := by
        have := min_le_left t.plan.minFollowThroughBps 2
        linarith [not_le.1 hone]
      have hbase : (1 + min t.plan.minFollowThroughBps 2) / 2 < kBpsBase := by
        have := min_le_right t.plan.minFollowThroughBps 2
        unfold kBpsBase
        linarith
      have hmoved := hft _ (movedBy_pos havg (by linarith) hbase)
      rw [verdict_eq_followThrough, verdict_eq_followThrough, hprogress, moveBps_movedBy havg]
        at hmoved
      left
      simpa [hmin, hhigh, not_le.2 hlow] using hmoved
    · have hentry := hft _ havg
      rw [verdict_eq_followThrough, verdict_eq_followThrough, moveBps_entry] at hentry
      left
      simpa [hout, ← htimeout, hmin] using hentry
  · rintro ⟨htimeout, hgrace⟩ mark _
    refine verdict_congr (and_congr_left (fun _ => htimeout)) (fun hno hmin hmove => ?_)
    rcases hgrace hmin with hsame | ⟨hout, hone⟩
    · exact hsame
    · exact absurd ⟨hout, (hprogress mark).2 (hmove.le.trans hone)⟩ hno

/-! ## Timeouts after a restart -/

/-- `limit` seconds had run out at `since`, both from when the trade opened and from the epoch. -/
def RanOut (t : ActiveTrade) (limit : ℚ) (since : TimePoint) : Prop :=
  limit < t.elapsedSec since ∧ limit < (since : ℚ) / nsPerSec

theorem lt_div_nsPerSec_iff (limit : ℚ) (n : ℤ) :
    limit < (n : ℚ) / nsPerSec ↔ ⌊limit * nsPerSec⌋ < n := by
  have hns : (0 : ℚ) < nsPerSec := by norm_num [nsPerSec]
  rw [lt_div_iff₀ hns, Int.floor_lt]

theorem lt_elapsedSec_iff (t : ActiveTrade) (limit : ℚ) (now : TimePoint) :
    limit < t.elapsedSec now ↔ ⌊limit * nsPerSec⌋ < now - t.openedAt :=
  lt_div_nsPerSec_iff limit _

theorem counts_agree_iff (n start since : ℤ) :
    (∀ now ≥ since, (n < now - start ↔ n < now)) ↔
      start = 0 ∨ n < since - start ∧ n < since := by
  constructor
  · intro h
    rcases lt_trichotomy start 0 with hneg | hzero | hpos
    · by_contra hno
      have := h n (by omega)
      omega
    · exact Or.inl hzero
    · by_contra hno
      have := h (n + start) (by omega)
      omega
  · intro h now hnow
    omega

/-- Counting from the epoch instead of from when the trade opened makes no difference from `since` on
    exactly if the trade opened then, or both had run out at `since`. -/
theorem timeouts_agree_iff (t : ActiveTrade) (limit : ℚ) (since : TimePoint) :
    (∀ now ≥ since, (limit < t.elapsedSec now ↔ limit < (now : ℚ) / nsPerSec)) ↔
      t.openedAt = 0 ∨ RanOut t limit since := by
  simp only [RanOut, lt_elapsedSec_iff, lt_div_nsPerSec_iff]
  exact counts_agree_iff _ t.openedAt since

/-- Restarting at `since` does not change what `tick` does with the trade: it has no decision to take,
    or opened at the epoch, or its timeouts that can decide had run out. -/
def SurvivesRestart (t : ActiveTrade) (since : TimePoint) : Prop :=
  Idle t ∨ t.openedAt = 0 ∨
    if t.plan.side = .none then
      0 < t.plan.minFollowThroughBps → RanOut t t.plan.postEntryGraceSec since
    else
      RanOut t t.plan.noProgressTimeoutSec since ∧
        (1 < t.plan.minFollowThroughBps → RanOut t t.plan.postEntryGraceSec since)

theorem survives_iff (cfg : ExecutorConfig) (h : ¬ Idle t) (since : TimePoint) :
    (∀ now ≥ since, ∀ mark, 0 < mark →
      verdict cfg t (t.plan.noProgressTimeoutSec < t.elapsedSec now)
          (t.plan.postEntryGraceSec < t.elapsedSec now) mark
        = verdict cfg t (t.plan.noProgressTimeoutSec < (now : ℚ) / nsPerSec)
          (t.plan.postEntryGraceSec < (now : ℚ) / nsPerSec) mark) ↔ SurvivesRestart t since := by
  have havg : 0 < t.avgEntryPrice := by
    rw [Idle, not_or, not_or, not_le, not_le] at h
    exact h.2.2
  have htimeout := timeouts_agree_iff t t.plan.noProgressTimeoutSec since
  have hgrace := timeouts_agree_iff t t.plan.postEntryGraceSec since
  rw [SurvivesRestart, or_iff_right h]
  by_cases hside : t.plan.side = .none
  · -- without a side there is no profit, and only the grace period counts
    simp only [verdict_eq_iff_of_none hside havg, if_pos hside]
    constructor
    · intro hall
      by_cases hmin : 0 < t.plan.minFollowThroughBps
      · exact (hgrace.1 (fun now hnow => hall now hnow hmin)).imp_right (fun hran _ => hran)
      · exact Or.inr (fun hpos => absurd hpos hmin)
    · intro hsurvives now hnow hmin
      exact hgrace.2 (hsurvives.imp_right (fun hran => hran hmin)) now hnow
  · simp only [verdict_eq_iff hside havg, if_neg hside]
    constructor
    · intro hall
      rcases htimeout.1 (fun now hnow => (hall now hnow).1) with hzero | hran
      · exact Or.inl hzero
      -- the grace period matters only if more than one basis point is asked for
      by_cases hmin : 1 < t.plan.minFollowThroughBps
      · have hsame := hgrace.1 (fun now hnow =>
          ((hall now hnow).2 (zero_lt_one.trans hmin)).resolve_right
            (fun hone => absurd hone.2 (not_le.2 hmin)))
        exact hsame.imp_right (fun hran' => ⟨hran, fun _ => hran'⟩)
      · exact Or.inr ⟨hran, fun hone => absurd hone hmin⟩
    · rintro (hzero | ⟨hran, hgraceRan⟩) now hnow
      · exact ⟨htimeout.2 (Or.inl hzero) now hnow, fun _ => Or.inl (hgrace.2 (Or.inl hzero) now hnow)⟩
      · refine ⟨htimeout.2 (Or.inr hran) now hnow, fun _ => ?_⟩
        by_cases hmin : 1 < t.plan.minFollowThroughBps
        · exact Or.inl (hgrace.2 (Or.inr (hgraceRan hmin)) now hnow)
        · refine Or.inr ⟨?_, not_lt.1 hmin⟩
          rw [lt_elapsedSec_iff]
          exact lt_of_lt_of_le ((lt_elapsedSec_iff t _ since).1 hran.1) (sub_le_sub_right hnow _)

/-! ## The restart -/

/-- A new executor with the trade injected. -/
def restarted (cfg : ExecutorConfig) (t : ActiveTrade) : LiveExecutor :=
  (LiveExecutor.init cfg).injectRecoveredTrades [t]

theorem restarted_allTrades (cfg : ExecutorConfig) (t : ActiveTrade) :
    (restarted cfg t).allTrades = [{ t with uid := 0 }] := rfl

/-- The trade is written, read and injected into a new executor, and from `since` on `tick` decides
    about it what the old executor does. -/
def SameDecisions (ex : LiveExecutor) (p : PersistedTrade) (since : TimePoint) : Prop :=
  ∃ p' t', PersistedTrade.fromJson p.toJson = some p' ∧
    (restarted ex.cfg p'.trade).allTrades = [t'] ∧
    ∀ now ≥ since, ∀ mark,
      (restarted ex.cfg p'.trade).decision now mark t' = ex.decision now mark p.trade

theorem idle_kept {t' : ActiveTrade} (h : PersistedTrade.Kept t t') : Idle t' ↔ Idle t := by
  rw [Idle, Idle, h.state, h.executedSize, h.avgEntryPrice]

theorem verdict_kept {t' : ActiveTrade} (h : PersistedTrade.Kept t t') :
    verdict cfg t' timeout grace mark = verdict cfg t timeout grace mark := by
  unfold verdict noProgress moveBps lossPct
  rw [h.plan, h.avgEntryPrice]

theorem elapsedSec_kept {t' : ActiveTrade} (h : PersistedTrade.Kept t t') (now : TimePoint) :
    t'.elapsedSec now = (now : ℚ) / nsPerSec := by
  rw [ActiveTrade.elapsedSec, h.openedAt, sub_zero]

end

/-- The comparison is one of decisions that differ in when their timeouts run out. -/
theorem sameDecisions_iff_verdict (ex : LiveExecutor) (p : PersistedTrade) (since : TimePoint) :
    SameDecisions ex p since ↔ Idle p.trade ∨ ∀ now ≥ since, ∀ mark, 0 < mark →
      verdict ex.cfg p.trade (p.trade.plan.noProgressTimeoutSec < p.trade.elapsedSec now)
          (p.trade.plan.postEntryGraceSec < p.trade.elapsedSec now) mark
        = verdict ex.cfg p.trade (p.trade.plan.noProgressTimeoutSec < (now : ℚ) / nsPerSec)
          (p.trade.plan.postEntryGraceSec < (now : ℚ) / nsPerSec) mark := by
  obtain ⟨p', hread, hkept⟩ := p.fromJson_toJson
  obtain ⟨t, htrades, hkept⟩ : ∃ t, (restarted ex.cfg p'.trade).allTrades = [t] ∧
      PersistedTrade.Kept p.trade t :=
    ⟨_, restarted_allTrades _ _, hkept.plan, hkept.state, hkept.executedSize, hkept.avgEntryPrice,
      hkept.avgPriceFix, hkept.tp1Filled, hkept.openedAt⟩
  have hcfg : (restarted ex.cfg p'.trade).cfg = ex.cfg := rfl
  -- one trade is read back, and it is the only one
  have hsame : SameDecisions ex p since ↔ ∀ now ≥ since, ∀ mark,
      (restarted ex.cfg p'.trade).decision now mark t = ex.decision now mark p.trade := by
    constructor
    · rintro ⟨p'', t', hread', htrades', h⟩
      rw [hread, Option.some.injEq] at hread'
      subst hread'
      rw [htrades, List.singleton_inj] at htrades'
      exact htrades' ▸ h
    · exact fun h => ⟨p', t, hread, htrades, h⟩
  rw [hsame]
  by_cases hidle : Idle p.trade
  · -- an idle trade gets no decision on either side
    refine iff_of_true (fun now _ mark => ?_) (Or.inl hidle)
    rw [decision_eq_none _ now mark (Or.inl hidle),
      decision_eq_none _ now mark (Or.inl ((idle_kept hkept).2 hidle))]
  · rw [or_iff_right hidle]
    refine forall_congr' (fun now => forall_congr' (fun _ => forall_congr' (fun mark => ?_)))
    by_cases hmark : 0 < mark
    · -- both decisions are the verdict, at the time since each was opened
      have hidle' : ¬ Idle t := fun h => hidle ((idle_kept hkept).1 h)
      rw [decision_eq_verdict _ now hidle hmark, decision_eq_verdict _ now hidle' hmark,
        verdict_kept hkept, hcfg]
      simp only [elapsedSec_kept hkept, hkept.plan]
      exact ⟨fun h _ => h.symm, fun h => (h hmark).symm⟩
    · -- without a mark price nothing is decided
      rw [decision_eq_none _ now mark (Or.inr (not_lt.1 hmark)),
        decision_eq_none _ now mark (Or.inr (not_lt.1 hmark))]
      simp [hmark]

/-- A trade is treated after a restart as before exactly if its timeouts had run out, or none of them
    can decide. -/
theorem sameDecisions_iff (ex : LiveExecutor) (p : PersistedTrade) (since : TimePoint) :
    SameDecisions ex p since ↔ SurvivesRestart p.trade since := by
  rw [sameDecisions_iff_verdict]
  by_cases hidle : Idle p.trade
  · exact iff_of_true (Or.inl hidle) (Or.inl hidle)
  · rw [or_iff_right hidle, survives_iff ex.cfg hidle since]

/-- `openedRun`, filled 1000 seconds after the epoch. -/
def openedLater : LiveExecutor :=
  (LiveExecutor.init {}).run [.submit .accepting 0 0 samplePlan,
    .onOrderUpdate .accepting { sampleFill 1 with time := 1000 * nsPerSec }]

/-- A trade that opened a thousand seconds after the epoch. -/
def openedLaterTrade : PersistedTrade where
  trade := { LiveExecutor.openedTrade with openedAt := 1000 * nsPerSec }
  plan := { toTradePlan := samplePlan }
  plan_eq := rfl

/-- Read back at once, the trade of `openedLater` is closed for want of progress. -/
theorem not_sameDecisions_openedLater :
    openedLater.Reachable ∧ openedLaterTrade.trade ∈ openedLater.allTrades ∧
      0 < openedLaterTrade.trade.executedSize ∧
      ¬ SameDecisions openedLater openedLaterTrade (1000 * nsPerSec) := by
  refine ⟨⟨_, _, rfl⟩, by decide +kernel, by decide +kernel, fun h => ?_⟩
  rcases (sameDecisions_iff_verdict _ _ _).1 h with hidle | hverdict
  · have hopen : ¬ (openedLaterTrade.trade.state ≠ .opened ∨
        openedLaterTrade.trade.executedSize ≤ 0 ∨ openedLaterTrade.trade.avgEntryPrice ≤ 0) := by
      decide +kernel
    exact hopen hidle
  · have hno := (Eq.congr_left (hverdict (1000 * nsPerSec) le_rfl 100 (by norm_num))).2
      (verdict_eq_noProgress.2 ⟨by decide +kernel, by decide +kernel⟩)
    exact absurd (verdict_eq_noProgress.1 hno).1 (by decide +kernel)

end TradeBot
