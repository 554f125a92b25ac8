import TradeBot.Risk.LossBreaker

set_option autoImplicit false

/-! # The breaker after a cooloff

Only an evaluation that gets to R11 forgets the losses from before the end of a cooloff. If none does
before the next loss is recorded, the old losses count towards the next streak (`rearmed_at_once`). In a
run where they complete no streak, the breaker starts afresh after every cooloff (`armed_afresh`).

`Follows` relates the history that the manager keeps to the results since the last expired cooloff,
which is what a streak should be counted in. Up to the end of a cooloff the two may differ, and only
in losses from before that end. -/

namespace TradeBot

open Runs

/-- The end of the cooloff. -/
def RiskManager.expiry (rm : RiskManager) : TimePoint := rm.lastLossStreakTs + rm.cfg.cooloff

/-- A cooloff has run out by `t` and has not been cleared. -/
def RiskManager.Expired (rm : RiskManager) (t : TimePoint) : Prop :=
  rm.lastLossStreakTs ≠ 0 ∧ rm.expiry ≤ t

instance (rm : RiskManager) (t : TimePoint) : Decidable (rm.Expired t) :=
  inferInstanceAs (Decidable (_ ∧ _))

/-- Recording the result arms the breaker. -/
def RiskManager.Arms (rm : RiskManager) (isLoss : Bool) (ts : TimePoint) : Prop :=
  rm.cfg.maxConsecutiveLosses ≤ endLosses (rm.recordTradeEnd isLoss ts).lossHistory

instance (rm : RiskManager) (isLoss : Bool) (ts : TimePoint) : Decidable (rm.Arms isLoss ts) :=
  inferInstanceAs (Decidable (_ ≤ _))

namespace LossLog

/-- If the call arms the breaker, enough losses have been recorded one after the other since the last
    cooloff has run out. -/
def ArmedAfresh (log : LossLog) : RiskOp → Prop
  | .recordTradeEnd isLoss ts => log.rm.Arms isLoss ts →
      log.rm.cfg.maxConsecutiveLosses ≤ endLosses (log.step (.recordTradeEnd isLoss ts)).since
  | _ => True

/-- A loss that is recorded after a cooloff has run out, and before an evaluation has cleared it, does
    not complete a streak with losses from before its end. And no result is recorded at the epoch, which
    stands for no cooloff. -/
def NoStaleStreak (log : LossLog) : RiskOp → Prop
  | .recordTradeEnd isLoss ts =>
      ts ≠ 0 ∧ (isLoss = true → log.rm.Expired ts →
        log.rm.cfg.maxConsecutiveLosses ≤ log.rm.cfg.maxLossHistory →
        ∀ streak, streak <:+ log.rm.lossHistory →
          (streak.length : ℤ) + 1 = log.rm.cfg.maxConsecutiveLosses →
          (∀ p ∈ streak, p.2 = true ∧ ts - p.1 ≤ log.rm.cfg.lossWindow) →
          ∀ p ∈ streak, log.rm.expiry ≤ p.1)
  | _ => True

/-! ## Counting losses -/

section

variable {results results' : List (TimePoint × Bool)} {p : TimePoint × Bool}

theorem endLosses_concat :
    endLosses (results ++ [p]) = if p.2 = true then endLosses results + 1 else 0 := by
  rw [endLosses, List.reverse_concat, List.takeWhile_cons]
  split
  · rfl
  · rfl

/-- The losses at the end, themselves. -/
theorem exists_streak {n : ℕ} (h : n ≤ endLosses results) :
    ∃ streak, streak <:+ results ∧ streak.length = n ∧ ∀ q ∈ streak, q.2 = true := by
  refine ⟨((results.reverse.takeWhile Prod.snd).take n).reverse, ?_, ?_, fun q hq => ?_⟩
  · rw [← List.reverse_prefix, List.reverse_reverse]
    exact (List.take_prefix _ _).trans (List.takeWhile_prefix _)
  · rw [List.length_reverse, List.length_take]
    exact min_eq_left h
  · exact List.mem_takeWhile_imp (List.mem_of_mem_take (List.mem_reverse.1 hq))

theorem endLosses_mono (h : results <:+ results') : endLosses results ≤ endLosses results' := by
  obtain ⟨streak, hstreak, hlen, hall⟩ := exists_streak (le_refl (endLosses results))
  exact hlen ▸ le_endLosses_of_suffix (hstreak.trans h) hall

end

/-! ## What the code keeps -/

section

variable (rm : RiskManager) (isLoss : Bool) (ts : TimePoint)

theorem lossHistory_suffix :
    (rm.recordTradeEnd isLoss ts).lossHistory <:+ rm.lossHistory ++ [(ts, isLoss)] :=
  (List.dropWhile_suffix _).trans (List.drop_suffix _ _)

theorem lossHistory_length :
    (rm.recordTradeEnd isLoss ts).lossHistory.length ≤ rm.cfg.maxLossHistory := by
  refine (List.dropWhile_suffix _).length_le.trans ?_
  rw [List.length_drop]
  omega

variable {rm isLoss ts} in
/-- Results in order of time that are kept are within the window. -/
theorem lossHistory_within
    (hsorted : (rm.lossHistory ++ [(ts, isLoss)]).Pairwise (fun p q => p.1 ≤ q.1)) :
    ∀ p ∈ (rm.recordTradeEnd isLoss ts).lossHistory, ts - p.1 ≤ rm.cfg.lossWindow := by
  have hdropped : ∀ l : List (TimePoint × Bool), l.Pairwise (fun p q => p.1 ≤ q.1) →
      ∀ p ∈ l.dropWhile (fun p => decide (rm.cfg.lossWindow < ts - p.1)),
        ts - p.1 ≤ rm.cfg.lossWindow := by
    intro l hl
    induction l with
    | nil => simp
    | cons q l ih =>
        obtain ⟨hfirst, hrest⟩ := List.pairwise_cons.1 hl
        rw [List.dropWhile_cons]
        split
        · exact ih hrest
        · next hq =>
            have hwithin : ts - q.1 ≤ rm.cfg.lossWindow := by simpa using hq
            intro p hp
            rcases List.mem_cons.1 hp with rfl | hp
            · exact hwithin
            · have hle := hfirst p hp
              linarith
  exact hdropped _ (hsorted.sublist (List.drop_sublist _ _))

theorem recordTradeEnd_ts :
    ((rm.recordTradeEnd isLoss ts).lastLossStreakTs = ts ∧ rm.Arms isLoss ts) ∨
      ((rm.recordTradeEnd isLoss ts).lastLossStreakTs = rm.lastLossStreakTs ∧
        ¬ rm.Arms isLoss ts) := by
  by_cases h : rm.Arms isLoss ts
  · exact Or.inl ⟨if_pos h, h⟩
  · exact Or.inr ⟨if_neg h, h⟩

end

/-- An evaluation leaves the results and the cooloff alone, or clears both. -/
theorem evaluate_clears (rm : RiskManager) (now : TimePoint) (univ : TickerUniverse)
    (news : NewsCalendar) (later : TimePoint) (plan : TradePlan) (state : AccountState) :
    ((rm.evaluate now univ news later plan state).1.lossHistory = rm.lossHistory ∧
        (rm.evaluate now univ news later plan state).1.lastLossStreakTs = rm.lastLossStreakTs) ∨
      ((rm.evaluate now univ news later plan state).1.lossHistory = [] ∧
        (rm.evaluate now univ news later plan state).1.lastLossStreakTs = 0) := by
  have hcases := rm.evaluate_cases now univ news later plan state
  generalize rm.evaluate now univ news later plan state = out at hcases
  have hexpire : ((rm.pruneTrades now).expireCooloff.lossHistory = rm.lossHistory ∧
        (rm.pruneTrades now).expireCooloff.lastLossStreakTs = rm.lastLossStreakTs) ∨
      ((rm.pruneTrades now).expireCooloff.lossHistory = [] ∧
        (rm.pruneTrades now).expireCooloff.lastLossStreakTs = 0) := by
    unfold RiskManager.expireCooloff
    split
    · exact Or.inr ⟨rfl, rfl⟩
    · exact Or.inl ⟨rfl, rfl⟩
  cases hcases with
  | unbooked | limited => exact Or.inl ⟨rfl, rfl⟩
  | late | accepted => exact hexpire

/-! ## The invariant -/

/-- The history against the results since the last expired cooloff, before calls at the times `future`.
    Of the history only what lies before the end of the cooloff may be missing there, and until that end
    no loss that the history ends with. -/
structure Follows (log : LossLog) (future : List TimePoint) : Prop where
  sorted : (log.rm.lossHistory.map Prod.fst ++ future).Pairwise (· ≤ ·)
  past : log.rm.lastLossStreakTs ≠ 0 → ∀ t ∈ future, log.rm.lastLossStreakTs ≤ t
  kept : ∀ streak, streak <:+ log.rm.lossHistory →
    (log.rm.lastLossStreakTs ≠ 0 → ∀ p ∈ streak, log.rm.expiry ≤ p.1) → streak <:+ log.since
  counted : ∀ t ∈ future, ¬ log.rm.Expired t →
    min log.rm.cfg.maxConsecutiveLosses (endLosses log.rm.lossHistory) ≤ endLosses log.since

theorem sinceExpiry_of_not_expired {log : LossLog} {t : TimePoint} (h : ¬ log.rm.Expired t) :
    log.sinceExpiry t = log.since := if_neg h

/-- What lies behind the end of the cooloff is still there after the cut. -/
theorem suffix_sinceExpiry {log : LossLog} {streak : List (TimePoint × Bool)} (t : TimePoint)
    (h : streak <:+ log.since)
    (hlate : log.rm.lastLossStreakTs ≠ 0 → ∀ p ∈ streak, log.rm.expiry ≤ p.1) :
    streak <:+ log.sinceExpiry t := by
  by_cases hexp : log.rm.Expired t
  · have hcut : log.sinceExpiry t
        = log.since.dropWhile (fun p => decide (p.1 < log.rm.expiry)) := if_pos hexp
    rw [hcut]
    exact suffix_dropWhile h (fun p hp => decide_eq_false (not_lt.2 (hlate hexp.1 p hp)))
  · exact sinceExpiry_of_not_expired hexp ▸ h

/-- Not yet expired at a time, not expired before. -/
theorem not_expired_of_le {rm : RiskManager} {t t' : TimePoint} (h : ¬ rm.Expired t') (hle : t ≤ t') :
    ¬ rm.Expired t :=
  fun hexp => h ⟨hexp.1, hexp.2.trans hle⟩

section

variable {log : LossLog} {isLoss : Bool} {ts : TimePoint} {future : List TimePoint}

theorem since_record :
    (log.step (.recordTradeEnd isLoss ts)).since = log.sinceExpiry ts ++ [(ts, isLoss)] := rfl

/-- Before the end of the cooloff the losses are counted as they should be. -/
theorem Follows.counts (isLoss : Bool) (h : log.Follows (ts :: future)) (hexp : ¬ log.rm.Expired ts) :
    min log.rm.cfg.maxConsecutiveLosses (endLosses (log.rm.recordTradeEnd isLoss ts).lossHistory)
      ≤ endLosses (log.step (.recordTradeEnd isLoss ts)).since := by
  have hcounted := h.counted ts (List.mem_cons_self ..) hexp
  have hmono := endLosses_mono (lossHistory_suffix log.rm isLoss ts)
  rw [since_record, sinceExpiry_of_not_expired hexp]
  rw [endLosses_concat] at hmono ⊢
  by_cases hloss : isLoss = true
  · rw [if_pos hloss] at hmono ⊢
    omega
  · rw [if_neg hloss] at hmono ⊢
    omega

/-- A streak that is completed after the end of the cooloff lies behind that end. -/
theorem Follows.completes (h : log.Follows (ts :: future))
    (hcond : log.NoStaleStreak (.recordTradeEnd isLoss ts)) (hexp : log.rm.Expired ts)
    (harms : log.rm.Arms isLoss ts) :
    log.rm.cfg.maxConsecutiveLosses ≤ endLosses (log.step (.recordTradeEnd isLoss ts)).since := by
  by_cases hpos : log.rm.cfg.maxConsecutiveLosses ≤ 0
  · exact hpos.trans (Int.natCast_nonneg _)
  push Not at hpos
  -- the streak that arms the breaker, of the length of the limit
  have hlong : log.rm.cfg.maxConsecutiveLosses.toNat
      ≤ endLosses (log.rm.recordTradeEnd isLoss ts).lossHistory := Int.toNat_le.2 harms
  obtain ⟨streak, hstreak, hlen, hall⟩ := exists_streak hlong
  have hsorted : (log.rm.lossHistory ++ [(ts, isLoss)]).Pairwise (fun p q => p.1 ≤ q.1) := by
    have hmap : ((log.rm.lossHistory ++ [(ts, isLoss)]).map Prod.fst).Pairwise (· ≤ ·) := by
      refine h.sorted.sublist ?_
      rw [List.map_append]
      exact (List.Sublist.refl _).append ((List.nil_sublist future).cons_cons ts)
    exact List.pairwise_map.1 hmap
  have hwithin := lossHistory_within hsorted
  rcases List.suffix_concat_iff.1 (hstreak.trans (lossHistory_suffix ..)) with rfl | ⟨rest, rfl, hrest⟩
  · rw [List.length_nil] at hlen
    omega
  have hloss : isLoss = true := hall (ts, isLoss) (by simp)
  have hcap : log.rm.cfg.maxConsecutiveLosses ≤ log.rm.cfg.maxLossHistory := by
    have hfit := hstreak.length_le.trans (lossHistory_length ..)
    omega
  -- before the new loss it is one that the condition is about
  have hfresh := hcond.2 hloss hexp hcap rest hrest (by simp at hlen; omega)
    (fun p hp => ⟨hall p (List.mem_append_left _ hp),
      hwithin p (hstreak.subset (List.mem_append_left _ hp))⟩)
  have hsince : rest ++ [(ts, isLoss)] <:+ (log.step (.recordTradeEnd isLoss ts)).since :=
    List.suffix_append_self_iff.2
      (suffix_sinceExpiry ts (h.kept rest hrest (fun _ => hfresh)) (fun _ => hfresh))
  have hle := le_endLosses_of_suffix hsince hall
  omega

theorem Follows.armedAfresh (h : log.Follows (ts :: future))
    (hcond : log.NoStaleStreak (.recordTradeEnd isLoss ts)) :
    log.ArmedAfresh (.recordTradeEnd isLoss ts) := by
  intro harms
  by_cases hexp : log.rm.Expired ts
  · exact h.completes hcond hexp harms
  · have hcounts := h.counts isLoss hexp
    have harms' : log.rm.cfg.maxConsecutiveLosses
        ≤ endLosses (log.rm.recordTradeEnd isLoss ts).lossHistory := harms
    omega

/-- The end of a new cooloff is not before that of the old one. -/
theorem Follows.expiry_le (h : log.Follows (ts :: future)) (isLoss : Bool) (hts : ts ≠ 0)
    (hrunning : log.rm.lastLossStreakTs ≠ 0) :
    (log.rm.recordTradeEnd isLoss ts).lastLossStreakTs ≠ 0 ∧
      log.rm.expiry ≤ (log.rm.recordTradeEnd isLoss ts).expiry := by
  have hcfg : (log.rm.recordTradeEnd isLoss ts).cfg = log.rm.cfg := rfl
  rw [RiskManager.expiry, RiskManager.expiry, hcfg]
  rcases recordTradeEnd_ts log.rm isLoss ts with ⟨hnew, -⟩ | ⟨hold, -⟩
  · rw [hnew]
    have hpast := h.past hrunning ts (List.mem_cons_self ..)
    exact ⟨hts, by linarith⟩
  · rw [hold]
    exact ⟨hrunning, le_rfl⟩

theorem Follows.record (h : log.Follows (ts :: future))
    (hcond : log.NoStaleStreak (.recordTradeEnd isLoss ts)) (hle : ∀ t ∈ future, ts ≤ t) :
    (log.step (.recordTradeEnd isLoss ts)).Follows future := by
  have hrm : (log.step (.recordTradeEnd isLoss ts)).rm = log.rm.recordTradeEnd isLoss ts := rfl
  have hcfg : (log.rm.recordTradeEnd isLoss ts).cfg = log.rm.cfg := rfl
  refine ⟨?_, ?_, ?_, ?_⟩
  · rw [hrm]
    -- the loss log drops entries at its front only
    refine h.sorted.sublist ?_
    have hsub := lossHistory_suffix log.rm isLoss ts
    have hmap := (hsub.sublist.map Prod.fst).append (List.Sublist.refl future)
    simpa using hmap
  · rw [hrm]
    intro hrunning t ht
    -- either this loss arms the breaker or its time stays
    rcases recordTradeEnd_ts log.rm isLoss ts with ⟨hts, -⟩ | ⟨hts, -⟩
    · exact hts.le.trans (hle t ht)
    · rw [hts] at hrunning ⊢
      exact h.past hrunning t (List.mem_cons_of_mem _ ht)
  · rw [hrm, since_record]
    intro streak hstreak hlate
    -- a late streak is empty or ends with this loss; what came before it was late too
    rcases List.suffix_concat_iff.1 (hstreak.trans (lossHistory_suffix ..)) with rfl | ⟨rest, rfl, hrest⟩
    · exact List.nil_suffix
    have hrestLate : log.rm.lastLossStreakTs ≠ 0 → ∀ p ∈ rest, log.rm.expiry ≤ p.1 := by
      intro hrunning p hp
      obtain ⟨hrunning', hexpiry⟩ := h.expiry_le isLoss hcond.1 hrunning
      exact hexpiry.trans (hlate hrunning' p (List.mem_append_left _ hp))
    exact List.suffix_append_self_iff.2
      (suffix_sinceExpiry ts (h.kept rest hrest hrestLate) hrestLate)
  · intro t ht hexp
    rw [hrm] at hexp ⊢
    -- armed now, nothing is expired yet; else the breaker was not expired before
    rcases recordTradeEnd_ts log.rm isLoss ts with ⟨-, harms⟩ | ⟨hts, -⟩
    · have hafresh := h.armedAfresh hcond harms
      rw [hcfg]
      omega
    · have hrunning : ¬ log.rm.Expired ts := by
        rw [RiskManager.Expired, RiskManager.expiry, hts, hcfg] at hexp
        exact not_expired_of_le hexp (hle t ht)
      exact h.counts isLoss hrunning

end

/-- A call at `now` that leaves the history and the cooloff alone, or clears both, records nothing. -/
theorem Follows.quiet {log log' : LossLog} {now : TimePoint} {future : List TimePoint}
    (h : log.Follows (now :: future)) (hle : ∀ t ∈ future, now ≤ t)
    (hsince : log'.since = log.sinceExpiry now) (hcfg : log'.rm.cfg = log.rm.cfg)
    (hrm : (log'.rm.lossHistory = log.rm.lossHistory ∧
        log'.rm.lastLossStreakTs = log.rm.lastLossStreakTs) ∨
      (log'.rm.lossHistory = [] ∧ log'.rm.lastLossStreakTs = 0)) :
    log'.Follows future := by
  have hsorted := h.sorted.sublist ((List.Sublist.refl _).append (List.sublist_cons_self now future))
  rcases hrm with ⟨hhist, hts⟩ | ⟨hhist, hts⟩
  · refine ⟨hhist ▸ hsorted, ?_, ?_, ?_⟩
    · rw [hts]
      exact fun hrunning t ht => h.past hrunning t (List.mem_cons_of_mem _ ht)
    · rw [hhist, hts, hsince, RiskManager.expiry, hts, hcfg]
      exact fun streak hstreak hlate =>
        suffix_sinceExpiry now (h.kept streak hstreak hlate) hlate
    · intro t ht hexp
      rw [RiskManager.Expired, RiskManager.expiry, hts, hcfg] at hexp
      have hrunning : ¬ log.rm.Expired now := not_expired_of_le hexp (hle t ht)
      rw [hhist, hcfg, hsince, sinceExpiry_of_not_expired hrunning]
      exact h.counted now (List.mem_cons_self ..) hrunning
  · refine ⟨?_, fun hrunning => absurd hts hrunning, ?_, fun t _ _ => ?_⟩
    · rw [hhist]
      exact (List.pairwise_append.1 hsorted).2.1
    · rw [hhist]
      intro streak hstreak _
      rw [List.suffix_nil.1 hstreak]
      exact List.nil_suffix
    · rw [hhist]
      exact (min_le_right _ _).trans (Int.natCast_nonneg _)

theorem Follows.step {log : LossLog} {op : RiskOp} {future : List TimePoint}
    (h : log.Follows (op.time :: future)) (hle : ∀ t ∈ future, op.time ≤ t)
    (hcond : log.NoStaleStreak op) : (log.step op).Follows future := by
  cases op with
  | recordTradeEnd isLoss ts => exact h.record hcond hle
  | updateFundingTime now ticker ts =>
      exact h.quiet hle (List.append_nil _) rfl (Or.inl ⟨rfl, rfl⟩)
  | evaluate now univ news later plan state =>
      exact h.quiet hle (List.append_nil _) (log.rm.evaluate_cfg now univ news later plan state)
        (evaluate_clears log.rm now univ news later plan state)

theorem Follows.armedAfresh_of_step {log : LossLog} {op : RiskOp} {future : List TimePoint}
    (h : log.Follows (op.time :: future)) (hcond : log.NoStaleStreak op) : log.ArmedAfresh op := by
  cases op with
  | recordTradeEnd isLoss ts => exact h.armedAfresh hcond
  | updateFundingTime now ticker ts => trivial
  | evaluate now univ news later plan state => trivial

theorem Follows.run {log : LossLog} {ops : List RiskOp} (h : log.Follows (ops.map RiskOp.time))
    (hcond : Along LossLog.step NoStaleStreak log ops) : Along LossLog.step ArmedAfresh log ops := by
  induction ops generalizing log with
  | nil => trivial
  | cons op ops ih =>
      have hfirst := (List.pairwise_append.1 h.sorted).2.1
      have hle := (List.pairwise_cons.1 hfirst).1
      exact ⟨h.armedAfresh_of_step hcond.1, ih (h.step hle hcond.1) hcond.2⟩

/-! ## The result -/

/-- In a run in which no loss completes a streak with losses from before the end of an expired cooloff,
    the breaker is only ever armed after enough losses since the last one has run out. -/
theorem armed_afresh (cfg : RiskConfig) (ops : List RiskOp)
    (hsorted : (ops.map RiskOp.time).Pairwise (· ≤ ·))
    (hcond : Along LossLog.step NoStaleStreak { rm := { cfg := cfg } } ops) :
    Along LossLog.step ArmedAfresh { rm := { cfg := cfg } } ops := by
  have hfollows : Follows { rm := { cfg := cfg } } (ops.map RiskOp.time) :=
    ⟨hsorted, fun hrunning => absurd rfl hrunning, fun streak hstreak _ => hstreak,
      fun t _ _ => min_le_right _ _⟩
  exact hfollows.run hcond

/-- Three losses start a cooloff until 13; the evaluation at 14 clears them, and the next three losses
    start another. -/
theorem armed_afresh_twice :
    Along LossLog.step ArmedAfresh { rm := { cfg := {} } } (expiredCooloff ++ lossesAt [15, 16, 17]) :=
  armed_afresh {} _ (by decide +kernel)
    ⟨⟨by decide, fun _ h => absurd h (by decide +kernel)⟩,
      ⟨by decide, fun _ h => absurd h (by decide +kernel)⟩,
      ⟨by decide, fun _ h => absurd h (by decide +kernel)⟩, trivial,
      ⟨by decide, fun _ h => absurd h (by decide +kernel)⟩,
      ⟨by decide, fun _ h => absurd h (by decide +kernel)⟩,
      ⟨by decide, fun _ h => absurd h (by decide +kernel)⟩, trivial⟩

/-- Without an evaluation in between, a single loss after the end of the cooloff starts the next one. -/
theorem rearmed_at_once :
    ¬ ∀ (cfg : RiskConfig) (ops : List RiskOp), (ops.map RiskOp.time).Pairwise (· ≤ ·) →
        (∀ op ∈ ops, 0 < op.time) → Along LossLog.step ArmedAfresh { rm := { cfg := cfg } } ops := by
  intro hall
  obtain ⟨-, -, -, hfourth, -⟩ := hall {} (lossesAt [1, 2, 3, 14]) (by decide +kernel) (by decide)
  have harms := hfourth (by decide +kernel)
  revert harms
  decide +kernel

end LossLog

end TradeBot
