import Mathlib.Data.List.TakeWhile
import Mathlib.Tactic.Linarith
import TradeBot.Risk.Evaluation

set_option autoImplicit false

/-! # The loss-streak breaker

`record_trade_end` starts a cooloff when the results it keeps end with enough losses, and the first
`evaluate` that finds the cooloff over clears the results. What it clears may include losses that were
recorded after the cooloff had run out; then a streak goes unnoticed (`entry_after_streak`). Otherwise
every streak blocks all entries for a whole cooloff (`no_entry_in_cooloff`).

The list of results is cut to a capacity and to a window. What is cut off is never in a streak that
counts (`EndsInLosses.cut`, `EndsInLosses.forget`), so the manager loses a streak only when it clears
the list. -/

namespace TradeBot

open Runs

/-- The time at which a call is made. -/
def RiskOp.time : RiskOp → TimePoint
  | .evaluate now _ _ _ _ _ => now
  | .recordTradeEnd _ ts => ts
  | .updateFundingTime now _ _ => now

/-- The result that a call records. -/
def RiskOp.results : RiskOp → List (TimePoint × Bool)
  | .recordTradeEnd isLoss ts => [(ts, isLoss)]
  | _ => []

/-- `loss_streak_window_min` as a duration. -/
def RiskConfig.lossWindow (cfg : RiskConfig) : TimePoint := cfg.lossStreakWindowMin * nsPerMin

/-- `loss_streak_cooloff_min` as a duration. -/
def RiskConfig.cooloff (cfg : RiskConfig) : TimePoint := cfg.lossStreakCooloffMin * nsPerMin

/-! ## Streaks -/

/-- The results end with `n` losses that all lie within `window` of `t`. -/
def EndsInLosses (window : TimePoint) (n : ℕ) (results : List (TimePoint × Bool)) (t : TimePoint) :
    Prop :=
  ∃ streak, streak <:+ results ∧ streak.length = n ∧ ∀ p ∈ streak, p.2 = true ∧ t - p.1 ≤ window

/-- How many losses the results end with. -/
def endLosses (results : List (TimePoint × Bool)) : ℕ := (results.reverse.takeWhile Prod.snd).length

/-- A suffix without elements to be dropped survives the dropping. -/
theorem suffix_dropWhile {α : Type} {p : α → Bool} {suffix l : List α} (h : suffix <:+ l)
    (hp : ∀ a ∈ suffix, p a = false) : suffix <:+ l.dropWhile p := by
  induction l with
  | nil => exact h
  | cons a as ih =>
      rw [List.dropWhile_cons]
      split
      · next ha =>
          rcases List.suffix_cons_iff.1 h with rfl | htail
          · exact absurd (hp a (List.mem_cons_self ..)) (by simp [ha])
          · exact ih htail
      · exact h

section

variable {window t : TimePoint} {n : ℕ} {results results' : List (TimePoint × Bool)}

theorem le_endLosses_of_suffix {streak : List (TimePoint × Bool)} (h : streak <:+ results)
    (hall : ∀ p ∈ streak, p.2 = true) : streak.length ≤ endLosses results := by
  obtain ⟨rest, hrest⟩ := List.reverse_prefix.2 h
  have hlosses : streak.reverse.takeWhile Prod.snd = streak.reverse :=
    List.takeWhile_eq_self_iff.2 (fun p hp => hall p (List.mem_reverse.1 hp))
  rw [endLosses, ← hrest, List.takeWhile_append, hlosses, if_pos rfl]
  simp

theorem endsInLosses_zero : EndsInLosses window 0 results t :=
  ⟨[], List.nil_suffix, rfl, by simp⟩

theorem EndsInLosses.of_suffix (h : EndsInLosses window n results t) (hsuf : results <:+ results') :
    EndsInLosses window n results' t := by
  obtain ⟨streak, hstreak, hlen, hall⟩ := h
  exact ⟨streak, hstreak.trans hsuf, hlen, hall⟩

/-- A longer streak ends with a shorter one. -/
theorem EndsInLosses.mono {k : ℕ} (h : EndsInLosses window n results t) (hk : k ≤ n) :
    EndsInLosses window k results t := by
  obtain ⟨streak, hstreak, hlen, hall⟩ := h
  refine ⟨streak.drop (n - k), (List.drop_suffix _ _).trans hstreak, ?_, ?_⟩
  · rw [List.length_drop]
    omega
  · exact fun p hp => hall p (List.mem_of_mem_drop hp)

theorem EndsInLosses.earlier {t' : TimePoint} (h : EndsInLosses window n results t) (ht : t' ≤ t) :
    EndsInLosses window n results t' := by
  obtain ⟨streak, hstreak, hlen, hall⟩ := h
  refine ⟨streak, hstreak, hlen, fun p hp => ⟨(hall p hp).1, ?_⟩⟩
  have hwithin := (hall p hp).2
  linarith

/-- A streak grows by a loss, and only by a loss. -/
theorem endsInLosses_concat {p : TimePoint × Bool} :
    EndsInLosses window (n + 1) (results ++ [p]) t ↔
      EndsInLosses window n results t ∧ p.2 = true ∧ t - p.1 ≤ window := by
  constructor
  · rintro ⟨streak, hstreak, hlen, hall⟩
    rcases List.suffix_concat_iff.1 hstreak with rfl | ⟨rest, rfl, hrest⟩
    · simp at hlen
    · rw [List.length_append, List.length_singleton, Nat.add_right_cancel_iff] at hlen
      exact ⟨⟨rest, hrest, hlen, fun q hq => hall q (List.mem_append_left _ hq)⟩,
        hall p (by simp)⟩
  · rintro ⟨⟨streak, hstreak, hlen, hall⟩, hp⟩
    refine ⟨streak ++ [p], List.suffix_append_self_iff.2 hstreak, by simp [hlen], fun q hq => ?_⟩
    rcases List.mem_append.1 hq with hq | hq
    · exact hall q hq
    · rw [List.mem_singleton.1 hq]
      exact hp

/-- Cutting the results to a capacity keeps a streak that fits into it. -/
theorem EndsInLosses.cut {cap : ℕ} (h : EndsInLosses window n results t) (hcap : n ≤ cap) :
    EndsInLosses window n (results.drop (results.length - cap)) t := by
  obtain ⟨streak, hstreak, hlen, hall⟩ := h
  refine ⟨streak, List.suffix_of_suffix_length_le hstreak (List.drop_suffix _ _) ?_, hlen, hall⟩
  have hle := hstreak.length_le
  rw [List.length_drop]
  omega

/-- Forgetting results that are too old keeps a streak. -/
theorem EndsInLosses.forget {old : TimePoint × Bool → Bool} (h : EndsInLosses window n results t)
    (hold : ∀ p, old p = true → ¬ t - p.1 ≤ window) :
    EndsInLosses window n (results.dropWhile old) t := by
  obtain ⟨streak, hstreak, hlen, hall⟩ := h
  refine ⟨streak, suffix_dropWhile hstreak (fun p hp => ?_), hlen, hall⟩
  exact Bool.eq_false_iff.2 (fun htoo => hold p htoo (hall p hp).2)

/-- The losses at the end are at least as many as a streak has. -/
theorem EndsInLosses.length_le (h : EndsInLosses window n results t) : n ≤ endLosses results := by
  obtain ⟨streak, hstreak, rfl, hall⟩ := h
  exact le_endLosses_of_suffix hstreak (fun p hp => (hall p hp).1)

end

/-! ## What has been recorded since the last expired cooloff -/

/-- A risk manager, with the results recorded since its last expired cooloff. -/
structure LossLog where
  rm : RiskManager
  since : List (TimePoint × Bool) := []

namespace LossLog

/-- The results that count at time `t`: if the cooloff has run out by then, only those recorded from
    its end on. -/
def sinceExpiry (log : LossLog) (t : TimePoint) : List (TimePoint × Bool) :=
  if log.rm.lastLossStreakTs ≠ 0 ∧ log.rm.lastLossStreakTs + log.rm.cfg.cooloff ≤ t then
    log.since.dropWhile (fun p => decide (p.1 < log.rm.lastLossStreakTs + log.rm.cfg.cooloff))
  else log.since

/-- A call, and the results recorded since the last expired cooloff. -/
def step (log : LossLog) (op : RiskOp) : LossLog :=
  { rm := log.rm.step op, since := log.sinceExpiry op.time ++ op.results }

/-- The log after some calls. -/
def run (log : LossLog) (ops : List RiskOp) : LossLog := ops.foldl step log

theorem run_rm (log : LossLog) (ops : List RiskOp) : (log.run ops).rm = log.rm.run ops := by
  induction ops generalizing log with
  | nil => rfl
  | cons op ops ih => exact ih (log.step op)

theorem sinceExpiry_suffix (log : LossLog) (t : TimePoint) : log.sinceExpiry t <:+ log.since := by
  unfold sinceExpiry
  split
  · exact List.dropWhile_suffix _
  · exact List.suffix_rfl

/-- The results recorded since the last expired cooloff, up to and with the one at `t`, end with a
    streak: enough losses within the window. -/
def Streak (log : LossLog) (t : TimePoint) : Prop :=
  EndsInLosses log.rm.cfg.lossWindow log.rm.cfg.maxConsecutiveLosses.toNat log.since t

/-- An evaluation that gets to R11 and finds the cooloff over does not clear a loss that counts: the
    last result is not a loss recorded from the end of the cooloff on. -/
def ForgetsNoLoss (log : LossLog) : RiskOp → Prop
  | .evaluate now univ _ _ plan state =>
      firstRejection (log.rm.rulesToRate now univ plan state) = none →
      log.rm.lastLossStreakTs ≠ 0 → log.rm.lastLossStreakTs + log.rm.cfg.cooloff ≤ now →
        ¬ EndsInLosses log.rm.cfg.lossWindow 1 (log.sinceExpiry now) now
  | _ => True

/-! ## The code keeps every streak -/

/-- Every streak that counts, up to the length that starts a cooloff, is in the code's history too. -/
def Tracks (log : LossLog) (future : List TimePoint) : Prop :=
  ∀ t ∈ future, ∀ n : ℕ, (n : ℤ) ≤ log.rm.cfg.maxConsecutiveLosses →
    EndsInLosses log.rm.cfg.lossWindow n log.since t →
      EndsInLosses log.rm.cfg.lossWindow n log.rm.lossHistory t

/-- The configurations for which the history can hold a streak. -/
structure Config (cfg : RiskConfig) : Prop where
  pos : 1 ≤ cfg.maxConsecutiveLosses
  fits : cfg.maxConsecutiveLosses ≤ cfg.maxLossHistory

/-- `record_trade_end` adds the result on both sides, and what it drops is in no streak. -/
theorem endsInLosses_recordTradeEnd {rm : RiskManager} (hcfg : Config rm.cfg)
    {since : List (TimePoint × Bool)} {isLoss : Bool} {ts t : TimePoint} (ht : ts ≤ t) {n : ℕ}
    (hn : (n : ℤ) ≤ rm.cfg.maxConsecutiveLosses)
    (hkeeps : ∀ k : ℕ, (k : ℤ) ≤ rm.cfg.maxConsecutiveLosses →
      EndsInLosses rm.cfg.lossWindow k since t → EndsInLosses rm.cfg.lossWindow k rm.lossHistory t)
    (h : EndsInLosses rm.cfg.lossWindow n (since ++ [(ts, isLoss)]) t) :
    EndsInLosses rm.cfg.lossWindow n (rm.recordTradeEnd isLoss ts).lossHistory t := by
  cases n with
  | zero => exact endsInLosses_zero
  | succ k =>
      obtain ⟨hrest, hloss⟩ := endsInLosses_concat.1 h
      have hgrown : EndsInLosses rm.cfg.lossWindow (k + 1) (rm.lossHistory ++ [(ts, isLoss)]) t :=
        endsInLosses_concat.2 ⟨hkeeps k (by omega) hrest, hloss⟩
      have hfits := hcfg.fits
      refine (hgrown.cut (show k + 1 ≤ rm.cfg.maxLossHistory by omega)).forget (fun p hp => ?_)
      have hold : rm.cfg.lossWindow < ts - p.1 := by simpa [RiskConfig.lossWindow] using hp
      intro hwithin
      linarith

/-- A streak as long as the limit starts a cooloff. -/
theorem recordTradeEnd_starts {rm : RiskManager} (hcfg : Config rm.cfg) {isLoss : Bool}
    {ts : TimePoint} (h : EndsInLosses rm.cfg.lossWindow rm.cfg.maxConsecutiveLosses.toNat
      (rm.recordTradeEnd isLoss ts).lossHistory ts) :
    (rm.recordTradeEnd isLoss ts).lastLossStreakTs = ts := by
  have hpos := hcfg.pos
  have hlong : rm.cfg.maxConsecutiveLosses
      ≤ (((rm.recordTradeEnd isLoss ts).lossHistory.reverse.takeWhile Prod.snd).length : ℕ) := by
    have hlen : _ ≤ endLosses (rm.recordTradeEnd isLoss ts).lossHistory := h.length_le
    rw [endLosses] at hlen
    omega
  exact if_pos hlong

/-- An evaluation leaves the results and the cooloff alone, or it gets to R11, finds a cooloff over and
    clears both. -/
theorem evaluate_losses (rm : RiskManager) (now : TimePoint) (univ : TickerUniverse)
    (news : NewsCalendar) (later : TimePoint) (plan : TradePlan) (state : AccountState) :
    (rm.evaluate now univ news later plan state).1.lossHistory = rm.lossHistory ∧
        (rm.evaluate now univ news later plan state).1.lastLossStreakTs = rm.lastLossStreakTs ∨
      firstRejection (rm.rulesToRate now univ plan state) = none ∧ rm.lastLossStreakTs ≠ 0 ∧
        rm.lastLossStreakTs + rm.cfg.cooloff ≤ now := by
  have hcases := rm.evaluate_cases now univ news later plan state
  generalize rm.evaluate now univ news later plan state = out at hcases
  -- past R11 the cooloff was not running, so expiring it changes nothing or it was over
  have past : firstRejection (rm.rulesToRate now univ plan state) = none →
      rm.cooloffRule now = none →
      ((rm.pruneTrades now).expireCooloff.lossHistory = rm.lossHistory ∧
          (rm.pruneTrades now).expireCooloff.lastLossStreakTs = rm.lastLossStreakTs) ∨
        firstRejection (rm.rulesToRate now univ plan state) = none ∧ rm.lastLossStreakTs ≠ 0 ∧
          rm.lastLossStreakTs + rm.cfg.cooloff ≤ now := by
    intro hrules hcool
    by_cases hzero : rm.lastLossStreakTs = 0
    · have hsame : (rm.pruneTrades now).expireCooloff = rm.pruneTrades now :=
        if_neg (not_not.2 hzero)
      rw [hsame]
      exact Or.inl ⟨rfl, rfl⟩
    · have hover : ¬ now - rm.lastLossStreakTs < rm.cfg.cooloff :=
        fun hlt => rejectIf_eq_none.1 hcool ⟨hzero, hlt⟩
      exact Or.inr ⟨hrules, hzero, by linarith⟩
  cases hcases with
  | unbooked | limited => exact Or.inl ⟨rfl, rfl⟩
  | late size risk hrules hcool => exact past hrules hcool
  | accepted size risk hrules hcool => exact past hrules hcool

theorem Tracks.step {log : LossLog} (hcfg : Config log.rm.cfg) {op : RiskOp}
    {future : List TimePoint} (h : log.Tracks (op.time :: future))
    (hle : ∀ t ∈ future, op.time ≤ t) (hforgets : log.ForgetsNoLoss op) :
    (log.step op).Tracks future := by
  intro t ht n hn hends
  have hcfg' : (log.step op).rm.cfg = log.rm.cfg := log.rm.step_cfg op
  rw [hcfg'] at hn hends ⊢
  have hkeeps := h t (List.mem_cons_of_mem _ ht)
  have hsince : ∀ k : ℕ, (k : ℤ) ≤ log.rm.cfg.maxConsecutiveLosses →
      EndsInLosses log.rm.cfg.lossWindow k (log.sinceExpiry op.time) t →
        EndsInLosses log.rm.cfg.lossWindow k log.rm.lossHistory t :=
    fun k hk hends => hkeeps k hk (hends.of_suffix (log.sinceExpiry_suffix op.time))
  cases op with
  | recordTradeEnd isLoss ts =>
      exact endsInLosses_recordTradeEnd hcfg (hle t ht) hn hsince hends
  | updateFundingTime now ticker ts =>
      refine hsince n hn ?_
      simpa [LossLog.step, RiskOp.results] using hends
  | evaluate now univ news later plan state =>
      -- only an evaluation that gets past R11 clears results
      have hends' : EndsInLosses log.rm.cfg.lossWindow n (log.sinceExpiry now) t := by
        simpa [LossLog.step, RiskOp.results, RiskOp.time] using hends
      rcases evaluate_losses log.rm now univ news later plan state with
        ⟨hsame, _⟩ | ⟨hrules, hrunning, hover⟩
      · show EndsInLosses _ n (log.rm.evaluate now univ news later plan state).1.lossHistory t
        rw [hsame]
        exact hsince n hn hends'
      -- the history may be cleared, but no streak that counts is left
      · have hnone := hforgets hrules hrunning hover
        have hzero : n = 0 := by
          by_contra hne
          exact hnone ((hends'.mono (Nat.one_le_iff_ne_zero.2 hne)).earlier (hle t ht))
        rw [hzero]
        exact endsInLosses_zero

theorem Tracks.run {log : LossLog} (hcfg : Config log.rm.cfg) {ops : List RiskOp}
    {future : List TimePoint} (h : log.Tracks (ops.map RiskOp.time ++ future))
    (hsorted : (ops.map RiskOp.time ++ future).Pairwise (· ≤ ·))
    (hforgets : Along LossLog.step ForgetsNoLoss log ops) : (log.run ops).Tracks future := by
  induction ops generalizing log with
  | nil => exact h
  | cons op ops ih =>
      obtain ⟨hle, hsorted⟩ := List.pairwise_cons.1 hsorted
      have hstep : (log.step op).Tracks (ops.map RiskOp.time ++ future) :=
        h.step hcfg hle hforgets.1
      exact ih (log.rm.step_cfg op ▸ hcfg) hstep hsorted hforgets.2

end LossLog

/-! ## A running cooloff -/

/-- While a cooloff started at `t₀` or later runs, it is not forgotten. -/
theorem step_in_cooloff {rm : RiskManager} {t₀ : TimePoint} (h : t₀ ≤ rm.lastLossStreakTs)
    {op : RiskOp} (hafter : t₀ ≤ op.time) (hactive : op.time < t₀ + rm.cfg.cooloff) :
    t₀ ≤ (rm.step op).lastLossStreakTs := by
  cases op with
  | updateFundingTime now ticker ts => exact h
  | recordTradeEnd isLoss ts =>
      show t₀ ≤ (rm.recordTradeEnd isLoss ts).lastLossStreakTs
      unfold RiskManager.recordTradeEnd
      dsimp only
      split
      · exact hafter
      · exact h
  | evaluate now univ news later plan state =>
      rcases LossLog.evaluate_losses rm now univ news later plan state with ⟨_, hsame⟩ | ⟨_, _, hover⟩
      · exact h.trans hsame.ge
      · have hnow : now < t₀ + rm.cfg.cooloff := hactive
        linarith

theorem run_in_cooloff {rm : RiskManager} {t₀ now : TimePoint} (h : t₀ ≤ rm.lastLossStreakTs)
    {ops : List RiskOp} (hafter : ∀ op ∈ ops, t₀ ≤ op.time)
    (hbefore : ∀ op ∈ ops, op.time ≤ now) (hactive : now < t₀ + rm.cfg.cooloff) :
    t₀ ≤ (rm.run ops).lastLossStreakTs := by
  induction ops generalizing rm with
  | nil => exact h
  | cons op ops ih =>
      have hop : op.time < t₀ + rm.cfg.cooloff :=
        (hbefore op (List.mem_cons_self ..)).trans_lt hactive
      have hstep : t₀ ≤ (rm.step op).lastLossStreakTs :=
        step_in_cooloff h (hafter op (List.mem_cons_self ..)) hop
      refine ih hstep (fun o ho => hafter o (List.mem_cons_of_mem _ ho))
        (fun o ho => hbefore o (List.mem_cons_of_mem _ ho)) ?_
      rw [rm.step_cfg op]
      exact hactive

/-- R11 rejects while a cooloff runs. -/
theorem not_accepted_in_cooloff {rm : RiskManager} {t₀ now : TimePoint} (hpos : 0 < t₀)
    (h : t₀ ≤ rm.lastLossStreakTs) (hactive : now < t₀ + rm.cfg.cooloff) (univ : TickerUniverse)
    (news : NewsCalendar) (later : TimePoint) (plan : TradePlan) (state : AccountState) :
    (rm.evaluate now univ news later plan state).2.accepted = false := by
  rw [Bool.eq_false_iff]
  intro hacc
  rw [RiskManager.evaluate_accepted_iff, firstRejection_eq_none] at hacc
  have hcool : rm.cooloffRule now = none := hacc _ (by simp [RiskManager.rules])
  refine rejectIf_eq_none.1 hcool ⟨(hpos.trans_le h).ne', ?_⟩
  show now - rm.lastLossStreakTs < rm.cfg.cooloff
  linarith

/-! ## The results -/

/-- A streak makes the code start a cooloff. -/
theorem streak_starts {cfg : RiskConfig} (hcfg : LossLog.Config cfg) {before : List RiskOp}
    {isLoss : Bool} {t₀ : TimePoint} (hsorted : (before.map RiskOp.time ++ [t₀]).Pairwise (· ≤ ·))
    (hforgets : Along LossLog.step LossLog.ForgetsNoLoss { rm := { cfg := cfg } } before)
    (hstreak : (LossLog.run { rm := { cfg := cfg } }
      (before ++ [RiskOp.recordTradeEnd isLoss t₀])).Streak t₀) :
    ((({ cfg := cfg } : RiskManager).run before).recordTradeEnd isLoss t₀).lastLossStreakTs
      = t₀ := by
  set rm : RiskManager := { cfg := cfg } with hrm
  set record := RiskOp.recordTradeEnd isLoss t₀ with hrecord
  -- an empty history agrees with itself, and the run keeps them in agreement up to `t₀`
  have htracks : (LossLog.run { rm := rm } (before ++ [record])).Tracks [t₀] := by
    have hempty : LossLog.Tracks { rm := rm }
        ((before ++ [record]).map RiskOp.time ++ [t₀]) := fun _ _ _ _ h => h
    refine hempty.run hcfg ?_ (along_append.2 ⟨hforgets, trivial, trivial⟩)
    rw [List.map_append]
    refine List.pairwise_append.2 ⟨hsorted, List.pairwise_singleton _ _, ?_⟩
    intro t ht t' ht'
    rw [List.mem_singleton.1 ht']
    rcases List.mem_append.1 ht with ht | ht
    · exact (List.pairwise_append.1 hsorted).2.2 t ht t₀ (List.mem_singleton_self t₀)
    · exact (List.mem_singleton.1 ht).le
  have hrun : (LossLog.run { rm := rm } (before ++ [record])).rm
      = (rm.run before).recordTradeEnd isLoss t₀ := by
    rw [LossLog.run_rm, RiskManager.run, List.foldl_append]
    rfl
  have hbefore : (rm.run before).cfg = cfg := rm.run_cfg before
  have hafter : ((rm.run before).recordTradeEnd isLoss t₀).cfg = cfg := hbefore
  have hpos := hcfg.pos
  have hends := htracks t₀ (List.mem_singleton_self t₀) cfg.maxConsecutiveLosses.toNat
  rw [hrun, hafter] at hends
  rw [LossLog.Streak, hrun, hafter] at hstreak
  refine LossLog.recordTradeEnd_starts (hbefore ▸ hcfg) ?_
  rw [hbefore]
  exact hends (by omega) hstreak

/-- If no evaluation clears a loss that was recorded after the end of the cooloff it expires, then
    after a streak no plan is accepted for the length of a cooloff, whatever else is called. -/
theorem no_entry_in_cooloff (cfg : RiskConfig) (hmin : 1 ≤ cfg.maxConsecutiveLosses)
    (hfits : cfg.maxConsecutiveLosses ≤ cfg.maxLossHistory) (before after : List RiskOp)
    (isLoss : Bool) (t₀ : TimePoint) (hepoch : 0 < t₀) (now : TimePoint) (univ : TickerUniverse)
    (news : NewsCalendar) (later : TimePoint) (plan : TradePlan) (state : AccountState)
    (hsorted : ((before.map RiskOp.time ++ [t₀]) ++ (after.map RiskOp.time ++ [now])).Pairwise
      (· ≤ ·))
    (hforgets : Along LossLog.step LossLog.ForgetsNoLoss { rm := { cfg := cfg } } before)
    (hstreak : (LossLog.run { rm := { cfg := cfg } }
      (before ++ [RiskOp.recordTradeEnd isLoss t₀])).Streak t₀)
    (hactive : now < t₀ + cfg.cooloff) :
    ((({ cfg := cfg } : RiskManager).run
      (before ++ [RiskOp.recordTradeEnd isLoss t₀] ++ after)).evaluate
        now univ news later plan state).2.accepted = false := by
  set rm : RiskManager := { cfg := cfg } with hrm
  obtain ⟨hbefore, hafter, hacross⟩ := List.pairwise_append.1 hsorted
  -- the streak starts the cooloff
  have hstarts : ((rm.run before).recordTradeEnd isLoss t₀).lastLossStreakTs = t₀ :=
    streak_starts ⟨hmin, hfits⟩ hbefore hforgets hstreak
  have hactive' : now < t₀ + ((rm.run before).recordTradeEnd isLoss t₀).cfg.cooloff := by
    show now < t₀ + (rm.run before).cfg.cooloff
    rw [rm.run_cfg before]
    exact hactive
  have hlate : ∀ op ∈ after, t₀ ≤ op.time := fun op hop =>
    hacross t₀ (by simp) op.time (List.mem_append_left _ (List.mem_map_of_mem hop))
  have hearly : ∀ op ∈ after, op.time ≤ now := fun op hop =>
    (List.pairwise_append.1 hafter).2.2 op.time (List.mem_map_of_mem hop) now (by simp)
  have hrun : rm.run (before ++ [RiskOp.recordTradeEnd isLoss t₀] ++ after)
      = ((rm.run before).recordTradeEnd isLoss t₀).run after := by
    rw [RiskManager.run, List.foldl_append, List.foldl_append]
    rfl
  rw [hrun]
  -- nothing that is called before its end clears it
  refine not_accepted_in_cooloff hepoch
    (run_in_cooloff hstarts.ge hlate hearly hactive') ?_ univ news later plan state
  rw [RiskManager.run_cfg]
  exact hactive'

/-- Losses at the given minutes. -/
def lossesAt (mins : List ℤ) : List RiskOp := mins.map (fun m => .recordTradeEnd true (m * nsPerMin))

/-- Losses at 1, 2 and 3 start a cooloff, which the evaluation at 14 expires. -/
def expiredCooloff : List RiskOp := lossesAt [1, 2, 3] ++ [scalpCall (14 * nsPerMin)]

/-- Losses at 15, 16 and 17 are the next streak: no entry at 18. -/
theorem no_entry_in_cooloff_second :
    ((({ cfg := {} } : RiskManager).run (expiredCooloff ++ lossesAt [15, 16] ++
      [RiskOp.recordTradeEnd true (17 * nsPerMin)] ++ [])).evaluate (18 * nsPerMin)
        (boostedUniverse 0) [] (18 * nsPerMin) scalpPlan scalpAccount).2.accepted = false := by
  have hclears : LossLog.ForgetsNoLoss
      (LossLog.run { rm := { cfg := {} } } (lossesAt [1, 2, 3])) (scalpCall (14 * nsPerMin)) := by
    rintro - - - ⟨streak, hsuf, hlen, -⟩
    have hnone : (LossLog.run { rm := { cfg := {} } } (lossesAt [1, 2, 3])).sinceExpiry
        (14 * nsPerMin) = [] := by decide +kernel
    rw [hnone, List.suffix_nil] at hsuf
    rw [hsuf] at hlen
    cases hlen
  exact no_entry_in_cooloff {} (by decide) (by decide) (expiredCooloff ++ lossesAt [15, 16]) [] true
    (17 * nsPerMin) (by decide) (18 * nsPerMin) (boostedUniverse 0) [] (18 * nsPerMin) scalpPlan
    scalpAccount (by decide +kernel)
    ⟨trivial, trivial, trivial, hclears, trivial, trivial, trivial⟩
    ⟨[(15 * nsPerMin, true), (16 * nsPerMin, true), (17 * nsPerMin, true)],
      by decide +kernel, by decide +kernel, by decide +kernel⟩
    (by decide)

/-- A win at 13 and losses at 14 and 15 come after the cooloff has run out at 13; the evaluation at 16
    clears them, and with the loss at 17 the streak goes unnoticed: the plan at 18 is accepted. -/
theorem entry_after_streak :
    ¬ ∀ (cfg : RiskConfig), 1 ≤ cfg.maxConsecutiveLosses →
        cfg.maxConsecutiveLosses ≤ cfg.maxLossHistory →
        ∀ (before after : List RiskOp) (isLoss : Bool) (t₀ : TimePoint), 0 < t₀ →
          (∀ op ∈ before ++ after, 0 < op.time) →
        ∀ (now : TimePoint) (univ : TickerUniverse) (news : NewsCalendar) (later : TimePoint)
          (plan : TradePlan) (state : AccountState),
          ((before.map RiskOp.time ++ [t₀]) ++ (after.map RiskOp.time ++ [now])).Pairwise (· ≤ ·) →
          (LossLog.run { rm := { cfg := cfg } }
            (before ++ [RiskOp.recordTradeEnd isLoss t₀])).Streak t₀ →
          now < t₀ + cfg.cooloff →
          ((({ cfg := cfg } : RiskManager).run
            (before ++ [RiskOp.recordTradeEnd isLoss t₀] ++ after)).evaluate
              now univ news later plan state).2.accepted = false := by
  intro hall
  have hno := hall {} (by decide) (by decide)
    (lossesAt [1, 2, 3] ++ [.recordTradeEnd false (13 * nsPerMin)] ++ lossesAt [14, 15] ++
      [scalpCall (16 * nsPerMin)]) [] true (17 * nsPerMin) (by decide) (by decide) (18 * nsPerMin)
    (boostedUniverse (18 * nsPerMin)) [] (18 * nsPerMin) scalpPlan scalpAccount (by decide +kernel)
    ⟨[(14 * nsPerMin, true), (15 * nsPerMin, true), (17 * nsPerMin, true)],
      by decide +kernel, by decide +kernel, by decide +kernel⟩
    (by decide)
  revert hno
  decide +kernel

end TradeBot
