import Mathlib.Data.List.TakeWhile
import TradeBot.Lib.Runs
import TradeBot.Strategy.Strategies

set_option autoImplicit false

/-! # Evidence for an exit

What the three strategies that watch signals close a trade for. Their exit rules look back from the
time of the check, not from the entry, so a signal from before the entry closes the trade as long as it
is in the rule's window.

The three strategies are one `Playbook` each, so the run is that of any playbook. `Fresh` is the
invariant: while a trade is monitored, every signal that an exit rule could count came after its
acceptance. The steps of a run have to keep it (`Timely`): an acceptance may find no such signal in
the context, and none may come in late. -/

namespace TradeBot

/-! ## The signals an exit rule looks at -/

namespace ExitRule

variable (rule : ExitRule)

/-- A signal from the time up to an acceptance at `t` that counts is out of the rule's window by `t`. -/
def Settled (t : TimePoint) (plan : StrategyPlan) (sig : Signal) : Prop :=
  rule.counts plan sig = true → sig.timestamp ≤ t → rule.window plan < t - sig.timestamp

instance (t : TimePoint) (plan : StrategyPlan) (sig : Signal) : Decidable (rule.Settled t plan sig) :=
  inferInstanceAs (Decidable (_ → _ → _))

theorem evidence?_eq_some {now : TimePoint} {ctx : StrategyContext} {plan : StrategyPlan}
    {sig : Signal} (h : rule.evidence? now ctx plan = some sig) :
    sig ∈ rule.candidates ctx ∧ rule.counts plan sig = true ∧
      now - sig.timestamp ≤ rule.window plan := by
  have hmem := List.mem_of_find?_eq_some h
  have hrecent := List.mem_takeWhile_imp hmem
  exact ⟨List.takeWhile_sublist _ |>.subset hmem, List.find?_some h, of_decide_eq_true hrecent⟩

/-- A new signal is looked at by the rules of its kind, and no other signal comes in with it. -/
theorem mem_candidates_updateSignal {signal sig : Signal} {ctx : StrategyContext}
    (h : sig ∈ rule.candidates (ctx.updateSignal signal)) :
    sig ∈ rule.candidates ctx ∨ (sig = signal ∧ rule.kind = signal.kind) := by
  by_cases hscans : rule.scans = true
  · rw [candidates, if_pos hscans, List.mem_filter, List.mem_reverse] at h
    rw [candidates, if_pos hscans, List.mem_filter, List.mem_reverse]
    rcases StrategyContext.mem_updateSignal h.1 with hold | rfl
    · exact Or.inl ⟨hold, h.2⟩
    · exact Or.inr ⟨rfl, (of_decide_eq_true h.2).symm⟩
  · rw [candidates, if_neg hscans, StrategyContext.updateSignal_recent] at h
    rw [candidates, if_neg hscans]
    by_cases hkind : rule.kind = signal.kind
    · rw [if_pos hkind, Option.toList_some, List.mem_singleton] at h
      exact Or.inr ⟨h, hkind⟩
    · rw [if_neg hkind] at h
      exact Or.inl h

end ExitRule

/-! ## Runs of one strategy -/

/-- A requested close: when the trade was accepted, and the signal that the rule found. -/
structure RequestedClose where
  acceptedAt : TimePoint
  reason : String
  evidence : Signal
  deriving DecidableEq

/-- A strategy with the time it last accepted a trade and the closes it requested. -/
structure Monitor where
  base : StrategyBase
  acceptedAt : TimePoint := 0
  closes : List RequestedClose := []

namespace Monitor

/-- What happens to one strategy. -/
inductive Op
  | frame (frame : FeatureFrame)
  | signal (signal : Signal) (now : TimePoint)
  | tick (now : TimePoint)
  | accept (plan : StrategyPlan) (now : TimePoint)
  | reset
  | check (now : TimePoint)

variable (book : Playbook)

/-- The strategy, and which of its trades was ended by which signal. -/
def step (m : Monitor) : Op → Monitor
  | .frame frame => { m with base := m.base.onFrame frame }
  | .signal signal now => { m with base := (book.onSignal signal now m.base).1 }
  | .tick now => { m with base := m.base.expirePlan now }
  | .accept plan now =>
      { m with
        base := m.base.onPlanAccepted book.name plan
        acceptedAt := if plan.strategyName = book.name then now else m.acceptedAt }
  | .reset => { m with base := m.base.resetActivePlan }
  | .check now =>
      { m with
        base := (book.checkCloseConditions now m.base).1
        closes := m.closes ++
          ((m.base.activeTradeInfo.bind (book.exit? now m.base.ctx)).map
            (fun e => ⟨m.acceptedAt, e.1, e.2⟩)).toList }

/-- A new strategy after a list of operations. -/
def run (base : StrategyBase) (ops : List Op) : Monitor := ops.foldl (step book) { base := base }

/-- Every signal that the exit rules look at is settled for an acceptance at `t`. -/
def Fresh (t : TimePoint) (plan : StrategyPlan) (ctx : StrategyContext) : Prop :=
  ∀ rule ∈ book.exits, ∀ sig ∈ rule.candidates ctx, rule.Settled t plan sig

/-- At an acceptance no signal from before counts any more; a signal that comes in while a trade is
    monitored is no late one that counts; and the clock does not go back behind the acceptance. -/
def Timely (m : Monitor) : Op → Prop
  | .accept plan now => plan.strategyName = book.name → Fresh book now plan m.base.ctx
  | .signal signal _ =>
      ∀ plan ∈ m.base.activeTradeInfo, ∀ rule ∈ book.exits, rule.kind = signal.kind →
        rule.Settled m.acceptedAt plan signal
  | .check now => m.acceptedAt ≤ now
  | _ => True

instance (t : TimePoint) (plan : StrategyPlan) (ctx : StrategyContext) :
    Decidable (Fresh book t plan ctx) :=
  inferInstanceAs (Decidable (∀ rule ∈ book.exits, ∀ sig ∈ rule.candidates ctx, rule.Settled t plan sig))

instance (m : Monitor) : ∀ op, Decidable (Timely book m op)
  | .accept plan now =>
      inferInstanceAs (Decidable (plan.strategyName = book.name → Fresh book now plan m.base.ctx))
  | .signal signal _ =>
      inferInstanceAs (Decidable (∀ plan ∈ m.base.activeTradeInfo, ∀ rule ∈ book.exits,
        rule.kind = signal.kind → rule.Settled m.acceptedAt plan signal))
  | .check now => inferInstanceAs (Decidable (m.acceptedAt ≤ now))
  | .frame _ | .tick _ | .reset => inferInstanceAs (Decidable True)

/-- The monitored trade has nothing against it from before its acceptance, and no trade was ever closed
    for something from before. -/
structure Invariant (m : Monitor) : Prop where
  fresh : ∀ plan ∈ m.base.activeTradeInfo, Fresh book m.acceptedAt plan m.base.ctx
  closes : ∀ c ∈ m.closes, c.acceptedAt < c.evidence.timestamp

variable {book}

theorem Fresh.updateSignal {t : TimePoint} {plan : StrategyPlan} {ctx : StrategyContext}
    {signal : Signal} (h : Fresh book t plan ctx)
    (hsignal : ∀ rule ∈ book.exits, rule.kind = signal.kind → rule.Settled t plan signal) :
    Fresh book t plan (ctx.updateSignal signal) := by
  intro rule hrule sig hsig
  rcases rule.mem_candidates_updateSignal hsig with hold | ⟨rfl, hkind⟩
  · exact h rule hrule sig hold
  · exact hsignal rule hrule hkind

/-- The evidence of a fresh trade came after its acceptance. -/
theorem Fresh.exit {t now : TimePoint} {plan : StrategyPlan} {ctx : StrategyContext}
    {e : String × Signal} (h : Fresh book t plan ctx) (hnow : t ≤ now)
    (he : book.exit? now ctx plan = some e) : t < e.2.timestamp := by
  obtain ⟨rule, hrule, hmap⟩ := List.exists_of_findSome?_eq_some he
  obtain ⟨sig, hsig, rfl⟩ := Option.map_eq_some_iff.1 hmap
  obtain ⟨hmem, hcounts, hrecent⟩ := rule.evidence?_eq_some hsig
  by_contra hold
  have hstale := h rule hrule sig hmem hcounts (not_lt.1 hold)
  have hage : t - sig.timestamp ≤ now - sig.timestamp := sub_le_sub_right hnow _
  exact absurd (hstale.trans_le (hage.trans hrecent)) (lt_irrefl _)

/-- Each step keeps the invariant. -/
theorem step_invariant (m : Monitor) (op : Op) (h : Invariant book m) (hop : Timely book m op) :
    Invariant book (step book m op) := by
  cases op with
  | frame frame =>
      refine ⟨?_, h.closes⟩
      unfold step StrategyBase.onFrame
      dsimp only
      split
      · exact h.fresh
      · exact h.fresh
  | signal signal now =>
      refine ⟨fun plan hplan => ?_, h.closes⟩
      obtain ⟨htrade, hctx⟩ := book.onSignal_fst signal now m.base
      simp only [step, htrade] at hplan ⊢
      -- a signal of another ticker leaves the context alone; one of its own may not count
      rcases hctx with hctx | hctx
      · rw [hctx]
        exact h.fresh plan hplan
      · rw [hctx]
        exact (h.fresh plan hplan).updateSignal (hop plan hplan)
  | tick now =>
      refine ⟨?_, h.closes⟩
      unfold step StrategyBase.expirePlan
      dsimp only
      split
      · exact h.fresh
      · exact h.fresh
  | accept plan now =>
      refine ⟨?_, h.closes⟩
      by_cases hname : plan.strategyName = book.name
      · simp only [step, StrategyBase.onPlanAccepted, if_pos hname]
        rintro _ ⟨⟩
        -- at an acceptance nothing may count that came before
        exact hop hname
      · simp only [step, StrategyBase.onPlanAccepted, if_neg hname]
        exact h.fresh
  | reset => exact ⟨fun plan hplan => by simp [step, StrategyBase.resetActivePlan] at hplan, h.closes⟩
  | check now =>
      obtain ⟨hctx, htrade⟩ := m.base.checkClose_fst
        (fun plan => (book.exit? now m.base.ctx plan).map Prod.fst)
      refine ⟨fun plan hplan => ?_, fun c hc => ?_⟩
      · simp only [step, Playbook.checkCloseConditions] at hplan ⊢
        rw [hctx]
        exact h.fresh plan (htrade plan hplan)
      · rcases List.mem_append.1 hc with hold | hnew
        · exact h.closes c hold
        · -- the close that is recorded now has its evidence from a rule
          obtain ⟨e, he, rfl⟩ := Option.map_eq_some_iff.1 (Option.mem_toList.1 hnew)
          obtain ⟨plan, hplan, hexit⟩ := Option.bind_eq_some_iff.1 he
          exact (h.fresh plan hplan).exit hop hexit

/-- A strategy requests exactly the closes that are recorded. -/
theorem checkCloseConditions_snd (now : TimePoint) (s : StrategyBase) :
    (book.checkCloseConditions now s).2
      = (s.activeTradeInfo.bind (book.exit? now s.ctx)).map Prod.fst := by
  unfold Playbook.checkCloseConditions StrategyBase.checkClose
  cases htrade : s.activeTradeInfo with
  | none => rfl
  | some plan => cases hexit : book.exit? now s.ctx plan <;> simp [hexit]

/-- In a run whose steps are timely, whatever the strategy, only a signal from after the acceptance of
    a trade closes it. -/
theorem closes_after_acceptance (book : Playbook) (base : StrategyBase)
    (hnew : base.activeTradeInfo = none) (ops : List Op)
    (h : Runs.Along (step book) (Timely book) { base := base } ops) :
    ∀ c ∈ (run book base ops).closes, c.acceptedAt < c.evidence.timestamp :=
  (h.invariant (Invariant book) (fun m op hm hop => step_invariant m op hm hop)
    ⟨fun plan hplan => by simp [hnew] at hplan, List.forall_mem_nil _⟩).closes

/-! ## FlushReversal -/

/-- A new FlushReversal on BTC_USDT. -/
def flushBase : StrategyBase := { ticker := "BTC_USDT", priceIncrement := 1 / 100 }

/-- A print at 100, at a second. -/
def aggressivePrint (sec : ℤ) : Signal :=
  { kind := .tapeFlush, timestamp := seconds sec, ticker := "BTC_USDT", price := 100 }

/-- Two aggressive prints and the break of a level, all at once. -/
def flushEntry : List Op :=
  let levelBreak : Signal :=
    { aggressivePrint 100 with kind := .levelBreak, payload := { distBps := -10, touches := 3 } }
  [ .frame { ticker := "BTC_USDT", spreadBps := 1, sellVol5s := 10, priceChange1s := 1 / 10 },
    .signal (aggressivePrint 100) (seconds 100), .signal (aggressivePrint 100) (seconds 100),
    .signal levelBreak (seconds 100) ]

/-- The plan that the entry conditions give. -/
def flushPlan : StrategyPlan :=
  (run (FlushReversal.playbook {}) flushBase flushEntry).base.activePlan.getD { ticker := "" }

/-- The plan is accepted six seconds later, and a third print ends the trade. -/
theorem closes_after_acceptance_flush :
    let ops := flushEntry ++ [.accept flushPlan (seconds 106),
      .signal (aggressivePrint 107) (seconds 107), .check (seconds 108)]
    (run (FlushReversal.playbook {}) flushBase ops).closes ≠ [] ∧
      ∀ c ∈ (run (FlushReversal.playbook {}) flushBase ops).closes,
        c.acceptedAt < c.evidence.timestamp :=
  ⟨by decide +kernel, closes_after_acceptance _ flushBase rfl _ (by decide +kernel)⟩

/-- The plan is accepted at once, and the print that it needed closes the trade at the next check. -/
theorem not_closes_after_acceptance :
    (run (FlushReversal.playbook {}) flushBase flushEntry).base.activePlan = some flushPlan ∧
      ¬ ∀ c ∈ (run (FlushReversal.playbook {}) flushBase
          (flushEntry ++ [.accept flushPlan (seconds 100), .check (seconds 101)])).closes,
        c.acceptedAt < c.evidence.timestamp := by
  decide +kernel

end Monitor

end TradeBot
