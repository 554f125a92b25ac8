import TradeBot.Executor.Outcomes

set_option autoImplicit false

/-! # The trades that are not closed

Only `submit` and `inject_recovered_trades` add a trade, and no operation reopens one: every other
operation at most shrinks the set of trades that are not closed.

The two directions are used by the limits on positions: what is open now was open before or has just
been taken in (`step_openPlans`), and an operation that does not close keeps what is open
(`step_openPlans_superset`). Both are read off the outcomes of a turn, in which a closed trade stays
closed (`TradeOutcome.closed`). -/

namespace TradeBot

open LiveExecutor

/-- No turn reopens a closed trade. -/
theorem TradeOutcome.closed {ex : LiveExecutor} {m : Members} {op : Op} {t t' : ActiveTrade}
    {evs : List Event} (h : TradeOutcome ex m t op evs t') (hst : t.state = .closed) :
    t'.state = .closed := by
  have hnoupd : ∀ {upd om}, selectTrade upd t ≠ some om := fun hsel =>
    (selectTrade_eq_some hsel).1 hst
  cases h with
  | rest => exact hst
  | position => exact hst
  | cancel hticker hok hopen => exact absurd hst hopen
  | ack hroute hsel | dead hroute hsel | partly hroute hsel | slipped hroute hsel
  | slipRefused hroute hsel | entry hroute hsel | tp1Bare hroute hsel | tp1BreakEven hroute hsel
  | tp1Failed hroute hsel | exit hroute hsel => exact absurd hsel hnoupd
  | emergency hdue hopen | resolved hopen | timeout hopen | close hticker hopen =>
      exact absurd (hst.symm.trans hopen) (by simp)
  | rearm hspared hdue => exact hst

namespace LiveExecutor

/-- The uids and plans of the trades that are not closed. -/
def openPlans (ex : LiveExecutor) : List (ℕ × TradePlan) :=
  (ex.allTrades.filter (fun t => decide (t.state ≠ .closed))).map (fun t => (t.uid, t.plan))

variable {ex : LiveExecutor}

theorem mem_openPlans {u : ℕ} {plan : TradePlan} :
    (u, plan) ∈ ex.openPlans ↔
      ∃ t ∈ ex.allTrades, t.state ≠ .closed ∧ t.uid = u ∧ t.plan = plan := by
  simp only [openPlans, List.mem_map, List.mem_filter, decide_eq_true_eq, Prod.mk.injEq, and_assoc]

/-- How many trades with `p` are not closed. -/
def openTrades (ex : LiveExecutor) (p : TradePlan → Bool) : ℕ :=
  ex.allTrades.countP (fun t => decide (t.state ≠ .closed) && p t.plan)

theorem openTrades_eq (p : TradePlan → Bool) :
    ex.openTrades p = ex.openPlans.countP (fun x => p x.2) := by
  rw [openTrades, openPlans, List.countP_map, List.countP_filter]
  refine List.countP_congr fun t _ => ?_
  simp [and_comm]

theorem openPlans_nodup (hwf : ex.WF) : ex.openPlans.Nodup := by
  have huids : (ex.openPlans.map Prod.fst).Nodup := by
    rw [openPlans, List.map_map]
    exact hwf.nodup.sublist (List.filter_sublist.map _)
  exact huids.of_map _

/-- The operation takes a new trade in. -/
def Op.takesIn : Op → Prop
  | .submit .. | .injectRecoveredTrades _ => True
  | _ => False

/-- A trade that is not closed was there before and not closed, or the operation took it in. -/
theorem step_openPlans (hwf : ex.WF) (op : Op) {u : ℕ} {plan : TradePlan}
    (h : (u, plan) ∈ (ex.step op).openPlans) :
    (u, plan) ∈ ex.openPlans ∨ ∃ t' evs, Born ex op t' evs ∧ t'.uid = u ∧ t'.plan = plan := by
  have hsim := step_sim hwf op
  obtain ⟨t', ht', hst', rfl, rfl⟩ := mem_openPlans.1 h
  by_cases hu : t'.uid < ex.nextUid
  · obtain ⟨t, ht, huid, m₁, m₂, _, hturn, _⟩ := hsim.old t' ht' hu
    obtain ⟨evs, _, hout⟩ := hturn.outcome
    refine .inl (mem_openPlans.2 ⟨t, ht, ?_, huid, hturn.keeps.plan.symm⟩)
    intro hst
    exact hst' (hout.closed hst)
  · obtain ⟨evs, _, hborn⟩ := hsim.born t' ht' (not_lt.1 hu)
    exact .inr ⟨t', evs, hborn, rfl, rfl⟩

theorem step_openPlans_subset (hwf : ex.WF) {op : Op} (hop : ¬ op.takesIn) :
    (ex.step op).openPlans ⊆ ex.openPlans := by
  rintro ⟨u, plan⟩ h
  obtain hold | ⟨t', evs, hborn, -⟩ := step_openPlans hwf op h
  · exact hold
  · cases hborn with
    | submitted | injected => exact absurd trivial hop

/-- The operation may close a trade. -/
def Op.mayClose : Op → Prop
  | .onOrderUpdate .. | .tick .. | .closeTrade .. => True
  | _ => False

/-- No other operation closes a trade. -/
theorem step_openPlans_superset (hwf : ex.WF) (op : Op) (hop : ¬ op.mayClose) :
    ex.openPlans ⊆ (ex.step op).openPlans := by
  rintro ⟨u, plan⟩ h
  have hsim := step_sim hwf op
  obtain ⟨t, ht, hst, rfl, rfl⟩ := mem_openPlans.1 h
  obtain ⟨t', ht', huid⟩ | ⟨-, hclosed⟩ := hsim.kept t ht
  · obtain ⟨t₀, ht₀, huid₀, m₁, m₂, _, hturn, _⟩ :=
      hsim.old t' ht' (huid.trans_lt (hwf.fresh t ht))
    have hsame : t₀ = t := List.inj_on_of_nodup_map hwf.nodup ht₀ ht (huid₀.trans huid)
    subst hsame
    refine mem_openPlans.2 ⟨t', ht', ?_, huid, hturn.keeps.plan⟩
    obtain ⟨evs, -, hout⟩ := hturn.outcome
    cases hout with
    | rest | position => exact hst
    | cancel => simp
    | _ => exact absurd trivial hop
  · exact absurd hclosed hst

/-- From `ex` to `ex'` no trade came in and none was reopened. -/
structure Shrinks (ex ex' : LiveExecutor) : Prop where
  wf : ex'.WF
  plans : ex'.openPlans ⊆ ex.openPlans

theorem Shrinks.refl (hwf : ex.WF) : Shrinks ex ex := ⟨hwf, List.Subset.refl _⟩

theorem Shrinks.step {ex' : LiveExecutor} (h : Shrinks ex ex') (op : Op) (hop : ¬ op.takesIn) :
    Shrinks ex (ex'.step op) :=
  ⟨h.wf.step op, List.Subset.trans (step_openPlans_subset h.wf hop) h.plans⟩

theorem Shrinks.countP_le {ex' : LiveExecutor} (h : Shrinks ex ex') (p : ℕ × TradePlan → Bool) :
    ex'.openPlans.countP p ≤ ex.openPlans.countP p :=
  ((openPlans_nodup h.wf).subperm h.plans).countP_le p

theorem submit_openPlans_subset (hwf : ex.WF) (env : Env) (ns : ℕ) (now : TimePoint)
    (plan : TradePlan) :
    (ex.submit env ns now plan).openPlans ⊆ (ex.nextUid, plan) :: ex.openPlans := by
  rintro ⟨u, plan'⟩ h
  obtain hold | ⟨t', evs, hborn, rfl, rfl⟩ := step_openPlans hwf (.submit env ns now plan) h
  · exact List.mem_cons_of_mem _ hold
  · cases hborn with
    | submitted => exact List.mem_cons_self ..

theorem submit_countP_le (hwf : ex.WF) (env : Env) (ns : ℕ) (now : TimePoint) (plan : TradePlan)
    (p : ℕ × TradePlan → Bool) :
    (ex.submit env ns now plan).openPlans.countP p
      ≤ ((ex.nextUid, plan) :: ex.openPlans).countP p :=
  ((openPlans_nodup (hwf.step (.submit env ns now plan))).subperm
    (submit_openPlans_subset hwf env ns now plan)).countP_le p

end LiveExecutor

end TradeBot
