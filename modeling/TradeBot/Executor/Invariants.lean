import TradeBot.Executor.Simulation

set_option autoImplicit false

/-! # Invariants of the executor's runs

`WF` holds of every reachable executor. `step_sim` puts the simulation of all operations together,
`submit`, `inject_recovered_trades` and `pop_closed_trades` included. The two rules at the end carry
facts about turns over whole runs: `TurnInvariant.follow` for one trade from any state on, and
`LifeInvariant.run` for all trades from the start.

Both rules ask for the same three facts: a silent step of other trades keeps the property, a turn of
the trade keeps it, and what is gone is gone. A module that proves an invariant gives these for a
property of a trade and the trace, and never looks at the executor's lists. -/

namespace TradeBot

open KeyedPass LiveExecutor

/-- Well-formedness: trades have different uids below `nextUid` and sit under their own ticker, no
    event has a later owner, and the closed-trade buffer is the youngest part of the records. -/
structure LiveExecutor.WF (ex : LiveExecutor) : Prop extends Keyed ex where
  fresh : ∀ t ∈ ex.allTrades, t.uid < ex.nextUid
  owned : ∀ u, ex.nextUid ≤ u → NoneOf u ex.trace
  buffer : ex.closedTrades <:+ recordsIn ex.trace

/-- Between `m` and `m'` nothing happened to trade `u`. -/
def Silent (u : ℕ) (m m' : Members) : Prop := ∃ evs, m'.trace = m.trace ++ evs ∧ NoneOf u evs

theorem Silent.of_trace_eq {u : ℕ} {m m' : Members} (h : m'.trace = m.trace) : Silent u m m' :=
  ⟨[], by simp [h], by simp [NoneOf]⟩

theorem Foreign.silent {u : ℕ} {m m' : Members} (h : Foreign u m m') : Silent u m m' := by
  obtain ⟨evs, hg, hno⟩ := h
  exact ⟨evs, hg.trace, hno⟩

/-- During `op` the trade `t` became `t'`, by one turn. -/
def Evolves (op : Op) (ex ex' : LiveExecutor) (t t' : ActiveTrade) : Prop :=
  ∃ m₁ m₂, Silent t.uid ex.toMembers m₁ ∧ TradeTurn ex op (t, m₁) (t', m₂) ∧
    Silent t.uid m₂ ex'.toMembers

/-- A trade that `submit` adds. -/
def LiveExecutor.submitted (ex : LiveExecutor) (ns : ℕ) (plan : TradePlan) (state : TradeState) :
    ActiveTrade :=
  { plan := plan, entryClientOrderId := generateClientOrderId ns ex.clientSeq, state := state,
    uid := ex.nextUid }

/-- The events of a submission: the entry order, and possibly an alert. -/
def EntryEvents (uid : ℕ) (evs : List Event) : Prop :=
  ∀ e ∈ evs, (∃ req res, e = .placed uid req res ∧ req.reduceOnly = false) ∨
    ∃ msg, e = .alerted uid msg

theorem EntryEvents.owner_eq {uid : ℕ} {evs : List Event} (h : EntryEvents uid evs) :
    ∀ e ∈ evs, e.owner = some uid := by
  intro e he
  rcases h e he with ⟨req, res, rfl, _⟩ | ⟨msg, rfl⟩ <;> rfl

theorem EntryEvents.recordsIn_eq {uid : ℕ} {evs : List Event} (h : EntryEvents uid evs) :
    recordsIn evs = [] := by
  refine List.filterMap_eq_nil_iff.2 (fun e he => ?_)
  rcases h e he with ⟨req, res, rfl, _⟩ | ⟨msg, rfl⟩ <;> rfl

/-- `op` adds the trade `t`, appending `evs`. -/
inductive Born (ex : LiveExecutor) : Op → ActiveTrade → List Event → Prop
  | submitted {env : Env} {ns : ℕ} {now : TimePoint} {plan : TradePlan} {state : TradeState}
      {evs : List Event} (hst : state = .pendingEntry ∨ state = .submitUnknown)
      (hevs : EntryEvents ex.nextUid evs) :
      Born ex (.submit env ns now plan) (ex.submitted ns plan state) evs
  | injected {ts : List ActiveTrade} {t : ActiveTrade} {u : ℕ} (ht : t ∈ ts)
      (hu : ex.nextUid ≤ u) : Born ex (.injectRecoveredTrades ts) { t with uid := u } []

/-- What an operation does, trade by trade. -/
structure StepSim (op : Op) (ex ex' : LiveExecutor) : Prop where
  wf : ex'.WF
  nextUid_le : ex.nextUid ≤ ex'.nextUid
  old : ∀ t' ∈ ex'.allTrades, t'.uid < ex.nextUid →
    ∃ t ∈ ex.allTrades, t.uid = t'.uid ∧ Evolves op ex ex' t t'
  kept : ∀ t ∈ ex.allTrades, (∃ t' ∈ ex'.allTrades, t'.uid = t.uid) ∨
    op = .popClosedTrades ∧ t.state = .closed
  silent : ∀ u < ex.nextUid, (∀ t' ∈ ex'.allTrades, t'.uid ≠ u) →
    Silent u ex.toMembers ex'.toMembers
  born : ∀ t' ∈ ex'.allTrades, ex.nextUid ≤ t'.uid →
    ∃ evs, ex'.trace = ex.trace ++ evs ∧ Born ex op t' evs
  present : ∀ u, ex.nextUid ≤ u → u < ex'.nextUid → ∃ t' ∈ ex'.allTrades, t'.uid = u

theorem noneOf_append {u : ℕ} {evs evs' : List Event} :
    NoneOf u (evs ++ evs') ↔ NoneOf u evs ∧ NoneOf u evs' := by
  simp only [NoneOf, List.mem_append, or_imp, forall_and]

/-! ## The operations one by one -/

section StepSim

variable {op : Op} {ex ex' : LiveExecutor}

/-- Operations that are a pass over the trades. -/
theorem stepSim_of_passes (hwf : ex.WF) (h : Passes (TradeTurn ex op) ex ex') :
    StepSim op ex ex' := by
  have huids : ex'.allTrades.map ActiveTrade.uid = ex.allTrades.map ActiveTrade.uid :=
    h.refines.keys
  have hmem : ∀ u, (∃ t' ∈ ex'.allTrades, t'.uid = u) ↔ ∃ t ∈ ex.allTrades, t.uid = u := by
    intro u
    rw [← List.mem_map, ← List.mem_map, huids]
  -- a pass is foreign to every uid that is not in the list
  have hout : ∀ u, (∀ t ∈ ex.allTrades, t.uid ≠ u) → Foreign u ex.toMembers ex'.toMembers := by
    intro u hu
    refine h.refines.foreign u (fun hin => ?_)
    obtain ⟨t, ht, heq⟩ := List.mem_map.1 hin
    exact hu t ht heq
  have hlater : ∀ u, ex.nextUid ≤ u → Foreign u ex.toMembers ex'.toMembers := fun u hu =>
    hout u (fun t ht heq => absurd (hwf.fresh t ht) (by omega))
  obtain ⟨evs, hg⟩ := h.grows
  have hnext : ex'.nextUid = ex.nextUid := hg.nextUid
  have hfresh : ∀ t' ∈ ex'.allTrades, t'.uid < ex.nextUid := by
    intro t' ht'
    obtain ⟨t, ht, heq⟩ := (hmem t'.uid).1 ⟨t', ht', rfl⟩
    exact heq ▸ hwf.fresh t ht
  refine ⟨⟨h.after hwf.toKeyed, ?_, ?_, ?_⟩, hnext.ge, ?_, ?_, ?_, ?_, ?_⟩
  · exact fun t' ht' => hnext ▸ hfresh t' ht'
  · intro u hu
    rw [hnext] at hu
    obtain ⟨evs', hg', hno⟩ := hlater u hu
    rw [hg'.trace]
    exact noneOf_append.2 ⟨hwf.owned u hu, hno⟩
  · -- the records of the pass stand behind those in the buffer
    obtain ⟨before, hbefore⟩ := hwf.buffer
    exact ⟨before, by rw [hg.closedTrades, hg.trace, recordsIn_append, ← hbefore,
      List.append_assoc]⟩
  · intro t' ht' _
    obtain ⟨t, ht, s₁, s₂, hpre, hturn, hpost⟩ := h.of_mem ht'
    exact ⟨t, ht, hturn.keeps.uid.symm, s₁, s₂, hpre.silent, hturn, hpost.silent⟩
  · exact fun t ht => Or.inl ((hmem t.uid).2 ⟨t, ht, rfl⟩)
  · intro u _ hu
    refine (hout u (fun t ht heq => ?_)).silent
    obtain ⟨t', ht', heq'⟩ := (hmem u).2 ⟨t, ht, heq⟩
    exact hu t' ht' heq'
  · exact fun t' ht' hu => absurd (hfresh t' ht') (by omega)
  · exact fun u hu hu' => absurd hu' (by omega)

/-- Operations that touch neither the trades nor the trace. -/
theorem stepSim_of_same (hwf : ex.WF) (htrades : ex'.trades = ex.trades)
    (htrace : ex'.trace = ex.trace) (hclosed : ex'.closedTrades = ex.closedTrades)
    (hnext : ex'.nextUid = ex.nextUid) : StepSim op ex ex' := by
  have hall : ex'.allTrades = ex.allTrades := by rw [allTrades, allTrades, htrades]
  refine ⟨⟨⟨hall ▸ hwf.nodup, htrades ▸ hwf.keyed⟩, ?_, ?_, ?_⟩, hnext.ge, ?_, ?_, ?_, ?_, ?_⟩
  · exact fun t ht => hnext ▸ hwf.fresh t (hall ▸ ht)
  · exact fun u hu => htrace ▸ hwf.owned u (hnext ▸ hu)
  · rw [hclosed, htrace]; exact hwf.buffer
  · intro t ht _
    exact ⟨t, hall ▸ ht, rfl, ex.toMembers, ex.toMembers, .of_trace_eq rfl, .rest,
      .of_trace_eq htrace⟩
  · exact fun t ht => Or.inl ⟨t, hall ▸ ht, rfl⟩
  · exact fun u _ _ => .of_trace_eq htrace
  · exact fun t ht hu => absurd (hwf.fresh t (hall ▸ ht)) (by omega)
  · exact fun u hu hu' => absurd hu' (by omega)

theorem popClosedTrades_sim (hwf : ex.WF) : StepSim .popClosedTrades ex ex.popClosedTrades.1 := by
  have hall : ex.popClosedTrades.1.allTrades
      = ex.allTrades.filter (fun t => decide (t.state ≠ .closed)) :=
    BucketMap.values_filterValues _ _
  have hmem : ∀ t ∈ ex.popClosedTrades.1.allTrades, t ∈ ex.allTrades := by
    intro t ht
    rw [hall] at ht
    exact List.mem_of_mem_filter ht
  refine ⟨⟨⟨?_, ?_⟩, ?_, ?_, ?_⟩, le_rfl, ?_, ?_, ?_, ?_, ?_⟩
  · rw [hall]
    exact hwf.nodup.sublist ((List.filter_sublist).map _)
  · exact hwf.keyed.of_sameKeys (BucketMap.sameKeys_filterValues _ _)
  · exact fun t ht => hwf.fresh t (hmem t ht)
  · exact hwf.owned
  · exact List.nil_suffix
  · intro t ht _
    exact ⟨t, hmem t ht, rfl, ex.toMembers, ex.toMembers, .of_trace_eq rfl, .rest,
      .of_trace_eq rfl⟩
  · intro t ht
    by_cases hst : t.state = .closed
    · exact Or.inr ⟨rfl, hst⟩
    · exact Or.inl ⟨t, by rw [hall]; exact List.mem_filter.2 ⟨ht, by simpa using hst⟩, rfl⟩
  · exact fun u _ _ => .of_trace_eq rfl
  · exact fun t ht hu => absurd (hwf.fresh t (hmem t ht)) (by omega)
  · exact fun u hu hu' => absurd hu' (by simpa [popClosedTrades, rebuildActiveSnapshot] using hu)

/-- One more trade under a uid that no other trade has, with events of its own. -/
theorem LiveExecutor.WF.push (t : ActiveTrade) (evs : List Event) (hwf : ex.WF)
    (hlt : t.uid < ex'.nextUid) (hnew : ∀ x ∈ ex.allTrades, x.uid ≠ t.uid)
    (htrades : ex'.trades = BucketMap.push t.plan.ticker t ex.trades)
    (htrace : ex'.trace = ex.trace ++ evs) (hown : ∀ e ∈ evs, e.owner = some t.uid)
    (hrec : recordsIn evs = []) (hclosed : ex'.closedTrades = ex.closedTrades)
    (hnext : ex.nextUid ≤ ex'.nextUid) : ex'.WF := by
  have hperm : ex'.allTrades.Perm (t :: ex.allTrades) := by
    rw [allTrades, htrades]
    exact BucketMap.values_push ..
  refine ⟨⟨?_, ?_⟩, ?_, ?_, ?_⟩
  · rw [(hperm.map _).nodup_iff, List.map_cons, List.nodup_cons]
    refine ⟨fun hin => ?_, hwf.nodup⟩
    obtain ⟨x, hx, heq⟩ := List.mem_map.1 hin
    exact hnew x hx heq
  · rw [htrades]
    exact hwf.keyed.push rfl
  · intro x hx
    rcases List.mem_cons.1 (hperm.mem_iff.1 hx) with rfl | hx
    · exact hlt
    · exact (hwf.fresh x hx).trans_le hnext
  · intro u hu
    rw [htrace]
    refine noneOf_append.2 ⟨hwf.owned u (hnext.trans hu), fun e he heq => ?_⟩
    rw [hown e he, Option.some.injEq] at heq
    omega
  · rw [hclosed, htrace, recordsIn_append, hrec, List.append_nil]
    exact hwf.buffer

theorem stepSim_of_push (t : ActiveTrade) (evs : List Event) (hwf : ex.WF)
    (huid : t.uid = ex.nextUid)
    (htrades : ex'.trades = BucketMap.push t.plan.ticker t ex.trades)
    (htrace : ex'.trace = ex.trace ++ evs) (hown : ∀ e ∈ evs, e.owner = some ex.nextUid)
    (hrec : recordsIn evs = [])
    (hclosed : ex'.closedTrades = ex.closedTrades) (hnext : ex'.nextUid = ex.nextUid + 1)
    (hborn : Born ex op t evs) : StepSim op ex ex' := by
  have hmem : ∀ x, x ∈ ex'.allTrades ↔ x = t ∨ x ∈ ex.allTrades := fun x => by
    rw [allTrades, htrades]
    exact BucketMap.mem_values_push
  have hnew : ∀ x ∈ ex.allTrades, x.uid ≠ t.uid := fun x hx heq =>
    absurd (hwf.fresh x hx) (by omega)
  have hsilent : ∀ u < ex.nextUid, Silent u ex.toMembers ex'.toMembers := fun u hu =>
    ⟨evs, htrace, fun e he heq => by
      rw [hown e he, Option.some.injEq] at heq
      omega⟩
  refine ⟨hwf.push t evs (by omega) hnew htrades htrace (huid ▸ hown) hrec hclosed (by omega),
    by omega, ?_, ?_, ?_, ?_, ?_⟩
  · intro x hx hlt
    rcases (hmem x).1 hx with rfl | hx
    · omega
    · exact ⟨x, hx, rfl, ex.toMembers, ex.toMembers, .of_trace_eq rfl, .rest,
        hsilent x.uid hlt⟩
  · exact fun x hx => Or.inl ⟨x, (hmem x).2 (Or.inr hx), rfl⟩
  · exact fun u hu _ => hsilent u hu
  · intro x hx hle
    rcases (hmem x).1 hx with rfl | hx
    · exact ⟨evs, htrace, hborn⟩
    · exact absurd (hwf.fresh x hx) (by omega)
  · exact fun u hu hu' => ⟨t, (hmem t).2 (Or.inl rfl), by omega⟩

/-- The error counter adds at most an alert. -/
theorem countError_trace (uid : ℕ) (m : Members) :
    ∃ evs, EntryEvents uid evs ∧ Effect uid evs { m with errorStreak := m.errorStreak + 1 }
      (countError uid m) := by
  unfold countError
  dsimp only
  split
  · exact ⟨_, by simp [EntryEvents], effect_alert ..⟩
  · exact ⟨[], by simp [EntryEvents], .refl ..⟩

/-- The last section of `submit` adds the trade, and after a failure possibly an alert. -/
theorem submitPush_spec (now : TimePoint) (f : InFlight) (res : Except String PlaceOrderResult)
    (ex : LiveExecutor) :
    ∃ state evs, (state = f.trade.state ∨ state = .submitUnknown) ∧
      EntryEvents f.trade.uid evs ∧
      (submitPush now f res ex).trades
        = ex.trades.push f.trade.plan.ticker { f.trade with state := state } ∧
      (submitPush now f res ex).trace = ex.trace ++ evs ∧
      (submitPush now f res ex).closedTrades = ex.closedTrades ∧
      (submitPush now f res ex).nextUid = ex.nextUid := by
  cases res with
  | ok r => exact ⟨f.trade.state, [], Or.inl rfl, by simp [EntryEvents], rfl, by
      simp [submitPush, rebuildActiveSnapshot], rfl, rfl⟩
  | error e =>
      obtain ⟨evs, hevs, heff⟩ := countError_trace f.trade.uid ex.toMembers
      have hclosed := heff.closedTrades
      rw [hevs.recordsIn_eq, List.append_nil] at hclosed
      exact ⟨.submitUnknown, evs, Or.inr rfl, hevs, rfl, heff.trace, hclosed, heff.nextUid⟩

theorem submit_sim (hwf : ex.WF) (env : Env) (ns : ℕ) (now : TimePoint) (plan : TradePlan) :
    StepSim (.submit env ns now plan) ex (ex.submit env ns now plan) := by
  unfold submit
  set f := (submitReserve ns plan ex).2 with hf
  set r := submitPlace env f (submitReserve ns plan ex).1 with hr
  obtain ⟨state, evs, hst, hevs, htrades, htrace, hclosed, hnext⟩ :=
    submitPush_spec now f r.2 r.1
  have hevs' : EntryEvents ex.nextUid (.placed ex.nextUid f.req r.2 :: evs) := by
    intro e he
    rcases List.mem_cons.1 he with rfl | he
    · exact Or.inl ⟨f.req, r.2, rfl, rfl⟩
    · exact hevs e he
  exact stepSim_of_push (ex.submitted ns plan state) (.placed ex.nextUid f.req r.2 :: evs) hwf rfl
    htrades (htrace.trans (List.append_assoc ..)) hevs'.owner_eq hevs'.recordsIn_eq hclosed hnext
    (.submitted hst hevs')

/-- One more recovered trade. -/
theorem injectOne_sim {ts : List ActiveTrade} {t : ActiveTrade} (ht : t ∈ ts)
    (h : StepSim (.injectRecoveredTrades ts) ex ex') (htrace : ex'.trace = ex.trace) :
    StepSim (.injectRecoveredTrades ts) ex (ex'.injectOne t) := by
  have hone : StepSim (.injectRecoveredTrades ts) ex' (ex'.injectOne t) :=
    stepSim_of_push { t with uid := ex'.nextUid } [] h.wf rfl rfl (by simp [injectOne]) (by simp)
      rfl rfl rfl (.injected ht le_rfl)
  have hle := h.nextUid_le
  have hperm : ∀ x, x ∈ (ex'.injectOne t).allTrades ↔
      x = { t with uid := ex'.nextUid } ∨ x ∈ ex'.allTrades :=
    fun x => BucketMap.mem_values_push
  refine ⟨hone.wf, h.nextUid_le.trans hone.nextUid_le, ?_, ?_, ?_, ?_, ?_⟩
  · intro x hx hlt
    rcases (hperm x).1 hx with rfl | hx
    · exact absurd hlt (by dsimp only; omega)
    · exact h.old x hx hlt
  · intro x hx
    exact (h.kept x hx).imp (fun ⟨y, hy, heq⟩ => ⟨y, (hperm y).2 (Or.inr hy), heq⟩) id
  · exact fun u hu hno => h.silent u hu (fun y hy => hno y ((hperm y).2 (Or.inr hy)))
  · intro x hx hge
    rcases (hperm x).1 hx with rfl | hx
    · exact ⟨[], by simp [injectOne, htrace], .injected ht hle⟩
    · exact h.born x hx hge
  · intro u hu hlt
    by_cases heq : u = ex'.nextUid
    · exact ⟨_, (hperm _).2 (Or.inl rfl), heq.symm⟩
    · obtain ⟨y, hy, hyu⟩ := h.present u hu (by
        have : (ex'.injectOne t).nextUid = ex'.nextUid + 1 := rfl
        omega)
      exact ⟨y, (hperm y).2 (Or.inr hy), hyu⟩

theorem foldl_injectOne_sim {ts rest : List ActiveTrade} (hsub : ∀ t ∈ rest, t ∈ ts)
    (h : StepSim (.injectRecoveredTrades ts) ex ex') (htrace : ex'.trace = ex.trace) :
    StepSim (.injectRecoveredTrades ts) ex (rest.foldl injectOne ex') := by
  induction rest generalizing ex' with
  | nil => exact h
  | cons t rest ih =>
      exact ih (fun x hx => hsub x (List.mem_cons_of_mem _ hx))
        (injectOne_sim (hsub t (List.mem_cons_self ..)) h htrace) htrace

theorem injectRecoveredTrades_sim (hwf : ex.WF) (ts : List ActiveTrade) :
    StepSim (.injectRecoveredTrades ts) ex (ex.injectRecoveredTrades ts) := by
  have hsame : StepSim (.injectRecoveredTrades ts) ex ex := stepSim_of_same hwf rfl rfl rfl rfl
  have h := foldl_injectOne_sim (fun _ ht => ht) hsame rfl
  exact ⟨⟨⟨h.wf.nodup, h.wf.keyed⟩, h.wf.fresh, h.wf.owned, h.wf.buffer⟩, h.nextUid_le, h.old,
    h.kept, h.silent, h.born, h.present⟩

/-- Every operation makes each trade take one turn. -/
theorem step_sim (hwf : ex.WF) (op : Op) : StepSim op ex (ex.step op) := by
  cases op with
  | submit env ns now plan => exact submit_sim hwf env ns now plan
  | cancelAll env ticker => exact stepSim_of_passes hwf (cancelAll_passes hwf.toKeyed env ticker)
  | injectRecoveredTrades ts => exact injectRecoveredTrades_sim hwf ts
  | popClosedTrades => exact popClosedTrades_sim hwf
  | setMarkPrices marks => exact stepSim_of_same hwf rfl rfl rfl rfl
  | setMarkPrice ticker price => exact stepSim_of_same hwf rfl rfl rfl rfl
  | onOrderUpdate env upd => exact stepSim_of_passes hwf (onOrderUpdate_passes hwf.toKeyed env upd)
  | onPositionUpdate upd => exact stepSim_of_passes hwf (onPositionUpdate_passes hwf.toKeyed upd)
  | onBalanceUpdate now => exact stepSim_of_same hwf rfl rfl rfl rfl
  | tick env now => exact stepSim_of_passes hwf (tick_passes hwf.toKeyed env now)
  | closeTrade env ticker reason =>
      exact stepSim_of_passes hwf (closeTrade_passes hwf.toKeyed env ticker reason)

end StepSim

/-! ## Runs -/

theorem LiveExecutor.wf_init (cfg : ExecutorConfig) : (init cfg).WF where
  nodup := List.nodup_nil
  keyed := BucketMap.wellKeyed_nil _
  fresh := by simp [allTrades, init]
  owned := by simp [NoneOf, init]
  buffer := List.nil_suffix

theorem LiveExecutor.WF.step {ex : LiveExecutor} (hwf : ex.WF) (op : Op) : (ex.step op).WF :=
  (step_sim hwf op).wf

theorem LiveExecutor.WF.run {ex : LiveExecutor} (hwf : ex.WF) (ops : List Op) : (ex.run ops).WF :=
  Runs.invariant WF (fun _ op h => h.step op) ops hwf

theorem LiveExecutor.Reachable.wf {ex : LiveExecutor} (h : ex.Reachable) : ex.WF := by
  obtain ⟨cfg, ops, rfl⟩ := h
  exact (wf_init cfg).run ops

/-- Every step of the run meets `C`. -/
abbrev LiveExecutor.Along (C : LiveExecutor → Op → Prop) : LiveExecutor → List Op → Prop :=
  Runs.Along LiveExecutor.step C

/-- A property `P` of a trade and the trace that turns keep, and what it says (`G`) about the events
    of a trade that may be gone. `C` is the condition on the steps. -/
structure TurnInvariant (C : LiveExecutor → Op → ActiveTrade → Prop)
    (P : ActiveTrade → List Event → Prop) (G : ℕ → List Event → Prop) : Prop where
  silent : ∀ {t evs evs'}, NoneOf t.uid evs' → P t evs → P t (evs ++ evs')
  gone : ∀ {t evs}, P t evs → G t.uid evs
  gone_silent : ∀ {u evs evs'}, NoneOf u evs' → G u evs → G u (evs ++ evs')
  turn : ∀ {ex op t t' m₁ m₂}, ex.WF → t ∈ ex.allTrades → C ex op t →
    Silent t.uid ex.toMembers m₁ → P t m₁.trace → TradeTurn ex op (t, m₁) (t', m₂) →
    P t' m₂.trace

section TurnInvariant

variable {C : LiveExecutor → Op → ActiveTrade → Prop} {P : ActiveTrade → List Event → Prop}
  {G : ℕ → List Event → Prop} {ex : LiveExecutor} {u : ℕ}

/-- `P` holds of the trade `u` if it is there, and its events are as `G` says. -/
def Holds (P : ActiveTrade → List Event → Prop) (G : ℕ → List Event → Prop) (u : ℕ)
    (ex : LiveExecutor) : Prop :=
  (∀ t ∈ ex.allTrades, t.uid = u → P t ex.trace) ∧ G u ex.trace

theorem TurnInvariant.follow_step (h : TurnInvariant C P G) (hwf : ex.WF) (hu : u < ex.nextUid)
    (hP : Holds P G u ex) {op : Op} (hC : ∀ t ∈ ex.allTrades, t.uid = u → C ex op t) :
    Holds P G u (ex.step op) := by
  have hsim := step_sim hwf op
  have live : ∀ t' ∈ (ex.step op).allTrades, t'.uid = u → P t' (ex.step op).trace := by
    intro t' ht' hu'
    obtain ⟨t, ht, huid, m₁, m₂, ⟨evs, htr, hno⟩, hturn, evs', htr', hno'⟩ :=
      hsim.old t' ht' (by omega)
    have hsil : Silent t.uid ex.toMembers m₁ := ⟨evs, htr, hno⟩
    have hm₁ : P t m₁.trace := htr ▸ h.silent hno (hP.1 t ht (huid.trans hu'))
    have hm₂ : P t' m₂.trace :=
      h.turn hwf ht (hC t ht (huid.trans hu')) hsil hm₁ hturn
    exact htr' ▸ h.silent (huid ▸ hno') hm₂
  refine ⟨live, ?_⟩
  by_cases hin : ∃ t' ∈ (ex.step op).allTrades, t'.uid = u
  · obtain ⟨t', ht', rfl⟩ := hin
    exact h.gone (live t' ht' rfl)
  · simp only [not_exists, not_and] at hin
    obtain ⟨evs, htr, hno⟩ := hsim.silent u hu hin
    exact htr ▸ h.gone_silent hno hP.2

/-- Follow one trade through a run. -/
theorem TurnInvariant.follow (h : TurnInvariant C P G) (hwf : ex.WF) (hu : u < ex.nextUid)
    (hP : Holds P G u ex) {ops : List Op}
    (hC : ex.Along (fun ex op => ∀ t ∈ ex.allTrades, t.uid = u → C ex op t) ops) :
    Holds P G u (ex.run ops) := by
  refine (hC.invariant (fun ex => ex.WF ∧ u < ex.nextUid ∧ Holds P G u ex) ?_ ⟨hwf, hu, hP⟩).2.2
  intro ex op ⟨hwf, hu, hP⟩ hcond
  exact ⟨hwf.step op, hu.trans_le (step_sim hwf op).nextUid_le, h.follow_step hwf hu hP hcond⟩

/-- A trade that the invariant keeps from being closed stays in `trades_`. -/
theorem TurnInvariant.follow_present (h : TurnInvariant C P G)
    (hopen : ∀ {t evs}, P t evs → t.state ≠ .closed) (hwf : ex.WF) {t : ActiveTrade}
    (ht : t ∈ ex.allTrades) (hP : P t ex.trace) {ops : List Op}
    (hC : ex.Along (fun ex op => ∀ x ∈ ex.allTrades, x.uid = t.uid → C ex op x) ops) :
    ∃ t' ∈ (ex.run ops).allTrades, t'.uid = t.uid ∧ P t' (ex.run ops).trace := by
  have hholds : Holds P G t.uid ex := by
    refine ⟨fun x hx hxt => ?_, h.gone hP⟩
    rw [List.inj_on_of_nodup_map hwf.nodup hx ht hxt]
    exact hP
  have key : ((ex.run ops).WF ∧ t.uid < (ex.run ops).nextUid ∧ Holds P G t.uid (ex.run ops)) ∧
      ∃ t' ∈ (ex.run ops).allTrades, t'.uid = t.uid := by
    refine hC.invariant (fun ex => (ex.WF ∧ t.uid < ex.nextUid ∧ Holds P G t.uid ex) ∧
      ∃ t' ∈ ex.allTrades, t'.uid = t.uid) ?_ ⟨⟨hwf, hwf.fresh t ht, hholds⟩, t, ht, rfl⟩
    intro ex op ⟨⟨hwf, hu, hP⟩, x, hx, hxu⟩ hcond
    have hsim := step_sim hwf op
    refine ⟨⟨hsim.wf, hu.trans_le hsim.nextUid_le, h.follow_step hwf hu hP hcond⟩, ?_⟩
    rcases hsim.kept x hx with ⟨y, hy, hyx⟩ | ⟨_, hclosed⟩
    · exact ⟨y, hy, hyx.trans hxu⟩
    · exact absurd hclosed (hopen (hP.1 x hx hxu))
  obtain ⟨⟨_, _, hall⟩, t', ht', hu'⟩ := key
  exact ⟨t', ht', hu', hall.1 t' ht' hu'⟩

end TurnInvariant

/-- A turn invariant that new trades satisfy. -/
structure LifeInvariant (C : LiveExecutor → Op → Prop) (P : ActiveTrade → List Event → Prop)
    (G : ℕ → List Event → Prop) : Prop extends TurnInvariant (fun ex op _ => C ex op) P G where
  unborn : ∀ {u evs}, NoneOf u evs → G u evs
  submitted : ∀ {ex : LiveExecutor} {ns plan state evs evs'},
    state = .pendingEntry ∨ state = .submitUnknown → NoneOf ex.nextUid evs →
    EntryEvents ex.nextUid evs' → P (ex.submitted ns plan state) (evs ++ evs')
  injected : ∀ {ex ts t u evs}, C ex (.injectRecoveredTrades ts) → t ∈ ts → NoneOf u evs →
    P { t with uid := u } evs

/-- A life invariant holds of every trade in every run whose steps meet the condition. -/
theorem LifeInvariant.run {C : LiveExecutor → Op → Prop} {P : ActiveTrade → List Event → Prop}
    {G : ℕ → List Event → Prop} (h : LifeInvariant C P G) (cfg : ExecutorConfig) {ops : List Op}
    (hC : (init cfg).Along C ops) :
    (∀ t ∈ ((init cfg).run ops).allTrades, P t ((init cfg).run ops).trace) ∧
      ∀ u, G u ((init cfg).run ops).trace := by
  have key : ((init cfg).run ops).WF ∧ ∀ u, Holds P G u ((init cfg).run ops) := by
    refine hC.invariant (fun ex => ex.WF ∧ ∀ u, Holds P G u ex) ?_
      ⟨wf_init cfg, fun u => ⟨by simp [allTrades, init], h.unborn (by simp [NoneOf, init])⟩⟩
    rintro ex op ⟨hwf, hinv⟩ hcond
    refine ⟨hwf.step op, fun u => ?_⟩
    by_cases hu : u < ex.nextUid
    · exact h.follow_step hwf hu (hinv u) (fun _ _ _ => hcond)
    have hsim := step_sim hwf op
    have live : ∀ t' ∈ (ex.step op).allTrades, t'.uid = u → P t' (ex.step op).trace := by
      intro t' ht' hu'
      have hno := hwf.owned t'.uid (by omega)
      obtain ⟨evs, htr, hborn⟩ := hsim.born t' ht' (by omega)
      rw [htr]
      cases hborn with
      | submitted hst hevs => exact h.submitted hst hno hevs
      | injected ht _ => exact (List.append_nil _).symm ▸ h.injected hcond ht hno
    refine ⟨live, ?_⟩
    by_cases hlt : u < (ex.step op).nextUid
    · obtain ⟨t', ht', rfl⟩ := hsim.present u (by omega) hlt
      exact h.gone (live t' ht' rfl)
    · exact h.unborn (hsim.wf.owned u (by omega))
  exact ⟨fun t ht => (key.2 t.uid).1 t ht rfl, fun u => (key.2 u).2⟩

end TradeBot
