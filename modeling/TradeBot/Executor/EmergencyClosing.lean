import TradeBot.Executor.FullClose

set_option autoImplicit false

/-! # The state `EmergencyClosing`

Two branches lead into the state: R15 after an accepted close, and phase 1 of `tick` before the close
is sent. `refused_close_forgotten` shows the difference: a close that phase 2 fails to send leaves
the trade in the state all the same. When the closes of `tick` are accepted the state means what it
says (`emergencyClosing_accepted`).

Only `cancel_all` leads out of the state. The update handler skips trades in it, and the purge looks
for `Closed`, so that no report of the exchange ever resolves it (`emergencyClosing_never_resolves`). -/

namespace TradeBot

open LiveExecutor

/-! ## A failed emergency close -/

/-- A trade in `EmergencyClosing` has an accepted market close of what it executed. -/
def EmergencyAccepted (t : ActiveTrade) (evs : List Event) : Prop :=
  t.state = .emergencyClosing → t.marketClose ∈ marketCloses true t.uid evs

/-- `close_trade` on the trade's ticker sends the market close of what it executed. -/
def Retriable (ex : LiveExecutor) (t : ActiveTrade) : Prop :=
  ∀ env reason, ∃ evs res, (ex.closeTrade env t.plan.ticker reason).trace = ex.trace ++ evs ∧
    .placed t.uid t.marketClose res ∈ evs

/-- A trade whose market close is refused during the step can still be closed after it. -/
def RefusalKept (ex : LiveExecutor) (op : Op) : Prop :=
  ∀ evs, (ex.step op).trace = ex.trace ++ evs → ∀ uid req, req ∈ marketCloses false uid evs →
    ∃ t ∈ (ex.step op).allTrades, t.uid = uid ∧ Retriable (ex.step op) t

/-- `tick` sends no close that is refused, the close after a refused break-even stop is refused only
    for open trades, and no trade is injected in `EmergencyClosing` (recovery injects open trades). -/
def EmergencyClosesAccepted (ex : LiveExecutor) : Op → Prop
  | .tick env now =>
      (∃ t ∈ ex.allTrades, (closeAction? ex.toMembers now t).isSome = true) → env.AcceptsCloses
  | .onOrderUpdate env upd =>
      (∃ t ∈ ex.allTrades, BreakEvenRefused ex env upd t ∧ t.state ≠ .opened) → env.AcceptsCloses
  | .injectRecoveredTrades ts => ∀ t ∈ ts, t.state ≠ .emergencyClosing
  | _ => True

section

variable {ex : LiveExecutor} {op : Op} {t t' : ActiveTrade} {evs evs' : List Event} {m₁ m₂ : Members}

theorem mem_marketCloses {accepted : Bool} {uid : ℕ} {req : PlaceOrderRequest} :
    req ∈ marketCloses accepted uid evs ↔ ∃ res, .placed uid req res ∈ evs ∧ req.type = .market ∧
      req.reduceOnly = true ∧ res.isOk = accepted := by
  constructor
  · intro h
    obtain ⟨e, he, heq⟩ := List.mem_filterMap.1 h
    cases e with
    | placed v req' res =>
        dsimp only at heq
        split at heq
        · next hc =>
            cases heq
            exact ⟨res, hc.1 ▸ he, hc.2⟩
        · simp at heq
    | _ => simp at heq
  · rintro ⟨res, he, htype, hred, hok⟩
    exact List.mem_filterMap.2 ⟨_, he, by simp [htype, hred, hok]⟩

theorem marketCloses_append (accepted : Bool) (uid : ℕ) (evs evs' : List Event) :
    marketCloses accepted uid (evs ++ evs')
      = marketCloses accepted uid evs ++ marketCloses accepted uid evs' :=
  List.filterMap_append ..

/-- The trade's state, sizes and plan stay, or it does not become `EmergencyClosing`. -/
theorem EmergencyAccepted.append (h : EmergencyAccepted t evs)
    (hsame : t'.state = .emergencyClosing →
      t.state = .emergencyClosing ∧ t'.uid = t.uid ∧ t'.marketClose = t.marketClose) :
    EmergencyAccepted t' (evs ++ evs') := by
  intro hst
  obtain ⟨hst', huid, hreq⟩ := hsame hst
  rw [marketCloses_append, huid, hreq]
  exact List.mem_append_left _ (h hst')

theorem emergencyAccepted_of_placed {r : PlaceOrderResult}
    (hmem : .placed t.uid t.marketClose (.ok r) ∈ evs) : EmergencyAccepted t evs :=
  fun _ => mem_marketCloses.2 ⟨_, hmem, rfl, rfl, rfl⟩

theorem emergencyAccepted_turn (hmem : t ∈ ex.allTrades) (hC : EmergencyClosesAccepted ex op)
    (h : EmergencyAccepted t m₁.trace) (hturn : TradeTurn ex op (t, m₁) (t', m₂)) :
    EmergencyAccepted t' m₂.trace := by
  obtain ⟨evs, heff, hout⟩ := hturn.outcome
  rw [heff.trace]
  cases hout with
  | rest => exact h.append (fun hst => ⟨hst, rfl, rfl⟩)
  | position => exact h.append (fun hst => ⟨hst, rfl, rfl⟩)
  | cancel => exact h.append (fun hst => absurd hst (by simp))
  | ack hroute hsel hfill =>
      exact h.append (fun hst => absurd hst (selectTrade_eq_some hsel).2.1)
  | dead => exact h.append (fun hst => absurd hst (by simp))
  | partly => exact h.append (fun hst => absurd hst (by simp))
  -- R15 closes the trade with an order that the gateway has accepted
  | slipped => exact emergencyAccepted_of_placed (List.mem_append_right _ (List.mem_singleton_self _))
  | slipRefused => exact h.append (fun hst => absurd hst (by simp [ActiveTrade.entryFilled]))
  | entry => exact h.append (fun hst => absurd hst (by
      simp [ActiveTrade.entryFilled, ActiveTrade.withExitIds]))
  | tp1Bare hroute hsel =>
      exact h.append (fun hst => absurd hst (selectTrade_eq_some hsel).2.1)
  | tp1BreakEven hroute hsel =>
      exact h.append (fun hst => absurd hst (selectTrade_eq_some hsel).2.1)
  | tp1Failed hroute hsel =>
      refine h.append (fun hst => ?_)
      rw [afterClose_state] at hst
      split at hst
      · simp at hst
      · exact absurd hst (selectTrade_eq_some hsel).2.1
  | exit => exact h.append (fun hst => absurd hst (by simp))
  -- the close that makes the trade `EmergencyClosing` has been accepted
  | @emergency env now pre ct n hdue =>
      obtain ⟨r, hr⟩ := (hC ⟨t, hmem, hdue⟩).marketClose n t
      rw [hr]
      have hplaced : Event.placed t.uid t.marketClose (.ok r) ∈ m₁.trace ++
        (pre ++ [.placed t.uid t.marketClose (.ok r), .recorded t.uid ct]) := by simp
      exact emergencyAccepted_of_placed (t := t.markClosing) hplaced
  | rearm hspared hdue =>
      exact h.append (fun hst => absurd ((rearmDue_opened hdue).symm.trans hst) (by simp))
  | resolved => exact h.append (fun hst => absurd hst (by simp))
  | timeout => exact h.append (fun hst => absurd hst (by simp))
  | close hticker hst =>
      refine h.append (fun hst' => ?_)
      rw [afterClose_state] at hst'
      split at hst'
      · simp at hst'
      · exact absurd (hst.symm.trans hst') (by simp)

theorem emergencyAccepted_life :
    LifeInvariant EmergencyClosesAccepted EmergencyAccepted (fun _ _ => True) where
  silent := fun _ h => h.append (fun hst => ⟨hst, rfl, rfl⟩)
  gone := fun _ => trivial
  gone_silent := fun _ _ => trivial
  turn := fun _ hmem hC _ h hturn => emergencyAccepted_turn hmem hC h hturn
  unborn := fun _ => trivial
  submitted := fun hst _ _ hst' => by rcases hst with rfl | rfl <;> simp [submitted] at hst'
  injected := fun hC ht _ hst => (hC _ ht hst).elim

/-! A refused close leaves an open trade, which `close_trade` closes again. -/

theorem Quiet.marketCloses {accepted : Bool} {uid : ℕ} (h : Quiet evs) :
    marketCloses accepted uid evs = [] := by
  refine List.eq_nil_iff_forall_not_mem.2 (fun req hreq => ?_)
  obtain ⟨res, hmem, htype, _⟩ := mem_marketCloses.1 hreq
  have hquiet := h _ hmem
  simp [Event.isQuiet, htype] at hquiet

theorem StopAttempt.marketCloses {accepted : Bool} {uid : ℕ} (h : StopAttempt t evs) :
    marketCloses accepted uid evs = [] := by
  cases h with
  | gaveUp hq => exact hq.marketCloses
  | @placed pre res post hst hsz hpre hpost hcancel =>
      have hstop : TradeBot.marketCloses accepted uid [.placed t.uid t.stopRequest res] = [] := by
        simp [TradeBot.marketCloses, ActiveTrade.stopRequest]
      rw [← List.singleton_append, marketCloses_append, marketCloses_append, hpre.marketCloses,
        hpost.marketCloses, hstop]
      rfl

theorem retriable_of_opened (hex : Keyed ex) (hmem : t ∈ ex.allTrades) (hst : t.state = .opened)
    (hexec : 0 < t.executedSize) : Retriable ex t :=
  fun env reason => closeTrade_sends hex hmem hst hexec env reason

theorem marketCloses_accepted (req : PlaceOrderRequest) (r : PlaceOrderResult) (uid : ℕ)
    (rest : List Event) :
    marketCloses false uid (.placed uid req (.ok r) :: rest) = marketCloses false uid rest := by
  simp [marketCloses, Except.isOk, Except.toBool]

/-- No close is refused when the one that is recorded was accepted. -/
theorem marketCloses_recorded {pre : List Event} (hpre : Quiet pre) (req : PlaceOrderRequest)
    (r : PlaceOrderResult) (uid : ℕ) (ct : ClosedTrade) :
    marketCloses false uid (pre ++ [.placed uid req (.ok r), .recorded uid ct]) = [] := by
  rw [marketCloses_append, hpre.marketCloses, marketCloses_accepted]
  simp [marketCloses]

/-- After a turn in which a market close was refused the trade is open, if the step meets the
    condition. -/
theorem opened_of_refused (hmem : t ∈ ex.allTrades) (hC : EmergencyClosesAccepted ex op)
    {m : Members} (hout : TradeOutcome ex m t op evs t') {req : PlaceOrderRequest}
    (href : req ∈ marketCloses false t.uid evs) : t'.state = .opened ∧ 0 < t'.executedSize := by
  cases hout with
  | rest => simp [marketCloses] at href
  | position => simp [marketCloses] at href
  | cancel => simp [marketCloses] at href
  | ack => simp [marketCloses] at href
  | dead => simp [marketCloses] at href
  | partly hroute hsel hentry hst hsize hevs =>
      rcases hevs with ⟨_, rfl⟩ | ⟨_, hatt⟩
      · simp [marketCloses] at href
      · simp [hatt.marketCloses] at href
  | slipped =>
      rw [marketCloses_accepted] at href
      simp [marketCloses] at href
  -- R15 could not close the position, so the trade is open
  | slipRefused hroute hsel hentry hfill => exact ⟨rfl, hfill.2⟩
  | entry hroute hsel hentry hfill hevs => simp [hevs.marketCloses] at href
  | tp1Bare => simp [(quiet_dropEvents _ _ _ _ _).marketCloses] at href
  | tp1BreakEven =>
      rw [marketCloses_append, (quiet_dropEvents _ _ _ _ _).marketCloses,
        marketCloses_accepted] at href
      simp [marketCloses] at href
  | @tp1Failed env upd om e msg n n' e' pre ct hroute hsel hentry hfill htp1 hfirst hrem hfix
      hrefused hpre hsize hreason =>
      -- something is left after the TP1 fill
      have hexec : 0 < t.executedSize := by
        have heps : (0 : ℚ) < kSizeEps := by norm_num [kSizeEps]
        have := heps.trans hrem
        rw [ActiveTrade.remaining, lt_max_iff] at this
        have hfilled := hfill.2
        rcases this with h | h <;> linarith
      cases hres : env.placeOrder n' t.marketClose with
      | ok r =>
          -- the refused break-even stop is no market close
          have hbe : marketCloses false t.uid [.placed t.uid (t.beRequest upd.filledSize) (.error e),
            .alerted t.uid msg] = [] := by simp [marketCloses, ActiveTrade.beRequest]
          have hpair : ∀ (x y : Event) l, x :: y :: l = [x, y] ++ l := fun _ _ _ => rfl
          rw [hres, marketCloses_append, (quiet_dropEvents _ _ _ _ _).marketCloses, hpair,
            marketCloses_append, hbe, marketCloses_recorded hpre] at href
          simp at href
      | error e'' =>
          refine ⟨?_, hexec⟩
          -- unless the trade was open, the gateway accepts the close
          by_contra hst
          obtain ⟨r, hr⟩ := (hC ⟨t, hmem, ⟨⟨om, hroute, hentry, htp1⟩, hfill, hfirst, hrem, hfix, n,
            e', hrefused⟩, hst⟩).marketClose n' t
          simp [hres] at hr
  | exit => simp [marketCloses] at href
  -- a due trade is closed with an accepted order
  | @emergency env now pre ct n hdue hst hexec hpre =>
      obtain ⟨r, hr⟩ := (hC ⟨t, hmem, hdue⟩).marketClose n t
      rw [hr, marketCloses_recorded hpre] at href
      simp at href
  | rearm hspared hdue hevs => simp [hevs.marketCloses] at href
  | resolved => simp [marketCloses] at href
  | timeout => simp [marketCloses] at href
  | @close env ticker reason pre ct n hticker hst hexec hpre =>
      cases hres : env.placeOrder n t.marketClose with
      | ok r =>
          rw [hres, marketCloses_recorded hpre] at href
          simp at href
      | error e => exact ⟨hst, hexec⟩

theorem marketCloses_noneOf {accepted : Bool} {uid : ℕ} (h : NoneOf uid evs) :
    marketCloses accepted uid evs = [] := by
  refine List.eq_nil_iff_forall_not_mem.2 (fun req hreq => ?_)
  obtain ⟨res, hmem, _⟩ := mem_marketCloses.1 hreq
  exact h _ hmem rfl

theorem refusalKept_step (hwf : ex.WF) (hC : EmergencyClosesAccepted ex op) : RefusalKept ex op := by
  intro evs htrace uid req hreq
  obtain ⟨res, hmem, _, hred, _⟩ := mem_marketCloses.1 hreq
  have hsim := step_sim hwf op
  have hlt : uid < (ex.step op).nextUid := by
    -- no event is about a trade that does not exist
    by_contra hge
    exact hsim.wf.owned uid (not_lt.1 hge) _ (htrace ▸ List.mem_append_right _ hmem) rfl
  by_cases hold : uid < ex.nextUid
  · -- a trade that left during the step had no close refused
    have hpresent : ∃ t' ∈ (ex.step op).allTrades, t'.uid = uid := by
      by_contra hno
      simp only [not_exists, not_and] at hno
      obtain ⟨evs', htrace', hnone⟩ := hsim.silent uid hold hno
      obtain rfl : evs = evs' := List.append_cancel_left (htrace.symm.trans htrace')
      exact hnone _ hmem rfl
    obtain ⟨t', ht', rfl⟩ := hpresent
    obtain ⟨t, ht, huid, m₁, m₂, ⟨evs₁, htr₁, hno₁⟩, hturn, evs₂, htr₂, hno₂⟩ :=
      hsim.old t' ht' hold
    obtain ⟨evs', heff, hout⟩ := hturn.outcome
    -- all events about the trade come from its turn
    have hsplit : evs = evs₁ ++ (evs' ++ evs₂) := by
      refine List.append_cancel_left (htrace.symm.trans ?_)
      rw [htr₂, heff.trace, htr₁]
      simp only [List.append_assoc]
    rw [hsplit, marketCloses_append, marketCloses_append, ← huid, marketCloses_noneOf hno₁,
      marketCloses_noneOf hno₂, List.nil_append, List.append_nil] at hreq
    obtain ⟨hst, hexec⟩ := opened_of_refused ht hC hout hreq
    exact ⟨t', ht', rfl, retriable_of_opened hsim.wf.toKeyed ht' hst hexec⟩
  · -- the trade was born in this step, which sends no reducing order
    obtain ⟨t', ht', rfl⟩ := hsim.present uid (not_lt.1 hold) hlt
    obtain ⟨evs', htrace', hborn⟩ := hsim.born t' ht' (not_lt.1 hold)
    obtain rfl : evs = evs' := List.append_cancel_left (htrace.symm.trans htrace')
    cases hborn with
    | submitted _ hevs =>
        rcases hevs _ hmem with ⟨_, _, heq, hred'⟩ | ⟨_, heq⟩
        · cases heq
          simp [hred] at hred'
        · cases heq
    | injected => simp at hmem

end

/-- In every run whose emergency closes are accepted, a trade in `EmergencyClosing` has an accepted
    market close of its size, and a trade whose close is refused can be closed again. -/
theorem emergencyClosing_accepted (cfg : ExecutorConfig) (ops : List Op)
    (hops : (init cfg).Along EmergencyClosesAccepted ops) :
    (∀ t ∈ ((init cfg).run ops).allTrades, EmergencyAccepted t ((init cfg).run ops).trace) ∧
      ∀ pre op post, ops = pre ++ op :: post → RefusalKept ((init cfg).run pre) op := by
  refine ⟨(emergencyAccepted_life.run cfg hops).1, fun pre op post heq => ?_⟩
  rw [heq] at hops
  exact refusalKept_step ((wf_init cfg).run pre) (Runs.along_append.1 hops).2.1

/-- A trade that falls two percent below its entry and is closed by R14. -/
def lossRun (env : Env) : List Op :=
  [.submit .accepting 0 0 samplePlan, .onOrderUpdate .accepting (sampleFill 1),
    .setMarkPrice "BTC_USDT" 98, .tick env 0]

theorem emergencyClosing_accepted_lossRun :
    (∀ t ∈ ((init {}).run (lossRun .accepting)).allTrades,
        EmergencyAccepted t ((init {}).run (lossRun .accepting)).trace) ∧
      ∀ pre op post, lossRun .accepting = pre ++ op :: post →
        RefusalKept ((init {}).run pre) op :=
  have haccepts := Env.accepting_neverThrows.acceptsCloses
  emergencyClosing_accepted {} (lossRun .accepting)
    ⟨trivial, fun _ => haccepts, trivial, fun _ => haccepts, trivial⟩

/-- `tick` marks the trade, the gateway refuses the close, and the trade stays marked. -/
theorem refused_close_forgotten :
    ¬ ∀ (cfg : ExecutorConfig) (ops : List Op), ∀ t ∈ ((init cfg).run ops).allTrades,
        EmergencyAccepted t ((init cfg).run ops).trace := by
  intro hall
  have hrun := hall {} (lossRun (.refusing (fun req => decide (req.type = .market))))
  unfold EmergencyAccepted at hrun
  exact absurd hrun (by decide +kernel)

/-! ## No way out -/

/-- `upd` reports that the market close accepted with the answer `r` filled what the trade
    executed. -/
def IsCloseReport (r : PlaceOrderResult) (t : ActiveTrade) (upd : OrderUpdate) : Prop :=
  upd.orderId = r.exchangeId ∧ upd.ticker = t.plan.ticker ∧ upd.side = t.plan.side.opposite ∧
    upd.type = .market ∧ upd.size = t.executedSize ∧ upd.filledSize = t.executedSize ∧
    upd.status = .closed

/-- Trade `uid`, of which `size` was closed, is closed with one record of that size, and the next
    purge removes it. -/
structure Resolved (uid : ℕ) (size : ℚ) (ex : LiveExecutor) : Prop where
  closed : ∀ t ∈ ex.allTrades, t.uid = uid → t.state = .closed
  recorded : ((recordsOf uid ex.trace).filter (fun ct => ct.sizeFilled = size)).length = 1
  removed : ∀ t ∈ ex.popClosedTrades.1.allTrades, t.uid ≠ uid

/-- Whatever events follow an accepted market close of the trade, if the exchange reports the close
    filled then the trade resolves, and is never open again. -/
def EmergencyResolves (ex : LiveExecutor) (t : ActiveTrade) : Prop :=
  ∀ r, .placed t.uid t.marketClose (.ok r) ∈ ex.trace → ∀ ops env upd,
    .onOrderUpdate env upd ∈ ops → IsCloseReport r t upd →
      (∀ pre, pre <+: ops → ∀ x ∈ (ex.run pre).allTrades, x.uid = t.uid → x.state ≠ .opened) ∧
        Resolved t.uid t.executedSize (ex.run ops)

/-- Without `cancel_all` on its ticker a trade in `EmergencyClosing` keeps that state. -/
theorem emergencyClosing_turnInvariant (ticker : Ticker) :
    TurnInvariant (fun _ op _ => ∀ env, op ≠ .cancelAll env ticker)
      (fun t _ => t.state = .emergencyClosing ∧ t.plan.ticker = ticker) (fun _ _ => True) where
  silent := fun _ h => h
  gone := fun _ => trivial
  gone_silent := fun _ _ => trivial
  turn := fun {ex op t t' m₁ m₂} _ _ hC _ ⟨hst, hticker⟩ hturn => by
    refine ⟨?_, by rw [hturn.keeps.plan]; exact hticker⟩
    obtain ⟨evs, _, hout⟩ := hturn.outcome
    cases hout with
    | rest => exact hst
    | position => exact hst
    | cancel hticker' => exact absurd (by rw [← hticker', hticker]) (hC _)
    | ack _ hsel => exact absurd hst (selectTrade_eq_some hsel).2.1
    | dead _ hsel => exact absurd hst (selectTrade_eq_some hsel).2.1
    | partly _ hsel => exact absurd hst (selectTrade_eq_some hsel).2.1
    | slipped _ hsel => exact absurd hst (selectTrade_eq_some hsel).2.1
    | slipRefused _ hsel => exact absurd hst (selectTrade_eq_some hsel).2.1
    | entry _ hsel => exact absurd hst (selectTrade_eq_some hsel).2.1
    | tp1Bare _ hsel => exact absurd hst (selectTrade_eq_some hsel).2.1
    | tp1BreakEven _ hsel => exact absurd hst (selectTrade_eq_some hsel).2.1
    | tp1Failed _ hsel => exact absurd hst (selectTrade_eq_some hsel).2.1
    | exit _ hsel => exact absurd hst (selectTrade_eq_some hsel).2.1
    | emergency _ hst' => simp [hst] at hst'
    | rearm _ hdue => exact absurd ((rearmDue_opened hdue).symm.trans hst) (by simp)
    | resolved hst' => simp [hst] at hst'
    | timeout hst' => simp [hst] at hst'
    | close _ hst' => simp [hst] at hst'

/-- No event but `cancel_all` moves a trade out of `EmergencyClosing`, and the purge keeps it. -/
theorem emergencyClosing_stays {ex : LiveExecutor} (hwf : ex.WF) {t : ActiveTrade}
    (ht : t ∈ ex.allTrades) (hst : t.state = .emergencyClosing) {ops : List Op}
    (hops : ∀ env, .cancelAll env t.plan.ticker ∉ ops) :
    ∃ t' ∈ (ex.run ops).popClosedTrades.1.allTrades, t'.uid = t.uid ∧
      t'.state = .emergencyClosing := by
  have hC : ex.Along (fun ex op => ∀ x ∈ ex.allTrades, x.uid = t.uid →
      ∀ env, op ≠ .cancelAll env t.plan.ticker) (ops ++ [.popClosedTrades]) := by
    refine Runs.along_of_mem (fun op hop ex x _ _ env heq => ?_)
    rcases List.mem_append.1 hop with hop | hop
    · exact hops env (heq ▸ hop)
    · simp [heq] at hop
  have hpop : (ex.run ops).popClosedTrades.1 = ex.run (ops ++ [.popClosedTrades]) := by
    simp [LiveExecutor.run, LiveExecutor.step]
  rw [hpop]
  obtain ⟨t', ht', huid, hst', _⟩ := (emergencyClosing_turnInvariant t.plan.ticker).follow_present
    (fun h => by simp [h.1]) hwf ht ⟨hst, rfl⟩ hC
  exact ⟨t', ht', huid, hst'⟩

/-- The report of the filled close, when nothing else happens, leaves the trade where it is. -/
theorem not_emergencyResolves {ex : LiveExecutor} (hwf : ex.WF) {t : ActiveTrade}
    (ht : t ∈ ex.allTrades) (hst : t.state = .emergencyClosing)
    (haccepted : t.marketClose ∈ marketCloses true t.uid ex.trace) : ¬ EmergencyResolves ex t := by
  intro hall
  obtain ⟨res, hmem, _, _, hok⟩ := mem_marketCloses.1 haccepted
  cases res with
  | error e => simp [Except.isOk, Except.toBool] at hok
  | ok r =>
      set report : OrderUpdate :=
        { orderId := r.exchangeId, ticker := t.plan.ticker, side := t.plan.side.opposite,
          type := .market, size := t.executedSize, filledSize := t.executedSize,
          status := .closed } with hreport
      have hresolved := (hall r hmem [.onOrderUpdate .accepting report] .accepting report
        (List.mem_singleton_self _) ⟨rfl, rfl, rfl, rfl, rfl, rfl, rfl⟩).2
      have hops : ∀ env, Op.cancelAll env t.plan.ticker ∉ [Op.onOrderUpdate .accepting report] := by
        simp
      obtain ⟨t', ht', huid, _⟩ := emergencyClosing_stays hwf ht hst hops
      exact hresolved.removed t' ht' huid

/-- In no reachable state with a trade in `EmergencyClosing` whose close was accepted does the report
    of the filled close resolve the trade: it stays in that state, also after the purge, whatever is
    reported, as long as `cancel_all` leaves its ticker alone. -/
theorem emergencyClosing_never_resolves (ex : LiveExecutor) (hex : ex.Reachable) (t : ActiveTrade)
    (ht : t ∈ ex.allTrades) (hst : t.state = .emergencyClosing)
    (haccepted : t.marketClose ∈ marketCloses true t.uid ex.trace) :
    ¬ EmergencyResolves ex t ∧
      ∀ ops, (∀ env, .cancelAll env t.plan.ticker ∉ ops) →
        (∃ t' ∈ (ex.run ops).popClosedTrades.1.allTrades, t'.uid = t.uid ∧
          t'.state = .emergencyClosing) ∧
        ¬ Resolved t.uid t.executedSize (ex.run ops) := by
  refine ⟨not_emergencyResolves hex.wf ht hst haccepted, fun ops hops => ?_⟩
  obtain ⟨t', ht', huid, hst'⟩ := emergencyClosing_stays hex.wf ht hst hops
  exact ⟨⟨t', ht', huid, hst'⟩, fun hres => hres.removed t' ht' huid⟩

/-- A trade whose entry slipped by one percent, which R15 closes again. -/
def slippedRun : List Op :=
  [.submit .accepting 0 0 samplePlan,
    .onOrderUpdate .accepting { sampleFill 1 with filledPrice := 101 }]

/-- The trade of `samplePlan`, filled one percent away. -/
def slippedTrade : ActiveTrade :=
  { plan := samplePlan, entryOrderId := 1, entryClientOrderId := generateClientOrderId 0 0,
    state := .emergencyClosing, executedSize := 1, avgEntryPrice := 101 }

theorem emergencyClosing_never_resolves_slipped :
    ¬ EmergencyResolves ((init {}).run slippedRun) slippedTrade ∧
      ∀ ops, (∀ env, .cancelAll env "BTC_USDT" ∉ ops) →
        (∃ t' ∈ (((init {}).run slippedRun).run ops).popClosedTrades.1.allTrades, t'.uid = 0 ∧
          t'.state = .emergencyClosing) ∧
        ¬ Resolved 0 1 (((init {}).run slippedRun).run ops) :=
  emergencyClosing_never_resolves _ ⟨{}, slippedRun, rfl⟩ slippedTrade (by decide +kernel) rfl
    (by decide +kernel)

/-- The slipped trade is not resolved by the report of its accepted close. -/
theorem emergencyClosing_stuck :
    ¬ ∀ ex : LiveExecutor, ex.Reachable → ∀ t ∈ ex.allTrades, t.state = .emergencyClosing →
        t.marketClose ∈ marketCloses true t.uid ex.trace → EmergencyResolves ex t := by
  intro hall
  have hmem : slippedTrade ∈ ((init {}).run slippedRun).allTrades := by decide +kernel
  have haccepted : slippedTrade.marketClose ∈
    marketCloses true slippedTrade.uid ((init {}).run slippedRun).trace := by decide +kernel
  exact not_emergencyResolves ((wf_init {}).run slippedRun) hmem rfl haccepted
    (hall _ ⟨{}, slippedRun, rfl⟩ slippedTrade hmem rfl haccepted)

end TradeBot
