import TradeBot.Executor.Invariants

set_option autoImplicit false

/-! # The outcomes of a turn

`TradeOutcome` flattens a turn into its possible outcomes: the events it appends, and the trade it
leaves. `TradeTurn.outcome` is the one place where the branches of the executor's functions are
enumerated; every invariant below is a case analysis over it.

An outcome has as arguments what decides between the branches: how the update was routed, which
answer the gateway gave, in which state the trade was. A proof about a step takes `step_outcome` and
`cases`, and is left with lists of events and a trade in each case. -/

namespace TradeBot

open LiveExecutor

/-- What a turn of trade `t` during `op` (begun in state `ex`, the turn itself with members `m`)
    appends to the trace, and the trade it leaves. -/
inductive TradeOutcome (ex : LiveExecutor) (m : Members) (t : ActiveTrade) :
    Op → List Event → ActiveTrade → Prop
  | rest {op : Op} : TradeOutcome ex m t op [] t
  | position {upd : PositionUpdate} :
      TradeOutcome ex m t (.onPositionUpdate upd) [] { t with avgPriceFix := upd.avgPriceFix }
  | cancel {env : Env} {ticker : Ticker} (hticker : t.plan.ticker = ticker)
      (hok : env.cancelAllOrders ex.trace.length ticker = .ok ()) (hst : t.state ≠ .closed) :
      TradeOutcome ex m t (.cancelAll env ticker) [] { t with state := .cancelling }
  | ack {env : Env} {upd : OrderUpdate} {om : OrderMatch} (hroute : ex.route upd = some (t, om))
      (hsel : selectTrade upd t = some om) (hfill : ¬ upd.isFill) :
      TradeOutcome ex m t (.onOrderUpdate env upd) [] (captureIds upd t)
  | dead {env : Env} {upd : OrderUpdate} {om : OrderMatch} (hroute : ex.route upd = some (t, om))
      (hsel : selectTrade upd t = some om) (hentry : om.isEntry = true)
      (hst : upd.status = .closed) (hsize : upd.filledSize ≤ 0) :
      TradeOutcome ex m t (.onOrderUpdate env upd) [] { captureIds upd t with state := .closed }
  | partly {env : Env} {upd : OrderUpdate} {om : OrderMatch} {evs : List Event}
      {stopId tp1Id : OrderId} {openedAt : TimePoint} (hroute : ex.route upd = some (t, om))
      (hsel : selectTrade upd t = some om) (hentry : om.isEntry = true)
      (hst : upd.status = .opened) (hsize : 0 < upd.filledSize)
      (hevs : t.state = .opened ∧ evs = [] ∨ t.state ≠ .opened ∧
        StopAttempt { captureIds upd t with state := .opened, openedAt := upd.time } evs) :
      TradeOutcome ex m t (.onOrderUpdate env upd) evs
        { (captureIds upd t).withExitIds stopId tp1Id with
          state := .opened, openedAt := openedAt,
          executedSize := t.executedSize + upd.filledSize, avgEntryPrice := upd.filledPrice }
  | slipped {env : Env} {upd : OrderUpdate} {om : OrderMatch} {r : PlaceOrderResult}
      (hroute : ex.route upd = some (t, om)) (hsel : selectTrade upd t = some om)
      (hentry : om.isEntry = true) (hfill : upd.isFill) :
      TradeOutcome ex m t (.onOrderUpdate env upd)
        [.placed t.uid ((captureIds upd t).entryFilled upd).marketClose (.ok r)]
        { (captureIds upd t).entryFilled upd with state := .emergencyClosing }
  | slipRefused {env : Env} {upd : OrderUpdate} {om : OrderMatch} {e msg : String}
      (hroute : ex.route upd = some (t, om)) (hsel : selectTrade upd t = some om)
      (hentry : om.isEntry = true) (hfill : upd.isFill) :
      TradeOutcome ex m t (.onOrderUpdate env upd)
        [.placed t.uid ((captureIds upd t).entryFilled upd).marketClose (.error e),
          .alerted t.uid msg]
        ((captureIds upd t).entryFilled upd)
  | entry {env : Env} {upd : OrderUpdate} {om : OrderMatch} {evs : List Event}
      {stopId tp1Id : OrderId} (hroute : ex.route upd = some (t, om))
      (hsel : selectTrade upd t = some om) (hentry : om.isEntry = true) (hfill : upd.isFill)
      (hevs : StopAttempt ((captureIds upd t).entryFilled upd) evs) :
      TradeOutcome ex m t (.onOrderUpdate env upd) evs
        (((captureIds upd t).entryFilled upd).withExitIds stopId tp1Id)
  | tp1Bare {env : Env} {upd : OrderUpdate} {om : OrderMatch} (hroute : ex.route upd = some (t, om))
      (hsel : selectTrade upd t = some om) (hentry : om.isEntry = false) (hfill : upd.isFill)
      (htp1 : om.isTp1 = true) (hfirst : t.tp1Filled = false) :
      TradeOutcome ex m t (.onOrderUpdate env upd)
        (dropEvents env t.uid upd.ticker (captureIds upd t).stopOrderId m)
        (captureIds upd t).tp1Done
  | tp1BreakEven {env : Env} {upd : OrderUpdate} {om : OrderMatch} {r : PlaceOrderResult}
      (hroute : ex.route upd = some (t, om)) (hsel : selectTrade upd t = some om)
      (hentry : om.isEntry = false) (hfill : upd.isFill) (htp1 : om.isTp1 = true)
      (hfirst : t.tp1Filled = false) (hrem : kSizeEps < t.remaining upd.filledSize)
      (hfix : 0 < t.avgPriceFix) :
      TradeOutcome ex m t (.onOrderUpdate env upd)
        (dropEvents env t.uid upd.ticker (captureIds upd t).stopOrderId m ++
          [.placed t.uid (t.beRequest upd.filledSize) (.ok r)])
        (captureIds upd t).tp1Done
  | tp1Failed {env : Env} {upd : OrderUpdate} {om : OrderMatch} {e msg : String} {n n' : ℕ}
      {e' : String} {pre : List Event} {ct : ClosedTrade} (hroute : ex.route upd = some (t, om))
      (hsel : selectTrade upd t = some om) (hentry : om.isEntry = false) (hfill : upd.isFill)
      (htp1 : om.isTp1 = true) (hfirst : t.tp1Filled = false)
      (hrem : kSizeEps < t.remaining upd.filledSize) (hfix : 0 < t.avgPriceFix)
      (hrefused : env.placeOrder n (t.beRequest upd.filledSize) = .error e') (hpre : Quiet pre)
      (hsize : ct.sizeFilled = t.executedSize) (hreason : ct.reason = "BEStopFailed") :
      TradeOutcome ex m t (.onOrderUpdate env upd)
        (dropEvents env t.uid upd.ticker (captureIds upd t).stopOrderId m ++
          .placed t.uid (t.beRequest upd.filledSize) (.error e) :: .alerted t.uid msg ::
          (pre ++ [.placed t.uid t.marketClose (env.placeOrder n' t.marketClose),
            .recorded t.uid ct]))
        ((captureIds upd t).tp1Done.afterClose (env.placeOrder n' t.marketClose))
  | exit {env : Env} {upd : OrderUpdate} {om : OrderMatch} (hroute : ex.route upd = some (t, om))
      (hsel : selectTrade upd t = some om) (hentry : om.isEntry = false) (hfill : upd.isFill)
      (hexit : om.isStop = true ∨ om.isTp2 = true ∨ om.isTp1 = true ∧ t.tp1Filled = true)
      (hrep : .reported upd ∈ m.trace) :
      TradeOutcome ex m t (.onOrderUpdate env upd)
        [.recorded t.uid (exitRecord upd om (captureIds upd t))]
        { captureIds upd t with state := .closed }
  | emergency {env : Env} {now : TimePoint} {pre : List Event} {ct : ClosedTrade} {n : ℕ}
      (hdue : (closeAction? ex.toMembers now t).isSome = true) (hst : t.state = .opened)
      (hexec : 0 < t.executedSize) (hpre : Quiet pre) (hsize : ct.sizeFilled = t.executedSize) :
      TradeOutcome ex m t (.tick env now)
        (pre ++ [.placed t.uid t.marketClose (env.placeOrder n t.marketClose), .recorded t.uid ct])
        t.markClosing
  | rearm {env : Env} {now : TimePoint} {evs : List Event} {stopId tp1Id : OrderId}
      (hspared : closeAction? ex.toMembers now t = none) (hdue : rearmDue now t = true)
      (hevs : StopAttempt t evs) :
      TradeOutcome ex m t (.tick env now) evs (t.withExitIds stopId tp1Id)
  | resolved {env : Env} {now : TimePoint} {id : OrderId} (hst : t.state = .submitUnknown) :
      TradeOutcome ex m t (.tick env now) [] { t with entryOrderId := id, state := .pendingEntry }
  | timeout {env : Env} {now : TimePoint} {msg : String} {ct : ClosedTrade}
      (hst : t.state = .submitUnknown) (hsize : ct.sizeFilled = 0) :
      TradeOutcome ex m t (.tick env now) [.alerted t.uid msg, .recorded t.uid ct]
        { t with state := .closed }
  | close {env : Env} {ticker : Ticker} {reason : String} {pre : List Event} {ct : ClosedTrade}
      {n : ℕ} (hticker : t.plan.ticker = ticker) (hst : t.state = .opened)
      (hexec : 0 < t.executedSize) (hpre : Quiet pre) (hsize : ct.sizeFilled = t.executedSize) :
      TradeOutcome ex m t (.closeTrade env ticker reason)
        (pre ++ [.placed t.uid t.marketClose (env.placeOrder n t.marketClose), .recorded t.uid ct])
        (t.afterClose (env.placeOrder n t.marketClose))

section Outcome

variable {ex : LiveExecutor} {m : Members} {t : ActiveTrade}

/-- The outcomes of an order update that is routed to the trade. -/
theorem applyOrderUpdate_outcome (env : Env) {upd : OrderUpdate} {om : OrderMatch}
    (hroute : ex.route upd = some (t, om)) (hsel : selectTrade upd t = some om)
    (hrep : .reported upd ∈ m.trace) :
    ∃ evs, Effect t.uid evs m (applyOrderUpdate env upd m t om).1 ∧
      TradeOutcome ex m t (.onOrderUpdate env upd) evs (applyOrderUpdate env upd m t om).2 := by
  unfold applyOrderUpdate
  refine handleOrderUpdate_elim (motive := fun r => ∃ evs, Effect t.uid evs m r.1 ∧
      TradeOutcome ex m t (.onOrderUpdate env upd) evs r.2) env upd om m (captureIds upd t)
    ?_ ?_ ?_ ?_ ?_ ?_ (selectTrade_eq_some hsel).2.2.2
  · -- an update that is neither a fill nor the end of the entry
    exact fun m' heff hfill => ⟨[], heff, .ack hroute hsel hfill⟩
  · -- the entry ends without a fill
    intro m' heff hst hsize hstop htp1 htp2
    have hentry : om.isEntry = true := by
      have hany := (selectTrade_eq_some hsel).2.2.2
      simpa [OrderMatch.any, hstop, htp1, htp2] using hany
    exact ⟨[], heff, .dead hroute hsel hentry hst hsize⟩
  · -- a report on the open entry
    intro hst hentry hsize
    obtain ⟨evs, i, j, openedAt, heff, hevs, ht⟩ := onEntryPartial_effect env upd m (captureIds upd t)
    rw [ht]
    exact ⟨evs, heff, .partly hroute hsel hentry hst hsize hevs⟩
  · -- the fill of the entry
    intro m' hm hfill hentry
    obtain ⟨evs, heff, ⟨r, rfl, ht⟩ | ⟨e, msg, rfl, ht⟩ | ⟨hevs, i, j, ht⟩⟩ :=
      onEntryFilled_effect env upd m' (captureIds upd t)
    all_goals rw [ht]
    · exact ⟨_, hm.trans heff, .slipped hroute hsel hentry hfill⟩
    · exact ⟨_, hm.trans heff, .slipRefused hroute hsel hentry hfill⟩
    · exact ⟨_, hm.trans heff, .entry hroute hsel hentry hfill hevs⟩
  · -- the first fill of TP1
    intro hfill hentry htp1 hfirst
    obtain ⟨evs, heff, ⟨rfl, ht⟩ | ⟨hrem, hfix, r, rfl, ht⟩ |
      ⟨hrem, hfix, ⟨n, e', hn⟩, e, msg, pre, res, rfl, hq, ⟨n', rfl⟩, ht⟩⟩ :=
      onTp1Filled_effect env upd m (captureIds upd t)
    all_goals rw [ht]
    · rw [List.append_nil] at heff
      exact ⟨_, heff, .tp1Bare hroute hsel hentry hfill htp1 hfirst⟩
    · exact ⟨_, heff, .tp1BreakEven hroute hsel hentry hfill htp1 hfirst hrem hfix⟩
    · exact ⟨_, heff, .tp1Failed hroute hsel hentry hfill htp1 hfirst hrem hfix hn hq rfl rfl⟩
  · -- the fill that ends the trade
    intro hfill hentry hexit
    exact ⟨_, onExitFilled_effect upd om m (captureIds upd t),
      .exit hroute hsel hentry hfill hexit hrep⟩

/-- Every turn has one of the listed outcomes. -/
theorem TradeTurn.outcome {op : Op} {t' : ActiveTrade} {m' : Members}
    (h : TradeTurn ex op (t, m) (t', m')) :
    ∃ evs, Effect t.uid evs m m' ∧ TradeOutcome ex m t op evs t' := by
  cases h with
  | rest => exact ⟨[], .refl .., .rest⟩
  | position hticker =>
      refine ⟨[], .refl .., ?_⟩
      unfold applyPositionUpdate
      dsimp only
      split
      · exact .position
      · exact .rest
  | cancel hticker hok =>
      obtain ⟨evs, heff⟩ := (cancelTrade_keeps m t).effect
      unfold cancelTrade at heff ⊢
      split
      · exact ⟨[], .refl .., .rest⟩
      · next hst =>
          refine ⟨[], ?_, .cancel hticker hok hst⟩
          dsimp only
          split
          · exact effect_releaseReservation ..
          · exact .refl ..
  | update hroute hsel hrep => exact applyOrderUpdate_outcome _ hroute hsel hrep
  -- a rule has decided that the trade is to be closed
  | emergency hact =>
      obtain ⟨rfl, hst, hexec⟩ := closeAction?_eq_some hact
      obtain ⟨pre, res, heff, hq, n, rfl⟩ := execCloseAction_effect _ m _
      exact ⟨_, heff, .emergency (by rw [hact]; rfl) hst hexec hq rfl⟩
  | rearm hact hdue =>
      obtain ⟨evs, i, j, heff, hevs, ht⟩ := placeStops_effect _ m t
      rw [ht]
      exact ⟨evs, heff, .rearm hact hdue hevs⟩
  -- the poll has settled the intent of the trade
  | @reconciled env now res _ _ hst hout =>
      unfold applyReconciled
      split
      · next h => exact absurd h hout
      · exact ⟨[], .refl .., .resolved hst⟩
      · exact ⟨_, (effect_alert ..).trans ((effect_releaseReservation ..).trans
          (effect_pushClosed ..)), .timeout hst rfl⟩
  | close hticker hst hsize =>
      obtain ⟨pre, res, heff, hq, ⟨n, rfl⟩, ht⟩ := closeAndRecord_effect _ _ m t
      rw [ht]
      exact ⟨_, heff, .close hticker hst hsize hq rfl⟩

/-- The events that a step of the executor appends for one of its trades are those of an outcome. -/
theorem step_outcome (hwf : ex.WF) (op : Op) (ht : t ∈ ex.allTrades) :
    ∃ m evs t' all, TradeOutcome ex m t op evs t' ∧ (ex.step op).trace = ex.trace ++ all ∧
      ∀ e ∈ all, e.owner = some t.uid → e ∈ evs := by
  have hsim := step_sim hwf op
  rcases hsim.kept t ht with ⟨t', ht', huid⟩ | ⟨rfl, _⟩
  · obtain ⟨x, hx, hxu, m₁, m₂, ⟨before, htr, hno⟩, hturn, after, htr', hno'⟩ :=
      hsim.old t' ht' (huid ▸ hwf.fresh t ht)
    obtain rfl : x = t := List.inj_on_of_nodup_map hwf.nodup hx ht (hxu.trans huid)
    obtain ⟨evs, heff, hout⟩ := hturn.outcome
    refine ⟨m₁, evs, t', before ++ evs ++ after, hout, ?_, ?_⟩
    · rw [htr', heff.trace, htr, List.append_assoc, List.append_assoc, List.append_assoc]
    · intro e he hown
      rcases List.mem_append.1 he with he | he
      · exact (List.mem_append.1 he).elim (fun he => absurd hown (hno e he)) id
      · exact absurd hown (hno' e he)
  · exact ⟨ex.toMembers, [], t, [], .rest, (List.append_nil _).symm, by simp⟩

end Outcome

end TradeBot
