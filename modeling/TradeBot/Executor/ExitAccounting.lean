import TradeBot.Executor.Outcomes

set_option autoImplicit false

/-! # Exit accounting

A trade's exit fills are the fills that the exchange reports for its stop-loss and take-profit
orders. Only the fill of a stop, of TP2 or of a TP1 that follows another TP1 is recorded, and it
closes the trade whatever its size; the first TP1 fill is neither recorded nor taken off the executed
size. So the records add up to what was executed exactly if the position leaves in one stop or TP2
fill of the whole size: `exit_accounting`, and `tp1_fill_unrecorded` for a run where it does not.

The proof divides a run at the fill that closes the position. Before it the trade holds its position
(`holding_turnInvariant`), after it the trade is closed and nothing happens to it any more
(`left_turnInvariant`). The fill between the two is the whole executed size by the condition, and
recorded. -/

namespace TradeBot

open LiveExecutor

/-- The exchange's ids of the trade's exit orders: those it accepted for the trade, and those the
    trade's record carries. -/
def exitOrderIds (uid : ℕ) (ex : LiveExecutor) : List OrderId :=
  ex.trace.filterMap (fun
    | .placed v req (.ok r) =>
        if v = uid ∧ req.reduceOnly = true ∧ (req.type = .stopLoss ∨ req.type = .takeProfit) then
          some r.exchangeId
        else none
    | _ => none) ++
  (ex.allTrades.filter (fun t => t.uid = uid)).flatMap
    (fun t => [t.stopOrderId, t.tp1OrderId, t.tp2OrderId].filter (fun id => id ≠ 0))

/-- The update reports a fill of one of the trade's exit orders. -/
def isExitFill (uid : ℕ) (ex : LiveExecutor) (upd : OrderUpdate) : Bool :=
  decide upd.isFill && decide (upd.orderId ∈ exitOrderIds uid ex)

/-- The exit fill that one operation delivers, if it does. -/
def exitFillOf (uid : ℕ) (ex : LiveExecutor) : Op → List OrderUpdate
  | .onOrderUpdate _ upd => if isExitFill uid ex upd then [upd] else []
  | _ => []

/-- The exit fills delivered during a run. -/
def exitFills (uid : ℕ) : LiveExecutor → List Op → List OrderUpdate
  | _, [] => []
  | ex, op :: ops => exitFillOf uid ex op ++ exitFills uid (ex.step op) ops

/-- The sizes of the records add up to `size`, and their PnL to that of the fills. -/
structure Accounted (uid : ℕ) (t : ActiveTrade) (fills : List OrderUpdate) (evs : List Event) :
    Prop where
  size : ((recordsOf uid evs).map ClosedTrade.sizeFilled).sum = t.executedSize
  pnl : ((recordsOf uid evs).map ClosedTrade.pnlUsd).sum
    = (fills.map (fun upd =>
        realizedPnl t.plan.side t.avgEntryPrice upd.filledPrice upd.filledSize)).sum

/-- For trade `uid`, which executed `size`: its exit fills are stop or TP2 fills of the whole size and
    reach it, no other order's fill reaches it, its entry order is over, and neither `tick` nor
    `close_trade` closes it. -/
def LeavesAtOnce (uid : ℕ) (size : ℚ) (ex : LiveExecutor) : Op → Prop
  | .onOrderUpdate _ upd =>
      (∀ t om, ex.route upd = some (t, om) → t.uid = uid →
        om.isEntry = false ∧ (upd.isFill → isExitFill uid ex upd = true)) ∧
      (isExitFill uid ex upd = true → upd.filledSize = size ∧
        ∃ t om, ex.route upd = some (t, om) ∧ t.uid = uid ∧ om.isTp1 = false ∧
          (om.isStop = true ∨ om.isTp2 = true))
  | .tick _ now =>
      ∀ t ∈ ex.allTrades, t.uid = uid → closeAction? ex.toMembers now t = none
  | .closeTrade _ ticker _ =>
      ∀ t ∈ ex.allTrades, t.uid = uid → t.plan.ticker = ticker → t.state ≠ .opened
  | _ => True

/-! ## Before and after the exit -/

section Phases

variable {t t' : ActiveTrade} {uid : ℕ} {ex : LiveExecutor} {op : Op}

/-- The trade still holds what `t` executed, and nothing is recorded of it. -/
structure Holding (t : ActiveTrade) (t' : ActiveTrade) (evs : List Event) : Prop where
  state : t'.state = .opened ∨ t'.state = .cancelling
  plan : t'.plan = t.plan
  executedSize : t'.executedSize = t.executedSize
  avgEntryPrice : t'.avgEntryPrice = t.avgEntryPrice
  tp1Filled : t'.tp1Filled = false
  records : recordsOf t'.uid evs = []

/-- The trade is closed, with the one record `ct`. -/
structure Left (ct : ClosedTrade) (t' : ActiveTrade) (evs : List Event) : Prop where
  state : t'.state = .closed
  records : recordsOf t'.uid evs = [ct]

theorem recordsOf_recordless {evs : List Event} (h : Recordless evs) : recordsOf uid evs = [] := by
  refine List.filterMap_eq_nil_iff.2 (fun e he => ?_)
  cases e with
  | recorded v ct => exact absurd rfl (h _ he v ct)
  | _ => rfl

theorem Holding.append {evs evs' : List Event} (h : Holding t t' evs)
    (hr : recordsOf t'.uid evs' = []) {t'' : ActiveTrade} (huid : t''.uid = t'.uid)
    (hst : t''.state = .opened ∨ t''.state = .cancelling) (hplan : t''.plan = t'.plan)
    (hexec : t''.executedSize = t'.executedSize) (havg : t''.avgEntryPrice = t'.avgEntryPrice)
    (htp1 : t''.tp1Filled = t'.tp1Filled) : Holding t t'' (evs ++ evs') where
  state := hst
  plan := hplan.trans h.plan
  executedSize := hexec.trans h.executedSize
  avgEntryPrice := havg.trans h.avgEntryPrice
  tp1Filled := htp1.trans h.tp1Filled
  records := by rw [huid, recordsOf_append, h.records, hr]; rfl

/-- Until an exit fill is delivered the trade holds its position. -/
theorem holding_turnInvariant (t : ActiveTrade) :
    TurnInvariant (fun ex op x => LeavesAtOnce x.uid t.executedSize ex op ∧
      exitFillOf x.uid ex op = []) (Holding t) (fun _ _ => True) where
  silent := fun hno h => h.append (recordsOf_noneOf hno) rfl h.state rfl rfl rfl rfl
  gone := fun _ => trivial
  gone_silent := fun _ _ => trivial
  turn := fun {ex op x x' m₁ m₂} _ hmem ⟨hC, hnone⟩ _ h hturn => by
    obtain ⟨evs, heff, hout⟩ := hturn.outcome
    rw [heff.trace]
    -- an update that is not the exit fills nothing
    have noFill : ∀ {env upd om}, op = .onOrderUpdate env upd → ex.route upd = some (x, om) →
        ¬ upd.isFill := by
      intro env upd om hop hroute hfill
      subst hop
      have hexit := (hC.1 x om hroute rfl).2 hfill
      simp [exitFillOf, hexit] at hnone
    -- the entry is over
    have noEntry : ∀ {env upd om}, op = .onOrderUpdate env upd → ex.route upd = some (x, om) →
        om.isEntry = false := by
      intro env upd om hop hroute
      subst hop
      exact (hC.1 x om hroute rfl).1
    cases hout with
    | rest => exact h.append rfl rfl h.state rfl rfl rfl rfl
    | position => exact h.append rfl rfl h.state rfl rfl rfl rfl
    | cancel => exact h.append rfl rfl (Or.inr rfl) rfl rfl rfl rfl
    | ack => exact h.append rfl rfl h.state rfl rfl rfl rfl
    | dead hroute _ hentry => exact absurd hentry (by simp [noEntry rfl hroute])
    | partly hroute _ hentry => exact absurd hentry (by simp [noEntry rfl hroute])
    | slipped hroute _ hentry => exact absurd hentry (by simp [noEntry rfl hroute])
    | slipRefused hroute _ hentry => exact absurd hentry (by simp [noEntry rfl hroute])
    | entry hroute _ hentry => exact absurd hentry (by simp [noEntry rfl hroute])
    | tp1Bare hroute _ _ hfill => exact absurd hfill (noFill rfl hroute)
    | tp1BreakEven hroute _ _ hfill => exact absurd hfill (noFill rfl hroute)
    | tp1Failed hroute _ _ hfill => exact absurd hfill (noFill rfl hroute)
    | exit hroute _ _ hfill => exact absurd hfill (noFill rfl hroute)
    | emergency hdue => simp [hC x hmem rfl] at hdue
    | rearm _ _ hevs =>
        exact h.append (recordsOf_recordless hevs.recordless) rfl h.state rfl rfl rfl rfl
    | resolved hst => exact absurd hst (by rcases h.state with hs | hs <;> simp [hs])
    | timeout hst => exact absurd hst (by rcases h.state with hs | hs <;> simp [hs])
    | close hticker hst => exact absurd hst (hC x hmem rfl hticker)

/-- Nothing happens to a closed trade. -/
theorem left_turnInvariant (ct : ClosedTrade) :
    TurnInvariant (fun _ _ _ => True) (Left ct) (fun u evs => recordsOf u evs = [ct]) where
  silent := fun hno h => ⟨h.state, by rw [recordsOf_append, h.records, recordsOf_noneOf hno]; rfl⟩
  gone := fun h => h.records
  gone_silent := fun hno h => by rw [recordsOf_append, h, recordsOf_noneOf hno]; rfl
  turn := fun {ex op x x' m₁ m₂} _ _ _ _ h hturn => by
    obtain ⟨evs, heff, hout⟩ := hturn.outcome
    rw [heff.trace]
    have keep : ∀ {y : ActiveTrade}, y.state = .closed → y.uid = x.uid →
        Left ct y (m₁.trace ++ []) := fun hst huid =>
      ⟨hst, by rw [List.append_nil, huid]; exact h.records⟩
    cases hout with
    | rest => exact keep h.state rfl
    | position => exact keep h.state rfl
    | cancel _ _ hst => exact absurd h.state hst
    | ack _ hsel => exact absurd h.state (selectTrade_eq_some hsel).1
    | dead _ hsel => exact absurd h.state (selectTrade_eq_some hsel).1
    | partly _ hsel => exact absurd h.state (selectTrade_eq_some hsel).1
    | slipped _ hsel => exact absurd h.state (selectTrade_eq_some hsel).1
    | slipRefused _ hsel => exact absurd h.state (selectTrade_eq_some hsel).1
    | entry _ hsel => exact absurd h.state (selectTrade_eq_some hsel).1
    | tp1Bare _ hsel => exact absurd h.state (selectTrade_eq_some hsel).1
    | tp1BreakEven _ hsel => exact absurd h.state (selectTrade_eq_some hsel).1
    | tp1Failed _ hsel => exact absurd h.state (selectTrade_eq_some hsel).1
    | exit _ hsel => exact absurd h.state (selectTrade_eq_some hsel).1
    | emergency _ hst => exact absurd (h.state.symm.trans hst) (by simp)
    | rearm _ hdue => exact absurd (h.state.symm.trans (rearmDue_opened hdue)) (by simp)
    | resolved hst => exact absurd (h.state.symm.trans hst) (by simp)
    | timeout hst => exact absurd (h.state.symm.trans hst) (by simp)
    | close _ hst => exact absurd (h.state.symm.trans hst) (by simp)

/-- The exit fill of the whole size closes the trade and is recorded. -/
theorem left_of_exitFill (hwf : ex.WF) (ht' : t' ∈ ex.allTrades) (h : Holding t t' ex.trace)
    {env : Env} {upd : OrderUpdate} (hfill : isExitFill t'.uid ex upd = true)
    (hC : LeavesAtOnce t'.uid t.executedSize ex (.onOrderUpdate env upd)) :
    upd.filledSize = t.executedSize ∧ ∃ ct, ct.sizeFilled = t.executedSize ∧
      ct.pnlUsd = realizedPnl t.plan.side t.avgEntryPrice upd.filledPrice upd.filledSize ∧
      Holds (Left ct) (fun u evs => recordsOf u evs = [ct]) t'.uid (ex.onOrderUpdate env upd) := by
  obtain ⟨hsize, x, om, hroute, hxu, htp1, hexit⟩ := hC.2 hfill
  obtain rfl : x = t' :=
    List.inj_on_of_nodup_map hwf.nodup (mem_of_route hwf.toKeyed hroute) ht' hxu
  have hentry : om.isEntry = false := (hC.1 x om hroute rfl).1
  have hisFill : upd.isFill := by
    simp only [isExitFill, Bool.and_eq_true, decide_eq_true_eq] at hfill
    exact hfill.1
  obtain ⟨_, _, hmembers, pre, post, hall, hall'⟩ := onOrderUpdate_of_route hwf.toKeyed env hroute
  rw [applyOrderUpdate, handleOrderUpdate_exit hisFill hentry htp1 hexit] at hmembers hall'
  have heff := onExitFilled_effect upd om (ex.emit (.reported upd)) (captureIds upd x)
  have hrecords : recordsOf x.uid (ex.onOrderUpdate env upd).trace
      = [exitRecord upd om (captureIds upd x)] := by
    rw [hmembers, heff.trace, recordsOf_append, Members.emit_trace, recordsOf_append, h.records]
    simp [recordsOf]
  refine ⟨hsize, exitRecord upd om (captureIds upd x), hsize, ?_, ?_, hrecords⟩
  · change realizedPnl x.plan.side x.avgEntryPrice _ _ = _
    rw [h.plan, h.avgEntryPrice]
  · intro y hy hyu
    have hnd : ((ex.onOrderUpdate env upd).allTrades.map ActiveTrade.uid).Nodup :=
      (step_sim hwf (.onOrderUpdate env upd)).wf.nodup
    have hnew : (onExitFilled upd om (ex.emit (.reported upd)) (captureIds upd x)).2
        ∈ (ex.onOrderUpdate env upd).allTrades := by simp [hall']
    obtain rfl := List.inj_on_of_nodup_map hnd hy hnew hyu
    exact ⟨rfl, hrecords⟩

/-- After the exit no exit fill of the trade is delivered any more, and it stays closed. -/
theorem left_run {ct : ClosedTrade} {size : ℚ} (hwf : ex.WF) (hu : uid < ex.nextUid)
    (h : Holds (Left ct) (fun u evs => recordsOf u evs = [ct]) uid ex) {ops : List Op}
    (hops : ex.Along (LeavesAtOnce uid size) ops) :
    exitFills uid ex ops = [] ∧
      Holds (Left ct) (fun u evs => recordsOf u evs = [ct]) uid (ex.run ops) := by
  induction ops generalizing ex with
  | nil => exact ⟨rfl, h⟩
  | cons op ops ih =>
      have hnone : exitFillOf uid ex op = [] := by
        unfold exitFillOf
        split
        · next upd =>
            split
            · next hfill =>
                obtain ⟨_, x, om, hroute, hxu, _⟩ := hops.1.2 hfill
                have hsel := (onOrderUpdate_of_route hwf.toKeyed .accepting hroute).1
                exact absurd (h.1 x (mem_of_route hwf.toKeyed hroute) hxu).state
                  (selectTrade_eq_some hsel).1
            · rfl
        · rfl
      have hsim := step_sim hwf op
      obtain ⟨hfills, hend⟩ := ih hsim.wf (hu.trans_le hsim.nextUid_le)
        ((left_turnInvariant ct).follow_step hwf hu h (fun _ _ _ => trivial)) hops.2
      exact ⟨by rw [exitFills, hnone, hfills]; rfl, hend⟩

/-- Along a run that meets the condition either no exit fill is delivered, or exactly one, and then
    the trade has left with its record. -/
theorem exitFills_run (hwf : ex.WF) (ht' : t' ∈ ex.allTrades) (h : Holding t t' ex.trace)
    {ops : List Op} (hops : ex.Along (LeavesAtOnce t'.uid t.executedSize) ops) :
    exitFills t'.uid ex ops = [] ∨
      ∃ upd ct, exitFills t'.uid ex ops = [upd] ∧ ct.sizeFilled = t.executedSize ∧
        ct.pnlUsd = realizedPnl t.plan.side t.avgEntryPrice upd.filledPrice upd.filledSize ∧
        Holds (Left ct) (fun u evs => recordsOf u evs = [ct]) t'.uid (ex.run ops) := by
  induction ops generalizing ex t' with
  | nil => exact Or.inl rfl
  | cons op ops ih =>
      have hsim := step_sim hwf op
      by_cases hnone : exitFillOf t'.uid ex op = []
      · obtain ⟨t'', ht'', huid, h''⟩ := (holding_turnInvariant t).follow_present
          (fun h => by rcases h.state with hs | hs <;> simp [hs]) hwf ht' h
          (show ex.Along _ [op] from ⟨fun x _ hxu => by rw [hxu]; exact ⟨hops.1, hnone⟩, trivial⟩)
        rw [exitFills, hnone, List.nil_append]
        rw [← huid] at hops ⊢
        exact ih hsim.wf ht'' h'' hops.2
      · obtain ⟨env, upd, rfl, hfill⟩ : ∃ env upd, op = .onOrderUpdate env upd ∧
            isExitFill t'.uid ex upd = true := by
          unfold exitFillOf at hnone
          split at hnone
          · next env upd =>
              refine ⟨env, upd, rfl, ?_⟩
              by_contra hno
              simp [hno] at hnone
          · exact absurd rfl hnone
        obtain ⟨_, ct, hct, hpnl, hleft⟩ := left_of_exitFill hwf ht' h hfill hops.1
        have hu : t'.uid < (ex.step (.onOrderUpdate env upd)).nextUid :=
          (hwf.fresh t' ht').trans_le hsim.nextUid_le
        obtain ⟨hfills, hend⟩ := left_run hsim.wf hu hleft hops.2
        refine Or.inr ⟨upd, ct, ?_, hct, hpnl, hend⟩
        rw [exitFills, hfills]
        simp [exitFillOf, hfill]

end Phases

/-! ## The results -/

/-- From the filled entry on, in a run in which the position leaves in one stop or TP2 fill: when the
    exit fills add up to the executed size the trade is closed, and its records account for it. -/
theorem exit_accounting (ex : LiveExecutor) (hex : ex.Reachable) (t : ActiveTrade)
    (ht : t ∈ ex.allTrades) (hst : t.state = .opened) (hexec : 0 < t.executedSize)
    (htp1 : t.tp1Filled = false) (hrec : recordsOf t.uid ex.trace = []) (ops : List Op)
    (hops : ex.Along (LeavesAtOnce t.uid t.executedSize) ops)
    (hsum : ((exitFills t.uid ex ops).map OrderUpdate.filledSize).sum = t.executedSize) :
    (∀ t' ∈ (ex.run ops).allTrades, t'.uid = t.uid → t'.state = .closed) ∧
      Accounted t.uid t (exitFills t.uid ex ops) (ex.run ops).trace := by
  have hhold : Holding t t ex.trace := ⟨Or.inl hst, rfl, rfl, rfl, htp1, hrec⟩
  rcases exitFills_run hex.wf ht hhold hops with hnil | ⟨upd, ct, hone, hsize, hpnl, hleft⟩
  · rw [hnil] at hsum
    exact absurd hsum hexec.ne
  · refine ⟨fun t' ht' huid => (hleft.1 t' ht' huid).state, ?_, ?_⟩
    · rw [hleft.2]
      simpa using hsize
    · rw [hleft.2, hone]
      simpa using hpnl

/-- The trade of `openedRun` is stopped out. -/
theorem exit_accounting_stopped :
    let ops : List Op := [.onOrderUpdate .accepting (sampleExit 3 .stopLoss 99 1)]
    (∀ t' ∈ (openedRun.run ops).allTrades, t'.uid = openedTrade.uid → t'.state = .closed) ∧
      Accounted 0 openedTrade (exitFills 0 openedRun ops) (openedRun.run ops).trace := by
  have hroute : openedRun.route (sampleExit 3 .stopLoss 99 1)
      = some (openedTrade, { isEntry := false, isStop := true, isTp1 := false, isTp2 := false }) := by
    decide +kernel
  refine exit_accounting openedRun ⟨{}, _, rfl⟩ openedTrade (by decide +kernel) rfl (by decide +kernel)
    rfl (by decide +kernel) _
    ⟨⟨fun t om h _ => ?_, fun _ => ⟨rfl, _, _, hroute, rfl, rfl, Or.inl rfl⟩⟩, trivial⟩
    (by decide +kernel)
  rw [hroute] at h
  obtain ⟨rfl, rfl⟩ := Prod.mk.inj (Option.some.inj h)
  exact ⟨rfl, fun _ => by decide +kernel⟩

/-- TP1 takes half of the position, the break-even stop the rest: the trade is closed with a record of
    one half. -/
theorem tp1_fill_unrecorded :
    ¬ ∀ ex : LiveExecutor, ex.Reachable → ∀ t ∈ ex.allTrades, t.state = .opened →
        0 < t.executedSize → t.tp1Filled = false → recordsOf t.uid ex.trace = [] → ∀ ops,
        ((exitFills t.uid ex ops).map OrderUpdate.filledSize).sum = t.executedSize →
          (∀ t' ∈ (ex.run ops).allTrades, t'.uid = t.uid → t'.state = .closed) ∧
            Accounted t.uid t (exitFills t.uid ex ops) (ex.run ops).trace := by
  intro hall
  have haccounted := (hall openedRun ⟨{}, _, rfl⟩ openedTrade (by decide +kernel) rfl
    (by decide +kernel) rfl (by decide +kernel)
    [.onPositionUpdate { ticker := "BTC_USDT", side := .buy, size := 1, avgPriceFix := 100 },
      .onOrderUpdate .accepting (sampleExit 4 .takeProfit 102 (1 / 2)),
      .onOrderUpdate .accepting (sampleExit 7 .stopLoss 100 (1 / 2))] (by decide +kernel)).2
  exact absurd haccounted.size (by decide +kernel)

end TradeBot
