import TradeBot.Executor.Outcomes

set_option autoImplicit false

/-! # The remainder after TP1

The size that TP1 leaves of a position, and the break-even price of its stop, are locals of the
handler's TP1 branch. `tick` and `close_trade` rebuild their orders from the executed size and the
plan: a re-armed stop, and every market close, is for the whole executed size. So the trade stays on
its remainder only as long as none of them acts on it: `remainder_managed`, and
`remainder_forgotten` for a re-arm.

What a turn appends is judged by its outcome (`onRemainder_of_outcome`): the outcomes that place or
record something for the whole position are those that the condition excludes, and the handler's own
TP1 branch computes with what is left. A run is followed from the TP1 fill in two parts, before the
moment from which it is judged and after it. -/

namespace TradeBot

open LiveExecutor

/-- An order or a record that respects what TP1 left: at most the remainder, no further TP1 order, and
    a stop at the break-even price. -/
def Event.OnRemainder (remainder bePrice : ℚ) : Event → Prop
  | .placed _ req _ =>
      req.size ≤ remainder ∧ req.type ≠ .takeProfit ∧ (req.type = .stopLoss → req.price = bePrice)
  | .recorded _ ct => ct.sizeFilled ≤ remainder
  | _ => True

instance (remainder bePrice : ℚ) : DecidablePred (Event.OnRemainder remainder bePrice)
  | .placed _ req _ => inferInstanceAs (Decidable (req.size ≤ remainder ∧
      req.type ≠ .takeProfit ∧ (req.type = .stopLoss → req.price = bePrice)))
  | .recorded _ ct => inferInstanceAs (Decidable (ct.sizeFilled ≤ remainder))
  | .cancelled .. | .cancelledAll .. | .fetched _ | .reported _ | .alerted .. =>
      inferInstanceAs (Decidable True)

/-- What a step appends for trade `uid` respects what a TP1 fill of `filled` left of the executed
    size. -/
def StepOnRemainder (uid : ℕ) (filled : ℚ) (ex : LiveExecutor) (op : Op) : Prop :=
  ∀ evs, (ex.step op).trace = ex.trace ++ evs → ∀ e ∈ evs, e.owner = some uid →
    ∃ t ∈ ex.allTrades, t.uid = uid ∧ e.OnRemainder (t.executedSize - filled) t.avgPriceFix

/-- The update is the first TP1 fill of the trade. -/
structure Tp1Fill (ex : LiveExecutor) (upd : OrderUpdate) (t : ActiveTrade) : Prop where
  route : ∃ om, ex.route upd = some (t, om) ∧ om.isEntry = false ∧ om.isTp1 = true
  fill : upd.isFill
  first : t.tp1Filled = false

/-- Trade `uid` is not due for a re-arm or a close (a re-arm that is due may still be put off, while an
    unknown submission of the ticker is polled), no more of its entry is filled (while it is open a
    partial fill is harmless), and the exchange's exit fills are within the remainder. -/
def KeepsRemainder (uid : ℕ) (filled : ℚ) (ex : LiveExecutor) (op : Op) : Prop :=
  ∀ t ∈ ex.allTrades, t.uid = uid → match op with
    | .tick _ now => closeAction? ex.toMembers now t = none ∧ rearmDue now t = false
    | .closeTrade _ ticker _ => t.plan.ticker = ticker → t.state = .opened → t.executedSize ≤ 0
    | .onOrderUpdate _ upd => ∀ om, ex.route upd = some (t, om) →
        if om.isEntry then
          ¬ upd.isFill ∧ (upd.status = .opened → 0 < upd.filledSize → t.state = .opened)
        else upd.isFill → upd.filledSize ≤ t.executedSize - filled
    | _ => True

section Step

variable {ex : LiveExecutor} {t t' : ActiveTrade} {m : Members} {op : Op} {evs : List Event}

/-- TP1 stays filled, and a trade that is known to the exchange stays known. -/
theorem tp1Filled_turn (hout : TradeOutcome ex m t op evs t') (htp1 : t.tp1Filled = true) :
    t'.tp1Filled = true ∧ (t.state ≠ .submitUnknown → t'.state ≠ .submitUnknown) := by
  -- a market close leaves the flag, and closes the trade or leaves its state
  have after : ∀ (x : ActiveTrade) (res : Except String PlaceOrderResult),
      (x.afterClose res).tp1Filled = x.tp1Filled ∧
        ((x.afterClose res).state = x.state ∨ (x.afterClose res).state = .closed) := by
    intro x res
    cases res with
    | ok r => exact ⟨rfl, Or.inr rfl⟩
    | error e => exact ⟨rfl, Or.inl rfl⟩
  have closed : ∀ {x : ActiveTrade} {s : TradeState}, x.state = s ∨ x.state = .closed →
      s ≠ .submitUnknown → x.state ≠ .submitUnknown := by
    rintro x s (rfl | hst) hne
    · exact hne
    · simp [hst]
  cases hout with
  | tp1Failed =>
      obtain ⟨hfilled, hst⟩ := after (captureIds _ t).tp1Done _
      exact ⟨hfilled, closed hst⟩
  | close =>
      obtain ⟨hfilled, hst⟩ := after t _
      exact ⟨hfilled.trans htp1, closed hst⟩
  | rest => exact ⟨htp1, id⟩
  | position => exact ⟨htp1, id⟩
  | ack => exact ⟨htp1, id⟩
  | rearm => exact ⟨htp1, id⟩
  | tp1Bare => exact ⟨rfl, id⟩
  | tp1BreakEven => exact ⟨rfl, id⟩
  -- the outcomes that set the state
  | cancel => exact ⟨htp1, by simp⟩
  | dead => exact ⟨htp1, by simp⟩
  | partly => exact ⟨htp1, by simp⟩
  | slipped => exact ⟨htp1, by simp⟩
  | slipRefused => exact ⟨htp1, by simp [ActiveTrade.entryFilled]⟩
  | entry => exact ⟨htp1, by simp [ActiveTrade.entryFilled, ActiveTrade.withExitIds]⟩
  | exit => exact ⟨htp1, by simp⟩
  | emergency => exact ⟨htp1, by simp [ActiveTrade.markClosing]⟩
  | resolved hst => exact ⟨htp1, fun hne => absurd hst hne⟩
  | timeout => exact ⟨htp1, by simp⟩

theorem tp1Filled_turnInvariant (known : Prop) : TurnInvariant (fun _ _ _ => True)
    (fun t _ => t.tp1Filled = true ∧ (known → t.state ≠ .submitUnknown)) (fun _ _ => True) where
  silent := fun _ h => h
  gone := fun _ => trivial
  gone_silent := fun _ h => h
  turn := fun _ _ _ _ h hturn => by
    obtain ⟨_, _, hout⟩ := hturn.outcome
    obtain ⟨hfilled, hst⟩ := tp1Filled_turn hout h.1
    exact ⟨hfilled, fun hknown => hst (h.2 hknown)⟩

/-- What a turn appends is on the remainder when the step keeps to it. -/
theorem onRemainder_of_outcome (hmem : t ∈ ex.allTrades) (htp1 : t.tp1Filled = true)
    (hknown : t.state ≠ .submitUnknown) {filled : ℚ} (hC : KeepsRemainder t.uid filled ex op)
    (hout : TradeOutcome ex m t op evs t') :
    ∀ e ∈ evs, e.OnRemainder (t.executedSize - filled) t.avgPriceFix := by
  have hkeeps := hC t hmem rfl
  have noFirst : ¬ t.tp1Filled = false := by simp [htp1]
  cases hout with
  | rest => simp
  | position => simp
  | cancel => simp
  | ack => simp
  | dead => simp
  | resolved => simp
  -- a further report on the entry fills nothing more, so no stop is placed
  | partly hroute hsel hentry hst hsize hevs =>
      have hopen := hkeeps _ hroute
      rw [if_pos hentry] at hopen
      rcases hevs with ⟨_, rfl⟩ | ⟨hne, _⟩
      · simp
      · exact absurd (hopen.2 hst hsize) hne
  | slipped hroute _ hentry hfill =>
      have hnone := hkeeps _ hroute
      rw [if_pos hentry] at hnone
      exact absurd hfill hnone.1
  | slipRefused hroute _ hentry hfill =>
      have hnone := hkeeps _ hroute
      rw [if_pos hentry] at hnone
      exact absurd hfill hnone.1
  | entry hroute _ hentry hfill =>
      have hnone := hkeeps _ hroute
      rw [if_pos hentry] at hnone
      exact absurd hfill hnone.1
  -- TP1 was filled before
  | tp1Bare _ _ _ _ _ hfirst => exact absurd hfirst noFirst
  | tp1BreakEven _ _ _ _ _ hfirst => exact absurd hfirst noFirst
  | tp1Failed _ _ _ _ _ hfirst => exact absurd hfirst noFirst
  -- the fill is for what is left
  | exit hroute _ hentry hfill =>
      have hsize := hkeeps _ hroute
      rw [if_neg (by simp [hentry])] at hsize
      simpa [Event.OnRemainder, exitRecord] using hsize hfill
  | emergency hdue =>
      rw [hkeeps.1] at hdue
      simp at hdue
  | rearm _ hdue =>
      rw [hkeeps.2] at hdue
      simp at hdue
  | timeout hst => exact absurd hst hknown
  | close hticker hst hexec => exact absurd (hkeeps hticker hst) (not_le.2 hexec)

/-- A step that keeps to the remainder appends only what respects it. -/
theorem stepOnRemainder (hwf : ex.WF) {uid : ℕ} (hu : uid < ex.nextUid) {filled : ℚ}
    (h : ∀ t ∈ ex.allTrades, t.uid = uid → t.tp1Filled = true ∧ t.state ≠ .submitUnknown)
    (hC : KeepsRemainder uid filled ex op) : StepOnRemainder uid filled ex op := by
  intro evs htr e he hown
  have hsim := step_sim hwf op
  by_cases hin : ∃ t ∈ ex.allTrades, t.uid = uid
  · obtain ⟨t, ht, rfl⟩ := hin
    obtain ⟨m, evs', t', all, hout, htr', hall⟩ := step_outcome hwf op ht
    obtain rfl : evs = all := List.append_cancel_left (htr.symm.trans htr')
    obtain ⟨htp1, hknown⟩ := h t ht rfl
    exact ⟨t, ht, rfl, onRemainder_of_outcome ht htp1 hknown hC hout e (hall e he hown)⟩
  · -- a trade that is gone stays gone, and nothing is appended for it
    have hgone : ∀ t' ∈ (ex.step op).allTrades, t'.uid ≠ uid := by
      rintro t' ht' rfl
      obtain ⟨t, ht, huid, _⟩ := hsim.old t' ht' hu
      exact hin ⟨t, ht, huid⟩
    obtain ⟨all, htr', hno⟩ := hsim.silent uid hu hgone
    obtain rfl : evs = all := List.append_cancel_left (htr.symm.trans htr')
    exact absurd hown (hno e he)

/-- The same, read off the end of the trace. -/
theorem StepOnRemainder.appended {uid : ℕ} {filled : ℚ} (h : StepOnRemainder uid filled ex op)
    (hwf : ex.WF) (ht : t ∈ ex.allTrades) :
    ∀ e ∈ (ex.step op).trace.drop ex.trace.length, e.owner = some uid →
      ∃ t ∈ ex.allTrades, t.uid = uid ∧
        e.OnRemainder (t.executedSize - filled) t.avgPriceFix := by
  obtain ⟨_, _, _, all, _, htr, _⟩ := step_outcome hwf op ht
  rw [htr, List.drop_left]
  exact h all htr

/-- The first TP1 fill is remembered by the trade. -/
theorem tp1Filled_of_fill (hwf : ex.WF) {upd : OrderUpdate} (h : Tp1Fill ex upd t) (env : Env) :
    t.uid < ex.nextUid ∧ ∀ t' ∈ (ex.onOrderUpdate env upd).allTrades, t'.uid = t.uid →
      t'.tp1Filled = true := by
  obtain ⟨om, hroute, hentry, htp1⟩ := h.route
  obtain ⟨_, _, _, pre, post, hall, hall'⟩ := onOrderUpdate_of_route hwf.toKeyed env hroute
  have hfirst : (captureIds upd t).tp1Filled = false := h.first
  rw [applyOrderUpdate, handleOrderUpdate_tp1 h.fill hentry htp1 hfirst] at hall'
  set r := onTp1Filled env upd (ex.emit (.reported upd)) (captureIds upd t)
  have huid : r.2.uid = t.uid := (onTp1Filled_keeps ..).uid
  refine ⟨hwf.fresh t (by simp [hall]), fun t' ht' hu' => ?_⟩
  obtain rfl : t' = r.2 := List.inj_on_of_nodup_map (hwf.step (.onOrderUpdate env upd)).nodup ht'
    (show r.2 ∈ (ex.onOrderUpdate env upd).allTrades by simp [hall']) (hu'.trans huid.symm)
  obtain ⟨_, _, ⟨_, ht⟩ | ⟨_, _, _, _, ht⟩ | ⟨_, _, _, e, msg, pre, res, _, _, _, ht⟩⟩ :=
    onTp1Filled_effect env upd (ex.emit (.reported upd)) (captureIds upd t)
  · rw [ht]
    rfl
  · rw [ht]
    rfl
  · rw [ht]
    cases res <;> rfl

/-- The handler itself treats the TP1 fill right, unless the gateway refuses the break-even stop. -/
theorem stepOnRemainder_of_fill (hwf : ex.WF) {env : Env} {upd : OrderUpdate} (h : Tp1Fill ex upd t)
    (hbe : ∀ n, ∃ r, env.placeOrder n (t.beRequest upd.filledSize) = .ok r) :
    StepOnRemainder t.uid upd.filledSize ex (.onOrderUpdate env upd) := by
  obtain ⟨om, hroute, hentry, htp1⟩ := h.route
  obtain ⟨_, _, hmembers, pre, post, hall, _⟩ := onOrderUpdate_of_route hwf.toKeyed env hroute
  have hfirst : (captureIds upd t).tp1Filled = false := h.first
  rw [applyOrderUpdate, handleOrderUpdate_tp1 h.fill hentry htp1 hfirst] at hmembers
  obtain ⟨evs, heff, hcases⟩ :=
    onTp1Filled_effect env upd (ex.emit (.reported upd)) (captureIds upd t)
  rw [← hmembers] at heff
  have htr : (ex.step (.onOrderUpdate env upd)).trace
      = ex.trace ++ .reported upd :: (dropEvents env t.uid upd.ticker
          (captureIds upd t).stopOrderId (ex.emit (.reported upd)) ++ evs) :=
    heff.trace.trans (List.append_assoc ..)
  intro evs' htr' e he hown
  obtain rfl := List.append_cancel_left (htr'.symm.trans htr)
  refine ⟨t, by simp [hall], rfl, ?_⟩
  -- the report itself, the local removal of the old stop, then the handler
  rcases List.mem_cons.1 he with rfl | he
  · trivial
  rcases List.mem_append.1 he with he | he
  · unfold dropEvents at he
    split at he
    · obtain rfl := List.mem_singleton.1 he
      trivial
    · simp at he
  rcases hcases with ⟨rfl, _⟩ | ⟨hrem, _, r, rfl, _⟩ | ⟨_, _, ⟨n, e', hrefused⟩, _⟩
  · simp at he
  · obtain rfl := List.mem_singleton.1 he
    -- the break-even stop is for what is left
    have hpos : 0 < t.executedSize - upd.filledSize := by
      have heps : (0 : ℚ) < kSizeEps := by decide +kernel
      exact (lt_max_iff.1 (heps.trans hrem)).resolve_left (lt_irrefl 0)
    exact ⟨(max_eq_right hpos.le).le, by simp [ActiveTrade.beRequest],
      fun _ => by simp [ActiveTrade.beRequest]⟩
  · -- the gateway does not refuse it
    obtain ⟨r, hr⟩ := hbe n
    exact absurd (hr.symm.trans hrefused) (by simp)

end Step

/-! ## The results -/

/-- From any moment after the first TP1 fill of a trade, in a run whose steps neither re-arm nor close
    it and whose exit fills are within the remainder, everything placed and recorded for the trade
    respects the remainder and the break-even price. -/
theorem remainder_managed (ex : LiveExecutor) (hex : ex.Reachable) (env : Env) (upd : OrderUpdate)
    (t : ActiveTrade) (hfill : Tp1Fill ex upd t) (before : List Op) (t' : ActiveTrade)
    (ht' : t' ∈ ((ex.onOrderUpdate env upd).run before).allTrades) (huid : t'.uid = t.uid)
    (hst : t'.state = .opened) (later : List Op)
    (hlater : ((ex.onOrderUpdate env upd).run before).Along (KeepsRemainder t.uid upd.filledSize)
      later) :
    ((ex.onOrderUpdate env upd).run before).Along (StepOnRemainder t.uid upd.filledSize) later := by
  have hwf : (ex.onOrderUpdate env upd).WF := hex.wf.step (.onOrderUpdate env upd)
  obtain ⟨hu, hsince⟩ := tp1Filled_of_fill hex.wf hfill env
  -- TP1 stays filled up to the moment from which the run is followed
  have hbefore : Holds (fun t _ => t.tp1Filled = true ∧ (False → t.state ≠ .submitUnknown))
      (fun _ _ => True) t.uid ((ex.onOrderUpdate env upd).run before) :=
    (tp1Filled_turnInvariant False).follow hwf
      (hu.trans_le (step_sim hex.wf (.onOrderUpdate env upd)).nextUid_le)
      ⟨fun x hx hxu => ⟨hsince x hx hxu, False.elim⟩, trivial⟩
      (Runs.along_of_mem (fun _ _ _ _ _ _ => trivial))
  have hwf' := hwf.run before
  refine hlater.imp (fun ex => ex.WF ∧ t.uid < ex.nextUid ∧ Holds (fun t _ =>
    t.tp1Filled = true ∧ (True → t.state ≠ .submitUnknown)) (fun _ _ => True) t.uid ex) ?_ ?_
    ⟨hwf', huid ▸ hwf'.fresh t' ht', fun x hx hxu => ?_, trivial⟩
  · intro ex op ⟨hwf, hu, hholds⟩ _
    exact ⟨hwf.step op, hu.trans_le (step_sim hwf op).nextUid_le,
      (tp1Filled_turnInvariant True).follow_step hwf hu hholds (fun _ _ _ => trivial)⟩
  · intro ex op ⟨hwf, hu, hholds⟩ hkeeps
    exact stepOnRemainder hwf hu
      (fun x hx hxu => ⟨(hholds.1 x hx hxu).1, (hholds.1 x hx hxu).2 trivial⟩) hkeeps
  · obtain rfl : x = t' := List.inj_on_of_nodup_map hwf'.nodup hx ht' (hxu.trans huid.symm)
    exact ⟨(hbefore.1 x hx hxu).1, fun _ => by simp [hst]⟩

/-- `openedRun` with the exchange's average price known. -/
def pricedRun : LiveExecutor :=
  openedRun.run [.onPositionUpdate
    { ticker := "BTC_USDT", side := .buy, size := 1, avgPriceFix := 100 }]

/-- Its trade. -/
def pricedTrade : ActiveTrade := { openedTrade with avgPriceFix := 100 }

/-- TP1 takes half of that position. -/
theorem tp1Fill_pricedRun :
    Tp1Fill pricedRun (sampleExit 4 .takeProfit 102 (1 / 2)) pricedTrade where
  route := ⟨{ isEntry := false, isStop := false, isTp1 := true, isTp2 := false }, by decide +kernel,
    rfl, rfl⟩
  fill := by decide +kernel
  first := rfl

theorem reachable_pricedRun : pricedRun.Reachable :=
  ⟨{}, _, List.foldl_append ..⟩

/-- The break-even stop takes the rest. -/
theorem remainder_managed_stopped :
    (pricedRun.onOrderUpdate .accepting (sampleExit 4 .takeProfit 102 (1 / 2))).Along
      (StepOnRemainder 0 (1 / 2))
      [.onOrderUpdate .accepting (sampleExit 7 .stopLoss 100 (1 / 2))] := by
  have hroute : (pricedRun.onOrderUpdate .accepting (sampleExit 4 .takeProfit 102 (1 / 2))).route
      (sampleExit 7 .stopLoss 100 (1 / 2)) = some (pricedTrade.tp1Done,
        { isEntry := false, isStop := true, isTp1 := false, isTp2 := false }) := by decide +kernel
  refine remainder_managed pricedRun reachable_pricedRun .accepting _ pricedTrade tp1Fill_pricedRun []
    pricedTrade.tp1Done (by decide +kernel) rfl rfl _ ⟨fun x hx hxu om hom => ?_, trivial⟩
  obtain ⟨rfl, rfl⟩ := Prod.mk.inj (Option.some.inj (hom.symm.trans hroute))
  exact fun _ => by decide +kernel

/-- No update has told the trade its break-even stop's id when `tick` finds it without a stop: it
    places a stop and a TP1 order for the whole position again. -/
theorem remainder_forgotten :
    ¬ ∀ ex : LiveExecutor, ex.Reachable → ∀ env upd t, Tp1Fill ex upd t → ∀ before,
        ∀ t' ∈ ((ex.onOrderUpdate env upd).run before).allTrades, t'.uid = t.uid →
          t'.state = .opened → ∀ later, ((ex.onOrderUpdate env upd).run before).Along
            (StepOnRemainder t.uid upd.filledSize) later := by
  intro hall
  have hrearm := (hall pricedRun reachable_pricedRun .accepting _ pricedTrade tp1Fill_pricedRun []
    pricedTrade.tp1Done (by decide +kernel) rfl rfl [.tick .accepting (6 * nsPerSec)]).1
  have hwf := (reachable_pricedRun.wf).step
    (.onOrderUpdate .accepting (sampleExit 4 .takeProfit 102 (1 / 2)))
  exact absurd (hrearm.appended hwf (t := pricedTrade.tp1Done) (by decide +kernel))
    (by decide +kernel)

end TradeBot
