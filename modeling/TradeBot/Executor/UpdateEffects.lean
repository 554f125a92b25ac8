import TradeBot.Executor.Effects

set_option autoImplicit false

/-! # What an order update does to the trade that takes it

`handleOrderUpdate_elim` is the case distinction of the handler, done once: a property of its result
follows from one fact per branch. The branches themselves are described by the lemmas that precede
it.

The filled entry and the first TP1 fill have the most ways to go on, since each calls the gateway
more than once (`onEntryFilled_effect`, `onTp1Filled_effect`); what the other branches do is said in
the cases themselves. That no branch teaches the trade an id that it did not match is what the
modules on known ids need. -/

namespace TradeBot

/-! ## Matching -/

@[simp] theorem captureIds_uid (upd : OrderUpdate) (t : ActiveTrade) :
    (captureIds upd t).uid = t.uid := rfl
@[simp] theorem captureIds_plan (upd : OrderUpdate) (t : ActiveTrade) :
    (captureIds upd t).plan = t.plan := rfl
@[simp] theorem captureIds_state (upd : OrderUpdate) (t : ActiveTrade) :
    (captureIds upd t).state = t.state := rfl
@[simp] theorem captureIds_executedSize (upd : OrderUpdate) (t : ActiveTrade) :
    (captureIds upd t).executedSize = t.executedSize := rfl
@[simp] theorem captureIds_avgEntryPrice (upd : OrderUpdate) (t : ActiveTrade) :
    (captureIds upd t).avgEntryPrice = t.avgEntryPrice := rfl
@[simp] theorem captureIds_avgPriceFix (upd : OrderUpdate) (t : ActiveTrade) :
    (captureIds upd t).avgPriceFix = t.avgPriceFix := rfl
/-- An update that fills the entry or TP1 teaches the trade no stop id. -/
theorem captureIds_stopOrderId {upd : OrderUpdate} {t : ActiveTrade}
    (h : (orderMatch upd t).isEntry = true ∨ (orderMatch upd t).isTp1 = true) :
    (captureIds upd t).stopOrderId = t.stopOrderId := by
  have hfresh : freshStop upd t = false := by
    by_contra hstop
    rw [Bool.not_eq_false] at hstop
    simp only [freshStop, Bool.and_eq_true, Bool.not_eq_true', decide_eq_true_eq] at hstop
    obtain ⟨⟨⟨hknown, _⟩, htype⟩, _⟩ := hstop
    simp only [matchKnown, Bool.or_eq_false_iff] at hknown
    simp [orderMatch, freshEntry, freshTp1, OrderType.isEntryType, htype, hknown] at h
  simp [captureIds, hfresh]

@[simp] theorem captureIds_tp1Filled (upd : OrderUpdate) (t : ActiveTrade) :
    (captureIds upd t).tp1Filled = t.tp1Filled := rfl

theorem selectTrade_eq_some {upd : OrderUpdate} {t : ActiveTrade} {om : OrderMatch}
    (h : selectTrade upd t = some om) :
    t.state ≠ .closed ∧ t.state ≠ .emergencyClosing ∧ om = orderMatch upd t ∧ om.any = true := by
  unfold selectTrade at h
  split at h
  · simp at h
  next hst =>
  rw [not_or] at hst
  split at h
  next hany =>
    simp only [Option.some.injEq] at h
    exact ⟨hst.1, hst.2, h.symm, h ▸ hany⟩
  · simp at h

/-! ## The branches -/

theorem onEntryPartial_effect (env : Env) (upd : OrderUpdate) (m : Members) (t : ActiveTrade) :
    ∃ evs stopId tp1Id openedAt, Effect t.uid evs m (onEntryPartial env upd m t).1 ∧
      (t.state = .opened ∧ evs = [] ∨
        t.state ≠ .opened ∧ StopAttempt { t with state := .opened, openedAt := upd.time } evs) ∧
      (onEntryPartial env upd m t).2 =
        { t.withExitIds stopId tp1Id with
          state := .opened, openedAt := openedAt,
          executedSize := t.executedSize + upd.filledSize, avgEntryPrice := upd.filledPrice } := by
  unfold onEntryPartial
  by_cases hst : t.state = .opened
  · rw [if_neg (not_not.2 hst)]
    refine ⟨[], t.stopOrderId, t.tp1OrderId, t.openedAt, .refl .., Or.inl ⟨hst, rfl⟩, ?_⟩
    rw [← hst]
    rfl
  · rw [if_pos hst]
    obtain ⟨evs, i, j, heff, hatt, ht⟩ :=
      placeStops_effect env m { t with state := .opened, openedAt := upd.time }
    generalize placeStops env m { t with state := .opened, openedAt := upd.time } = r at heff ht ⊢
    obtain ⟨m', t'⟩ := r
    subst ht
    exact ⟨evs, i, j, upd.time, heff, Or.inr ⟨hst, hatt⟩, rfl⟩

theorem slippageClose_effect (env : Env) (upd : OrderUpdate) (m : Members) (t : ActiveTrade)
    (hsize : t.executedSize = upd.filledSize) :
    ∃ evs, Effect t.uid evs m (slippageClose env upd m t).1 ∧
      ((∃ r, evs = [.placed t.uid t.marketClose (.ok r)] ∧
          (slippageClose env upd m t).2 = { t with state := .emergencyClosing }) ∨
        ∃ e msg, evs = [.placed t.uid t.marketClose (.error e), .alerted t.uid msg] ∧
          (slippageClose env upd m t).2 = t) := by
  unfold slippageClose
  rw [← hsize]
  have heff := effect_placeOrder env t.uid m t.marketClose
  rw [ActiveTrade.marketClose] at heff ⊢
  generalize m.placeOrder env t.uid (t.exitRequest .market 0 t.executedSize) = r at heff ⊢
  obtain ⟨m', res⟩ := r
  cases res with
  | ok r => exact ⟨_, heff, Or.inl ⟨r, rfl, rfl⟩⟩
  | error e => exact ⟨_, heff.trans (effect_alert ..), Or.inr ⟨e, _, rfl, rfl⟩⟩

/-- A filled entry is closed again by R15, or the close is refused and the trade left open without
    stops, or the stops are placed. -/
theorem onEntryFilled_effect (env : Env) (upd : OrderUpdate) (m : Members) (t : ActiveTrade) :
    ∃ evs, Effect t.uid evs m (onEntryFilled env upd m t).1 ∧
      ((∃ r, evs = [.placed t.uid (t.entryFilled upd).marketClose (.ok r)] ∧
          (onEntryFilled env upd m t).2 = { t.entryFilled upd with state := .emergencyClosing }) ∨
       (∃ e msg, evs = [.placed t.uid (t.entryFilled upd).marketClose (.error e),
            .alerted t.uid msg] ∧
          (onEntryFilled env upd m t).2 = t.entryFilled upd) ∨
       (StopAttempt (t.entryFilled upd) evs ∧ ∃ stopId tp1Id,
          (onEntryFilled env upd m t).2 = (t.entryFilled upd).withExitIds stopId tp1Id)) := by
  unfold onEntryFilled
  dsimp only
  split
  · obtain ⟨evs, heff, h⟩ := slippageClose_effect env upd m (t.entryFilled upd) rfl
    exact ⟨evs, heff, h.imp id Or.inl⟩
  · obtain ⟨evs, i, j, heff, hatt, ht⟩ := placeStops_effect env m (t.entryFilled upd)
    exact ⟨evs, heff, Or.inr (Or.inr ⟨hatt, i, j, ht⟩)⟩

/-- The first TP1 fill drops the old stop. Then it leaves the trade without a stop, or with a
    break-even stop, or closes the trade at market because the break-even stop was refused. -/
theorem onTp1Filled_effect (env : Env) (upd : OrderUpdate) (m : Members) (t : ActiveTrade) :
    ∃ evs, Effect t.uid (dropEvents env t.uid upd.ticker t.stopOrderId m ++ evs) m
        (onTp1Filled env upd m t).1 ∧
      ((evs = [] ∧ (onTp1Filled env upd m t).2 = t.tp1Done) ∨
       (kSizeEps < t.remaining upd.filledSize ∧ 0 < t.avgPriceFix ∧
          ∃ r, evs = [.placed t.uid (t.beRequest upd.filledSize) (.ok r)] ∧
            (onTp1Filled env upd m t).2 = t.tp1Done) ∨
       (kSizeEps < t.remaining upd.filledSize ∧ 0 < t.avgPriceFix ∧
        (∃ n e, env.placeOrder n (t.beRequest upd.filledSize) = .error e) ∧
          ∃ e msg pre res, evs = .placed t.uid (t.beRequest upd.filledSize) (.error e) ::
              .alerted t.uid msg :: (pre ++ [.placed t.uid t.marketClose res,
                .recorded t.uid (emergencyRecord m t "BEStopFailed")]) ∧ Quiet pre ∧
            (∃ n, res = env.placeOrder n t.marketClose) ∧
            (onTp1Filled env upd m t).2 = t.tp1Done.afterClose res)) := by
  unfold onTp1Filled
  have heff₁ := dropOrder_effect env t.uid upd.ticker t.stopOrderId m
  dsimp only
  -- the old stop is dropped first, and then there is a break-even stop to be placed or not
  generalize dropOrder env t.uid upd.ticker t.stopOrderId m = m₁ at heff₁ ⊢
  have huid : t.tp1Done.uid = t.uid := rfl
  split
  · next h =>
      have heff₂ := effect_placeOrder env t.uid m₁ (t.tp1Done.beRequest upd.filledSize)
      have hval : (m₁.placeOrder env t.uid (t.tp1Done.beRequest upd.filledSize)).2
        = env.placeOrder m₁.trace.length (t.tp1Done.beRequest upd.filledSize) := rfl
      rw [huid]
      generalize m₁.placeOrder env t.uid (t.tp1Done.beRequest upd.filledSize) = r
        at heff₂ hval ⊢
      obtain ⟨m₂, res⟩ := r
      cases res with
      | ok r => exact ⟨_, heff₁.trans heff₂, Or.inr (Or.inl ⟨h.1, h.2, r, rfl, rfl⟩)⟩
      | error e =>
          -- the break-even stop was refused: an alert, and a close at market
          have heff₃ := effect_alert t.uid m₂ ("CRITICAL: BE-stop failed for " ++ t.tp1Done.plan.ticker
            ++ ", emergency closing")
          dsimp only
          generalize m₂.alert t.uid ("CRITICAL: BE-stop failed for " ++ t.tp1Done.plan.ticker
            ++ ", emergency closing") = m₃ at heff₃ ⊢
          obtain ⟨pre, res, heff₄, hq, hn, ht⟩ :=
            closeAndRecord_effect env "BEStopFailed" m₃ t.tp1Done
          have heff := heff₁.trans (heff₂.trans (heff₃.trans heff₄))
          have hmarks : m₃.markPrices = m.markPrices :=
            heff₃.markPrices.trans (heff₂.markPrices.trans heff₁.markPrices)
          have hrec : emergencyRecord m₃ t.tp1Done "BEStopFailed"
              = emergencyRecord m t "BEStopFailed" :=
            emergencyRecord_congr hmarks rfl rfl rfl _
          rw [hrec] at heff
          exact ⟨_, heff, Or.inr (Or.inr ⟨h.1, h.2, ⟨_, e, hval.symm⟩, e, _, pre, res, rfl, hq, hn,
            ht⟩)⟩
  · exact ⟨[], by simpa using heff₁, Or.inl ⟨rfl, rfl⟩⟩

theorem onExitFilled_effect (upd : OrderUpdate) (om : OrderMatch) (m : Members) (t : ActiveTrade) :
    Effect t.uid [.recorded t.uid (exitRecord upd om t)] m (onExitFilled upd om m t).1 :=
  effect_pushClosed ..

/-! ## The handler -/

/-- The update reports that an order is over and filled something. -/
def OrderUpdate.isFill (upd : OrderUpdate) : Prop := upd.status = .closed ∧ 0 < upd.filledSize

instance (upd : OrderUpdate) : Decidable upd.isFill :=
  inferInstanceAs (Decidable (upd.status = .closed ∧ 0 < upd.filledSize))

/-! Which branch is taken. -/

section Branch

variable {env : Env} {upd : OrderUpdate} {om : OrderMatch} {m : Members} {t : ActiveTrade}

theorem handleOrderUpdate_partly (hst : upd.status = .opened) (hentry : om.isEntry = true)
    (hsize : 0 < upd.filledSize) :
    handleOrderUpdate env upd om m t = onEntryPartial env upd m t := by
  simp [handleOrderUpdate, hst, hentry, hsize]

theorem handleOrderUpdate_entry (hfill : upd.isFill) (hentry : om.isEntry = true) :
    handleOrderUpdate env upd om m t = onEntryFilled env upd (m.releaseReservation t.plan) t := by
  simp [handleOrderUpdate, hfill.1, hentry, not_le.2 hfill.2]

theorem handleOrderUpdate_tp1 (hfill : upd.isFill) (hentry : om.isEntry = false)
    (htp1 : om.isTp1 = true) (hfirst : t.tp1Filled = false) :
    handleOrderUpdate env upd om m t = onTp1Filled env upd m t := by
  simp [handleOrderUpdate, hfill.1, hentry, htp1, hfirst, not_le.2 hfill.2]

theorem handleOrderUpdate_exit (hfill : upd.isFill) (hentry : om.isEntry = false)
    (htp1 : om.isTp1 = false) (hexit : om.isStop = true ∨ om.isTp2 = true) :
    handleOrderUpdate env upd om m t = onExitFilled upd om m t := by
  simp [handleOrderUpdate, hfill.1, hentry, htp1, not_le.2 hfill.2, hexit]

end Branch

/-- Case distinction over the branches of the handler: nothing happens (`ack`), the entry dies
    unfilled (`dead`), an entry is filled in part (`partly`) or over (`entry`), TP1 is filled for the
    first time (`tp1`), or another exit is filled (`exit`). -/
theorem handleOrderUpdate_elim {motive : Members × ActiveTrade → Prop} (env : Env)
    (upd : OrderUpdate) (om : OrderMatch) (m : Members) (t : ActiveTrade)
    (ack : ∀ m', Effect t.uid [] m m' → ¬ upd.isFill → motive (m', t))
    (dead : ∀ m', Effect t.uid [] m m' → upd.status = .closed → upd.filledSize ≤ 0 →
      om.isStop = false → om.isTp1 = false → om.isTp2 = false →
      motive (m', { t with state := .closed }))
    (partly : upd.status = .opened → om.isEntry = true → 0 < upd.filledSize →
      motive (onEntryPartial env upd m t))
    (entry : ∀ m', Effect t.uid [] m m' → upd.isFill → om.isEntry = true →
      motive (onEntryFilled env upd m' t))
    (tp1 : upd.isFill → om.isEntry = false → om.isTp1 = true → t.tp1Filled = false →
      motive (onTp1Filled env upd m t))
    (exit : upd.isFill → om.isEntry = false →
      om.isStop = true ∨ om.isTp2 = true ∨ om.isTp1 = true ∧ t.tp1Filled = true →
      motive (onExitFilled upd om m t))
    (hany : om.any = true) : motive (handleOrderUpdate env upd om m t) := by
  unfold handleOrderUpdate
  split
  · next hst => exact ack m (.refl ..) (by simp [OrderUpdate.isFill, hst])
  · next hst =>
      split
      · next h => exact partly hst h.1 h.2
      · exact ack m (.refl ..) (by simp [OrderUpdate.isFill, hst])
  next hst =>
  -- a closed entry order gives its reservation back, whatever was filled
  have hm : Effect t.uid [] m (if om.isEntry = true then m.releaseReservation t.plan else m) := by
    split
    · exact effect_releaseReservation ..
    · exact .refl ..
  dsimp only
  split
  · -- nothing was filled: the end of an entry, or an exit that was cancelled
    next hsz =>
      split
      · exact ack _ hm (by simp [OrderUpdate.isFill, not_lt.2 hsz])
      · next hexit =>
          simp only [Bool.or_eq_true, not_or, Bool.not_eq_true] at hexit
          exact dead _ hm hst hsz hexit.1.1 hexit.1.2 hexit.2
  next hsz =>
  have hfill : upd.isFill := ⟨hst, not_le.1 hsz⟩
  by_cases hentry : om.isEntry = true
  · rw [if_pos hentry]
    exact entry _ hm hfill hentry
  · rw [Bool.not_eq_true] at hentry
    simp only [hentry, Bool.false_eq_true, if_false]
    split
    · next h =>
        simp only [Bool.and_eq_true, Bool.not_eq_true'] at h
        exact tp1 hfill hentry h.1 h.2
    next hnot =>
    split
    · next h =>
        simp only [Bool.or_eq_true, Bool.and_eq_true] at h
        exact exit hfill hentry (by tauto)
    · next hnone =>
        simp only [OrderMatch.any, hentry, Bool.or_eq_true, Bool.and_eq_true, not_or, not_and,
          Bool.not_eq_true, Bool.not_eq_true', Bool.not_eq_false] at hany hnot hnone
        -- the first TP1 fill and all other exits have been dealt with
        exfalso
        simp [hnone.1.1, hnone.1.2] at hany
        exact absurd (hnot hany) (by simp [hnone.2 hany])

end TradeBot
