import TradeBot.Trading.OrderReconciliator

set_option autoImplicit false

/-! # A reconciliator with at most one intent

The executor files every intent under local id 0, so that its reconciliator never holds more than
one. `HoldsOnly r o` says that `o` is what it holds; each method of the reconciliator is described
by what it makes of `o`.

Each lemma is about the intent that is held and nothing else, so a caller of the reconciliator
follows an `Option` in place of two maps. A poll for another ticker than that of the intent finds
nothing. -/

namespace TradeBot

/-- The intent is for the order of the plan. -/
def OrderIntent.IsFor (intent : OrderIntent) (plan : TradePlan) : Prop :=
  intent.ticker = toInternalTicker plan.ticker ∧ intent.side = plan.side ∧
    intent.price = plan.entryPrice ∧ intent.size = plan.sizeCoin

namespace OrderReconciliator

/-- The reconciliator, at its default configuration, holds the intent `o` under local id 0, and no
    other. -/
structure HoldsOnly (r : OrderReconciliator) (o : Option PendingIntent) : Prop where
  cfg : r.cfg = {}
  pending : ∀ id, r.pending.lookup id = if id = 0 then o else none
  byTicker : ∀ key, r.byTicker.lookup key
    = o.bind (fun p => if p.intent.ticker = key then some [0] else none)
  normalized : ∀ p, o = some p → toInternalTicker p.intent.ticker = p.intent.ticker

variable {r : OrderReconciliator} {o : Option PendingIntent} {p : PendingIntent}

theorem holdsOnly_default : HoldsOnly {} none where
  cfg := rfl
  pending := fun id => by simp
  byTicker := fun key => by simp
  normalized := by simp

theorem HoldsOnly.lookup_zero (h : r.HoldsOnly o) : r.pending.lookup 0 = o := by
  rw [h.pending, if_pos rfl]

theorem HoldsOnly.idsOf (h : r.HoldsOnly (some p)) : r.idsOf p.intent.ticker = [0] := by
  simp [OrderReconciliator.idsOf, h.byTicker]

/-- Only the intent's own ticker has something pending. -/
theorem HoldsOnly.hasPending_iff (h : r.HoldsOnly o) (ticker : Ticker) :
    r.hasPending ticker = true ↔ ∃ p, o = some p ∧ p.intent.ticker = toInternalTicker ticker := by
  unfold hasPending
  rw [h.byTicker]
  cases o with
  | none => simp
  | some p =>
      by_cases hkey : p.intent.ticker = toInternalTicker ticker
      · simp [hkey]
      · simp [hkey]

/-- The intent as `enter_submit_unknown` files it. -/
def filed (intent : OrderIntent) (now : TimePoint) (r : OrderReconciliator) : PendingIntent :=
  { intent := { intent with ticker := toInternalTicker intent.ticker }, startedAt := now,
    nextPollAt := now, currentBackoff := r.cfg.initialBackoff }

theorem filed_ticker (intent : OrderIntent) (now : TimePoint) (r : OrderReconciliator) :
    (filed intent now r).intent.ticker = toInternalTicker intent.ticker := by
  rw [filed]

theorem HoldsOnly.enterSubmitUnknown (h : r.HoldsOnly none) {intent : OrderIntent}
    (hid : intent.localOrderId = 0) (now : TimePoint) :
    (r.enterSubmitUnknown intent now).1.HoldsOnly (some (filed intent now r)) := by
  have hnew : intent.localOrderId ∉ r.pending := by
    rw [← AList.lookup_isSome, h.pending]
    simp
  have hids : r.idsOf (toInternalTicker intent.ticker) = [] := by
    simp [OrderReconciliator.idsOf, h.byTicker]
  unfold OrderReconciliator.enterSubmitUnknown
  rw [if_neg hnew]
  dsimp only
  rw [hids, hid]
  refine ⟨h.cfg, fun id => ?_, fun key => ?_, ?_⟩
  · by_cases hzero : id = 0
    · subst hzero
      simp [filed, hid, AList.lookup_insert]
    · rw [AList.lookup_insert_ne hzero, h.pending]
      simp [hzero]
  · by_cases hkey : key = toInternalTicker intent.ticker
    · rw [hkey, AList.lookup_insert]
      simp [filed]
    · rw [AList.lookup_insert_ne hkey, h.byTicker]
      simp [filed, Ne.symm hkey]
  · intro p hp
    rw [← Option.some.inj hp, filed_ticker]
    exact toInternalTicker_idem intent.ticker

/-- A second intent is refused. -/
theorem HoldsOnly.enterSubmitUnknown_refused (h : r.HoldsOnly (some p)) {intent : OrderIntent}
    (hid : intent.localOrderId = 0) (now : TimePoint) :
    (r.enterSubmitUnknown intent now).1 = r := by
  have hold : intent.localOrderId ∈ r.pending := by
    rw [← AList.lookup_isSome, hid, h.lookup_zero]
    rfl
  unfold OrderReconciliator.enterSubmitUnknown
  rw [if_pos hold]

/-- Whatever happens to the intent, at most one is held. -/
theorem HoldsOnly.enter (h : ∃ o, r.HoldsOnly o) {intent : OrderIntent}
    (hid : intent.localOrderId = 0) (now : TimePoint) :
    ∃ o, (r.enterSubmitUnknown intent now).1.HoldsOnly o := by
  obtain ⟨o, h⟩ := h
  cases o with
  | none => exact ⟨_, h.enterSubmitUnknown hid now⟩
  | some p =>
      rw [h.enterSubmitUnknown_refused hid now]
      exact ⟨some p, h⟩

theorem HoldsOnly.remove (h : r.HoldsOnly (some p)) : (r.remove 0).HoldsOnly none := by
  have hids : r.byTicker.lookup p.intent.ticker = some [0] := by
    simp [h.byTicker]
  unfold OrderReconciliator.remove
  simp only [h.lookup_zero, hids]
  refine ⟨h.cfg, fun id => ?_, fun key => ?_, by simp⟩
  · by_cases hzero : id = 0
    · subst hzero
      simp [AList.lookup_erase]
    · simp [AList.lookup_erase_ne hzero, h.pending, hzero]
  · by_cases hkey : key = p.intent.ticker
    · subst hkey
      simp [AList.lookup_erase]
    · simp [AList.lookup_erase_ne hkey, h.byTicker, Ne.symm hkey]

/-! ## Polling -/

/-- The first section of a poll answers the intent `Pending`, or finds it due. -/
theorem HoldsOnly.pollDue (h : r.HoldsOnly (some p)) (now : TimePoint) :
    r.pollDue p.intent.ticker now
      = if now < p.nextPollAt ∧ ¬ r.deadlinePassed p now then
          ([{ outcome := .pending, localOrderId := 0, intent := some p.intent }], [])
        else ([], [0]) := by
  unfold OrderReconciliator.pollDue
  rw [h.idsOf]
  simp only [List.foldl_cons, List.foldl_nil, h.lookup_zero, List.nil_append]

theorem HoldsOnly.backOff (h : r.HoldsOnly (some p)) (now : TimePoint) :
    HoldsOnly { r with pending := r.pending.insert 0 (r.backOff p now) }
      (some (r.backOff p now)) := by
  refine ⟨h.cfg, fun id => ?_, fun key => ?_, ?_⟩
  · by_cases hzero : id = 0
    · subst hzero
      simp [AList.lookup_insert]
    · simp [AList.lookup_insert_ne hzero, h.pending, hzero]
  · exact h.byTicker key
  · intro p' hp'
    rw [← Option.some.inj hp']
    exact h.normalized p rfl

/-- What one poll makes of the intent: it is settled and dropped, or it stays and was not
    overdue. -/
structure Polled (p : PendingIntent) (now : TimePoint) (r : OrderReconciliator)
    (res : ReconcileResult) (o : Option PendingIntent) : Prop where
  intent : res.intent = some p.intent
  settled : res.outcome ≠ .pending → o = none
  kept : res.outcome = .pending → r.deadlinePassed p now = false ∧
    ∃ p', o = some p' ∧ p'.intent = p.intent ∧ p'.startedAt = p.startedAt

/-- The second section of a poll settles a due intent or backs off. -/
theorem HoldsOnly.pollSettle (h : r.HoldsOnly (some p)) (now : TimePoint)
    (orders : Option (List RestOrder)) :
    ∃ res o, (r.pollSettle p.intent.ticker now [0] orders []).2 = [res] ∧
      (r.pollSettle p.intent.ticker now [0] orders []).1.HoldsOnly o ∧ Polled p now r res o := by
  have hids : r.byTicker.lookup p.intent.ticker = some [0] := by
    simp [h.byTicker]
  unfold OrderReconciliator.pollSettle
  simp only [hids, List.foldl_cons, List.foldl_nil, settleOne, h.lookup_zero, List.nil_append]
  split
  · exact ⟨_, none, rfl, h.remove, rfl, fun _ => rfl, fun hout => absurd hout (by simp)⟩
  split
  · exact ⟨_, none, rfl, h.remove, rfl, fun _ => rfl, fun hout => absurd hout (by simp)⟩
  · next hdeadline =>
      refine ⟨_, some (r.backOff p now), rfl, h.backOff now, rfl, fun hout => absurd rfl hout, ?_⟩
      exact fun _ => ⟨by simpa using hdeadline, _, rfl, rfl, rfl⟩

/-- A due intent that is neither found nor overdue backs off. -/
theorem HoldsOnly.pollSettle_backOff (h : r.HoldsOnly (some p)) {now : TimePoint}
    (hdeadline : r.deadlinePassed p now = false) {orders : Option (List RestOrder)}
    (hfound : ∀ os, orders = some os → os.find? (r.matchesIntent p.intent) = none) :
    r.pollSettle p.intent.ticker now [0] orders []
      = ({ r with pending := r.pending.insert 0 (r.backOff p now) },
        [{ outcome := .pending, localOrderId := 0, intent := some p.intent }]) := by
  have hids : r.byTicker.lookup p.intent.ticker = some [0] := by
    simp [h.byTicker]
  unfold OrderReconciliator.pollSettle
  simp only [hids, List.foldl_cons, List.foldl_nil, settleOne, h.lookup_zero, List.nil_append]
  cases orders with
  | none => simp [hdeadline]
  | some os => simp [hdeadline, hfound os rfl]

end OrderReconciliator

end TradeBot
