import TradeBot.Executor.OrderUpdates

set_option autoImplicit false

/-! # What the actions append to the trace

One lemma for each action on a trade: the events it appends, and what it leaves of the trade. Later
modules use these and never unfold an action again. An action appends only events of its own trade
(`Effect`); seen from any other trade it is `Foreign`.

An action calls the gateway a number of times, each answer deciding how it goes on, so its lemma is a
disjunction over these ways, with the events of each. The requests are given in terms of the trade.
That is what the invariants are about: which stop was placed, for what size, and whether the gateway
has accepted it. -/

namespace TradeBot

/-- `m'` is `m` after the events `evs`. -/
structure Grows (evs : List Event) (m m' : Members) : Prop where
  trace : m'.trace = m.trace ++ evs
  closedTrades : m'.closedTrades = m.closedTrades ++ recordsIn evs
  cfg : m'.cfg = m.cfg
  nextUid : m'.nextUid = m.nextUid
  markPrices : m'.markPrices = m.markPrices

@[simp] theorem recordsIn_nil : recordsIn [] = [] := rfl

@[simp] theorem recordsIn_append (evs evs' : List Event) :
    recordsIn (evs ++ evs') = recordsIn evs ++ recordsIn evs' := List.filterMap_append ..

@[simp] theorem recordsOf_append (uid : ℕ) (evs evs' : List Event) :
    recordsOf uid (evs ++ evs') = recordsOf uid evs ++ recordsOf uid evs' :=
  List.filterMap_append ..

theorem recordsOf_noneOf {uid : ℕ} {evs : List Event} (h : ∀ e ∈ evs, e.owner ≠ some uid) :
    recordsOf uid evs = [] := by
  refine List.filterMap_eq_nil_iff.2 (fun e he => ?_)
  cases e with
  | recorded v ct =>
      have hv : v ≠ uid := fun heq => h _ he (congrArg some heq)
      simp [hv]
  | _ => rfl

theorem Grows.refl (m : Members) : Grows [] m m := ⟨by simp, by simp, rfl, rfl, rfl⟩

theorem Grows.trans {evs evs' : List Event} {m m' m'' : Members} (h : Grows evs m m')
    (h' : Grows evs' m' m'') : Grows (evs ++ evs') m m'' where
  trace := by rw [h'.trace, h.trace, List.append_assoc]
  closedTrades := by rw [h'.closedTrades, h.closedTrades, recordsIn_append, List.append_assoc]
  cfg := h'.cfg.trans h.cfg
  nextUid := h'.nextUid.trans h.nextUid
  markPrices := h'.markPrices.trans h.markPrices

/-- The events `evs` are not about trade `u`. -/
def NoneOf (u : ℕ) (evs : List Event) : Prop := ∀ e ∈ evs, e.owner ≠ some u

/-- A change of the members that does not concern trade `u`. -/
def Foreign (u : ℕ) (m m' : Members) : Prop := ∃ evs, Grows evs m m' ∧ NoneOf u evs

theorem Foreign.refl (u : ℕ) (m : Members) : Foreign u m m := ⟨[], .refl m, by simp [NoneOf]⟩

theorem Foreign.trans {u : ℕ} {m m' m'' : Members} (h : Foreign u m m') (h' : Foreign u m' m'') :
    Foreign u m m'' := by
  obtain ⟨evs, hg, hno⟩ := h
  obtain ⟨evs', hg', hno'⟩ := h'
  refine ⟨evs ++ evs', hg.trans hg', fun e he => ?_⟩
  rcases List.mem_append.1 he with he | he
  · exact hno e he
  · exact hno' e he

/-- `m'` is `m` after the events `evs` of trade `uid`. -/
structure Effect (uid : ℕ) (evs : List Event) (m m' : Members) : Prop extends Grows evs m m' where
  owned : ∀ e ∈ evs, e.owner = some uid

section Effect

variable {uid : ℕ} {evs evs' : List Event} {m m' m'' : Members}

theorem Effect.refl (uid : ℕ) (m : Members) : Effect uid [] m m := ⟨.refl m, by simp⟩

theorem Effect.trans (h : Effect uid evs m m') (h' : Effect uid evs' m' m'') :
    Effect uid (evs ++ evs') m m'' where
  toGrows := h.toGrows.trans h'.toGrows
  owned := fun e he => (List.mem_append.1 he).elim (h.owned e) (h'.owned e)

theorem Effect.foreign (h : Effect uid evs m m') {u : ℕ} (hu : u ≠ uid) : Foreign u m m' :=
  ⟨evs, h.toGrows, fun e he hown => hu (Option.some.inj (hown.symm.trans (h.owned e he)))⟩

end Effect

theorem effect_alert (uid : ℕ) (m : Members) (msg : String) :
    Effect uid [.alerted uid msg] m (m.alert uid msg) :=
  ⟨⟨rfl, by simp [Members.alert, Members.emit, recordsIn], rfl, rfl, rfl⟩, by simp [Event.owner]⟩

theorem effect_placeOrder (env : Env) (uid : ℕ) (m : Members) (req : PlaceOrderRequest) :
    Effect uid [.placed uid req (m.placeOrder env uid req).2] m (m.placeOrder env uid req).1 :=
  ⟨⟨rfl, by simp [Members.placeOrder, Members.emit, recordsIn], rfl, rfl, rfl⟩, by simp [Event.owner]⟩

theorem effect_cancelOrder (env : Env) (uid : ℕ) (m : Members) (id : OrderId) (ticker : Ticker) :
    Effect uid [.cancelled uid id ticker (m.cancelOrder env uid id ticker).2] m
      (m.cancelOrder env uid id ticker).1 :=
  ⟨⟨rfl, by simp [Members.cancelOrder, Members.emit, recordsIn], rfl, rfl, rfl⟩,
    by simp [Event.owner]⟩

theorem effect_pushClosed (uid : ℕ) (m : Members) (ct : ClosedTrade) :
    Effect uid [.recorded uid ct] m (m.pushClosed uid ct) :=
  ⟨⟨rfl, by simp [Members.pushClosed, recordsIn], rfl, rfl, rfl⟩, by simp [Event.owner]⟩

theorem effect_releaseReservation (uid : ℕ) (m : Members) (plan : TradePlan) :
    Effect uid [] m (m.releaseReservation plan) :=
  ⟨⟨by simp, by simp [Members.releaseReservation], rfl, rfl, rfl⟩, by simp⟩

/-! ## Stops and targets -/

/-- Cancels, alerts and take-profit placements: events that neither protect a position, nor close
    it, nor record anything. -/
def Event.isQuiet : Event → Bool
  | .cancelled .. => true
  | .alerted .. => true
  | .placed _ req _ => decide (req.type = .takeProfit)
  | _ => false

/-- Nothing is placed or recorded. -/
def Quiet (evs : List Event) : Prop := ∀ e ∈ evs, e.isQuiet = true

/-- Take-profit placements and alerts. -/
def Event.isTarget : Event → Bool
  | .placed _ req _ => decide (req.type = .takeProfit)
  | .alerted .. => true
  | _ => false

theorem quiet_of_isTarget {evs : List Event} (h : ∀ e ∈ evs, e.isTarget = true) : Quiet evs := by
  intro e he
  have htarget := h e he
  cases e <;> simp_all [Event.isTarget, Event.isQuiet]

theorem quiet_nil : Quiet [] := by simp [Quiet]

theorem Quiet.append {evs evs' : List Event} (h : Quiet evs) (h' : Quiet evs') :
    Quiet (evs ++ evs') := fun e he => (List.mem_append.1 he).elim (h e) (h' e)

@[simp] theorem ActiveTrade.exitRequest_type (t : ActiveTrade) (type : OrderType) (price size : ℚ) :
    (t.exitRequest type price size).type = type := rfl
@[simp] theorem ActiveTrade.exitRequest_price (t : ActiveTrade) (type : OrderType)
    (price size : ℚ) : (t.exitRequest type price size).price = price := rfl
@[simp] theorem ActiveTrade.exitRequest_size (t : ActiveTrade) (type : OrderType) (price size : ℚ) :
    (t.exitRequest type price size).size = size := rfl
@[simp] theorem ActiveTrade.exitRequest_reduceOnly (t : ActiveTrade) (type : OrderType)
    (price size : ℚ) : (t.exitRequest type price size).reduceOnly = true := rfl

/-- The events of `dropOrder`. -/
def dropEvents (env : Env) (uid : ℕ) (ticker : Ticker) (id : OrderId) (m : Members) : List Event :=
  if id ≠ 0 then [.cancelled uid id ticker (env.cancelOrder m.trace.length id ticker)] else []

theorem quiet_dropEvents (env : Env) (uid : ℕ) (ticker : Ticker) (id : OrderId) (m : Members) :
    Quiet (dropEvents env uid ticker id m) := by
  unfold dropEvents
  split <;> simp [Quiet, Event.isQuiet]

theorem dropOrder_effect (env : Env) (uid : ℕ) (ticker : Ticker) (id : OrderId) (m : Members) :
    Effect uid (dropEvents env uid ticker id m) m (dropOrder env uid ticker id m) := by
  unfold dropOrder dropEvents
  split
  · exact effect_cancelOrder ..
  · exact .refl ..

/-- The old stop is cancelled (or there was none), or the trade is left as it is. -/
theorem cancelOldStop_effect (env : Env) (m : Members) (t : ActiveTrade) :
    ∃ evs, Effect t.uid evs m (cancelOldStop env m t).1 ∧ Quiet evs ∧
      ((cancelOldStop env m t).2 = none ∨
        (cancelOldStop env m t).2 = some { t with stopOrderId := 0 } ∧
          (t.stopOrderId ≠ 0 →
            .cancelled t.uid t.stopOrderId t.plan.ticker (.ok ()) ∈ evs)) := by
  unfold cancelOldStop
  split
  · have heff := effect_cancelOrder env t.uid m t.stopOrderId t.plan.ticker
    generalize m.cancelOrder env t.uid t.stopOrderId t.plan.ticker = r at heff ⊢
    obtain ⟨m', res⟩ := r
    have hq : Quiet [.cancelled t.uid t.stopOrderId t.plan.ticker res] := by
      simp [Quiet, Event.isQuiet]
    cases res with
    | ok _ => exact ⟨_, heff, hq, Or.inr ⟨rfl, by simp⟩⟩
    | error _ => exact ⟨_, heff, hq, Or.inl rfl⟩
  · next h =>
      rw [not_not] at h
      exact ⟨[], .refl .., quiet_nil, Or.inr ⟨by rw [← h], fun hne => absurd h hne⟩⟩

theorem cancelOldTp1_effect (env : Env) (m : Members) (t : ActiveTrade) :
    ∃ evs id, Effect t.uid evs m (cancelOldTp1 env m t).1 ∧ Quiet evs ∧
      (cancelOldTp1 env m t).2.1 = { t with tp1OrderId := id } := by
  unfold cancelOldTp1
  split
  · have heff := effect_cancelOrder env t.uid m t.tp1OrderId t.plan.ticker
    generalize m.cancelOrder env t.uid t.tp1OrderId t.plan.ticker = r at heff ⊢
    obtain ⟨m', res⟩ := r
    have hq : Quiet [.cancelled t.uid t.tp1OrderId t.plan.ticker res] := by
      simp [Quiet, Event.isQuiet]
    cases res with
    | ok _ => exact ⟨_, 0, heff, hq, rfl⟩
    | error _ => exact ⟨_, t.tp1OrderId, heff, hq, rfl⟩
  · exact ⟨[], t.tp1OrderId, .refl .., quiet_nil, rfl⟩

/-- The stop order `place_stops_` sends. -/
def ActiveTrade.stopRequest (t : ActiveTrade) : PlaceOrderRequest :=
  t.exitRequest .stopLoss t.plan.stopPrice t.executedSize

theorem placeStopLoss_effect (env : Env) (m : Members) (t : ActiveTrade) :
    ∃ res post id, Effect t.uid (.placed t.uid t.stopRequest res :: post) m
        (placeStopLoss env m t).1 ∧ Quiet post ∧
      (placeStopLoss env m t).2 = { t with stopOrderId := id } := by
  unfold placeStopLoss
  have heff := effect_placeOrder env t.uid m t.stopRequest
  rw [ActiveTrade.stopRequest] at heff ⊢
  generalize m.placeOrder env t.uid (t.exitRequest .stopLoss t.plan.stopPrice t.executedSize) = r
    at heff ⊢
  obtain ⟨m', res⟩ := r
  cases res with
  | ok r => exact ⟨_, [], r.orderId, heff, quiet_nil, rfl⟩
  | error e =>
      exact ⟨_, _, t.stopOrderId, heff.trans (effect_alert ..), by simp [Quiet, Event.isQuiet], rfl⟩

theorem placeTp1_effect (env : Env) (tp1CancelFailed : Bool) (m : Members) (t : ActiveTrade) :
    ∃ evs id, Effect t.uid evs m (placeTp1 env tp1CancelFailed m t).1 ∧
      (∀ e ∈ evs, e.isTarget = true) ∧
      (placeTp1 env tp1CancelFailed m t).2 = { t with tp1OrderId := id } := by
  unfold placeTp1
  split
  · dsimp only
    generalize (env.tickerMeta t.plan.ticker).getD .fallback = instrument
    split
    · have heff := effect_placeOrder env t.uid m
        (t.exitRequest .takeProfit t.plan.tp1Price (tp1Size instrument t))
      generalize m.placeOrder env t.uid
        (t.exitRequest .takeProfit t.plan.tp1Price (tp1Size instrument t)) = r at heff ⊢
      obtain ⟨m', res⟩ := r
      cases res with
      | ok r => exact ⟨_, r.orderId, heff, by simp [Event.isTarget], rfl⟩
      | error e =>
          exact ⟨_, t.tp1OrderId, heff.trans (effect_alert ..), by simp [Event.isTarget], rfl⟩
    · exact ⟨[], t.tp1OrderId, .refl .., by simp, rfl⟩
  · exact ⟨[], t.tp1OrderId, .refl .., by simp, rfl⟩

/-- The trade with other ids of its stop and TP1 orders. -/
def ActiveTrade.withExitIds (t : ActiveTrade) (stopId tp1Id : OrderId) : ActiveTrade :=
  { t with stopOrderId := stopId, tp1OrderId := tp1Id }

/-- The events of `place_stops_`: it gives up before it places a stop, or places exactly one, after
    it has cancelled the stop the trade knew of. -/
inductive StopAttempt (t : ActiveTrade) : List Event → Prop
  | gaveUp {evs : List Event} (hq : Quiet evs) : StopAttempt t evs
  | placed {pre : List Event} {res : Except String PlaceOrderResult} {post : List Event}
      (hst : t.state = .opened) (hsz : 0 < t.executedSize) (hpre : Quiet pre) (hpost : Quiet post)
      (hcancel : t.stopOrderId ≠ 0 →
        .cancelled t.uid t.stopOrderId t.plan.ticker (.ok ()) ∈ pre) :
      StopAttempt t (pre ++ .placed t.uid t.stopRequest res :: post)

/-- The events hold no record. -/
def Recordless (evs : List Event) : Prop := ∀ e ∈ evs, ∀ uid ct, e ≠ .recorded uid ct

theorem Recordless.append {evs evs' : List Event} (h : Recordless evs) (h' : Recordless evs') :
    Recordless (evs ++ evs') := fun e he => (List.mem_append.1 he).elim (h e) (h' e)

theorem Quiet.recordless {evs : List Event} (h : Quiet evs) : Recordless evs := by
  rintro e he uid ct rfl
  simpa [Event.isQuiet] using h _ he

theorem recordless_placed (uid : ℕ) (req : PlaceOrderRequest)
    (res : Except String PlaceOrderResult) : Recordless [.placed uid req res] := by
  simp [Recordless]

theorem StopAttempt.recordless {t : ActiveTrade} {evs : List Event} (h : StopAttempt t evs) :
    Recordless evs := by
  cases h with
  | gaveUp hq => exact hq.recordless
  | @placed pre res post hst hsz hpre hpost hcancel =>
      exact hpre.recordless.append ((recordless_placed t.uid t.stopRequest res).append
        hpost.recordless)

theorem placeStops_effect (env : Env) (m : Members) (t : ActiveTrade) :
    ∃ evs stopId tp1Id, Effect t.uid evs m (placeStops env m t).1 ∧ StopAttempt t evs ∧
      (placeStops env m t).2 = t.withExitIds stopId tp1Id := by
  unfold placeStops
  split
  · exact ⟨[], t.stopOrderId, t.tp1OrderId, .refl .., .gaveUp quiet_nil, rfl⟩
  next hst =>
  rw [not_not] at hst
  split
  · exact ⟨_, t.stopOrderId, t.tp1OrderId, effect_alert ..,
      .gaveUp (by simp [Quiet, Event.isQuiet]), rfl⟩
  next hsz =>
  rw [not_le] at hsz
  obtain ⟨evs₁, heff₁, hq₁, hres⟩ := cancelOldStop_effect env m t
  generalize cancelOldStop env m t = r₁ at heff₁ hres ⊢
  obtain ⟨m₁, t₁⟩ := r₁
  -- a refused cancellation ends the attempt
  rcases hres with rfl | ⟨rfl, hcancel⟩
  · exact ⟨evs₁, t.stopOrderId, t.tp1OrderId, heff₁, .gaveUp hq₁, rfl⟩
  obtain ⟨evs₂, id₂, heff₂, hq₂, ht₂⟩ := cancelOldTp1_effect env m₁ { t with stopOrderId := 0 }
  dsimp only at heff₁ ⊢
  generalize cancelOldTp1 env m₁ { t with stopOrderId := 0 } = r₂ at heff₂ ht₂ ⊢
  obtain ⟨m₂, t₂, failed⟩ := r₂
  subst ht₂
  obtain ⟨res, post₃, id₃, heff₃, hq₃, ht₃⟩ :=
    placeStopLoss_effect env m₂ { t with stopOrderId := 0, tp1OrderId := id₂ }
  dsimp only at heff₂ heff₃ ⊢
  generalize placeStopLoss env m₂ { t with stopOrderId := 0, tp1OrderId := id₂ } = r₃
    at heff₃ ht₃ ⊢
  obtain ⟨m₃, t₃⟩ := r₃
  subst ht₃
  obtain ⟨evs₄, id₄, heff₄, hq₄, ht₄⟩ :=
    placeTp1_effect env failed m₃ { t with stopOrderId := id₃, tp1OrderId := id₂ }
  have heff := ((heff₁.trans heff₂).trans heff₃).trans heff₄
  rw [List.append_assoc, List.cons_append] at heff
  exact ⟨_, id₃, id₄, heff, .placed hst hsz (hq₁.append hq₂) (hq₃.append (quiet_of_isTarget hq₄))
    (fun hne => List.mem_append_left _ (hcancel hne)), ht₄⟩

/-- When the gateway answers every call, the stop of an open position is accepted, and nothing is
    cancelled after it. -/
theorem placeStops_protects {env : Env} (henv : env.NeverThrows) (m : Members) {t : ActiveTrade}
    (hst : t.state = .opened) (hexec : 0 < t.executedSize) :
    ∃ pre r post, (placeStops env m t).1.trace
        = m.trace ++ (pre ++ .placed t.uid t.stopRequest (.ok r) :: post) ∧
      (∀ e ∈ post, e.isTarget = true) := by
  unfold placeStops
  rw [if_neg (not_not.2 hst), if_neg (not_le.2 hexec)]
  -- the old stop is cancelled, as no call is refused
  obtain ⟨evs₁, m₁, hold, hm₁⟩ : ∃ evs m', cancelOldStop env m t
      = (m', some { t with stopOrderId := 0 }) ∧ m'.trace = m.trace ++ evs := by
    unfold cancelOldStop
    split
    · simp only [Members.cancelOrder, henv.cancelOrder]
      exact ⟨_, _, rfl, rfl⟩
    · next hzero =>
        refine ⟨[], m, ?_, (List.append_nil _).symm⟩
        rw [← not_not.1 hzero]
  rw [hold]
  obtain ⟨evs₂, id₂, heff₂, _, ht₂⟩ := cancelOldTp1_effect env m₁ { t with stopOrderId := 0 }
  dsimp only
  generalize cancelOldTp1 env m₁ { t with stopOrderId := 0 } = r₂ at heff₂ ht₂ ⊢
  obtain ⟨m₂, t₂, failed⟩ := r₂
  subst ht₂
  -- the new one is accepted
  obtain ⟨r, hr⟩ := henv.placeOrder m₂.trace.length t.stopRequest
  have hplace : placeStopLoss env m₂ { t with stopOrderId := 0, tp1OrderId := id₂ }
      = (m₂.emit (.placed t.uid t.stopRequest (.ok r)),
        { t with stopOrderId := r.orderId, tp1OrderId := id₂ }) := by
    have hr' := hr
    rw [ActiveTrade.stopRequest, ActiveTrade.exitRequest] at hr'
    simp only [placeStopLoss, Members.placeOrder, ActiveTrade.exitRequest, hr',
      ActiveTrade.stopRequest]
  dsimp only
  rw [hplace]
  -- what comes after it is about TP1 only
  obtain ⟨evs₄, _, heff₄, htarget, _⟩ := placeTp1_effect env failed
    (m₂.emit (.placed t.uid t.stopRequest (.ok r)))
    { t with stopOrderId := r.orderId, tp1OrderId := id₂ }
  refine ⟨evs₁ ++ evs₂, r, evs₄, ?_, htarget⟩
  rw [heff₄.trace, Members.emit_trace, heff₂.trace, hm₁]
  simp

/-! ## Closing at market -/

/-- What a market close leaves of the trade: closed if it was accepted. -/
def ActiveTrade.afterClose (t : ActiveTrade) (res : Except String PlaceOrderResult) : ActiveTrade :=
  match res with
  | .ok _ => { t.withExitIds 0 0 with state := .closed }
  | .error _ => t.withExitIds 0 0

theorem afterClose_state (t : ActiveTrade) (res : Except String PlaceOrderResult) :
    (t.afterClose res).state = if res.isOk then .closed else t.state := by cases res <;> rfl

theorem emergencyCloseTrade_effect (env : Env) (m : Members) (t : ActiveTrade) :
    ∃ pre res, Effect t.uid (pre ++ [.placed t.uid t.marketClose res]) m
        (emergencyCloseTrade env m t).1 ∧ Quiet pre ∧
      (∃ n, res = env.placeOrder n t.marketClose) ∧
      (emergencyCloseTrade env m t).2 = t.afterClose res := by
  unfold emergencyCloseTrade
  have heff₁ := dropOrder_effect env t.uid t.plan.ticker t.stopOrderId m
  have hq₁ := quiet_dropEvents env t.uid t.plan.ticker t.stopOrderId m
  generalize dropOrder env t.uid t.plan.ticker t.stopOrderId m = m₁ at heff₁ ⊢
  have heff₂ := dropOrder_effect env t.uid t.plan.ticker t.tp1OrderId m₁
  have hq₂ := quiet_dropEvents env t.uid t.plan.ticker t.tp1OrderId m₁
  dsimp only
  generalize dropOrder env t.uid t.plan.ticker t.tp1OrderId m₁ = m₂ at heff₂ ⊢
  have heff₃ := effect_placeOrder env t.uid m₂ t.marketClose
  refine ⟨_, _, (heff₁.trans heff₂).trans ?_, hq₁.append hq₂, ⟨m₂.trace.length, rfl⟩, ?_⟩
  · change Effect _ [.placed t.uid t.marketClose (m₂.placeOrder env t.uid t.marketClose).2] _ _
    change Effect _ _ _ (match (m₂.placeOrder env t.uid t.marketClose).2 with
      | .ok _ => ((m₂.placeOrder env t.uid t.marketClose).1, _)
      | .error _ => ((m₂.placeOrder env t.uid t.marketClose).1, _)).1
    split <;> exact heff₃
  · change (match env.placeOrder m₂.trace.length t.marketClose with
      | .ok _ => (_, _)
      | .error _ => (_, _)).2 = _
    unfold ActiveTrade.afterClose
    split <;> rfl

theorem Members.estimatedExit_congr {m m' : Members} (hm : m'.markPrices = m.markPrices)
    (ticker : Ticker) (fallback : ℚ) :
    m'.estimatedExit ticker fallback = m.estimatedExit ticker fallback := by
  rw [Members.estimatedExit, Members.estimatedExit, hm]

/-- The record of a market close depends only on the marks and on what the trade executed. -/
theorem emergencyRecord_congr {m m' : Members} (hm : m'.markPrices = m.markPrices)
    {t t' : ActiveTrade} (hplan : t'.plan = t.plan) (havg : t'.avgEntryPrice = t.avgEntryPrice)
    (hsize : t'.executedSize = t.executedSize) (reason : String) :
    emergencyRecord m' t' reason = emergencyRecord m t reason := by
  simp only [emergencyRecord, Members.estimatedExit_congr hm, hplan, havg, hsize]

theorem closeAndRecord_effect (env : Env) (reason : String) (m : Members) (t : ActiveTrade) :
    ∃ pre res, Effect t.uid (pre ++ [.placed t.uid t.marketClose res,
          .recorded t.uid (emergencyRecord m t reason)]) m (closeAndRecord env reason m t).1 ∧
      Quiet pre ∧ (∃ n, res = env.placeOrder n t.marketClose) ∧
      (closeAndRecord env reason m t).2 = t.afterClose res := by
  unfold closeAndRecord
  obtain ⟨pre, res, heff, hq, hn, ht⟩ := emergencyCloseTrade_effect env m t
  generalize emergencyCloseTrade env m t = r at heff ht ⊢
  obtain ⟨m', t'⟩ := r
  subst ht
  refine ⟨pre, res, ?_, hq, hn, rfl⟩
  have heff' := heff.trans (effect_pushClosed t.uid m' (emergencyRecord m t reason))
  rw [List.append_assoc] at heff'
  have hrec : emergencyRecord m' (t.afterClose res) reason = emergencyRecord m t reason := by
    cases res <;> exact emergencyRecord_congr heff.markPrices rfl rfl rfl reason
  have huid : (t.afterClose res).uid = t.uid := by cases res <;> rfl
  simpa only [recordEmergencyClose, hrec, huid, List.singleton_append] using heff'

theorem execCloseAction_effect (env : Env) (m : Members) (act : CloseAction) :
    ∃ pre res, Effect act.trade.uid (pre ++ [.placed act.trade.uid act.trade.marketClose res,
          .recorded act.trade.uid act.record]) m (execCloseAction env m act) ∧
      Quiet pre ∧ ∃ n, res = env.placeOrder n act.trade.marketClose := by
  have heff₁ := dropOrder_effect env act.trade.uid act.trade.plan.ticker act.trade.stopOrderId m
  have hq₁ := quiet_dropEvents env act.trade.uid act.trade.plan.ticker act.trade.stopOrderId m
  unfold execCloseAction
  dsimp only
  generalize dropOrder env act.trade.uid act.trade.plan.ticker act.trade.stopOrderId m = m₁
    at heff₁ ⊢
  have heff₂ := dropOrder_effect env act.trade.uid act.trade.plan.ticker act.trade.tp1OrderId m₁
  have hq₂ := quiet_dropEvents env act.trade.uid act.trade.plan.ticker act.trade.tp1OrderId m₁
  generalize dropOrder env act.trade.uid act.trade.plan.ticker act.trade.tp1OrderId m₁ = m₂
    at heff₂ ⊢
  have heff₃ := effect_placeOrder env act.trade.uid m₂ act.trade.marketClose
  have heff₄ := effect_pushClosed act.trade.uid
    (m₂.placeOrder env act.trade.uid act.trade.marketClose).1 act.record
  exact ⟨_, _, (heff₁.trans heff₂).trans (heff₃.trans heff₄), hq₁.append hq₂,
    m₂.trace.length, rfl⟩

/-- A close action is about the trade it was made for, which is open and has executed something. -/
theorem closeAction?_eq_some {m : Members} {now : TimePoint} {t : ActiveTrade} {act : CloseAction}
    (h : closeAction? m now t = some act) :
    act.trade = t ∧ t.state = .opened ∧ 0 < t.executedSize := by
  unfold closeAction? at h
  obtain ⟨reason, hreason, rfl⟩ := Option.map_eq_some_iff.1 h
  unfold closeReason? at hreason
  split at hreason
  · simp at hreason
  next hst =>
  split at hreason
  · simp at hreason
  next hsz =>
  rw [not_or, not_le, not_le] at hsz
  exact ⟨rfl, not_not.1 hst, hsz.1⟩

end TradeBot
