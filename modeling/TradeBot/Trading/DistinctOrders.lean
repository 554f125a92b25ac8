import TradeBot.Trading.IntentOutcomes

set_option autoImplicit false

/-! # The server orders that intents are resolved to

A poll takes for each of its due intents the first server order that matches it, whether or not another
intent, of this poll or an earlier one, has been resolved to that order. In exactly the runs where this
never happens the server orders reported are different.

The condition is on one step: the orders that its due intents match first are different, and none has
been reported before. It is exact, since an order that is matched twice is reported twice, and
nothing else resolves an intent. -/

namespace TradeBot

open Runs

/-- The server orders to which a poll's results resolve intents. -/
def resolvedTo (results : List ReconcileResult) : List OrderId :=
  (results.filter (fun res => decide (res.outcome = .resolved))).filterMap
    (fun res => res.serverOrderId)

/-- The server orders to which what a call returned resolves intents. -/
def CallAnswer.resolvedTo : CallAnswer → List OrderId
  | .polled results => TradeBot.resolvedTo results
  | _ => []

/-- The server orders reported so far, one for each intent that was resolved by a poll. -/
def ReconcilerCalls.resolvedTo (s : ReconcilerCalls) : List OrderId :=
  s.answers.flatMap CallAnswer.resolvedTo

namespace OrderReconciliator

/-- The order is the first that matches the pending intent. -/
def FirstMatch (r : OrderReconciliator) (orders : List RestOrder) (localId : OrderId)
    (order : RestOrder) : Prop :=
  ∃ p, r.pending.lookup localId = some p ∧ r.matchesIntent p.intent order = true ∧
    ∃ before after, orders = before ++ order :: after ∧
      ∀ o ∈ before, r.matchesIntent p.intent o = false

/-! ## What a poll resolves -/

/-- The server order found for an id, as the second section looks it up. -/
def foundFor (r : OrderReconciliator) (found : OrderIntent → Option OrderId) (localId : OrderId) :
    Option OrderId :=
  (r.pending.lookup localId).bind (fun p => found p.intent)

variable {r : OrderReconciliator} {orders : List RestOrder}

theorem foundFor_eq_some {localId serverId : OrderId} :
    r.foundFor (fun i => (orders.find? (r.matchesIntent i)).map RestOrder.id) localId = some serverId
      ↔ ∃ order, r.FirstMatch orders localId order ∧ order.id = serverId := by
  simp only [foundFor, Option.bind_eq_some_iff, Option.map_eq_some_iff, List.find?_eq_some_iff_append,
    FirstMatch, Bool.not_eq_true']
  constructor
  · rintro ⟨p, hp, order, ⟨hmatch, before, after, hsplit, hbefore⟩, hid⟩
    exact ⟨order, ⟨p, hp, hmatch, before, after, hsplit, hbefore⟩, hid⟩
  · rintro ⟨order, ⟨p, hp, hmatch, before, after, hsplit, hbefore⟩, hid⟩
    exact ⟨p, hp, order, ⟨hmatch, before, after, hsplit, hbefore⟩, hid⟩

/-- One round of the loop: the order found is reported, and no intent is changed. -/
theorem settleOne_resolvedTo (found : OrderIntent → Option OrderId) (note : String) (now : TimePoint)
    (acc : OrderReconciliator × List ReconcileResult × List OrderId) (localId : OrderId) :
    resolvedTo (settleOne found note now acc localId).2.1
        = resolvedTo acc.2.1 ++ (acc.1.foundFor found localId).toList ∧
      ∀ id, (settleOne found note now acc localId).1.foundFor found id = acc.1.foundFor found id := by
  obtain ⟨r, out, toRemove⟩ := acc
  unfold settleOne
  dsimp only
  cases hp : r.pending.lookup localId with
  | none => simp [foundFor, hp]
  | some p =>
      dsimp only
      cases hfound : found p.intent with
      | some serverId => simp [foundFor, hp, hfound, resolvedTo]
      | none =>
          dsimp only
          split
          · simp [foundFor, hp, hfound, resolvedTo]
          · refine ⟨by simp [foundFor, hp, hfound, resolvedTo], fun id => ?_⟩
            unfold foundFor
            by_cases heq : id = localId
            · rw [heq, AList.lookup_insert, hp]
              rfl
            · rw [AList.lookup_insert_ne heq]

theorem foldl_settleOne_resolvedTo (found : OrderIntent → Option OrderId) (note : String)
    (now : TimePoint) (due : List OrderId)
    (acc : OrderReconciliator × List ReconcileResult × List OrderId) :
    resolvedTo (due.foldl (settleOne found note now) acc).2.1
      = resolvedTo acc.2.1 ++ due.filterMap (acc.1.foundFor found) := by
  induction due generalizing acc with
  | nil => simp
  | cons localId due ih =>
      obtain ⟨hone, hsame⟩ := settleOne_resolvedTo found note now acc localId
      have hrest : (settleOne found note now acc localId).1.foundFor found = acc.1.foundFor found :=
        funext hsame
      rw [List.foldl_cons, ih, hone, hrest, List.append_assoc]
      cases hfound : acc.1.foundFor found localId <;> simp [hfound]

/-- The second section reports the orders found for the ids that were due, if the fetch answered and the
    ticker still has pending intents. -/
theorem pollSettle_resolvedTo (r : OrderReconciliator) (key : Ticker) (now : TimePoint)
    (due : List OrderId) (orders : List RestOrder) (out : List ReconcileResult) :
    resolvedTo (r.pollSettle key now due (some orders) out).2
      = resolvedTo out ++ if (r.byTicker.lookup key).isSome then
          due.filterMap (r.foundFor (fun i => (orders.find? (r.matchesIntent i)).map RestOrder.id))
        else [] := by
  unfold pollSettle
  cases r.byTicker.lookup key with
  | none => simp
  | some ids => exact foldl_settleOne_resolvedTo ..

theorem pollSettle_failed_resolvedTo (r : OrderReconciliator) (key : Ticker) (now : TimePoint)
    (due : List OrderId) (out : List ReconcileResult) :
    resolvedTo (r.pollSettle key now due none out).2 = resolvedTo out := by
  unfold pollSettle
  cases r.byTicker.lookup key with
  | none => rfl
  | some ids =>
      refine (foldl_settleOne_resolvedTo ..).trans ?_
      have hnone : r.foundFor (fun _ => none) = fun _ => none := by
        funext id
        simp [foundFor]
      simp [hnone]

/-- What settles nothing resolves nothing. -/
theorem resolvedTo_of_settledIds {results : List ReconcileResult} (h : settledIds results = []) :
    resolvedTo results = [] := by
  rw [settledIds, List.map_eq_nil_iff, List.filter_eq_nil_iff] at h
  have hnone : results.filter (fun res => decide (res.outcome = .resolved)) = [] := by
    refine List.filter_eq_nil_iff.2 (fun res hres hresolved => h res hres ?_)
    rw [decide_eq_true_iff] at hresolved ⊢
    rw [hresolved]
    decide
  rw [resolvedTo, hnone, List.filterMap_nil]

end OrderReconciliator

namespace ReconcilerCalls

/-- In the answer to a poll, no order is the first match of two of the intents that are due, or of one
    of these although an intent has been resolved to it before. -/
def OneIntentEach (s : ReconcilerCalls) : Op → Prop
  | .pollEnd i (.orders orders) =>
      ∀ poll, s.inFlight[i]? = some poll → (s.r.byTicker.lookup poll.key).isSome →
        ∀ id ∈ poll.due, ∀ order, s.r.FirstMatch orders id order →
          order.id ∉ s.resolvedTo ∧
            ∀ id' ∈ poll.due, id' ≠ id → ∀ order', s.r.FirstMatch orders id' order' →
              order'.id ≠ order.id
  | _ => True

variable {s : ReconcilerCalls}

/-- What a step adds to the server orders reported. -/
def newlyResolvedTo (s : ReconcilerCalls) : Op → List OrderId
  | .pollEnd i (.orders orders) =>
      match s.inFlight[i]? with
      | none => []
      | some poll =>
          if (s.r.byTicker.lookup poll.key).isSome then
            poll.due.filterMap
              (s.r.foundFor (fun i => (orders.find? (s.r.matchesIntent i)).map RestOrder.id))
          else []
  | _ => []

theorem resolvedTo_answer (s : ReconcilerCalls) (a : CallAnswer) :
    (s.answer a).resolvedTo = a.resolvedTo ++ s.resolvedTo := List.flatMap_cons ..

theorem resolvedTo_pollBegin (s : ReconcilerCalls) (ticker : Ticker) (now : TimePoint) :
    (s.pollBegin ticker now).resolvedTo = s.resolvedTo := by
  have hout : TradeBot.resolvedTo (s.r.pollDue (toInternalTicker ticker) now).1 = [] :=
    OrderReconciliator.resolvedTo_of_settledIds (s.r.settledIds_pollDue _ _)
  unfold pollBegin
  by_cases hfetch : s.hasFetcher = false
  · rw [if_pos hfetch, resolvedTo_answer]
    rfl
  · rw [if_neg hfetch]
    dsimp only
    by_cases hdue : (s.r.pollDue (toInternalTicker ticker) now).2 = []
    · rw [if_pos hdue, resolvedTo_answer, CallAnswer.resolvedTo, hout, List.nil_append]
    · rw [if_neg hdue]
      rfl

theorem resolvedTo_step (h : Inv s) (op : Op) :
    (s.step op).resolvedTo = s.newlyResolvedTo op ++ s.resolvedTo := by
  cases op with
  | setFetchOpenOrders => rfl
  | enterSubmitUnknown intent now => exact resolvedTo_answer ..
  | resolveOrder localId => exact resolvedTo_answer ..
  | pollBegin ticker now => exact resolvedTo_pollBegin ..
  | pollEnd i a =>
      unfold step
      dsimp only
      cases hpoll : s.inFlight[i]? with
      | none => cases a <;> simp [newlyResolvedTo, hpoll]
      | some poll =>
          have hout : TradeBot.resolvedTo poll.out = [] :=
            OrderReconciliator.resolvedTo_of_settledIds
              (h.inFlight poll (List.mem_of_getElem? hpoll)).1
          cases a with
          | orders orders =>
              have hsettle := s.r.pollSettle_resolvedTo poll.key poll.now poll.due orders poll.out
              rw [hout, List.nil_append] at hsettle
              simp only [pollEnd, newlyResolvedTo, hpoll]
              rw [← hsettle]
              exact resolvedTo_answer ..
          | failed =>
              have hsettle := s.r.pollSettle_failed_resolvedTo poll.key poll.now poll.due poll.out
              rw [hout] at hsettle
              have hnone : s.newlyResolvedTo (.pollEnd i .failed) = [] := rfl
              rw [hnone, ← hsettle]
              exact resolvedTo_answer ..
          | escaped => rfl

/-- Different members of a list have different values. -/
theorem nodup_filterMap_iff {α β : Type} {f : α → Option β} {l : List α} (h : l.Nodup) :
    (l.filterMap f).Nodup
      ↔ ∀ a ∈ l, ∀ b, f a = some b → ∀ a' ∈ l, a' ≠ a → ∀ b', f a' = some b' → b' ≠ b := by
  rw [List.Nodup, List.pairwise_filterMap]
  constructor
  · intro hpair a ha b hb a' ha' hne b' hb'
    have : Std.Symm (fun a a' => ∀ b, f a = some b → ∀ b', f a' = some b' → b ≠ b') :=
      ⟨fun _ _ hdiff b hb b' hb' => (hdiff b' hb' b hb).symm⟩
    exact hpair.forall ha' ha hne b' hb' b hb
  · intro hdiff
    exact h.pairwise_of_forall_ne
      (fun a ha a' ha' hne b hb b' hb' => hdiff a' ha' b' hb' a ha hne b hb)

/-- A step resolves to new and different orders exactly when it meets the condition. -/
theorem oneIntentEach_iff (h : Inv s) (op : Op) :
    s.OneIntentEach op ↔ (s.newlyResolvedTo op).Nodup ∧
      ∀ serverId ∈ s.newlyResolvedTo op, serverId ∉ s.resolvedTo := by
  cases op with
  | setFetchOpenOrders | enterSubmitUnknown | resolveOrder | pollBegin =>
      simp [OneIntentEach, newlyResolvedTo]
  | pollEnd i a =>
      cases a with
      | failed | escaped => simp [OneIntentEach, newlyResolvedTo]
      | orders orders =>
          simp only [OneIntentEach, newlyResolvedTo]
          cases hpoll : s.inFlight[i]? with
          | none => simp
          | some poll =>
              dsimp only
              by_cases hkey : (s.r.byTicker.lookup poll.key).isSome
              · rw [if_pos hkey,
                  nodup_filterMap_iff (h.inFlight poll (List.mem_of_getElem? hpoll)).2]
                simp only [List.mem_filterMap, OrderReconciliator.foundFor_eq_some]
                constructor
                · intro hcond
                  have hpoll := hcond poll rfl hkey
                  refine ⟨?_, ?_⟩
                  · rintro id hid _ ⟨order, hfirst, rfl⟩ id' hid' hne _ ⟨order', hfirst', rfl⟩
                    exact (hpoll id hid order hfirst).2 id' hid' hne order' hfirst'
                  · rintro _ ⟨id, hid, order, hfirst, rfl⟩
                    exact (hpoll id hid order hfirst).1
                · rintro ⟨hdiff, hnew⟩ _ ⟨⟩ - id hid order hfirst
                  refine ⟨hnew _ ⟨id, hid, order, hfirst, rfl⟩, fun id' hid' hne order' hfirst' => ?_⟩
                  exact hdiff id hid _ ⟨order, hfirst, rfl⟩ id' hid' hne _ ⟨order', hfirst', rfl⟩
              · rw [if_neg hkey]
                simp [hkey]

/-- **One server order resolves one intent** in exactly the runs in which no order is the first match of
    two intents. -/
theorem resolvedTo_nodup_iff (cfg : ReconcilerConfig) (ops : List Op) :
    (run { r := { cfg := cfg } } ops).resolvedTo.Nodup
      ↔ Along step OneIntentEach { r := { cfg := cfg } } ops := by
  have hrun : ∀ (ops : List Op) (s : ReconcilerCalls), Inv s →
      ((run s ops).resolvedTo.Nodup ↔ s.resolvedTo.Nodup ∧ Along step OneIntentEach s ops) := by
    intro ops
    induction ops with
    | nil => exact fun s _ => (and_iff_left trivial).symm
    | cons op ops ih =>
        intro s h
        have hone : (s.step op).resolvedTo.Nodup ↔ s.resolvedTo.Nodup ∧ s.OneIntentEach op := by
          rw [resolvedTo_step h, List.nodup_append', oneIntentEach_iff h]
          exact ⟨fun ⟨hnew, hold, hdisj⟩ => ⟨hold, hnew, fun _ hin hin' => hdisj hin hin'⟩,
            fun ⟨hold, hnew, hdisj⟩ => ⟨hnew, hold, fun _ hin hin' => hdisj _ hin hin'⟩⟩
        have hrest := ih _ (h.step op)
        rw [hone, and_assoc] at hrest
        exact hrest
  exact (hrun ops _ (inv_init cfg)).trans (and_iff_right List.nodup_nil)

/-- Buy 1 BTC_USDT at 100. -/
def btcIntent (localId : OrderId) : OrderIntent where
  localOrderId := localId
  ticker := "BTCUSDT"
  side := .buy
  type := .limit
  price := 100
  size := 1

/-- The order of one of two such intents; the other one has not arrived. -/
def btcOrder : RestOrder where
  id := 500
  ticker := "BTCUSDT"
  side := .buy
  type := .limit
  price := 100
  size := 1

/-- One poll resolves both intents to it. -/
theorem resolved_to_one_order :
    ¬ ∀ (cfg : ReconcilerConfig) (ops : List Op),
        (run { r := { cfg := cfg } } ops).resolvedTo.Nodup := by
  intro hall
  have hnodup := hall {} [.setFetchOpenOrders, .enterSubmitUnknown (btcIntent 1) 0,
    .enterSubmitUnknown (btcIntent 2) 0, .pollBegin "BTCUSDT" 0, .pollEnd 0 (.orders [btcOrder])]
  revert hnodup
  decide +kernel

end ReconcilerCalls

end TradeBot
