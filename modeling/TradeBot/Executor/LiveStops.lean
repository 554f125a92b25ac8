import TradeBot.Executor.Effects
import TradeBot.Lib.Runs

set_option autoImplicit false

/-! # Live stops along the trace

Which events add a stop of a trade to the exchange, and which only take stops away.

The live stops are read off the trace, event by event. So an action is judged by the events that it
appends: as long as none of them places a stop the live stops can only get fewer, and an accepted
cancel of the only one leaves none.

What the exchange does on its own, like filling a stop, is an event of the trace too. -/

namespace TradeBot

/-- The gateway accepts a reduce-only stop-loss of the trade. -/
def Event.PlacesStop (uid : ℕ) (e : Event) : Prop :=
  ∃ req r, e = .placed uid req (.ok r) ∧ req.type = .stopLoss ∧ req.reduceOnly = true

/-- None of the events places a stop of the trade. -/
def Stopless (uid : ℕ) (evs : List Event) : Prop := ∀ e ∈ evs, ¬ e.PlacesStop uid

section Live

variable {uid : ℕ} {evs evs' : List Event} {live : List LiveOrder}

theorem Stopless.append (h : Stopless uid evs) (h' : Stopless uid evs') :
    Stopless uid (evs ++ evs') := fun e he => (List.mem_append.1 he).elim (h e) (h' e)

theorem NoneOf.stopless (h : NoneOf uid evs) : Stopless uid evs := by
  rintro e he ⟨req, res, rfl, _⟩
  exact h _ he rfl

theorem Quiet.stopless (h : Quiet evs) : Stopless uid evs := by
  rintro e he ⟨req, res, rfl, htype, _⟩
  have hquiet := h _ he
  simp [Event.isQuiet, htype] at hquiet

theorem stopless_placed {v : ℕ} {req : PlaceOrderRequest} {res : Except String PlaceOrderResult}
    (htype : req.type ≠ .stopLoss) : Stopless uid [.placed v req res] := by
  rintro e he ⟨req', res', rfl, htype', _⟩
  cases List.mem_singleton.1 he
  exact htype htype'

theorem stopless_refused {v : ℕ} {req : PlaceOrderRequest} {e : String} :
    Stopless uid [.placed v req (.error e)] := by
  rintro e he ⟨req', r, rfl, _⟩
  cases List.mem_singleton.1 he

theorem stopless_alerted {v : ℕ} {msg : String} : Stopless uid [.alerted v msg] := by
  rintro e he ⟨req', r, rfl, _⟩
  cases List.mem_singleton.1 he

theorem stopless_recorded {v : ℕ} {ct : ClosedTrade} : Stopless uid [.recorded v ct] := by
  rintro e he ⟨req, res, rfl, _⟩
  cases List.mem_singleton.1 he

theorem liveOrders_append : liveOrders (evs ++ evs') = evs'.foldl stepLive (liveOrders evs) :=
  List.foldl_append ..

/-- An event that places no stop of the trade at most removes some. -/
theorem stepLive_stops {e : Event} (h : ¬ e.PlacesStop uid) :
    ((stepLive live e).filter (LiveOrder.isStopOf uid)).Sublist
      (live.filter (LiveOrder.isStopOf uid)) := by
  cases e with
  | placed v req res =>
      cases res with
      | error _ => exact .refl _
      | ok r =>
          have hnot : ¬ LiveOrder.isStopOf uid ⟨v, r.exchangeId, req⟩ = true := by
            intro hstop
            simp only [LiveOrder.isStopOf, Bool.and_eq_true, decide_eq_true_eq] at hstop
            exact h ⟨req, r, by rw [hstop.1.1], hstop.1.2, hstop.2⟩
          simp [stepLive, hnot]
  | cancelled v id ticker res =>
      cases res with
      | error _ => exact .refl _
      | ok _ => exact List.filter_sublist.filter _
  | cancelledAll ticker res =>
      cases res with
      | error _ => exact .refl _
      | ok _ => exact List.filter_sublist.filter _
  | reported upd =>
      simp only [stepLive]
      split
      · exact List.filter_sublist.filter _
      · exact .refl _
  | _ => exact .refl _

theorem liveStops_append_sublist (h : Stopless uid evs') (evs : List Event) :
    (liveStops uid (evs ++ evs')).Sublist (liveStops uid evs) := by
  unfold liveStops
  rw [liveOrders_append]
  induction evs' generalizing evs with
  | nil => exact .refl _
  | cons e evs' ih =>
      have htail := ih (fun x hx => h x (List.mem_cons_of_mem _ hx)) (evs ++ [e])
      rw [liveOrders_append] at htail
      exact htail.trans (stepLive_stops (h e (List.mem_cons_self ..)))

/-- An accepted cancel of the only id among the live stops leaves none. -/
theorem liveStops_cancelled {v : ℕ} {id : OrderId} {ticker : Ticker}
    (hknown : ∀ o ∈ liveStops uid evs, o.exchangeId = id) (h : Stopless uid evs')
    (hcancel : .cancelled v id ticker (.ok ()) ∈ evs') : liveStops uid (evs ++ evs') = [] := by
  obtain ⟨pre, post, rfl⟩ := List.append_of_mem hcancel
  have hpre : Stopless uid pre := fun e he => h e (List.mem_append_left _ he)
  have hpost : Stopless uid post := fun e he =>
    h e (List.mem_append_right _ (List.mem_cons_of_mem _ he))
  have hnone : liveStops uid (evs ++ pre ++ [.cancelled v id ticker (.ok ())]) = [] := by
    unfold liveStops
    rw [liveOrders_append]
    simp only [List.foldl_cons, List.foldl_nil, stepLive, List.filter_filter,
      List.filter_eq_nil_iff]
    intro o ho hstop
    simp only [Bool.and_eq_true, decide_eq_true_eq] at hstop
    have hlive : o ∈ liveStops uid (evs ++ pre) := List.mem_filter.2 ⟨ho, hstop.1⟩
    exact hstop.2 (hknown o ((liveStops_append_sublist hpre evs).subset hlive))
  have hsub := liveStops_append_sublist hpost (evs ++ pre ++ [.cancelled v id ticker (.ok ())])
  rw [hnone, List.sublist_nil] at hsub
  simpa [List.append_assoc] using hsub

theorem stepLive_exchangeId_ne_zero (e : Event) (hlive : ∀ o ∈ live, o.exchangeId ≠ 0) :
    ∀ o ∈ stepLive live e, o.exchangeId ≠ 0 := by
  intro o ho
  unfold stepLive at ho
  split at ho
  · rcases List.mem_append.1 ho with ho | ho
    · exact hlive o ho
    · rw [List.mem_singleton.1 ho]
      exact PlaceOrderResult.exchangeId_ne_zero _
  · exact hlive o (List.mem_of_mem_filter ho)
  · exact hlive o (List.mem_of_mem_filter ho)
  · split at ho
    · exact hlive o (List.mem_of_mem_filter ho)
    · exact hlive o ho
  · exact hlive o ho

theorem liveOrders_exchangeId_ne_zero {o : LiveOrder} (ho : o ∈ liveOrders evs) :
    o.exchangeId ≠ 0 :=
  Runs.invariant (fun live => ∀ o ∈ live, o.exchangeId ≠ 0)
    (fun _ e hlive => stepLive_exchangeId_ne_zero e hlive) evs (by simp) o ho

/-- Orders that are placed, and alerts, take nothing off the exchange. -/
theorem mem_liveOrders_append {o : LiveOrder} (ho : o ∈ liveOrders evs)
    (h : ∀ e ∈ evs', e.isTarget = true) : o ∈ liveOrders (evs ++ evs') := by
  rw [liveOrders_append]
  generalize liveOrders evs = live at ho
  induction evs' generalizing live with
  | nil => exact ho
  | cons e evs' ih =>
      refine ih (fun x hx => h x (List.mem_cons_of_mem _ hx)) (stepLive live e) ?_
      have htarget := h e (List.mem_cons_self ..)
      cases e with
      | placed v req res =>
          cases res with
          | ok r => exact List.mem_append_left _ ho
          | error _ => exact ho
      | alerted v msg => exact ho
      | _ => simp [Event.isTarget] at htarget

/-- An accepted stop stays live while nothing is taken off the exchange. -/
theorem mem_liveStops_placed {req : PlaceOrderRequest} {r : PlaceOrderResult}
    (htype : req.type = .stopLoss) (hred : req.reduceOnly = true)
    (h : ∀ e ∈ evs', e.isTarget = true) :
    { uid := uid, exchangeId := r.exchangeId, req := req }
      ∈ liveStops uid (evs ++ .placed uid req (.ok r) :: evs') := by
  refine List.mem_filter.2 ⟨?_, by simp [LiveOrder.isStopOf, htype, hred]⟩
  rw [List.append_cons]
  refine mem_liveOrders_append ?_ h
  simp [liveOrders_append, stepLive]

end Live

end TradeBot
