import TradeBot.Lib.Histories
import TradeBot.Executor.Outcomes
import TradeBot.Executor.LiveStops

set_option autoImplicit false

/-! # At most one live stop per trade

The executor replaces a stop by cancelling the one whose id it knows. A stop whose placement was
answered without an id, or the break-even stop, whose answer is not read, rests on the exchange
unknown to the trade until an order update reveals its id, and every placement before that adds a
second stop; `second_stop` is such a run. As long as a trade knows its live stop whenever it places
one, and the break-even branch can cancel it, there is never more than one.

`StopsKnown` says that what is live on the exchange is what the trade knows of. Placing a stop for
such a trade replaces the old one (`AtMostOneStop.attempt`), and dropping it leaves none unless the
cancel is refused (`liveStops_dropped`). An update can only teach the trade the id of a stop, and a
fill takes it off the exchange. -/

namespace TradeBot

open LiveExecutor Histories

/-! ## The invariant -/

/-- At every moment at most one stop of the trade is live. -/
def AtMostOneStop (uid : ℕ) (evs : List Event) : Prop :=
  Throughout (fun pre => (liveStops uid pre).length ≤ 1) evs

/-- Every live stop of the trade is the one the trade knows of. -/
def StopsKnown (t : ActiveTrade) (evs : List Event) : Prop :=
  ∀ o ∈ liveStops t.uid evs, o.exchangeId = t.stopOrderId

/-- Whenever the step places a stop for a trade, the trade knows its live stop; and when it is the
    break-even stop, the gateway does not refuse to cancel the old one. -/
def StopsKnownBefore (ex : LiveExecutor) : Op → Prop
  | .tick _ now =>
      ∀ t ∈ ex.allTrades, closeAction? ex.toMembers now t = none → rearmDue now t = true →
        StopsKnown t ex.trace
  | .onOrderUpdate env upd =>
      ∀ t om, ex.route upd = some (t, om) → 0 < upd.filledSize →
        (om.isEntry = true → StopsKnown t ex.trace) ∧
        (upd.isFill → om.isTp1 = true → t.tp1Filled = false →
          kSizeEps < t.remaining upd.filledSize → 0 < t.avgPriceFix →
            StopsKnown t ex.trace ∧
              (liveStops t.uid ex.trace ≠ [] →
                ∀ n, env.cancelOrder n t.stopOrderId upd.ticker = .ok ()))
  | _ => True

section Invariant

variable {uid : ℕ} {t t' : ActiveTrade} {evs evs' pre post : List Event}

theorem AtMostOneStop.stopless (h : AtMostOneStop uid evs) (hs : Stopless uid evs') :
    AtMostOneStop uid (evs ++ evs') := by
  refine throughout_append.2 ⟨h, fun pre hpre => ?_⟩
  exact (liveStops_append_sublist (fun e he => hs e (hpre.subset he)) evs).length_le.trans h.last

/-- A stop placed when none is live is the only one. -/
theorem AtMostOneStop.stop (h : AtMostOneStop uid evs) (hpre : Stopless uid pre)
    (hnone : liveStops uid (evs ++ pre) = []) (hpost : Stopless uid post) (e : Event) :
    AtMostOneStop uid (evs ++ (pre ++ e :: post)) := by
  have hstep : (liveStops uid (evs ++ pre ++ [e])).length ≤ 1 := by
    by_cases hstop : e.PlacesStop uid
    · obtain ⟨req, r, rfl, _⟩ := hstop
      unfold liveStops at hnone ⊢
      rw [liveOrders_append]
      simp only [List.foldl_cons, List.foldl_nil, stepLive, List.filter_append, hnone,
        List.nil_append]
      exact List.length_filter_le ..
    · have hs : Stopless uid [e] := fun x hx => (List.mem_singleton.1 hx) ▸ hstop
      have hsub := liveStops_append_sublist hs (evs ++ pre)
      rw [hnone, List.sublist_nil] at hsub
      rw [hsub]
      simp
  have hone : AtMostOneStop uid (evs ++ pre ++ [e]) := by
    refine throughout_append.2 ⟨h.stopless hpre, fun p hp => ?_⟩
    rcases List.prefix_concat_iff.1 (show p <+: [] ++ [e] from hp) with rfl | hnil
    · exact hstep
    · rw [List.prefix_nil.1 hnil, List.append_nil]
      exact (h.stopless hpre).last
  have hall := hone.stopless hpost
  simpa [List.append_assoc] using hall

/-- A trade that knows its live stops and knows of no order has none. -/
theorem StopsKnown.eq_nil (h : StopsKnown t evs) (hid : t.stopOrderId = 0) :
    liveStops t.uid evs = [] := by
  refine List.eq_nil_iff_forall_not_mem.2 (fun o ho => ?_)
  exact liveOrders_exchangeId_ne_zero (List.mem_of_mem_filter ho) ((h o ho).trans hid)

/-- `place_stops_` on a trade that knows its live stop. -/
theorem AtMostOneStop.attempt (h : AtMostOneStop t.uid evs) (hknown : StopsKnown t evs)
    (hatt : StopAttempt t evs') : AtMostOneStop t.uid (evs ++ evs') := by
  cases hatt with
  | gaveUp hq => exact h.stopless hq.stopless
  | placed hst hsz hpre hpost hcancel =>
      refine h.stop hpre.stopless ?_ hpost.stopless _
      by_cases hid : t.stopOrderId = 0
      · have hs : Stopless t.uid _ := hpre.stopless
        have hsub := liveStops_append_sublist hs evs
        rwa [hknown.eq_nil hid, List.sublist_nil] at hsub
      · exact liveStops_cancelled hknown hpre.stopless (hcancel hid)

theorem StopsKnown.silent (h : StopsKnown t evs) (hno : NoneOf t.uid evs') :
    StopsKnown t (evs ++ evs') :=
  fun o ho => h o ((liveStops_append_sublist hno.stopless evs).subset ho)

/-- Dropping the stop that a trade knows of leaves it none, unless the cancel is refused. -/
theorem liveStops_dropped {env : Env} {ticker : Ticker} (m : Members) (hknown : StopsKnown t evs)
    (hcancel : liveStops t.uid evs ≠ [] → ∀ n, env.cancelOrder n t.stopOrderId ticker = .ok ()) :
    liveStops t.uid (evs ++ dropEvents env t.uid ticker t.stopOrderId m) = [] := by
  have hquiet : Stopless t.uid (dropEvents env t.uid ticker t.stopOrderId m) :=
    (quiet_dropEvents _ _ _ _ _).stopless
  by_cases hlive : liveStops t.uid evs = []
  · have hsub := liveStops_append_sublist hquiet evs
    rwa [hlive, List.sublist_nil] at hsub
  · have hne : t.stopOrderId ≠ 0 := fun h0 => hlive (hknown.eq_nil h0)
    have hcancelled : .cancelled t.uid t.stopOrderId ticker (.ok ())
        ∈ dropEvents env t.uid ticker t.stopOrderId m := by
      simp [dropEvents, hne, hcancel hlive]
    exact liveStops_cancelled hknown hquiet hcancelled

theorem stopless_close {r : Except String PlaceOrderResult} {ct : ClosedTrade} (hpre : Quiet pre) :
    Stopless uid (pre ++ [.placed t.uid t.marketClose r, .recorded t.uid ct]) := by
  have hplaced : Stopless uid [.placed t.uid t.marketClose r] :=
    stopless_placed (by simp [ActiveTrade.marketClose])
  exact hpre.stopless.append (hplaced.append stopless_recorded)

theorem atMostOneStop_turn {ex : LiveExecutor} {op : Op} {m₁ m₂ : Members}
    (hmem : t ∈ ex.allTrades) (hC : StopsKnownBefore ex op) (hsil : Silent t.uid ex.toMembers m₁)
    (h : AtMostOneStop t.uid m₁.trace) (hturn : TradeTurn ex op (t, m₁) (t', m₂)) :
    AtMostOneStop t.uid m₂.trace := by
  obtain ⟨evs, heff, hout⟩ := hturn.outcome
  obtain ⟨evs₁, htr, hno⟩ := hsil
  have known : StopsKnown t ex.trace → StopsKnown t m₁.trace := fun hk => htr ▸ hk.silent hno
  have hnil : Stopless t.uid [] := by simp [Stopless]
  rw [heff.trace]
  cases hout with
  -- outcomes that place no stop
  | rest => exact h.stopless hnil
  | position => exact h.stopless hnil
  | cancel => exact h.stopless hnil
  | ack => exact h.stopless hnil
  | dead => exact h.stopless hnil
  -- a stop is placed for a trade that knows of every live one, so it replaces that
  | @partly env upd om evs stopId tp1Id openedAt hroute hsel hentry hst hsize hevs =>
      rcases hevs with ⟨_, rfl⟩ | ⟨_, hatt⟩
      · exact h.stopless hnil
      · have hid := captureIds_stopOrderId (Or.inl ((selectTrade_eq_some hsel).2.2.1 ▸ hentry))
        refine AtMostOneStop.attempt (t := { captureIds upd t with
          state := .opened, openedAt := upd.time }) h (fun o ho => ?_) hatt
        exact (known ((hC t om hroute hsize).1 hentry) o ho).trans hid.symm
  | slipped =>
      exact h.stopless (stopless_placed (by simp [ActiveTrade.marketClose]))
  | slipRefused => exact h.stopless (stopless_refused.append stopless_alerted)
  | @entry env upd om evs stopId tp1Id hroute hsel hentry hfill hevs =>
      have hid := captureIds_stopOrderId (Or.inl ((selectTrade_eq_some hsel).2.2.1 ▸ hentry))
      refine AtMostOneStop.attempt (t := (captureIds upd t).entryFilled upd) h (fun o ho => ?_) hevs
      exact (known ((hC t om hroute hfill.2).1 hentry) o ho).trans hid.symm
  | tp1Bare => exact h.stopless (quiet_dropEvents _ _ _ _ _).stopless
  -- the old stop was dropped before, and the cancel was not refused
  | @tp1BreakEven env upd om r hroute hsel hentry hfill htp1 hfirst hrem hfix =>
      have hid := captureIds_stopOrderId (Or.inr ((selectTrade_eq_some hsel).2.2.1 ▸ htp1))
      obtain ⟨hknown, hcancel⟩ := (hC t om hroute hfill.2).2 hfill htp1 hfirst hrem hfix
      rw [hid]
      refine h.stop (quiet_dropEvents _ _ _ _ _).stopless ?_ hnil _
      refine liveStops_dropped m₁ (known hknown) (fun hlive => hcancel (fun hnone => hlive ?_))
      have hsub := liveStops_append_sublist hno.stopless ex.trace
      rwa [hnone, List.sublist_nil, ← htr] at hsub
  -- market closes are no stops
  | @tp1Failed env upd om e msg n n' e' pre ct hroute hsel hentry hfill htp1 hfirst hrem hfix
      hrefused hpre =>
      exact h.stopless ((quiet_dropEvents _ _ _ _ _).stopless.append
        (stopless_refused.append (stopless_alerted.append (stopless_close hpre))))
  | exit => exact h.stopless stopless_recorded
  | emergency _ _ _ hpre => exact h.stopless (stopless_close hpre)
  | rearm hspared hdue hevs =>
      exact h.attempt (known (hC t hmem hspared hdue)) hevs
  | resolved => exact h.stopless hnil
  | timeout =>
      exact h.stopless (stopless_alerted.append stopless_recorded)
  | close _ _ _ hpre => exact h.stopless (stopless_close hpre)

theorem atMostOneStop_life :
    LifeInvariant StopsKnownBefore (fun t evs => AtMostOneStop t.uid evs) AtMostOneStop where
  silent := fun hno h => h.stopless hno.stopless
  gone := fun h => h
  gone_silent := fun hno h => h.stopless hno.stopless
  turn := fun _ hmem hC hsil h hturn => hturn.keeps.uid ▸ atMostOneStop_turn hmem hC hsil h hturn
  unborn := fun {u evs} hno => by
    have h0 : AtMostOneStop u [] := fun pre hpre => by
      simp [List.prefix_nil.1 hpre, liveStops, liveOrders]
    exact h0.stopless hno.stopless
  submitted := fun {ex ns plan state evs evs'} _ hno hevs => by
    have h0 : AtMostOneStop ex.nextUid [] := fun pre hpre => by
      simp [List.prefix_nil.1 hpre, liveStops, liveOrders]
    refine h0.stopless (hno.stopless.append ?_)
    rintro e he ⟨req, r, rfl, _, hred⟩
    rcases hevs _ he with ⟨_, _, heq, hred'⟩ | ⟨_, heq⟩
    · cases heq
      simp [hred] at hred'
    · cases heq
  injected := fun {ex ts t u evs} _ _ hno => by
    have h0 : AtMostOneStop u [] := fun pre hpre => by
      simp [List.prefix_nil.1 hpre, liveStops, liveOrders]
    exact h0.stopless hno.stopless

end Invariant

/-! ## The results -/

/-- In every run in which trades know their live stop whenever one is placed, at most one stop of a
    trade is live at every moment. -/
theorem liveStops_at_most_one (cfg : ExecutorConfig) (ops : List Op)
    (hops : (init cfg).Along StopsKnownBefore ops) (uid : ℕ) :
    AtMostOneStop uid ((init cfg).run ops).trace :=
  (atMostOneStop_life.run cfg hops).2 uid

/-- An entry fill, and a tick ten seconds later. -/
def protectedRun (env : Env) : List Op :=
  [.submit env 0 0 samplePlan, .onOrderUpdate env (sampleFill 1), .tick env (10 * nsPerSec)]

theorem liveStops_at_most_one_protected :
    AtMostOneStop 0 ((init {}).run (protectedRun .accepting)).trace := by
  have known : ∀ {t : ActiveTrade} {evs : List Event}, liveStops t.uid evs = [] →
      StopsKnown t evs := fun hnil o ho => by simp [hnil] at ho
  refine liveStops_at_most_one {} (protectedRun .accepting) ⟨trivial, ?_, ?_, trivial⟩ 0
  · -- before the fill no stop was placed at all
    have hentry : ∀ o ∈ liveOrders ((init {}).run [.submit .accepting 0 0 samplePlan]).trace,
        o.req.type ≠ .stopLoss := by decide +kernel
    have hnil : ∀ uid, liveStops uid ((init {}).run [.submit .accepting 0 0 samplePlan]).trace
        = [] := fun uid => List.filter_eq_nil_iff.2 (fun o ho => by
      simp [LiveOrder.isStopOf, hentry o ho])
    exact fun t om _ _ => ⟨fun _ => known (hnil _), fun _ _ _ _ _ =>
      ⟨known (hnil _), fun hne => absurd (hnil _) hne⟩⟩
  · -- after it the trade knows its stop, so that the tick re-arms nothing
    have hdue : ∀ t ∈ ((init {}).run [.submit .accepting 0 0 samplePlan,
        .onOrderUpdate .accepting (sampleFill 1)]).allTrades,
        rearmDue (10 * nsPerSec) t = true → liveStops t.uid ((init {}).run
          [.submit .accepting 0 0 samplePlan, .onOrderUpdate .accepting (sampleFill 1)]).trace
          = [] := by decide +kernel
    exact fun t ht _ h => known (hdue t ht h)

/-- The stop is placed under an id the answer does not tell, and `tick` places another one. -/
theorem second_stop :
    ¬ ∀ (cfg : ExecutorConfig) (ops : List Op) (uid : ℕ),
        AtMostOneStop uid ((init cfg).run ops).trace := by
  intro hall
  exact absurd (hall {} (protectedRun .anonymous) 0).last (by decide +kernel)

end TradeBot
