import TradeBot.Lib.Runs
import TradeBot.Executor.LiveExecutor
import TradeBot.Executor.UpdateEffects

set_option autoImplicit false

/-! # The life of one trade

An abstract view of the executor that follows a single trade. `TradeTurn` lists what an operation
can do to a trade; `step_sim` says that an operation of the executor makes each of its trades take
exactly one such turn, between events that are not about that trade, that new trades enter only by
`submit` and `inject_recovered_trades`, and that trades leave only when they are closed.

`TurnInvariant.follow` and `LifeInvariant.run` turn a fact about turns into a fact about one trade, and
about all trades, of every run. -/

namespace TradeBot

open KeyedPass LiveExecutor

/-! ## Turns -/

/-- What the operation `op`, begun in state `ex`, does to a trade. -/
inductive TradeTurn (ex : LiveExecutor) : Op → ActiveTrade × Members → ActiveTrade × Members → Prop
  | rest {op : Op} {t : ActiveTrade} {m : Members} : TradeTurn ex op (t, m) (t, m)
  | position {upd : PositionUpdate} {t : ActiveTrade} {m : Members}
      (hticker : t.plan.ticker = upd.ticker) :
      TradeTurn ex (.onPositionUpdate upd) (t, m) ((applyPositionUpdate upd m t).2, m)
  | cancel {env : Env} {ticker : Ticker} {t : ActiveTrade} {m : Members}
      (hticker : t.plan.ticker = ticker)
      (hok : env.cancelAllOrders ex.trace.length ticker = .ok ()) :
      TradeTurn ex (.cancelAll env ticker) (t, m) ((cancelTrade m t).2, (cancelTrade m t).1)
  | update {env : Env} {upd : OrderUpdate} {om : OrderMatch} {t : ActiveTrade} {m : Members}
      (hroute : ex.route upd = some (t, om)) (hsel : selectTrade upd t = some om)
      (hrep : .reported upd ∈ m.trace) :
      TradeTurn ex (.onOrderUpdate env upd) (t, m)
        ((applyOrderUpdate env upd m t om).2, (applyOrderUpdate env upd m t om).1)
  | emergency {env : Env} {now : TimePoint} {act : CloseAction} {t : ActiveTrade} {m : Members}
      (hact : closeAction? ex.toMembers now t = some act) :
      TradeTurn ex (.tick env now) (t, m) (t.markClosing, execCloseAction env m act)
  | rearm {env : Env} {now : TimePoint} {t : ActiveTrade} {m : Members}
      (hact : closeAction? ex.toMembers now t = none) (hdue : rearmDue now t = true) :
      TradeTurn ex (.tick env now) (t, m) ((placeStops env m t).2, (placeStops env m t).1)
  | reconciled {env : Env} {now : TimePoint} {res : ReconcileResult} {t : ActiveTrade} {m : Members}
      (hst : t.state = .submitUnknown) (hout : res.outcome ≠ .pending) :
      TradeTurn ex (.tick env now) (t, m)
        ((applyReconciled res m t ()).2, (applyReconciled res m t ()).1)
  | close {env : Env} {ticker : Ticker} {reason : String} {t : ActiveTrade} {m : Members}
      (hticker : t.plan.ticker = ticker) (hst : t.state = .opened) (hsize : 0 < t.executedSize) :
      TradeTurn ex (.closeTrade env ticker reason) (t, m)
        ((closeAndRecord env reason m t).2, (closeAndRecord env reason m t).1)

/-- The trade after an action: the same identity and plan, and only events of its own. -/
structure Keeps (t : ActiveTrade) (m : Members) (r : Members × ActiveTrade) : Prop where
  uid : r.2.uid = t.uid
  plan : r.2.plan = t.plan
  effect : ∃ evs, Effect t.uid evs m r.1

theorem afterClose_uid (t : ActiveTrade) (res : Except String PlaceOrderResult) :
    (t.afterClose res).uid = t.uid := by cases res <;> rfl

theorem afterClose_plan (t : ActiveTrade) (res : Except String PlaceOrderResult) :
    (t.afterClose res).plan = t.plan := by cases res <;> rfl

theorem placeStops_keeps (env : Env) (m : Members) (t : ActiveTrade) :
    Keeps t m (placeStops env m t) := by
  obtain ⟨evs, i, j, heff, _, ht⟩ := placeStops_effect env m t
  exact ⟨by rw [ht]; rfl, by rw [ht]; rfl, evs, heff⟩

theorem closeAndRecord_keeps (env : Env) (reason : String) (m : Members) (t : ActiveTrade) :
    Keeps t m (closeAndRecord env reason m t) := by
  obtain ⟨pre, res, heff, _, _, ht⟩ := closeAndRecord_effect env reason m t
  exact ⟨by rw [ht, afterClose_uid], by rw [ht, afterClose_plan], _, heff⟩

theorem onEntryFilled_keeps (env : Env) (upd : OrderUpdate) (m : Members) (t : ActiveTrade) :
    Keeps t m (onEntryFilled env upd m t) := by
  obtain ⟨evs, heff, ⟨r, _, ht⟩ | ⟨e, msg, _, ht⟩ | ⟨_, i, j, ht⟩⟩ := onEntryFilled_effect env upd m t
  all_goals exact ⟨by rw [ht]; rfl, by rw [ht]; rfl, evs, heff⟩

theorem onTp1Filled_keeps (env : Env) (upd : OrderUpdate) (m : Members) (t : ActiveTrade) :
    Keeps t m (onTp1Filled env upd m t) := by
  obtain ⟨evs, heff, ⟨_, ht⟩ | ⟨_, _, r, _, ht⟩ | ⟨_, _, _, e, msg, pre, res, _, _, _, ht⟩⟩ :=
    onTp1Filled_effect env upd m t
  · exact ⟨by rw [ht]; rfl, by rw [ht]; rfl, _, heff⟩
  · exact ⟨by rw [ht]; rfl, by rw [ht]; rfl, _, heff⟩
  · exact ⟨by rw [ht, afterClose_uid]; rfl, by rw [ht, afterClose_plan]; rfl, _, heff⟩

theorem Keeps.after {t : ActiveTrade} {m m' : Members} {r : Members × ActiveTrade}
    {evs : List Event} (hm : Effect t.uid evs m m') (h : Keeps t m' r) : Keeps t m r where
  uid := h.uid
  plan := h.plan
  effect := h.effect.imp' (evs ++ ·) (fun _ heff => hm.trans heff)

theorem applyOrderUpdate_keeps (env : Env) (upd : OrderUpdate) (m : Members) (t : ActiveTrade)
    {om : OrderMatch} (hany : om.any = true) : Keeps t m (applyOrderUpdate env upd m t om) := by
  have key : Keeps (captureIds upd t) m (handleOrderUpdate env upd om m (captureIds upd t)) := by
    refine handleOrderUpdate_elim env upd om m (captureIds upd t) ?_ ?_ ?_ ?_ ?_ ?_ hany
    · exact fun m' heff _ => ⟨rfl, rfl, [], heff⟩
    · exact fun m' heff _ _ _ _ _ => ⟨rfl, rfl, [], heff⟩
    · intro _ _ _
      obtain ⟨evs, i, j, at', heff, _, ht⟩ := onEntryPartial_effect env upd m (captureIds upd t)
      exact ⟨by rw [ht]; rfl, by rw [ht]; rfl, evs, heff⟩
    · exact fun m' heff _ _ => (onEntryFilled_keeps env upd m' _).after heff
    · exact fun _ _ _ _ => onTp1Filled_keeps env upd m _
    · exact fun _ _ _ => ⟨rfl, rfl, _, onExitFilled_effect upd om m _⟩
  exact ⟨key.uid, key.plan, key.effect⟩

theorem applyReconciled_keeps (res : ReconcileResult) (m : Members) (t : ActiveTrade) :
    Keeps t m (applyReconciled res m t ()) := by
  unfold applyReconciled
  split
  · exact ⟨rfl, rfl, [], .refl ..⟩
  · exact ⟨rfl, rfl, [], .refl ..⟩
  · exact ⟨rfl, rfl, _, (effect_alert ..).trans
      ((effect_releaseReservation ..).trans (effect_pushClosed ..))⟩

theorem execCloseAction_keeps {env : Env} {m m₀ : Members} {now : TimePoint} {t : ActiveTrade}
    {act : CloseAction} (hact : closeAction? m₀ now t = some act) :
    Keeps t m (execCloseAction env m act, t.markClosing) := by
  obtain ⟨rfl, _, _⟩ := closeAction?_eq_some hact
  obtain ⟨pre, res, heff, _, _⟩ := execCloseAction_effect env m act
  exact ⟨rfl, rfl, _, heff⟩

theorem cancelTrade_keeps (m : Members) (t : ActiveTrade) : Keeps t m (cancelTrade m t) := by
  unfold cancelTrade
  split
  · exact ⟨rfl, rfl, [], .refl ..⟩
  · refine ⟨rfl, rfl, [], ?_⟩
    dsimp only
    split
    · exact effect_releaseReservation ..
    · exact .refl ..

theorem applyPositionUpdate_keeps (upd : PositionUpdate) (m : Members) (t : ActiveTrade) :
    Keeps t m (applyPositionUpdate upd m t) := by
  unfold applyPositionUpdate
  refine ⟨?_, ?_, [], .refl ..⟩ <;> (dsimp only; split <;> rfl)

theorem TradeTurn.keeps {ex : LiveExecutor} {m m' : Members} {op : Op} {t t' : ActiveTrade}
    (h : TradeTurn ex op (t, m) (t', m')) : Keeps t m (m', t') := by
  cases h with
  | rest => exact ⟨rfl, rfl, [], .refl ..⟩
  | position hticker => exact applyPositionUpdate_keeps ..
  | cancel hticker hok => exact cancelTrade_keeps m t
  | update hroute hsel hrep =>
      exact applyOrderUpdate_keeps _ _ m t (selectTrade_eq_some hsel).2.2.2
  | emergency hact => exact execCloseAction_keeps hact
  | rearm hact hdue => exact placeStops_keeps _ m t
  | reconciled hst hout => exact applyReconciled_keeps _ m t
  | close hticker hst hsize => exact closeAndRecord_keeps _ _ m t

/-! ## Passes over the trades -/

/-- Trades are told apart by their `uid`, and see each other's events as foreign. -/
def tradeFrame : Frame ActiveTrade Members ℕ where
  key := ActiveTrade.uid
  foreign := Foreign
  foreign_refl := Foreign.refl
  foreign_trans := Foreign.trans

theorem sound_of_keeps {turn : ActiveTrade × Members → ActiveTrade × Members → Prop}
    (h : ∀ {t t' m m'}, turn (t, m) (t', m') → Keeps t m (m', t')) : tradeFrame.Sound turn where
  key := fun hturn => (h hturn).uid
  foreign := fun hturn _ hu => by
    obtain ⟨evs, heff⟩ := (h hturn).effect
    exact heff.foreign hu

theorem sound_tradeTurn (ex : LiveExecutor) (op : Op) : tradeFrame.Sound (TradeTurn ex op) :=
  sound_of_keeps TradeTurn.keeps

end TradeBot
