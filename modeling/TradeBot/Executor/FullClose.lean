import TradeBot.Lib.Histories
import TradeBot.Executor.Outcomes

set_option autoImplicit false

/-! # Full closes are recorded once, and when they were sent

`close_trade`, the failed break-even stop and phase 2 of `tick` record a close whether or not the
gateway accepted it, and a refused close leaves the trade in a state in which it is closed, and
recorded, again. `close_recorded_twice` is such a run. With every recorded market close accepted, and
`cancel_all` kept away from trades that `tick` is closing, each trade has at most one record of a
full close, made after the exchange had the close order or had reported the exit fill.

`OnceClosed` is the invariant: one full close at most, and if there is one the trade is in a state
from which no operation closes it again. `onceClosed_turn` goes through the outcomes of a turn. Most
of them record nothing; the market closes are accepted by the condition, and their states are the two
that remain. -/

namespace TradeBot

open LiveExecutor Histories

/-- The record of closing a position: neither a TP1 partial, nor the record of size zero that a
    submission leaves that was never found. -/
def ClosedTrade.isFullClose (ct : ClosedTrade) : Bool :=
  decide (0 < ct.sizeFilled) && decide (ct.reason ≠ "TP1")

/-- The full closes recorded for a trade. -/
def fullCloses (uid : ℕ) (evs : List Event) : List ClosedTrade :=
  (recordsOf uid evs).filter ClosedTrade.isFullClose

/-- The exchange has reported an exit fill of the recorded size, or has accepted a reduce-only market
    order of that size for the trade. -/
def CloseSent (uid : ℕ) (evs : List Event) (ct : ClosedTrade) : Prop :=
  (∃ upd, .reported upd ∈ evs ∧ upd.isFill ∧ upd.filledSize = ct.sizeFilled) ∨
    ∃ req r, .placed uid req (.ok r) ∈ evs ∧ req.type = .market ∧ req.reduceOnly = true ∧
      req.size = ct.sizeFilled

/-- A full close of the trade is recorded at most once, and after it was sent or reported. -/
structure ClosedOnce (uid : ℕ) (evs : List Event) : Prop where
  once : (fullCloses uid evs).length ≤ 1
  sent : AtEach (fun pre e => ∀ ct, e = .recorded uid ct → ct.isFullClose = true →
    CloseSent uid pre ct) evs

/-! ## Appending events -/

section Append

variable {uid : ℕ} {evs evs' : List Event} {ct : ClosedTrade}

theorem fullCloses_append :
    fullCloses uid (evs ++ evs') = fullCloses uid evs ++ fullCloses uid evs' := by
  simp [fullCloses]

/-- Events without a full close of the trade change nothing. -/
theorem ClosedOnce.append (h : ClosedOnce uid evs) (evs' : List Event)
    (hnone : ∀ ct, .recorded uid ct ∈ evs' → ct.isFullClose = false) :
    ClosedOnce uid (evs ++ evs') ∧ fullCloses uid (evs ++ evs') = fullCloses uid evs := by
  have hempty : fullCloses uid evs' = [] := by
    refine List.filter_eq_nil_iff.2 (fun ct hct => ?_)
    obtain ⟨e, he, heq⟩ := List.mem_filterMap.1 hct
    cases e with
    | recorded v ct' =>
        dsimp only at heq
        split at heq
        · next hv =>
            cases heq
            subst hv
            simpa using hnone ct he
        · simp at heq
    | _ => simp at heq
  refine ⟨⟨?_, ?_⟩, ?_⟩
  · rw [fullCloses_append, hempty, List.append_nil]
    exact h.once
  · refine atEach_append.2 ⟨h.sent, .of_mem (fun pre e he ct heq hfull => ?_)⟩
    rw [hnone ct (heq ▸ he)] at hfull
    exact absurd hfull (by simp)
  · rw [fullCloses_append, hempty, List.append_nil]

theorem ClosedOnce.recordless (h : ClosedOnce uid evs) (hr : Recordless evs') :
    ClosedOnce uid (evs ++ evs') ∧ fullCloses uid (evs ++ evs') = fullCloses uid evs :=
  h.append evs' (fun ct hct => absurd rfl (hr _ hct uid ct))

/-- The first full close of a trade, recorded after it was sent. -/
theorem ClosedOnce.close (h : ClosedOnce uid evs) (hempty : fullCloses uid evs = [])
    (hr : Recordless evs') (hsent : CloseSent uid (evs ++ evs') ct) :
    ClosedOnce uid (evs ++ (evs' ++ [.recorded uid ct])) := by
  obtain ⟨h', heq⟩ := h.recordless hr
  rw [← List.append_assoc]
  refine ⟨?_, atEach_append.2 ⟨h'.sent, atEach_singleton.2 ?_⟩⟩
  · rw [fullCloses_append, heq, hempty, List.nil_append, fullCloses]
    exact (List.length_filter_le ..).trans (by simp [recordsOf])
  · intro ct' heq _
    cases heq
    rwa [List.append_nil]

end Append

/-! ## The condition, and the invariant -/

/-- The update is the first TP1 fill of the trade, and the gateway refuses the break-even stop. -/
def BreakEvenRefused (ex : LiveExecutor) (env : Env) (upd : OrderUpdate) (t : ActiveTrade) : Prop :=
  (∃ om, ex.route upd = some (t, om) ∧ om.isEntry = false ∧ om.isTp1 = true) ∧ upd.isFill ∧
    t.tp1Filled = false ∧ kSizeEps < t.remaining upd.filledSize ∧ 0 < t.avgPriceFix ∧
    ∃ n e, env.placeOrder n (t.beRequest upd.filledSize) = .error e

/-- The market closes that the step records are accepted, and it does not cancel the orders of a
    trade that is already being closed. -/
def ClosesAccepted (ex : LiveExecutor) : Op → Prop
  | .tick env now =>
      (∃ t ∈ ex.allTrades, (closeAction? ex.toMembers now t).isSome = true) → env.AcceptsCloses
  | .closeTrade env ticker _ =>
      (∃ t ∈ ex.allTrades, t.plan.ticker = ticker ∧ t.state = .opened ∧ 0 < t.executedSize) →
        env.AcceptsCloses
  | .onOrderUpdate env upd =>
      (∃ t ∈ ex.allTrades, BreakEvenRefused ex env upd t) → env.AcceptsCloses
  | .cancelAll env ticker =>
      env.cancelAllOrders ex.trace.length ticker = .ok () →
        ∀ t ∈ ex.allTrades, t.plan.ticker = ticker → t.state = .emergencyClosing →
          fullCloses t.uid ex.trace = []
  | _ => True

/-- A trade with a recorded full close is closed or emergency closing. -/
def OnceClosed (t : ActiveTrade) (evs : List Event) : Prop :=
  ClosedOnce t.uid evs ∧
    (fullCloses t.uid evs ≠ [] → t.state = .closed ∨ t.state = .emergencyClosing)

section Invariant

variable {t t' : ActiveTrade} {evs evs' : List Event}

theorem fullCloses_noneOf {u : ℕ} (h : NoneOf u evs) : fullCloses u evs = [] := by
  rw [fullCloses, recordsOf_noneOf h, List.filter_nil]

theorem OnceClosed.recordless (h : OnceClosed t evs) (huid : t'.uid = t.uid)
    (hr : Recordless evs')
    (hst : t.state = .closed ∨ t.state = .emergencyClosing → fullCloses t.uid evs ≠ [] →
      t'.state = .closed ∨ t'.state = .emergencyClosing) : OnceClosed t' (evs ++ evs') := by
  obtain ⟨hone, heq⟩ := h.1.recordless hr
  refine ⟨huid ▸ hone, fun hne => ?_⟩
  rw [huid, heq] at hne
  exact hst (h.2 hne) hne

/-- Nothing is recorded of a trade that is neither closed nor emergency closing. -/
theorem OnceClosed.empty (h : OnceClosed t evs) (hst : t.state ≠ .closed)
    (hst' : t.state ≠ .emergencyClosing) : fullCloses t.uid evs = [] := by
  by_contra hne
  exact (h.2 hne).elim hst hst'

theorem OnceClosed.close {ct : ClosedTrade} (h : OnceClosed t evs) (huid : t'.uid = t.uid)
    (hst : t.state ≠ .closed) (hst' : t.state ≠ .emergencyClosing) (hr : Recordless evs')
    (hsent : CloseSent t.uid (evs ++ evs') ct)
    (hafter : t'.state = .closed ∨ t'.state = .emergencyClosing) :
    OnceClosed t' (evs ++ (evs' ++ [.recorded t.uid ct])) :=
  ⟨huid ▸ h.1.close (h.empty hst hst') hr hsent, fun _ => hafter⟩

/-- An accepted market close of what the trade executed is a close that was sent. -/
theorem closeSent_marketClose {r : PlaceOrderResult} {ct : ClosedTrade}
    (hsize : ct.sizeFilled = t.executedSize)
    (hmem : .placed t.uid t.marketClose (.ok r) ∈ evs) : CloseSent t.uid evs ct :=
  Or.inr ⟨_, r, hmem, rfl, rfl, hsize.symm⟩

/-- A full close that is recorded after its market close was accepted. -/
theorem OnceClosed.marketClose {pre : List Event} {r : PlaceOrderResult} {ct : ClosedTrade}
    (h : OnceClosed t evs) (huid : t'.uid = t.uid) (hst : t.state ≠ .closed)
    (hst' : t.state ≠ .emergencyClosing) (hpre : Recordless pre)
    (hsize : ct.sizeFilled = t.executedSize)
    (hafter : t'.state = .closed ∨ t'.state = .emergencyClosing) :
    OnceClosed t'
      (evs ++ (pre ++ [.placed t.uid t.marketClose (.ok r), .recorded t.uid ct])) := by
  have hlist : pre ++ [.placed t.uid t.marketClose (.ok r), .recorded t.uid ct]
      = (pre ++ [.placed t.uid t.marketClose (.ok r)]) ++ [.recorded t.uid ct] := by simp
  rw [hlist]
  exact h.close huid hst hst' (hpre.append (recordless_placed _ _ _))
    (closeSent_marketClose (r := r) hsize (by simp)) hafter

theorem Env.AcceptsCloses.marketClose {env : Env} (h : env.AcceptsCloses) (n : ℕ)
    (t : ActiveTrade) : ∃ r, env.placeOrder n t.marketClose = .ok r := h n _ rfl rfl

theorem onceClosed_turn {ex : LiveExecutor} {op : Op} {m₁ m₂ : Members}
    (hmem : t ∈ ex.allTrades) (hC : ClosesAccepted ex op) (hsil : Silent t.uid ex.toMembers m₁)
    (h : OnceClosed t m₁.trace) (hturn : TradeTurn ex op (t, m₁) (t', m₂)) :
    OnceClosed t' m₂.trace := by
  have huid : t'.uid = t.uid := hturn.keeps.uid
  obtain ⟨evs, heff, hout⟩ := hturn.outcome
  rw [heff.trace]
  cases hout with
  | rest => exact h.recordless rfl (by simp [Recordless]) (fun hst _ => hst)
  | position => exact h.recordless rfl (by simp [Recordless]) (fun hst _ => hst)
  | cancel hticker hok hst =>
      -- `Cancelling` would admit a second close
      refine h.recordless rfl (by simp [Recordless]) (fun hst' hne => ?_)
      obtain ⟨evs, htr, hno⟩ := hsil
      rw [htr, fullCloses_append, fullCloses_noneOf hno, List.append_nil] at hne
      exact absurd (hC hok t hmem hticker (hst'.resolve_left hst)) hne
  -- nothing is recorded by a report that ends nothing, nor by one that ends the entry
  | ack hroute hsel hfill => exact h.recordless rfl (by simp [Recordless]) (fun hst _ => hst)
  | dead hroute hsel hentry hst hsize =>
      exact h.recordless rfl (by simp [Recordless]) (fun _ _ => Or.inl rfl)
  | partly hroute hsel hentry hst hsize hevs =>
      -- a closed trade takes no update, so this one has no full close yet
      have hsel' := selectTrade_eq_some hsel
      refine h.recordless rfl ?_ (fun hst' _ => (hst'.elim hsel'.1 hsel'.2.1).elim)
      rcases hevs with ⟨_, rfl⟩ | ⟨_, hatt⟩
      · simp [Recordless]
      · exact hatt.recordless
  | slipped hroute hsel hentry hfill =>
      exact h.recordless rfl (recordless_placed _ _ _) (fun _ _ => Or.inr rfl)
  | slipRefused hroute hsel hentry hfill =>
      have hsel' := selectTrade_eq_some hsel
      exact h.recordless rfl (by simp [Recordless])
        (fun hst' _ => (hst'.elim hsel'.1 hsel'.2.1).elim)
  | entry hroute hsel hentry hfill hevs =>
      have hsel' := selectTrade_eq_some hsel
      exact h.recordless rfl hevs.recordless (fun hst' _ => (hst'.elim hsel'.1 hsel'.2.1).elim)
  -- the first fill of TP1 records nothing, unless a close follows a refused break-even stop
  | tp1Bare hroute hsel hentry hfill htp1 hfirst =>
      exact h.recordless rfl (quiet_dropEvents _ _ _ _ _).recordless (fun hst _ => hst)
  | tp1BreakEven hroute hsel hentry hfill htp1 hfirst hrem hfix =>
      exact h.recordless rfl
        ((quiet_dropEvents _ _ _ _ _).recordless.append (recordless_placed _ _ _)) (fun hst _ => hst)
  | @tp1Failed env upd om e msg n n' e' pre ct hroute hsel hentry hfill htp1 hfirst hrem hfix
      hrefused hpre hsize hreason =>
      have hsel' := selectTrade_eq_some hsel
      obtain ⟨r, hr⟩ := (hC ⟨t, hmem, ⟨om, hroute, hentry, htp1⟩, hfill, hfirst, hrem, hfix, n, e',
        hrefused⟩).marketClose n' t
      rw [hr] at huid ⊢
      -- the refused break-even stop and the alert come before the close
      have hlist : ∀ (a b : List Event) (x y z w : Event),
          a ++ x :: y :: (b ++ [z, w]) = (a ++ ([x] ++ ([y] ++ b))) ++ [z, w] := by simp
      rw [hlist]
      refine h.marketClose huid hsel'.1 hsel'.2.1 ?_ hsize (Or.inl rfl)
      have halert : Recordless [.alerted t.uid msg] := by simp [Recordless]
      exact (quiet_dropEvents _ _ _ _ _).recordless.append
        ((recordless_placed _ _ _).append (halert.append hpre.recordless))
  | @exit env upd om hroute hsel hentry hfill hexit hrep =>
      have hsel' := selectTrade_eq_some hsel
      -- the close was reported, and the trade had none before
      have hsent : CloseSent t.uid (m₁.trace ++ []) (exitRecord upd om (captureIds upd t)) :=
        Or.inl ⟨upd, by simpa using hrep, hfill, rfl⟩
      exact h.close huid hsel'.1 hsel'.2.1 (by simp [Recordless]) hsent (Or.inl rfl)
  | @emergency env now pre ct n hdue hst hexec hpre hsize =>
      -- the gateway accepts the close of a due trade, which is open
      obtain ⟨r, hr⟩ := (hC ⟨t, hmem, hdue⟩).marketClose n t
      rw [hr]
      exact h.marketClose huid (by simp [hst]) (by simp [hst]) hpre.recordless hsize (Or.inr rfl)
  | rearm hspared hdue hevs => exact h.recordless rfl hevs.recordless (fun hst _ => hst)
  | resolved hst =>
      exact h.recordless rfl (by simp [Recordless]) (fun hst' _ => by simp [hst] at hst')
  | @timeout env now msg ct hst hsize =>
      -- the record of a trade without a position is no full close
      obtain ⟨hone, heq⟩ := h.1.append [.alerted t.uid msg, .recorded t.uid ct] (by
        simp [ClosedTrade.isFullClose, hsize])
      exact ⟨hone, fun _ => Or.inl rfl⟩
  | @close env ticker reason pre ct n hticker hst hexec hpre hsize =>
      -- and that of `close_trade`
      obtain ⟨r, hr⟩ := (hC ⟨t, hmem, hticker, hst, hexec⟩).marketClose n t
      rw [hr] at huid ⊢
      exact h.marketClose huid (by simp [hst]) (by simp [hst]) hpre.recordless hsize (Or.inl rfl)

theorem onceClosed_life : LifeInvariant ClosesAccepted OnceClosed ClosedOnce where
  silent := fun hno h => by
    obtain ⟨hone, heq⟩ := h.1.append _ (fun ct hct => absurd rfl (hno _ hct))
    exact ⟨hone, fun hne => h.2 (heq ▸ hne)⟩
  gone := fun h => h.1
  gone_silent := fun hno h => (h.append _ (fun ct hct => absurd rfl (hno _ hct))).1
  turn := fun _ => onceClosed_turn
  unborn := fun {u evs} hno => by
    have h0 : ClosedOnce u [] := ⟨by simp [fullCloses, recordsOf], atEach_nil⟩
    exact (h0.append _ (fun ct hct => absurd rfl (hno _ hct))).1
  submitted := fun {ex ns plan state evs evs'} _ hno hevs => by
    have h0 : ClosedOnce ex.nextUid [] := ⟨by simp [fullCloses, recordsOf], atEach_nil⟩
    obtain ⟨hone, heq⟩ := h0.append (evs ++ evs') (fun ct hct => by
      rcases List.mem_append.1 hct with hct | hct
      · exact absurd rfl (hno _ hct)
      · rcases hevs _ hct with ⟨_, _, heq, _⟩ | ⟨_, heq⟩ <;> cases heq)
    exact ⟨hone, fun hne => absurd heq hne⟩
  injected := fun {ex ts t u evs} _ _ hno => by
    have h0 : ClosedOnce u [] := ⟨by simp [fullCloses, recordsOf], atEach_nil⟩
    obtain ⟨hone, heq⟩ := h0.append evs (fun ct hct => absurd rfl (hno _ hct))
    exact ⟨hone, fun hne => absurd heq hne⟩

end Invariant

/-! ## The results -/

/-- A trade that is opened and closed at market through a working gateway. -/
def closedRun : List Op :=
  [.submit .accepting 0 0 samplePlan, .onOrderUpdate .accepting (sampleFill 1),
    .closeTrade .accepting "BTC_USDT" "exit"]

end TradeBot
