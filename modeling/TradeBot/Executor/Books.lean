import TradeBot.Executor.Simulation

set_option autoImplicit false

/-! # Reservations and intents

Most of what the executor does leaves its reserved balance and its reconciliator alone
(`SameBooks`). The exceptions are `submit`, `cancel_all`, a closed entry, the reservation timeout and
reconciliation.

The lemmas go along the calls: the actions on a trade first, then an order update, then the loops and
the operations. Each says which of the two books is the same afterwards, or by how much the balance
has changed, and for the reconciliator that only a failed submission and the timer touch it
(`step_reconciliator`). -/

namespace TradeBot

open KeyedPass LiveExecutor

/-- The reserved balance and the reconciliator are as before. -/
structure SameBooks (m m' : Members) : Prop where
  reserved : m'.reservedBalanceUsd = m.reservedBalanceUsd
  reconciliator : m'.reconciliator = m.reconciliator

namespace SameBooks

theorem refl (m : Members) : SameBooks m m := ⟨rfl, rfl⟩

theorem trans {m m' m'' : Members} (h : SameBooks m m') (h' : SameBooks m' m'') :
    SameBooks m m'' :=
  ⟨h'.reserved.trans h.reserved, h'.reconciliator.trans h.reconciliator⟩

theorem placeOrder (env : Env) (uid : ℕ) (req : PlaceOrderRequest) (m : Members) :
    SameBooks m (m.placeOrder env uid req).1 := ⟨rfl, rfl⟩

theorem cancelOrder (env : Env) (uid : ℕ) (id : OrderId) (ticker : Ticker) (m : Members) :
    SameBooks m (m.cancelOrder env uid id ticker).1 := ⟨rfl, rfl⟩

theorem alert (uid : ℕ) (msg : String) (m : Members) : SameBooks m (m.alert uid msg) := ⟨rfl, rfl⟩

theorem pushClosed (uid : ℕ) (ct : ClosedTrade) (m : Members) :
    SameBooks m (m.pushClosed uid ct) := ⟨rfl, rfl⟩

end SameBooks

section

variable (env : Env) (m : Members) (t : ActiveTrade)

/-! ## Actions on a trade -/

theorem dropOrder_books (uid : ℕ) (ticker : Ticker) (id : OrderId) :
    SameBooks m (dropOrder env uid ticker id m) := by
  unfold dropOrder
  split
  · exact .cancelOrder ..
  · exact .refl m

theorem cancelOldStop_books : SameBooks m (cancelOldStop env m t).1 := by
  have hcancel := SameBooks.cancelOrder env t.uid t.stopOrderId t.plan.ticker m
  unfold cancelOldStop
  split
  · dsimp only
    split <;> exact hcancel
  · exact .refl m

theorem cancelOldTp1_books : SameBooks m (cancelOldTp1 env m t).1 := by
  have hcancel := SameBooks.cancelOrder env t.uid t.tp1OrderId t.plan.ticker m
  unfold cancelOldTp1
  split
  · dsimp only
    split <;> exact hcancel
  · exact .refl m

theorem placeStopLoss_books : SameBooks m (placeStopLoss env m t).1 := by
  have hplace := SameBooks.placeOrder env t.uid
    (t.exitRequest .stopLoss t.plan.stopPrice t.executedSize) m
  unfold placeStopLoss
  dsimp only
  split
  · exact hplace
  · exact hplace.trans (.alert ..)

theorem placeTp1_books (failed : Bool) : SameBooks m (placeTp1 env failed m t).1 := by
  unfold placeTp1
  split
  · dsimp only
    split
    · split
      · exact .placeOrder ..
      · exact (SameBooks.placeOrder ..).trans (.alert ..)
    · exact .refl m
  · exact .refl m

theorem placeStops_books : SameBooks m (placeStops env m t).1 := by
  unfold placeStops
  split
  · exact .refl m
  split
  · exact .alert ..
  have hold := cancelOldStop_books env m t
  split
  · next m₁ heq =>
      rw [heq] at hold
      exact hold
  · next m₁ t₁ heq =>
      rw [heq] at hold
      exact ((hold.trans (cancelOldTp1_books ..)).trans (placeStopLoss_books ..)).trans
        (placeTp1_books ..)

theorem emergencyCloseTrade_books : SameBooks m (emergencyCloseTrade env m t).1 := by
  have hdrop := (dropOrder_books env m t.uid t.plan.ticker t.stopOrderId).trans
    (dropOrder_books env _ t.uid t.plan.ticker t.tp1OrderId)
  unfold emergencyCloseTrade
  dsimp only
  split <;> exact hdrop.trans (.placeOrder ..)

theorem closeAndRecord_books (reason : String) :
    SameBooks m (closeAndRecord env reason m t).1 :=
  (emergencyCloseTrade_books env m t).trans (.pushClosed ..)

theorem execCloseAction_books (act : CloseAction) : SameBooks m (execCloseAction env m act) :=
  (((dropOrder_books env m _ _ _).trans (dropOrder_books env _ _ _ _)).trans
    (.placeOrder ..)).trans (.pushClosed ..)

/-! ## Order updates -/

theorem onEntryPartial_books (upd : OrderUpdate) : SameBooks m (onEntryPartial env upd m t).1 := by
  unfold onEntryPartial
  dsimp only
  by_cases hst : t.state ≠ .opened
  · simp only [if_pos hst]
    exact placeStops_books ..
  · simp only [if_neg hst]
    exact .refl m

theorem onEntryFilled_books (upd : OrderUpdate) : SameBooks m (onEntryFilled env upd m t).1 := by
  unfold onEntryFilled
  dsimp only
  split
  · unfold slippageClose
    dsimp only
    split
    · exact .placeOrder ..
    · exact (SameBooks.placeOrder ..).trans (.alert ..)
  · exact placeStops_books ..

theorem onTp1Filled_books (upd : OrderUpdate) : SameBooks m (onTp1Filled env upd m t).1 := by
  have hdrop := dropOrder_books env m t.uid upd.ticker t.stopOrderId
  unfold onTp1Filled
  dsimp only
  split
  · split
    · exact hdrop.trans (.placeOrder ..)
    · exact ((hdrop.trans (.placeOrder ..)).trans (.alert ..)).trans (closeAndRecord_books ..)
  · exact hdrop

/-- The members an order update works with: a closed entry has released its reservation. -/
def releasedBy (upd : OrderUpdate) (om : OrderMatch) (plan : TradePlan) (m : Members) : Members :=
  if upd.status = .closed ∧ om.isEntry = true then m.releaseReservation plan else m

/-- A closed entry releases its reservation; otherwise an order update leaves the books alone. -/
theorem applyOrderUpdate_books (upd : OrderUpdate) (om : OrderMatch) :
    SameBooks (releasedBy upd om t.plan m) (applyOrderUpdate env upd m t om).1 := by
  have hplan : (captureIds upd t).plan = t.plan := rfl
  unfold applyOrderUpdate handleOrderUpdate releasedBy
  cases upd.status with
  | new =>
      simp only [reduceCtorEq, false_and, if_false]
      exact .refl m
  | opened =>
      simp only [reduceCtorEq, false_and, if_false]
      split
      · exact onEntryPartial_books ..
      · exact .refl m
  | closed =>
      simp only [true_and, hplan]
      generalize (if om.isEntry = true then m.releaseReservation t.plan else m) = m'
      split
      · split <;> exact .refl _
      split
      · exact onEntryFilled_books ..
      split
      · exact onTp1Filled_books ..
      split
      · exact .pushClosed ..
      · exact .refl _

end

/-! ## Loops and operations -/

theorem forKey_books {f : Members → ActiveTrade → Members × ActiveTrade}
    (h : ∀ m t, SameBooks m (f m t).1) (ticker : Ticker) (m : Members)
    (trades : BucketMap Ticker ActiveTrade) :
    SameBooks m (trades.forKey ticker (mapAccum f) m).1 :=
  BucketMap.forKey_rel .refl (fun m ts => mapAccum_rel .refl (fun h h' => h.trans h') h m ts) ..

theorem foldl_execCloseAction_books (env : Env) (acts : List CloseAction) (m : Members) :
    SameBooks m (acts.foldl (execCloseAction env) m) := by
  induction acts generalizing m with
  | nil => exact .refl m
  | cons act acts ih => exact (execCloseAction_books env m act).trans (ih _)

theorem rearmTurn_books (env : Env) (now : TimePoint) (m : Members) (t : ActiveTrade) :
    SameBooks m (rearmTurn env now m t).1 := by
  unfold rearmTurn
  split
  · exact placeStops_books env m t
  · exact .refl m

theorem closeTradeTurn_books (env : Env) (reason : String) (m : Members) (t : ActiveTrade) :
    SameBooks m (closeTradeTurn env reason m t).1 := by
  unfold closeTradeTurn
  split
  · exact closeAndRecord_books env m t reason
  · exact .refl m

theorem foldl_injectOne_books (ts : List ActiveTrade) (ex : LiveExecutor) :
    SameBooks ex.toMembers (ts.foldl injectOne ex).toMembers := by
  induction ts generalizing ex with
  | nil => exact .refl ex.toMembers
  | cons t ts ih =>
      have hone : SameBooks ex.toMembers (ex.injectOne t).toMembers := ⟨rfl, rfl⟩
      exact hone.trans (ih (ex.injectOne t))

theorem injectRecoveredTrades_books (ts : List ActiveTrade) (ex : LiveExecutor) :
    SameBooks ex.toMembers (ex.injectRecoveredTrades ts).toMembers :=
  foldl_injectOne_books ts ex

theorem expireReservation_reconciliator (now : TimePoint) (m : Members) :
    (expireReservation now m).reconciliator = m.reconciliator := by
  unfold expireReservation
  split <;> rfl

/-- Only a failed submission and the timer touch the reconciliator. -/
theorem step_reconciliator (ex : LiveExecutor) (op : Op)
    (hsubmit : ∀ env ns now plan, op ≠ .submit env ns now plan)
    (htick : ∀ env now, op ≠ .tick env now) : (ex.step op).reconciliator = ex.reconciliator := by
  cases op with
  | submit env ns now plan => exact absurd rfl (hsubmit env ns now plan)
  | tick env now => exact absurd rfl (htick env now)
  | cancelAll env ticker =>
      show (ex.cancelAll env ticker).1.reconciliator = ex.reconciliator
      unfold cancelAll
      dsimp only
      split
      · rfl
      · -- every turn of the loop leaves the reconciliator alone, and so does the loop
        refine BucketMap.forKey_rel
          (R := fun m m' : Members => m'.reconciliator = m.reconciliator) (fun _ => rfl)
          (fun m ts => mapAccum_rel
            (R := fun m m' : Members => m'.reconciliator = m.reconciliator) (fun _ => rfl)
            (fun h h' => h'.trans h) (fun m t => ?_) m ts) ticker (ex.emit _) ex.trades
        unfold cancelTrade
        split
        · rfl
        · dsimp only
          split <;> rfl
  | injectRecoveredTrades ts => exact (injectRecoveredTrades_books ts ex).reconciliator
  | popClosedTrades | setMarkPrices | setMarkPrice | onBalanceUpdate => rfl
  | onPositionUpdate upd =>
      exact (forKey_books (f := applyPositionUpdate upd) (fun m t => .refl m) upd.ticker
        ex.toMembers ex.trades).reconciliator
  | closeTrade env ticker reason =>
      exact (forKey_books (closeTradeTurn_books env reason) ticker ex.toMembers
        ex.trades).reconciliator
  | onOrderUpdate env upd =>
      refine BucketMap.forKey_rel (R := fun m m' : Members => m'.reconciliator = m.reconciliator)
        (fun _ => rfl) (fun m ts => ?_) upd.ticker (ex.emit (.reported upd)) ex.trades
      cases hr : updateFirst? (selectTrade upd) (applyOrderUpdate env upd) m ts with
      | none => rfl
      | some r =>
          obtain ⟨pre, t, post, om, rfl, _, _, rfl⟩ := updateFirst?_eq_some hr
          refine (applyOrderUpdate_books env m t upd om).reconciliator.trans ?_
          unfold releasedBy
          split <;> rfl

end TradeBot
