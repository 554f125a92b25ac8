import TradeBot.Executor.Invariants

set_option autoImplicit false

/-! # The published snapshot

`get_active_trades` answers from a snapshot that every operation rebuilds. In a reachable state it
shows exactly the trades of `trades_`, apart from the unrealized PnL it computes.

The marks come by their own operation, and the only other thing that the snapshot depends on are the
trades. So a property of the snapshot that a rebuild establishes holds after every operation that ends
with one (`SnapshotRule`). Two do not: the market closes of a tick, which come after its rebuild but touch
neither trades nor marks, and a `cancel_all` whose gateway throws, which has changed nothing yet. -/

namespace TradeBot

open LiveExecutor

/-- A trade without its unrealized PnL. -/
def ActiveTrade.shown (t : ActiveTrade) : ActiveTrade := { t with unrealizedPnl := 0 }

theorem shown_withUnrealizedPnl (m : Members) (t : ActiveTrade) :
    (withUnrealizedPnl m t).shown = t.shown := by
  unfold withUnrealizedPnl
  split
  · split <;> rfl
  · rfl

/-- An open trade is valued at the mark of its ticker: what closing all of it there would gain. -/
theorem unrealizedPnl_of_opened {m : Members} {t : ActiveTrade} {mark : ℚ} (hopened : t.state = .opened)
    (hmark : m.markPrices.lookup t.plan.ticker = some mark) :
    (withUnrealizedPnl m t).unrealizedPnl =
      if t.plan.side = .buy then (mark - t.avgEntryPrice) * t.executedSize
      else (t.avgEntryPrice - mark) * t.executedSize := by
  rw [withUnrealizedPnl, hmark]
  dsimp only
  rw [if_pos hopened]
  rfl

/-- Without a mark, or before and after it is open, a trade is shown as it is. -/
theorem withUnrealizedPnl_eq_self {m : Members} {t : ActiveTrade}
    (h : t.state ≠ .opened ∨ m.markPrices.lookup t.plan.ticker = none) : withUnrealizedPnl m t = t := by
  unfold withUnrealizedPnl
  split
  · next mark hmark =>
      rw [hmark] at h
      exact if_neg (h.resolve_right (Option.some_ne_none mark))
  · rfl

/-- The snapshot shows the trades. -/
def SnapshotCurrent (ex : LiveExecutor) : Prop :=
  ex.getActiveTrades.map ActiveTrade.shown = ex.allTrades.map ActiveTrade.shown

/-- The snapshot is what a rebuild would publish now. -/
def Published (ex : LiveExecutor) : Prop :=
  ex.getActiveTrades = ex.allTrades.map (withUnrealizedPnl ex.toMembers)

/-! ## Every operation rebuilds -/

/-- A property of the snapshot that a rebuild establishes and that does not depend on the members,
    apart from the marks. -/
structure SnapshotRule (Q : LiveExecutor → Prop) : Prop where
  rebuilt : ∀ ex, Q (rebuildActiveSnapshot ex)
  frame : ∀ {ex : LiveExecutor} {m : Members}, m.markPrices = ex.markPrices → Q ex →
    Q { ex with toMembers := m }

section SnapshotRule

variable {Q : LiveExecutor → Prop} {ex : LiveExecutor}

theorem SnapshotRule.handleReconciled (hQ : SnapshotRule Q) (h : Q ex) (res : ReconcileResult) :
    Q (handleReconciled ex res) := by
  unfold LiveExecutor.handleReconciled
  split
  · exact h
  · split
    · exact h
    · exact hQ.rebuilt _

theorem pollOpenOrders_markPrices (env : Env) (ticker : Ticker) (now : TimePoint) (m : Members) :
    (pollOpenOrders env ticker now m).1.markPrices = m.markPrices := by
  unfold pollOpenOrders
  dsimp only
  split <;> rfl

theorem SnapshotRule.tickTicker (hQ : SnapshotRule Q) (h : Q ex) (env : Env) (now : TimePoint)
    (ticker : Ticker) : Q (tickTicker env now ex ticker) := by
  unfold LiveExecutor.tickTicker
  split
  · exact Runs.invariant Q (fun _ res h => hQ.handleReconciled h res) _
      (hQ.frame (pollOpenOrders_markPrices ..) h)
  · exact hQ.rebuilt _

theorem tickClose_markPrices (env : Env) (acts : List CloseAction) (ex : LiveExecutor) :
    (tickClose env acts ex).markPrices = ex.markPrices := by
  refine Runs.invariant (fun m : Members => m.markPrices = ex.markPrices) ?_ acts rfl
  intro m act h
  obtain ⟨_, _, heff, _⟩ := execCloseAction_effect env m act
  exact heff.markPrices.trans h

theorem SnapshotRule.tick (hQ : SnapshotRule Q) (env : Env) (now : TimePoint) (ex : LiveExecutor) :
    Q (ex.tick env now) := by
  -- the market closes of phase 2 come after the rebuild, but they touch neither trades nor marks
  have hclosed : Q (tickClose env (tickCollect now ex).2 (tickCollect now ex).1) :=
    hQ.frame (tickClose_markPrices ..) (hQ.rebuilt _)
  exact Runs.invariant Q (fun _ ticker h => hQ.tickTicker h env now ticker) _ hclosed

theorem SnapshotRule.step (hQ : SnapshotRule Q) (h : Q ex) (op : Op) : Q (ex.step op) := by
  cases op with
  | submit env ns now plan =>
      change Q (submitPush now _ (submitPlace env _ _).2 _)
      unfold submitPush
      split <;> exact hQ.rebuilt _
  | cancelAll env ticker =>
      change Q (ex.cancelAll env ticker).1
      unfold cancelAll
      dsimp only
      split
      -- the gateway threw: `cancel_all` is left before its rebuild, and before it changed a trade
      · exact hQ.frame rfl h
      · exact hQ.rebuilt _
  | onBalanceUpdate now => exact hQ.frame rfl h
  | tick env now => exact hQ.tick env now ex
  | _ => exact hQ.rebuilt _

theorem SnapshotRule.run (hQ : SnapshotRule Q) (h : Q ex) (ops : List Op) : Q (ex.run ops) :=
  Runs.invariant Q (fun _ op h => hQ.step h op) ops h

end SnapshotRule

/-! ## What the snapshot shows -/

theorem withUnrealizedPnl_congr {m m' : Members} (h : m'.markPrices = m.markPrices) :
    withUnrealizedPnl m' = withUnrealizedPnl m := by
  funext t
  unfold withUnrealizedPnl
  rw [h]

theorem published_rule : SnapshotRule Published where
  rebuilt := fun _ => rfl
  frame := by
    intro ex m hmarks h
    change ex.getActiveTrades = ex.allTrades.map (withUnrealizedPnl m)
    rw [withUnrealizedPnl_congr hmarks]
    exact h

theorem snapshotCurrent_rule : SnapshotRule SnapshotCurrent where
  rebuilt := by
    intro ex
    have hshown : ActiveTrade.shown ∘ withUnrealizedPnl ex.toMembers = ActiveTrade.shown :=
      funext (shown_withUnrealizedPnl ex.toMembers)
    change (ex.allTrades.map (withUnrealizedPnl ex.toMembers)).map _ = ex.allTrades.map _
    rw [List.map_map, hshown]
  frame := fun _ h => h

section

variable {ex : LiveExecutor}

theorem LiveExecutor.Reachable.published (h : ex.Reachable) : Published ex := by
  obtain ⟨cfg, ops, rfl⟩ := h
  have hinit : Published (init cfg) := rfl
  exact published_rule.run hinit ops

/-- In a reachable state the snapshot has every open trade with its unrealized PnL at the mark, and every
    other trade as it is. -/
theorem LiveExecutor.Reachable.mem_getActiveTrades (h : ex.Reachable) {t : ActiveTrade}
    (ht : t ∈ ex.allTrades) :
    ∃ s ∈ ex.getActiveTrades, s.shown = t.shown ∧
      (∀ mark, ex.markPrices.lookup t.plan.ticker = some mark → t.state = .opened →
        s.unrealizedPnl = if t.plan.side = .buy then (mark - t.avgEntryPrice) * t.executedSize
          else (t.avgEntryPrice - mark) * t.executedSize) ∧
      (t.state ≠ .opened ∨ ex.markPrices.lookup t.plan.ticker = none → s = t) := by
  have hpublished : ex.getActiveTrades = ex.allTrades.map (withUnrealizedPnl ex.toMembers) := h.published
  refine ⟨withUnrealizedPnl ex.toMembers t, ?_, shown_withUnrealizedPnl _ t, ?_, withUnrealizedPnl_eq_self⟩
  · rw [hpublished]
    exact List.mem_map_of_mem ht
  · exact fun mark hmark hopened => unrealizedPnl_of_opened hopened hmark

theorem SnapshotCurrent.step (h : SnapshotCurrent ex) (op : Op) : SnapshotCurrent (ex.step op) :=
  snapshotCurrent_rule.step h op

theorem LiveExecutor.Reachable.snapshotCurrent (h : ex.Reachable) : SnapshotCurrent ex := by
  obtain ⟨cfg, ops, rfl⟩ := h
  have hinit : SnapshotCurrent (init cfg) := rfl
  exact snapshotCurrent_rule.run hinit ops

/-- Whatever does not depend on the unrealized PnL may be read off the snapshot. -/
theorem SnapshotCurrent.exists_iff (h : SnapshotCurrent ex) (P : ActiveTrade → Prop) :
    (∃ t ∈ ex.getActiveTrades, P t.shown) ↔ ∃ t ∈ ex.allTrades, P t.shown := by
  have key : ∀ l : List ActiveTrade, (∃ t ∈ l, P t.shown) ↔ ∃ s ∈ l.map ActiveTrade.shown, P s :=
    fun l => by simp only [List.mem_map, exists_exists_and_eq_and]
  rw [key, key, h]

end

end TradeBot
