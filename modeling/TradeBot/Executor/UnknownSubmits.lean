import TradeBot.Executor.Books
import TradeBot.Executor.Outcomes
import TradeBot.Trading.SingleIntent

set_option autoImplicit false

/-! # Submissions of unknown outcome

A submission that fails ambiguously leaves a `SubmitUnknown` trade, and an intent with the
reconciliator from which `tick` finds out what became of the order. The executor files every intent
under local id 0, and the reconciliator refuses a second intent with an id it knows: only the first
of several failures is ever reconciled.

The invariant is `Awaits`: there is no `SubmitUnknown` trade, or one, whose intent the reconciliator
holds with a deadline. A poll before the deadline leaves both, and a poll that settles the intent
finds the trade by side and size, which is the only one (`handleReconciled_settles`). Another failure
meanwhile would break it, which is what the condition of the run excludes. -/

namespace TradeBot

open KeyedPass LiveExecutor OrderReconciliator

/-! ## Statement -/

/-- A `tick` from `deadline` on leaves the trade in another state than `SubmitUnknown`. -/
def SettledFrom (ex : LiveExecutor) (uid : ℕ) (deadline : TimePoint) : Prop :=
  ∀ env now, deadline ≤ now → ∀ t' ∈ (ex.step (.tick env now)).allTrades,
    t'.uid = uid → t'.state ≠ .submitUnknown

/-- Every `SubmitUnknown` trade has a pending intent of its own, for its ticker, side, price and
    size, and polling settles it in the end. -/
structure Reconciling (ex : LiveExecutor) : Prop where
  own : ∃ own : ℕ → OrderId,
    (∀ t ∈ ex.allTrades, t.state = .submitUnknown →
      ∃ p, ex.reconciliator.pending.lookup (own t.uid) = some p ∧ p.intent.IsFor t.plan) ∧
    ∀ t ∈ ex.allTrades, t.state = .submitUnknown → ∀ t' ∈ ex.allTrades,
      t'.state = .submitUnknown → own t'.uid = own t.uid → t'.uid = t.uid
  settled : ∀ t ∈ ex.allTrades, t.state = .submitUnknown → ∃ deadline, SettledFrom ex t.uid deadline

/-- A submission that fails is for a size that is not negative, and finds no other submission being
    reconciled. (An intent that no trade waits for any more does no harm if it is for the same
    order.) No trade is injected as `SubmitUnknown`: recovery injects open trades. -/
def FailsAlone (ex : LiveExecutor) : Op → Prop
  | .submit env ns _ plan =>
      (∃ e, env.placeOrder ex.trace.length (submitReserve ns plan ex).2.req = .error e) →
        0 ≤ plan.sizeCoin ∧ ∀ p, ex.reconciliator.pending.lookup 0 = some p →
          p.intent.IsFor plan ∧ ∀ t ∈ ex.allTrades, t.state ≠ .submitUnknown
  | .injectRecoveredTrades ts => ∀ t ∈ ts, t.state ≠ .submitUnknown
  | _ => True

/-! ## Which trades are `SubmitUnknown` -/

/-- No turn takes a trade into `SubmitUnknown`. -/
theorem TradeOutcome.submitUnknown {ex : LiveExecutor} {m : Members} {op : Op} {t t' : ActiveTrade}
    {evs : List Event} (h : TradeOutcome ex m t op evs t') (hst : t'.state = .submitUnknown) :
    t.state = .submitUnknown := by
  have hclose : ∀ {s : ActiveTrade} {res : Except String PlaceOrderResult},
      (s.afterClose res).state = .submitUnknown → s.state = .submitUnknown := by
    intro s res h
    rw [afterClose_state] at h
    split at h
    · simp at h
    · exact h
  cases h with
  | rest | position | ack | tp1Bare | tp1BreakEven | rearm => exact hst
  | cancel | dead | partly | slipped | slipRefused | entry | exit | emergency | resolved | timeout =>
      simp [ActiveTrade.entryFilled, ActiveTrade.withExitIds, ActiveTrade.markClosing] at hst
  | @tp1Failed env upd =>
      have hcaptured : ((captureIds upd t).tp1Done).state = .submitUnknown := hclose hst
      exact hcaptured
  | close => exact hclose hst

/-- A `SubmitUnknown` trade that is not new was one before, with the same plan. -/
theorem submitUnknown_of_step {ex : LiveExecutor} (hwf : ex.WF) (op : Op) {t' : ActiveTrade}
    (ht' : t' ∈ (ex.step op).allTrades) (hst : t'.state = .submitUnknown)
    (hold : t'.uid < ex.nextUid) :
    ∃ t ∈ ex.allTrades, t.state = .submitUnknown ∧ t.uid = t'.uid ∧ t.plan = t'.plan := by
  obtain ⟨t, ht, huid, m₁, m₂, _, hturn, _⟩ := (step_sim hwf op).old t' ht' hold
  obtain ⟨evs, _, hout⟩ := hturn.outcome
  exact ⟨t, ht, hout.submitUnknown hst, huid, hturn.keeps.plan.symm⟩

theorem CollectTurn.submitUnknown {m₀ m m' : Members} {env : Env} {now : TimePoint}
    {t t' : ActiveTrade} (h : CollectTurn m₀ env now (t, m) (t', m'))
    (hst : t'.state = .submitUnknown) : t' = t := by
  cases h with
  | spared => rfl
  | emergency => simp [ActiveTrade.markClosing] at hst

theorem TickersTurn.submitUnknown {m m' : Members} {env : Env} {now : TimePoint}
    {ks : List Ticker} {t t' : ActiveTrade} (h : TickersTurn env now ks (t, m) (t', m'))
    (hst : t'.state = .submitUnknown) : t' = t := by
  cases h with
  | rest => rfl
  | rearm _ hdue =>
      rw [placeStops_state, rearmDue_opened hdue] at hst
      simp at hst
  | reconciled _ hout =>
      rcases applyReconciled_state hout m t with h | h <;> exact absurd (hst.symm.trans h) (by simp)

/-! ## The invariant -/

/-- The reconciliator holds the intent `o`, and at most one trade is `SubmitUnknown`, the one whose
    submission `o` is for. -/
structure Awaits (ex : LiveExecutor) (o : Option PendingIntent) : Prop where
  books : ex.reconciliator.HoldsOnly o
  waiting : ∀ t ∈ ex.allTrades, t.state = .submitUnknown →
    0 ≤ t.plan.sizeCoin ∧ ∃ p, o = some p ∧ p.intent.IsFor t.plan
  single : ∀ t ∈ ex.allTrades, t.state = .submitUnknown → ∀ t' ∈ ex.allTrades,
    t'.state = .submitUnknown → t'.uid = t.uid

/-- The intent `o'` is `o` after some polls, or none. -/
def Later (o o' : Option PendingIntent) : Prop :=
  ∀ p', o' = some p' → ∃ p, o = some p ∧ p'.intent = p.intent ∧ p'.startedAt = p.startedAt

theorem Later.refl (o : Option PendingIntent) : Later o o := fun p hp => ⟨p, hp, rfl, rfl⟩

theorem Later.trans {o o' o'' : Option PendingIntent} (h : Later o o') (h' : Later o' o'') :
    Later o o'' := by
  intro p'' hp''
  obtain ⟨p', hp', hintent', hstart'⟩ := h' p'' hp''
  obtain ⟨p, hp, hintent, hstart⟩ := h p' hp'
  exact ⟨p, hp, hintent'.trans hintent, hstart'.trans hstart⟩

section

variable {ex ex' : LiveExecutor} {o o' : Option PendingIntent}

/-- `SubmitUnknown` trades only leave the state, and keep their plan. -/
def Leaving (ex ex' : LiveExecutor) : Prop :=
  ∀ t' ∈ ex'.allTrades, t'.state = .submitUnknown →
    ∃ t ∈ ex.allTrades, t.state = .submitUnknown ∧ t.uid = t'.uid ∧ t.plan = t'.plan

theorem Awaits.leaving (h : Awaits ex o) (hback : Leaving ex ex')
    (hbooks : ex'.reconciliator.HoldsOnly o')
    (hintent : ∀ p, o = some p → ∃ p', o' = some p' ∧ p'.intent = p.intent) : Awaits ex' o' := by
  refine ⟨hbooks, ?_, ?_⟩
  · intro t' ht' hst'
    obtain ⟨t, ht, hst, -, hplan⟩ := hback t' ht' hst'
    obtain ⟨hsize, p, hp, hfor⟩ := h.waiting t ht hst
    obtain ⟨p', hp', heq⟩ := hintent p hp
    rw [← hplan]
    exact ⟨hsize, p', hp', heq ▸ hfor⟩
  · intro t' ht' hst' t'' ht'' hst''
    obtain ⟨t, ht, hst, huid, -⟩ := hback t' ht' hst'
    obtain ⟨s, hs, hsst, hsuid, -⟩ := hback t'' ht'' hst''
    rw [← huid, ← hsuid]
    exact h.single t ht hst s hs hsst

/-- The invariant survives when the reconciliator stays as it is. -/
theorem Awaits.frame (h : Awaits ex o) (hbooks : ex'.reconciliator = ex.reconciliator)
    (hback : Leaving ex ex') : Awaits ex' o :=
  h.leaving hback (hbooks ▸ h.books) (fun p hp => ⟨p, hp, rfl⟩)

/-- Without `SubmitUnknown` trades only the reconciliator matters. -/
theorem awaits_of_none (hbooks : ex.reconciliator.HoldsOnly o)
    (hnone : ∀ t ∈ ex.allTrades, t.state ≠ .submitUnknown) : Awaits ex o :=
  ⟨hbooks, fun t ht hst => absurd hst (hnone t ht), fun t ht hst => absurd hst (hnone t ht)⟩

/-! ## One tick -/

/-- A poll of the intent before its time answers at once. -/
theorem pollOpenOrders_early (env : Env) {now : TimePoint} {m : Members} {p : PendingIntent}
    {ticker : Ticker}
    (h : m.reconciliator.HoldsOnly (some p)) (hkey : p.intent.ticker = toInternalTicker ticker)
    (hearly : now < p.nextPollAt ∧ ¬ m.reconciliator.deadlinePassed p now) :
    pollOpenOrders env ticker now m
      = (m, [{ outcome := .pending, localOrderId := 0, intent := some p.intent }]) := by
  have hdue := h.pollDue now
  rw [if_pos hearly] at hdue
  unfold pollOpenOrders
  rw [← hkey]
  simp only [hdue, if_true]

/-- A poll of a due intent asks the gateway. -/
theorem pollOpenOrders_due (env : Env) {now : TimePoint} {m : Members} {p : PendingIntent}
    {ticker : Ticker}
    (h : m.reconciliator.HoldsOnly (some p)) (hkey : p.intent.ticker = toInternalTicker ticker)
    (hpoll : ¬ (now < p.nextPollAt ∧ ¬ m.reconciliator.deadlinePassed p now)) :
    let settled := m.reconciliator.pollSettle p.intent.ticker now [0]
      (env.getOpenOrders m.trace.length p.intent.ticker).toOption []
    pollOpenOrders env ticker now m
      = ({ m.emit (.fetched p.intent.ticker) with reconciliator := settled.1 }, settled.2) := by
  have hdue := h.pollDue now
  rw [if_neg hpoll] at hdue
  unfold pollOpenOrders
  rw [← hkey]
  simp only [hdue, List.cons_ne_nil, if_false]

theorem pollOpenOrders_polled (env : Env) (now : TimePoint) {m : Members} {p : PendingIntent}
    {ticker : Ticker} (h : m.reconciliator.HoldsOnly (some p))
    (hkey : p.intent.ticker = toInternalTicker ticker) :
    ∃ res o, (pollOpenOrders env ticker now m).2 = [res] ∧
      (pollOpenOrders env ticker now m).1.reconciliator.HoldsOnly o ∧
      Polled p now m.reconciliator res o := by
  by_cases hearly : now < p.nextPollAt ∧ ¬ m.reconciliator.deadlinePassed p now
  · rw [pollOpenOrders_early env h hkey hearly]
    refine ⟨_, some p, rfl, h, rfl, fun hout => absurd rfl hout, fun _ => ?_⟩
    exact ⟨by simpa using hearly.2, p, rfl, rfl, rfl⟩
  · rw [pollOpenOrders_due env h hkey hearly]
    exact h.pollSettle now _

/-- The reconciliation result for the intent a trade waits for selects the trade. -/
theorem selectUnknown_of_isFor {intent : OrderIntent} {t : ActiveTrade}
    (hst : t.state = .submitUnknown) (hsize : 0 ≤ t.plan.sizeCoin) (hfor : intent.IsFor t.plan) :
    selectUnknown intent t = some () := by
  obtain ⟨-, hside, -, hsz⟩ := hfor
  unfold selectUnknown
  rw [if_pos]
  refine ⟨hst, hside, ?_⟩
  rw [hsz, sub_self, abs_zero, max_self]
  positivity

theorem submitUnknown_of_selectUnknown {intent : OrderIntent} {t : ActiveTrade} {u : Unit}
    (h : selectUnknown intent t = some u) : t.state = .submitUnknown := by
  unfold selectUnknown at h
  split at h
  · next hsel => exact hsel.1
  · simp at h

/-- A settled intent concerns the first trade it selects, if there is one. -/
theorem handleReconciled_spec (ex : LiveExecutor) {intent : OrderIntent} {res : ReconcileResult}
    (hout : res.outcome ≠ .pending) (hintent : res.intent = some intent) :
    ((∀ t ∈ ex.allTrades, selectUnknown intent t = none) ∧
      (ex.handleReconciled res).toMembers = ex.toMembers ∧
      (ex.handleReconciled res).allTrades = ex.allTrades) ∨
    ∃ pre t post, ex.allTrades = pre ++ t :: post ∧ (∀ x ∈ pre, selectUnknown intent x = none) ∧
      selectUnknown intent t = some () ∧
      (ex.handleReconciled res).toMembers = (applyReconciled res ex.toMembers t ()).1 ∧
      (ex.handleReconciled res).allTrades
        = pre ++ (applyReconciled res ex.toMembers t ()).2 :: post := by
  have hvalues : (ex.trades.updateFirst? (selectUnknown intent) (applyReconciled res)
      ex.toMembers).map (fun r => (r.1, BucketMap.values r.2))
      = updateFirst? (selectUnknown intent) (applyReconciled res) ex.toMembers ex.allTrades :=
    BucketMap.values_updateFirst? ex.toMembers ex.trades
  unfold handleReconciled
  rw [if_neg hout]
  simp only [hintent]
  cases hr : ex.trades.updateFirst? (selectUnknown intent) (applyReconciled res) ex.toMembers with
  | none =>
      rw [hr] at hvalues
      exact .inl ⟨updateFirst?_eq_none.1 hvalues.symm, rfl, rfl⟩
  | some r =>
      rw [hr] at hvalues
      obtain ⟨pre, t, post, ⟨⟩, hall, hpre, hsel, hpost⟩ := updateFirst?_eq_some hvalues.symm
      exact .inr ⟨pre, t, post, hall, hpre, hsel, (Prod.mk.inj hpost).1, (Prod.mk.inj hpost).2⟩

/-- A settled intent that selects the one `SubmitUnknown` trade leaves none. -/
theorem handleReconciled_settles (hex : Keyed ex) {intent : OrderIntent} {res : ReconcileResult}
    (hout : res.outcome ≠ .pending) (hintent : res.intent = some intent)
    (hsel : ∀ t ∈ ex.allTrades, t.state = .submitUnknown → selectUnknown intent t = some ())
    (hsingle : ∀ t ∈ ex.allTrades, t.state = .submitUnknown → ∀ t' ∈ ex.allTrades,
      t'.state = .submitUnknown → t'.uid = t.uid) :
    ∀ t' ∈ (ex.handleReconciled res).allTrades, t'.state ≠ .submitUnknown := by
  intro t' ht' hst'
  obtain ⟨hnone, -, hall⟩ | ⟨pre, t, post, hold, hpre, ht, -, hall⟩ :=
    handleReconciled_spec ex hout hintent
  · rw [hall] at ht'
    exact absurd (hsel t' ht' hst') (by simp [hnone t' ht'])
  · have hst := submitUnknown_of_selectUnknown ht
    rw [hall] at ht'
    rcases List.mem_append.1 ht' with hin | hin
    · exact absurd (hsel t' (by simp [hold, hin]) hst') (by simp [hpre t' hin])
    rcases List.mem_cons.1 hin with rfl | hin
    · rcases applyReconciled_state hout ex.toMembers t with h | h <;>
        exact absurd (hst'.symm.trans h) (by simp)
    · have huid := hsingle t (by simp [hold]) hst t' (by simp [hold, hin]) hst'
      have hnd := hex.nodup
      rw [hold, List.map_append, List.map_cons] at hnd
      have hnew := (List.nodup_cons.1 hnd.of_append_right).1
      exact hnew (huid ▸ List.mem_map_of_mem hin)

theorem handleReconciled_reconciliator (res : ReconcileResult) (ex : LiveExecutor) :
    (ex.handleReconciled res).reconciliator = ex.reconciliator := by
  by_cases hout : res.outcome = .pending
  · simp [handleReconciled, hout]
  cases hintent : res.intent with
  | none => simp [handleReconciled, hout, hintent]
  | some intent =>
      obtain ⟨-, hm, -⟩ | ⟨pre, t, post, -, -, -, hm, -⟩ := handleReconciled_spec ex hout hintent
      · rw [hm]
      · rw [hm]
        unfold applyReconciled
        split <;> rfl

/-- A `SubmitUnknown` trade after a pass of `tick`'s loop was there before. -/
theorem Passes.submitUnknown_mem {env : Env} {now : TimePoint} {ks : List Ticker}
    (h : Passes (TickersTurn env now ks) ex ex') {t' : ActiveTrade} (ht' : t' ∈ ex'.allTrades)
    (hst : t'.state = .submitUnknown) : t' ∈ ex.allTrades := by
  obtain ⟨t, ht, m₁, m₂, -, hturn, -⟩ := h.of_mem ht'
  have heq : t' = t := hturn.submitUnknown hst
  exact heq ▸ ht

/-- One turn of `tick`'s loop keeps the invariant; if the ticker is that of an overdue intent, no
    trade is left in `SubmitUnknown`. -/
theorem tickTicker_awaits (hex : Keyed ex) (h : Awaits ex o) (env : Env) (now : TimePoint)
    (ticker : Ticker) :
    ∃ o', Awaits (ex.tickTicker env now ticker) o' ∧ Later o o' ∧
      ((∃ p, o = some p ∧ p.intent.ticker = toInternalTicker ticker ∧
          ex.reconciliator.deadlinePassed p now = true) →
        ∀ t' ∈ (ex.tickTicker env now ticker).allTrades, t'.state ≠ .submitUnknown) := by
  have hpass : Passes (TickersTurn env now [ticker]) ex (ex.tickTicker env now ticker) :=
    tickTicker_passes hex ticker
  have hback : Leaving ex (ex.tickTicker env now ticker) := by
    intro t' ht' hst'
    exact ⟨t', hpass.submitUnknown_mem ht' hst', hst', rfl, rfl⟩
  by_cases hpending : ex.reconciliator.hasPending ticker = true
  · obtain ⟨p, rfl, hkey⟩ := (h.books.hasPending_iff ticker).1 hpending
    obtain ⟨res, o', hres, hbooks, hpolled⟩ := pollOpenOrders_polled env now h.books hkey
    have htick : tickTicker env now ex ticker = handleReconciled
        { ex with toMembers := (pollOpenOrders env ticker now ex.toMembers).1 } res := by
      rw [tickTicker_of_pending hpending, hres]
      rfl
    rw [htick] at hback ⊢
    set polled : LiveExecutor :=
      { ex with toMembers := (pollOpenOrders env ticker now ex.toMembers).1 } with hpolledDef
    have hall : polled.allTrades = ex.allTrades := rfl
    have hbooks' : (polled.handleReconciled res).reconciliator.HoldsOnly o' := by
      rw [handleReconciled_reconciliator]
      exact hbooks
    by_cases hout : res.outcome = .pending
    · -- backed off: the intent stays, and was not overdue
      obtain ⟨hearly, p', rfl, hintent, hstart⟩ := hpolled.kept hout
      refine ⟨some p', h.leaving hback hbooks' ?_, ?_, ?_⟩
      · rintro _ ⟨⟩
        exact ⟨p', rfl, hintent⟩
      · rintro _ ⟨⟩
        exact ⟨p, rfl, hintent, hstart⟩
      · rintro ⟨_, ⟨⟩, -, hlate⟩
        exact absurd hlate (by simp [hearly])
    · -- settled: the one waiting trade leaves the state
      have hnone : ∀ t' ∈ (polled.handleReconciled res).allTrades, t'.state ≠ .submitUnknown := by
        have hpolledKeyed : Keyed polled := ⟨hex.nodup, hex.keyed⟩
        refine handleReconciled_settles hpolledKeyed hout hpolled.intent ?_ h.single
        intro t ht hst
        obtain ⟨hsize, q, hq, hfor⟩ := h.waiting t ht hst
        rw [Option.some.inj hq]
        exact selectUnknown_of_isFor hst hsize hfor
      exact ⟨o', awaits_of_none hbooks' hnone, by simp [Later, hpolled.settled hout],
        fun _ => hnone⟩
  · -- nothing pending for the ticker: no poll, and the intent is not for it
    have hsame : (ex.tickTicker env now ticker).reconciliator = ex.reconciliator := by
      rw [tickTicker_of_idle hpending]
      exact (forKey_books (rearmTurn_books env now) ticker ex.toMembers ex.trades).reconciliator
    refine ⟨o, h.frame hsame hback, Later.refl o, ?_⟩
    rintro ⟨p, hp, hkey, -⟩
    exact absurd ((h.books.hasPending_iff ticker).2 ⟨p, hp, hkey⟩) hpending

/-- The instant from which a poll gives the intent up. -/
def deadlineOf (p : PendingIntent) : TimePoint :=
  p.startedAt + ({} : ReconcilerConfig).totalTimeout * nsPerMs

theorem deadlinePassed_iff (h : ex.reconciliator.HoldsOnly o) (p : PendingIntent)
    (now : TimePoint) : ex.reconciliator.deadlinePassed p now = true ↔ deadlineOf p ≤ now := by
  simp only [OrderReconciliator.deadlinePassed, h.cfg, deadlineOf, decide_eq_true_eq]
  exact le_sub_iff_add_le'

/-- The whole loop; when the intent is overdue and the loop comes by the tickers of all waiting
    trades, none is left in `SubmitUnknown`. -/
theorem tickTicker_foldl_awaits (env : Env) (now : TimePoint) (ks : List Ticker) (hex : Keyed ex)
    (h : Awaits ex o) :
    ∃ o', Awaits (ks.foldl (tickTicker env now) ex) o' ∧ Later o o' ∧
      ((∀ p, o = some p → deadlineOf p ≤ now) →
        (∀ t ∈ ex.allTrades, t.state = .submitUnknown → t.plan.ticker ∈ ks) →
        ∀ t' ∈ (ks.foldl (tickTicker env now) ex).allTrades, t'.state ≠ .submitUnknown) := by
  induction ks generalizing ex o with
  | nil =>
      refine ⟨o, h, .refl o, ?_⟩
      intro _ hks t ht hst
      exact absurd (hks t ht hst) (by simp)
  | cons k ks ih =>
      have hpass : Passes (TickersTurn env now [k]) ex (ex.tickTicker env now k) :=
        tickTicker_passes hex k
      obtain ⟨o₁, h₁, hlater₁, hsettled⟩ := tickTicker_awaits hex h env now k
      obtain ⟨o₂, h₂, hlater₂, hrest⟩ := ih (hpass.after hex) h₁
      refine ⟨o₂, h₂, hlater₁.trans hlater₂, ?_⟩
      intro hdue hks
      refine hrest ?_ ?_
      · intro p₁ hp₁
        obtain ⟨p, hp, -, hstart⟩ := hlater₁ p₁ hp₁
        have hp' := hdue p hp
        rw [deadlineOf, hstart]
        exact hp'
      · intro t' ht' hst'
        have ht := hpass.submitUnknown_mem ht' hst'
        obtain ⟨-, p, hp, hfor, -⟩ := h.waiting t' ht hst'
        refine (List.mem_cons.1 (hks t' ht hst')).resolve_left (fun hticker => ?_)
        have hlate := (deadlinePassed_iff h.books p now).2 (hdue p hp)
        exact hsettled ⟨p, hp, hticker ▸ hfor, hlate⟩ t' ht' hst'

/-- `tick` keeps the invariant, and an overdue intent leaves no trade in `SubmitUnknown`. -/
theorem tick_awaits (hex : Keyed ex) (h : Awaits ex o) (env : Env) (now : TimePoint) :
    ∃ o', Awaits (ex.tick env now) o' ∧ Later o o' ∧
      ((∀ p, o = some p → deadlineOf p ≤ now) →
        ∀ t' ∈ (ex.tick env now).allTrades, t'.state ≠ .submitUnknown) := by
  have hcollect : Passes (CollectTurn ex.toMembers env now) ex
    (tickClose env (tickCollect now ex).2 (tickCollect now ex).1) := tickClose_collect_passes hex
  set ex₁ := tickClose env (tickCollect now ex).2 (tickCollect now ex).1 with hex₁
  have hsame : ex₁.reconciliator = ex.reconciliator :=
    (foldl_execCloseAction_books env _ _).reconciliator.trans
      (expireReservation_reconciliator now ex.toMembers)
  have hmem : ∀ t' ∈ ex₁.allTrades, t'.state = .submitUnknown → t' ∈ ex.allTrades := by
    intro t' ht' hst'
    obtain ⟨t, ht, m₁, m₂, -, hturn, -⟩ := hcollect.of_mem ht'
    have heq : t' = t := hturn.submitUnknown hst'
    exact heq ▸ ht
  have h₁ : Awaits ex₁ o :=
    h.frame hsame (fun t' ht' hst' => ⟨t', hmem t' ht' hst', hst', rfl, rfl⟩)
  obtain ⟨o', h', hlater, hsettled⟩ :=
    tickTicker_foldl_awaits env now (ex.trades.map Prod.fst) (hcollect.after hex) h₁
  refine ⟨o', h', hlater, fun hdue => hsettled hdue (fun t ht hst => ?_)⟩
  obtain ⟨e, he, hte⟩ := List.mem_flatMap.1 (hmem t ht hst)
  rw [hex.keyed.keyed e he t hte]
  exact List.mem_map_of_mem he

/-! ## One step -/

/-- The intent of a failed submission. -/
def intentOf (plan : TradePlan) : OrderIntent :=
  { localOrderId := 0, ticker := plan.ticker, side := plan.side, type := plan.entryType,
    price := plan.entryPrice, size := plan.sizeCoin }

theorem intentOf_localOrderId (plan : TradePlan) : (intentOf plan).localOrderId = 0 := rfl

theorem filed_isFor (plan : TradePlan) (now : TimePoint) (r : OrderReconciliator) :
    (filed (intentOf plan) now r).intent.IsFor plan := by
  refine ⟨?_, rfl, rfl, rfl⟩
  rw [filed_ticker, intentOf]

theorem countError_books (uid : ℕ) (m : Members) : SameBooks m (countError uid m) := by
  unfold countError
  dsimp only
  split <;> exact ⟨rfl, rfl⟩

/-- What the last section of `submit` does: on success the trade is added, after a failure it is
    added as `SubmitUnknown`, its reservation released and its intent filed. -/
theorem submitPush_exact (now : TimePoint) (f : InFlight) (res : Except String PlaceOrderResult)
    (ex : LiveExecutor) :
    match res with
    | .ok _ =>
        SameBooks ex.toMembers (submitPush now f res ex).toMembers ∧
        (submitPush now f res ex).trades = ex.trades.push f.trade.plan.ticker f.trade
    | .error _ =>
        (submitPush now f res ex).reservedBalanceUsd
          = (ex.releaseReservation f.trade.plan).reservedBalanceUsd ∧
        (submitPush now f res ex).reconciliator
          = (ex.reconciliator.enterSubmitUnknown (intentOf f.trade.plan) now).1 ∧
        (submitPush now f res ex).trades
          = ex.trades.push f.trade.plan.ticker { f.trade with state := .submitUnknown } := by
  cases res with
  | ok r => exact ⟨⟨rfl, rfl⟩, rfl⟩
  | error e =>
      have hm := countError_books f.trade.uid ex.toMembers
      refine ⟨?_, ?_, rfl⟩
      · show max 0 ((countError f.trade.uid ex.toMembers).reservedBalanceUsd - _) = _
        rw [hm.reserved]
        rfl
      · show (OrderReconciliator.enterSubmitUnknown
          (countError f.trade.uid ex.toMembers).reconciliator (intentOf f.trade.plan) now).1 = _
        rw [hm.reconciliator]

/-- What `submit` does to the trades and to the reconciliator. -/
theorem submit_exact (env : Env) (ns : ℕ) (now : TimePoint) (plan : TradePlan)
    (ex : LiveExecutor) :
    match env.placeOrder ex.trace.length (submitReserve ns plan ex).2.req with
    | .ok _ =>
        (ex.submit env ns now plan).reconciliator = ex.reconciliator ∧
        (ex.submit env ns now plan).trades
          = ex.trades.push plan.ticker (ex.submitted ns plan .pendingEntry)
    | .error _ =>
        (ex.submit env ns now plan).reconciliator
          = (ex.reconciliator.enterSubmitUnknown (intentOf plan) now).1 ∧
        (ex.submit env ns now plan).trades
          = ex.trades.push plan.ticker (ex.submitted ns plan .submitUnknown) := by
  have hres : (submitPlace env (submitReserve ns plan ex).2 (submitReserve ns plan ex).1).2
      = env.placeOrder ex.trace.length (submitReserve ns plan ex).2.req := rfl
  have hpush := submitPush_exact now (submitReserve ns plan ex).2
    (env.placeOrder ex.trace.length (submitReserve ns plan ex).2.req)
    (submitPlace env (submitReserve ns plan ex).2 (submitReserve ns plan ex).1).1
  unfold submit
  dsimp only
  rw [hres]
  cases hgate : env.placeOrder ex.trace.length (submitReserve ns plan ex).2.req with
  | ok r =>
      rw [hgate] at hpush
      exact ⟨hpush.1.reconciliator, hpush.2⟩
  | error e =>
      rw [hgate] at hpush
      exact ⟨hpush.2.1, hpush.2.2⟩

/-- `submit` keeps the invariant, provided that a failure is alone. -/
theorem submit_awaits (h : Awaits ex o) {env : Env} {ns : ℕ} {now : TimePoint}
    {plan : TradePlan} (hC : FailsAlone ex (.submit env ns now plan)) :
    ∃ o', Awaits (ex.submit env ns now plan) o' ∧
      ((∃ t ∈ ex.allTrades, t.state = .submitUnknown) → Later o o') := by
  have hexact := submit_exact env ns now plan ex
  have hmem : ∀ state, (ex.submit env ns now plan).trades
      = ex.trades.push plan.ticker (ex.submitted ns plan state) →
      ∀ t ∈ (ex.submit env ns now plan).allTrades,
        t = ex.submitted ns plan state ∨ t ∈ ex.allTrades := by
    intro state htrades t ht
    rw [allTrades, htrades] at ht
    exact BucketMap.mem_values_push.1 ht
  cases hres : env.placeOrder ex.trace.length (submitReserve ns plan ex).2.req with
  | ok r =>
      rw [hres] at hexact
      obtain ⟨hbooks, htrades⟩ := hexact
      -- the accepted trade waits for nothing
      refine ⟨o, h.frame hbooks (fun t ht hst => ?_), fun _ => .refl o⟩
      rcases hmem _ htrades t ht with rfl | ht
      · exact absurd hst (by simp [LiveExecutor.submitted])
      · exact ⟨t, ht, hst, rfl, rfl⟩
  | error e =>
      rw [hres] at hexact
      obtain ⟨hbooks, htrades⟩ := hexact
      -- no trade waits yet, so the new one is alone, and its intent is the one that is held
      obtain ⟨hsize, hfree⟩ := hC ⟨e, hres⟩
      rw [h.books.lookup_zero] at hfree
      have hnone : ∀ t ∈ ex.allTrades, t.state ≠ .submitUnknown := by
        intro t ht hst
        obtain ⟨-, p, hp, -⟩ := h.waiting t ht hst
        exact (hfree p hp).2 t ht hst
      have hnew : ∀ t ∈ (ex.submit env ns now plan).allTrades, t.state = .submitUnknown →
          t = ex.submitted ns plan .submitUnknown := by
        intro t ht hst
        exact (hmem _ htrades t ht).resolve_right (fun hold => hnone t hold hst)
      have hclaim : ∃ p, (ex.submit env ns now plan).reconciliator.HoldsOnly (some p) ∧
          p.intent.IsFor plan := by
        rw [hbooks]
        cases o with
        | none =>
            exact ⟨_, h.books.enterSubmitUnknown (intentOf_localOrderId plan) now,
              filed_isFor plan now _⟩
        | some p =>
            rw [h.books.enterSubmitUnknown_refused (intentOf_localOrderId plan) now]
            exact ⟨p, h.books, (hfree p rfl).1⟩
      obtain ⟨p, hholds, hfor⟩ := hclaim
      refine ⟨some p, ⟨hholds, ?_, ?_⟩, ?_⟩
      · intro t ht hst
        rw [hnew t ht hst]
        exact ⟨hsize, p, rfl, hfor⟩
      · intro t ht hst t' ht' hst'
        rw [hnew t ht hst, hnew t' ht' hst']
      · rintro ⟨t, ht, hst⟩
        exact absurd hst (hnone t ht)

/-- Every step that meets the condition keeps the invariant, and the intent of a trade that stays
    `SubmitUnknown`. -/
theorem step_awaits (hwf : ex.WF) (h : Awaits ex o) {op : Op} (hC : FailsAlone ex op) :
    ∃ o', Awaits (ex.step op) o' ∧
      ((∃ t ∈ ex.allTrades, t.state = .submitUnknown) → Later o o') := by
  have hframe : (∀ env ns now plan, op ≠ .submit env ns now plan) → (∀ env now, op ≠ .tick env now) →
      (∀ t' evs, Born ex op t' evs → t'.state ≠ .submitUnknown) →
      ∃ o', Awaits (ex.step op) o' ∧
        ((∃ t ∈ ex.allTrades, t.state = .submitUnknown) → Later o o') := by
    intro hsubmit htick hborn
    refine ⟨o, h.frame (step_reconciliator ex op hsubmit htick) (fun t' ht' hst' => ?_),
      fun _ => .refl o⟩
    refine submitUnknown_of_step hwf op ht' hst' (not_le.1 (fun hle => ?_))
    obtain ⟨evs, -, hb⟩ := (step_sim hwf op).born t' ht' hle
    exact hborn t' evs hb hst'
  cases op with
  | submit env ns now plan => exact submit_awaits h hC
  | tick env now =>
      obtain ⟨o', h', hlater, -⟩ := tick_awaits hwf.toKeyed h env now
      exact ⟨o', h', fun _ => hlater⟩
  | injectRecoveredTrades ts =>
      refine hframe (by simp) (by simp) (fun t' evs hb => ?_)
      cases hb with
      | @injected _ t _ ht => exact hC t ht
  | _ => exact hframe (by simp) (by simp) (fun t' evs hb => by cases hb)

/-! ## Runs -/

theorem awaits_init (cfg : ExecutorConfig) : Awaits (init cfg) none :=
  awaits_of_none holdsOnly_default (by simp [allTrades, init])

/-- The invariant in every run whose failures are alone. -/
theorem run_awaits (hwf : ex.WF) (h : ∃ o, Awaits ex o) {ops : List Op}
    (hC : ex.Along FailsAlone ops) : ∃ o, Awaits (ex.run ops) o := by
  refine (hC.invariant (fun ex => ex.WF ∧ ∃ o, Awaits ex o) ?_ ⟨hwf, h⟩).2
  rintro ex op ⟨hwf, o, h⟩ hcond
  obtain ⟨o', h', -⟩ := step_awaits hwf h hcond
  exact ⟨hwf.step op, o', h'⟩

/-- The trade `uid`, as long as it is `SubmitUnknown`, waits for an intent with this deadline. -/
def DueBy (uid : ℕ) (deadline : TimePoint) (ex : LiveExecutor) : Prop :=
  ∃ o, Awaits ex o ∧ ∀ t ∈ ex.allTrades, t.state = .submitUnknown → t.uid = uid →
    ∀ p, o = some p → deadlineOf p ≤ deadline

theorem step_dueBy (hwf : ex.WF) {uid : ℕ} (huid : uid < ex.nextUid) {deadline : TimePoint}
    (h : DueBy uid deadline ex) {op : Op} (hC : FailsAlone ex op) :
    DueBy uid deadline (ex.step op) := by
  obtain ⟨o, hawaits, hdue⟩ := h
  obtain ⟨o', hawaits', hlater⟩ := step_awaits hwf hawaits hC
  refine ⟨o', hawaits', fun t' ht' hst' hu p' hp' => ?_⟩
  obtain ⟨t, ht, hst, heq, -⟩ := submitUnknown_of_step hwf op ht' hst' (hu ▸ huid)
  obtain ⟨p, hp, -, hstart⟩ := hlater ⟨t, ht, hst⟩ p' hp'
  rw [deadlineOf, hstart]
  exact hdue t ht hst (heq.trans hu) p hp

theorem run_dueBy (hwf : ex.WF) {uid : ℕ} (huid : uid < ex.nextUid) {deadline : TimePoint}
    (h : DueBy uid deadline ex) {ops : List Op} (hC : ex.Along FailsAlone ops) :
    (ex.run ops).WF ∧ uid < (ex.run ops).nextUid ∧ DueBy uid deadline (ex.run ops) := by
  refine hC.invariant (fun ex => ex.WF ∧ uid < ex.nextUid ∧ DueBy uid deadline ex) ?_
    ⟨hwf, huid, h⟩
  rintro ex op ⟨hwf, huid, h⟩ hcond
  exact ⟨hwf.step op, huid.trans_le (step_sim hwf op).nextUid_le, step_dueBy hwf huid h hcond⟩

theorem DueBy.settledFrom (hwf : ex.WF) {uid : ℕ} (huid : uid < ex.nextUid)
    {deadline : TimePoint} (h : DueBy uid deadline ex) : SettledFrom ex uid deadline := by
  intro env now hnow t' ht' hu hst'
  obtain ⟨o, hawaits, hdue⟩ := h
  obtain ⟨t, ht, hst, heq, -⟩ := submitUnknown_of_step hwf (.tick env now) ht' hst' (hu ▸ huid)
  obtain ⟨-, -, -, hsettled⟩ := tick_awaits hwf.toKeyed hawaits env now
  exact hsettled (fun p hp => (hdue t ht hst (heq.trans hu) p hp).trans hnow) t' ht' hst'

end

/-- In a run whose failed submissions are alone every `SubmitUnknown` trade is being reconciled, and
    it has a deadline such that the first `tick` from then on, whatever happens before, settles
    it. -/
theorem submitUnknown_reconciled (cfg : ExecutorConfig) {ops : List Op}
    (h : (init cfg).Along FailsAlone ops) :
    Reconciling ((init cfg).run ops) ∧
      ∀ t ∈ ((init cfg).run ops).allTrades, t.state = .submitUnknown →
        ∃ deadline, ∀ ops', ((init cfg).run ops).Along FailsAlone ops' →
          SettledFrom (((init cfg).run ops).run ops') t.uid deadline := by
  have hwf := (wf_init cfg).run ops
  obtain ⟨o, hawaits⟩ := run_awaits (wf_init cfg) ⟨none, awaits_init cfg⟩ h
  have hsettled : ∀ t ∈ ((init cfg).run ops).allTrades, t.state = .submitUnknown →
      ∃ deadline, ∀ ops', ((init cfg).run ops).Along FailsAlone ops' →
        SettledFrom (((init cfg).run ops).run ops') t.uid deadline := by
    intro t ht hst
    obtain ⟨-, p, hp, -⟩ := hawaits.waiting t ht hst
    refine ⟨deadlineOf p, fun ops' hC => ?_⟩
    have hdue : DueBy t.uid (deadlineOf p) ((init cfg).run ops) := by
      refine ⟨o, hawaits, fun _ _ _ _ p' hp' => ?_⟩
      rw [Option.some.inj (hp'.symm.trans hp)]
    obtain ⟨hwf', huid', hdue'⟩ := run_dueBy hwf (hwf.fresh t ht) hdue hC
    exact hdue'.settledFrom hwf' huid'
  refine ⟨⟨⟨fun _ => 0, ?_, ?_⟩, ?_⟩, hsettled⟩
  · intro t ht hst
    obtain ⟨-, p, hp, hfor⟩ := hawaits.waiting t ht hst
    exact ⟨p, hawaits.books.lookup_zero.trans hp, hfor⟩
  · exact fun t ht hst t' ht' hst' _ => hawaits.single t ht hst t' ht' hst'
  · intro t ht hst
    obtain ⟨deadline, hdeadline⟩ := hsettled t ht hst
    exact ⟨deadline, hdeadline [] trivial⟩

/-- One failed submission, polled before its deadline. -/
theorem submitUnknown_reconciled_once :
    Reconciling ((init {}).run [.submit (.refusing (fun _ => true)) 0 0 samplePlan,
      .tick .accepting 1]) := by
  have hfree : ∀ p, (init {}).reconciliator.pending.lookup 0 = some p →
      p.intent.IsFor samplePlan ∧ ∀ t ∈ (init {}).allTrades, t.state ≠ .submitUnknown := by
    simp [init]
  have halone : (init {}).Along FailsAlone
      [.submit (.refusing (fun _ => true)) 0 0 samplePlan, .tick .accepting 1] :=
    ⟨fun _ => ⟨by norm_num [samplePlan], hfree⟩, trivial, trivial⟩
  exact (submitUnknown_reconciled {} halone).1

/-- Two submissions fail on two tickers, and a `tick` comes after their deadlines. -/
def overlappingFailures : List Op :=
  [.submit (.refusing (fun _ => true)) 0 0 samplePlan,
    .submit (.refusing (fun _ => true)) 0 0 { samplePlan with ticker := "ETH_USDT" },
    .tick .accepting (60000 * nsPerMs)]

/-- The second of two overlapping failures has no intent: its trade stays `SubmitUnknown`. -/
theorem submitUnknown_orphaned : ¬ ∀ cfg ops, Reconciling ((init cfg).run ops) := by
  intro h
  obtain ⟨own, hown, -⟩ := (h {} overlappingFailures).own
  have horphan : ∃ t ∈ ((init {}).run overlappingFailures).allTrades,
      t.state = .submitUnknown := by
    decide +kernel
  have hempty : ((init {}).run overlappingFailures).reconciliator.pending.entries = [] := by
    decide +kernel
  obtain ⟨t, ht, hst⟩ := horphan
  obtain ⟨p, hp, -⟩ := hown t ht hst
  have hmem := AList.mem_lookup_iff.1 hp
  rw [hempty] at hmem
  simp at hmem

end TradeBot
