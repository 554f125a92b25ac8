import TradeBot.Executor.Reservations

set_option autoImplicit false

/-! # Steps that end no entry

A step releases nothing as long as it settles no submission and ends no entry. Then every trade keeps
its reservation (`SameEntry`), and what a step does to the executor cannot upset the account
(`inv_same`).

A tick is the longest of these steps. Its first part closes open positions, which have no outstanding
entry, and its loop over the tickers polls the intents: as long as none of them is settled no trade
is touched (`tick_unsettled`). Recovered trades come with their own states and without a reservation.
-/

namespace TradeBot

open KeyedPass LiveExecutor OrderReconciliator

section

variable {ex ex' ex'' : LiveExecutor} {o : Option PendingIntent} {env : Env} {now : TimePoint}

/-! ## A tick that settles no submission -/

theorem pollOpenOrders_stays {m : Members} {p : PendingIntent} {ticker : Ticker}
    (h : m.reconciliator.HoldsOnly (some p)) (hkey : p.intent.ticker = toInternalTicker ticker)
    (hstay : StaysPending env now m.reconciliator p) :
    ∃ res p', (pollOpenOrders env ticker now m).2 = [res] ∧ res.outcome = .pending ∧
      (pollOpenOrders env ticker now m).1.reconciliator.HoldsOnly (some p') ∧
      p'.intent = p.intent ∧
      StaysPending env now (pollOpenOrders env ticker now m).1.reconciliator p' := by
  obtain ⟨hdeadline, hfound⟩ := hstay
  by_cases hearly : now < p.nextPollAt ∧ ¬ m.reconciliator.deadlinePassed p now
  · rw [pollOpenOrders_early env h hkey hearly]
    exact ⟨_, p, rfl, rfl, h, rfl, hdeadline, hfound⟩
  · have hpoll : p.nextPollAt ≤ now := by
      by_contra hlt
      exact hearly ⟨not_le.1 hlt, by simp [hdeadline]⟩
    have hnone : ∀ os, (env.getOpenOrders m.trace.length p.intent.ticker).toOption = some os →
        os.find? (m.reconciliator.matchesIntent p.intent) = none := by
      intro os hos
      cases hget : env.getOpenOrders m.trace.length p.intent.ticker with
      | error e => simp [hget, Except.toOption] at hos
      | ok os' =>
          rw [hget] at hos
          obtain rfl : os' = os := Option.some.inj hos
          exact hfound hpoll _ _ _ hget
    rw [pollOpenOrders_due env h hkey hearly, h.pollSettle_backOff hdeadline hnone]
    exact ⟨_, _, rfl, rfl, h.backOff now, rfl, hdeadline, fun _ => hfound hpoll⟩

/-- No trade waits for the intent, or its poll settles nothing. -/
def Undecided (env : Env) (now : TimePoint) (ex : LiveExecutor) (o : Option PendingIntent) : Prop :=
  ∀ p, o = some p → (∃ t ∈ ex.allTrades, selectUnknown p.intent t = some ()) →
    StaysPending env now ex.reconciliator p

theorem handleReconciled_of_pending {res : ReconcileResult} (h : res.outcome = .pending)
    (ex : LiveExecutor) : ex.handleReconciled res = ex := by
  unfold handleReconciled
  rw [if_pos h]

theorem pollOpenOrders_reserved (env : Env) (ticker : Ticker) (now : TimePoint) (m : Members) :
    (pollOpenOrders env ticker now m).1.reservedBalanceUsd = m.reservedBalanceUsd := by
  unfold pollOpenOrders
  dsimp only
  split <;> rfl

/-- What has not been settled: the reserved balance and the `SubmitUnknown` trades are as before, and
    the intent is still undecided. -/
structure Unsettled (env : Env) (now : TimePoint) (ex ex' : LiveExecutor) : Prop where
  reserved : ex'.reservedBalanceUsd = ex.reservedBalanceUsd
  undecided : ∃ o, ex'.reconciliator.HoldsOnly o ∧ Undecided env now ex' o
  waiting : ∀ t ∈ ex.allTrades, t.state = .submitUnknown → t ∈ ex'.allTrades

theorem Unsettled.trans (h : Unsettled env now ex ex') (h' : Unsettled env now ex' ex'') :
    Unsettled env now ex ex'' := by
  refine ⟨h'.reserved.trans h.reserved, h'.undecided, fun t ht hst => ?_⟩
  exact h'.waiting t (h.waiting t ht hst) hst

/-- A trade waits for the intent, which backs off. -/
theorem tickTicker_awaited {p : PendingIntent} {ticker : Ticker}
    (h : ex.reconciliator.HoldsOnly (some p)) (hkey : p.intent.ticker = toInternalTicker ticker)
    (hpending : ex.reconciliator.hasPending ticker = true)
    (hstay : StaysPending env now ex.reconciliator p) :
    Unsettled env now ex (ex.tickTicker env now ticker) := by
  obtain ⟨res, p', hres, hout, hholds, hintent, hstay'⟩ := pollOpenOrders_stays h hkey hstay
  rw [tickTicker_of_pending hpending, hres, List.foldl_cons, List.foldl_nil,
    handleReconciled_of_pending hout]
  refine ⟨pollOpenOrders_reserved env ticker now ex.toMembers, ⟨some p', hholds, ?_⟩,
    fun t ht _ => ht⟩
  rintro _ ⟨⟩ _
  exact hstay'

/-- A result for an intent that no trade waits for changes nothing. -/
theorem handleReconciled_unawaited {intent : OrderIntent} {res : ReconcileResult}
    (hintent : res.intent = some intent)
    (hnone : ∀ t ∈ ex.allTrades, selectUnknown intent t = none) :
    (ex.handleReconciled res).toMembers = ex.toMembers ∧
      (ex.handleReconciled res).allTrades = ex.allTrades := by
  by_cases hout : res.outcome = .pending
  · rw [handleReconciled_of_pending hout]
    exact ⟨rfl, rfl⟩
  · obtain ⟨-, hm, ht⟩ | ⟨pre, t, post, hsplit, -, ht, -⟩ := handleReconciled_spec ex hout hintent
    · exact ⟨hm, ht⟩
    · have hin : t ∈ ex.allTrades := by rw [hsplit]; simp
      exact absurd ht (by simp [hnone t hin])

/-- No trade waits for the intent: whatever the poll says about it concerns none. -/
theorem tickTicker_unawaited {p : PendingIntent} {ticker : Ticker}
    (h : ex.reconciliator.HoldsOnly (some p)) (hkey : p.intent.ticker = toInternalTicker ticker)
    (hpending : ex.reconciliator.hasPending ticker = true)
    (hnone : ∀ t ∈ ex.allTrades, selectUnknown p.intent t = none) :
    Unsettled env now ex (ex.tickTicker env now ticker) := by
  obtain ⟨res, o', hres, hholds, hpolled⟩ := pollOpenOrders_polled env now h hkey
  rw [tickTicker_of_pending hpending, hres, List.foldl_cons, List.foldl_nil]
  set polled : LiveExecutor :=
    { ex with toMembers := (pollOpenOrders env ticker now ex.toMembers).1 } with hpolledDef
  have hpolledNone : ∀ t ∈ polled.allTrades, selectUnknown p.intent t = none := hnone
  obtain ⟨hmembers, hall⟩ := handleReconciled_unawaited hpolled.intent hpolledNone
  have hsame : (polled.handleReconciled res).allTrades = ex.allTrades := hall
  refine ⟨?_, ⟨o', hmembers ▸ hholds, ?_⟩, fun t ht _ => hsame ▸ ht⟩
  · rw [hmembers]
    exact pollOpenOrders_reserved env ticker now ex.toMembers
  · rintro p' rfl ⟨t, ht, hu⟩
    rw [hsame] at ht
    by_cases hout : res.outcome = .pending
    · obtain ⟨-, q, hq, hintent, -⟩ := hpolled.kept hout
      rw [Option.some.inj hq, hintent] at hu
      exact absurd hu (by simp [hnone t ht])
    · exact absurd (hpolled.settled hout) (by simp)

/-- The rearming of stops has nothing to do with submissions. -/
theorem tickTicker_idle (hex : Keyed ex) (h : ex.reconciliator.HoldsOnly o)
    (hund : Undecided env now ex o) {ticker : Ticker}
    (hidle : ¬ ex.reconciliator.hasPending ticker = true) :
    Unsettled env now ex (ex.tickTicker env now ticker) := by
  have hpass : Passes (TickersTurn env now [ticker]) ex (ex.tickTicker env now ticker) :=
    tickTicker_passes hex ticker
  have hrearm := passes_forKey (rearmTurn env now) ticker (rearmTurn_keeps env now) hex
  have hbooks : SameBooks ex.toMembers (ex.tickTicker env now ticker).toMembers := by
    rw [tickTicker_of_idle hidle]
    exact forKey_books (rearmTurn_books env now) ticker ex.toMembers ex.trades
  refine ⟨hbooks.reserved, ⟨o, hbooks.reconciliator ▸ h, ?_⟩, ?_⟩
  · rintro p hp ⟨t, ht, hu⟩
    have hin := hpass.submitUnknown_mem ht (submitUnknown_of_selectUnknown hu)
    rw [hbooks.reconciliator]
    exact hund p hp ⟨t, hin, hu⟩
  · intro t ht hst
    obtain ⟨t', ht', m₁, m₂, -, hturn, -⟩ := hrearm.move_of_mem ht
    have heq : t' = t := by
      rcases hturn with ⟨_, heq⟩ | ⟨_, heq⟩
      · have hnot : ¬ rearmDue now t = true := by
          intro hdue
          exact absurd (hst.symm.trans (rearmDue_opened hdue)) (by simp)
        have := (Prod.mk.inj heq).1
        simpa [rearmTurn, hnot] using this
      · exact (Prod.mk.inj heq).1
    rw [tickTicker_of_idle hidle]
    exact heq ▸ ht'

/-- One turn of `tick`'s loop. -/
theorem tickTicker_unsettled (hex : Keyed ex) (h : ex.reconciliator.HoldsOnly o)
    (hund : Undecided env now ex o) (ticker : Ticker) :
    Unsettled env now ex (ex.tickTicker env now ticker) := by
  by_cases hpending : ex.reconciliator.hasPending ticker = true
  · obtain ⟨p, rfl, hkey⟩ := (h.hasPending_iff ticker).1 hpending
    by_cases hsel : ∃ t ∈ ex.allTrades, selectUnknown p.intent t = some ()
    · exact tickTicker_awaited h hkey hpending (hund p rfl hsel)
    · refine tickTicker_unawaited h hkey hpending (fun t ht => ?_)
      by_contra hsome
      obtain ⟨⟨⟩, hu⟩ := Option.ne_none_iff_exists'.1 hsome
      exact hsel ⟨t, ht, hu⟩
  · exact tickTicker_idle hex h hund hpending

theorem tickTicker_foldl_unsettled (ks : List Ticker) (hex : Keyed ex)
    (h : ex.reconciliator.HoldsOnly o) (hund : Undecided env now ex o) :
    Unsettled env now ex (ks.foldl (tickTicker env now) ex) := by
  induction ks generalizing ex o with
  | nil => exact ⟨rfl, ⟨o, h, hund⟩, fun t ht _ => ht⟩
  | cons k ks ih =>
      have hpass : Passes (TickersTurn env now [k]) ex (ex.tickTicker env now k) :=
        tickTicker_passes hex k
      have hone := tickTicker_unsettled hex h hund k
      obtain ⟨o', h', hund'⟩ := hone.undecided
      exact hone.trans (ih (hpass.after hex) h' hund')

/-- The first part of `tick` closes open positions only. -/
theorem tickClose_unsettled (hex : Keyed ex) (h : ex.reconciliator.HoldsOnly o)
    (hund : Undecided env now ex o)
    (hexpire : ¬ (0 < ex.reservedBalanceUsd ∧
      ex.cfg.balanceReservationTimeout < now - ex.lastBalanceUpdate)) :
    Unsettled env now ex (tickClose env (tickCollect now ex).2 (tickCollect now ex).1) := by
  have hcollect : Passes (CollectTurn ex.toMembers env now) ex
    (tickClose env (tickCollect now ex).2 (tickCollect now ex).1) := tickClose_collect_passes hex
  set ex₁ := tickClose env (tickCollect now ex).2 (tickCollect now ex).1 with hex₁
  have hbooks : SameBooks ex.toMembers ex₁.toMembers := by
    have hm : (tickCollect now ex).1.toMembers = ex.toMembers := by
      show expireReservation now ex.toMembers = ex.toMembers
      exact if_neg hexpire
    have hclose := foldl_execCloseAction_books env (tickCollect now ex).2
      (tickCollect now ex).1.toMembers
    rw [hm] at hclose
    exact hm ▸ hclose
  refine ⟨hbooks.reserved, ⟨o, hbooks.reconciliator ▸ h, ?_⟩, ?_⟩
  · rintro p hp ⟨t, ht, hu⟩
    obtain ⟨x, hx, m₁, m₂, -, hturn, -⟩ := hcollect.of_mem ht
    have heq : t = x := hturn.submitUnknown (submitUnknown_of_selectUnknown hu)
    rw [hbooks.reconciliator]
    exact hund p hp ⟨t, heq ▸ hx, hu⟩
  · intro t ht hst
    obtain ⟨t', ht', m₁, m₂, -, hturn, -⟩ := hcollect.move_of_mem ht
    cases hturn with
    | spared => exact ht'
    | emergency hact =>
        obtain ⟨-, hopen, -⟩ := closeAction?_eq_some hact
        exact absurd (hst.symm.trans hopen) (by simp)

/-- A tick that settles no submission and lets no reservation expire. -/
theorem tick_unsettled (hex : Keyed ex) (h : ex.reconciliator.HoldsOnly o)
    (hund : Undecided env now ex o)
    (hexpire : ¬ (0 < ex.reservedBalanceUsd ∧
      ex.cfg.balanceReservationTimeout < now - ex.lastBalanceUpdate)) :
    Unsettled env now ex (ex.tick env now) := by
  have hclose := tickClose_unsettled hex h hund hexpire
  have hcollect : Passes (CollectTurn ex.toMembers env now) ex
    (tickClose env (tickCollect now ex).2 (tickCollect now ex).1) := tickClose_collect_passes hex
  obtain ⟨o₁, h₁, hund₁⟩ := hclose.undecided
  exact hclose.trans
    (tickTicker_foldl_unsettled (ex.trades.map Prod.fst) (hcollect.after hex) h₁ hund₁)

end

namespace Desk

variable {d : Desk}

/-! ## Operations that end and begin no entry -/

/-- The trade, and whether it is `PendingEntry`, are as before. -/
structure SameEntry (t t' : ActiveTrade) : Prop where
  uid : t'.uid = t.uid
  plan : t'.plan = t.plan
  pending : t'.state = .pendingEntry ↔ t.state = .pendingEntry
  size : t'.state = .pendingEntry → t'.executedSize = t.executedSize

theorem SameEntry.refl (t : ActiveTrade) : SameEntry t t := ⟨rfl, rfl, Iff.rfl, fun _ => rfl⟩

theorem SameEntry.reservationOf {t t' : ActiveTrade} (h : SameEntry t t') :
    reservationOf t' = reservationOf t := by
  rw [Desk.reservationOf, Desk.reservationOf, h.uid, h.plan]

theorem SameEntry.isOutstanding {t t' : ActiveTrade} (h : SameEntry t t') (d : Desk) :
    d.isOutstanding t' = d.isOutstanding t := by
  rw [Desk.isOutstanding, Desk.isOutstanding, h.uid, decide_eq_decide.2 h.pending]

/-- Trade by trade the same outstanding reservations. -/
theorem filter_outstanding_congr {p p' : ActiveTrade → Bool} {l l' : List ActiveTrade}
    (h : List.Forall₂ (fun t t' => reservationOf t' = reservationOf t ∧ p' t' = p t) l l') :
    (l'.filter p').map reservationOf = (l.filter p).map reservationOf := by
  induction h with
  | nil => rfl
  | @cons t t' l l' hd _ ih =>
      obtain ⟨hkey, hp⟩ := hd
      by_cases hout : p t = true
      · rw [List.filter_cons_of_pos hout, List.filter_cons_of_pos (hp.trans hout), List.map_cons,
          List.map_cons, hkey, ih]
      · rw [List.filter_cons_of_neg hout, List.filter_cons_of_neg (hp ▸ hout), ih]

/-- The submissions go on and no trade is added: what remains to be seen is the ledger. -/
theorem inv_of_ledger (h : d.Inv) {d' : Desk} (hwf : d'.ex.WF)
    (hsubs : d'.submissions = d.submissions) (htaken : d'.taken = d.taken)
    (hnext : d.ex.nextUid ≤ d'.ex.nextUid)
    (hpartly : ∀ u ∈ d'.partly, u ∈ d.partly ∨ ∃ t ∈ d.ex.allTrades, t.uid = u)
    (huids : ∀ t' ∈ d'.ex.allTrades, ∃ t ∈ d.ex.allTrades, t.uid = t'.uid)
    (hpending : ∀ t' ∈ d'.ex.allTrades, t'.state = .pendingEntry →
      t'.uid ∉ d'.partly ∧ t'.executedSize = 0)
    (hholds : ∃ o, d'.ex.reconciliator.HoldsOnly o)
    (hledger : Ledger.Balanced d'.ex.reservedBalanceUsd d'.outstanding d.taken d'.released) :
    d'.Inv := by
  refine ⟨hwf, ?_, htaken ▸ hledger, ?_, ?_, hpending, hholds⟩
  · intro s hs
    obtain ⟨hwait, hst, hfree⟩ := h.waiting s (hsubs ▸ hs)
    refine ⟨⟨hwait.key, hwait.used.trans_le hnext, fun t' ht' => ?_, hwait.executedSize⟩, hst, ?_⟩
    · obtain ⟨t, ht, huid⟩ := huids t' ht'
      exact huid ▸ hwait.absent t ht
    · intro hin
      obtain hin | ⟨t, ht, huid⟩ := hpartly _ hin
      · exact hfree hin
      · exact hwait.absent t ht huid
  · exact fun u hu => (h.takenOld u (htaken ▸ hu)).trans_le hnext
  · intro u hu
    obtain hin | ⟨t, ht, rfl⟩ := hpartly u hu
    · exact (h.partlyOld u hin).trans_le hnext
    · exact (h.wf.fresh t ht).trans_le hnext

/-- An operation that neither reserves nor releases, and leaves every entry as it is. -/
theorem inv_same (h : d.Inv) {ex : LiveExecutor} (hwf : ex.WF) (hnext : d.ex.nextUid ≤ ex.nextUid)
    (hreserved : ex.reservedBalanceUsd = d.ex.reservedBalanceUsd)
    (hholds : ∃ o, ex.reconciliator.HoldsOnly o)
    (hsame : List.Forall₂ SameEntry d.ex.allTrades ex.allTrades) : Inv { d with ex := ex } := by
  refine inv_of_ledger h hwf rfl rfl hnext (fun u hu => .inl hu) ?_ ?_ hholds ?_
  · intro t' ht'
    obtain ⟨t, ht, hentry⟩ := forall₂_exists_of_mem hsame ht'
    exact ⟨t, ht, hentry.uid.symm⟩
  · intro t' ht' hst'
    obtain ⟨t, ht, hentry⟩ := forall₂_exists_of_mem hsame ht'
    rw [hentry.uid, hentry.size hst']
    exact h.pending t ht (hentry.pending.1 hst')
  · have hfilter : (ex.allTrades.filter d.isOutstanding).map Desk.reservationOf
        = (d.ex.allTrades.filter d.isOutstanding).map Desk.reservationOf :=
      filter_outstanding_congr
        (hsame.imp (fun _ _ hentry => ⟨hentry.reservationOf, hentry.isOutstanding d⟩))
    have hout : ({ d with ex := ex } : Desk).outstanding = d.outstanding :=
      congrArg (d.submissions.map (fun s => Desk.reservationOf s.inFlight.trade) ++ ·) hfilter
    rw [hout]
    exact hreserved ▸ h.ledger

/-- A step whose notes are empty changes the executor only. -/
theorem step_other_of_quiet {op : Op} (hop : op.isSubmit = false) (hreleases : releases d.ex op = [])
    (hpartly : partialFills d.ex op = []) (hends : entryEnds d.ex op = []) :
    d.step (.other op hop) = { d with ex := d.ex.step op } := by
  simp only [step, hreleases, hpartly, hends, List.nil_append]

/-- The operations that close positions or move data do not touch a trade's entry, as long as no
    submission is settled. -/
theorem sameEntry_of_outcome {ex : LiveExecutor} {m : Members} {op : Op} {t t' : ActiveTrade}
    {evs : List Event} (h : TradeOutcome ex m t op evs t') (huid : t'.uid = t.uid)
    (hplan : t'.plan = t.plan) (hcancel : ∀ env ticker, op ≠ .cancelAll env ticker)
    (hupdate : ∀ env upd, op ≠ .onOrderUpdate env upd)
    (hunknown : ∀ env now, op = .tick env now → t.state = .submitUnknown → t' = t) :
    SameEntry t t' := by
  cases h with
  | rest => exact .refl t
  | position => exact ⟨rfl, rfl, Iff.rfl, fun _ => rfl⟩
  | cancel => exact absurd rfl (hcancel _ _)
  | emergency hdue hst =>
      exact ⟨huid, hplan, by simp [hst, ActiveTrade.markClosing], fun h => by
        simp [ActiveTrade.markClosing] at h⟩
  | rearm => exact ⟨rfl, rfl, Iff.rfl, fun _ => rfl⟩
  | resolved hst | timeout hst => exact hunknown _ _ rfl hst ▸ .refl t
  | @close env ticker reason pre ct n hticker hst =>
      have hnever : (t.afterClose (env.placeOrder n t.marketClose)).state ≠ .pendingEntry := by
        rw [afterClose_state, hst]
        split <;> simp
      exact ⟨huid, hplan, by simp [hst, hnever], fun h => absurd h hnever⟩
  | _ => exact absurd rfl (hupdate _ _)

theorem sameEntry_of_passes {ex ex' : LiveExecutor} {op : Op}
    (hpasses : Passes (TradeTurn ex op) ex ex') (hcancel : ∀ env ticker, op ≠ .cancelAll env ticker)
    (hupdate : ∀ env upd, op ≠ .onOrderUpdate env upd)
    (hunknown : ∀ env now, op = .tick env now → ∀ t ∈ ex.allTrades, t.state = .submitUnknown →
      ∀ t' ∈ ex'.allTrades, t'.uid = t.uid → t' = t) :
    List.Forall₂ SameEntry ex.allTrades ex'.allTrades := by
  have hmoves := forall₂_imp_mem_right
    (S := fun t t' => t' ∈ ex'.allTrades ∧
      tradeFrame.Move (TradeTurn ex op) (t, ex.toMembers) (t', ex'.toMembers))
    (fun _ _ ht' hmove => ⟨ht', hmove⟩) hpasses.refines.moves
  refine forall₂_imp_mem (fun t ht t' hmove => ?_) hmoves
  obtain ⟨ht', m₁, m₂, -, hturn, -⟩ := hmove
  obtain ⟨evs, -, hout⟩ := hturn.outcome
  exact sameEntry_of_outcome hout hturn.keeps.uid hturn.keeps.plan hcancel hupdate
    (fun env now hop hst => hunknown env now hop t ht hst t' ht' hturn.keeps.uid)

theorem grows_nextUid {ex ex' : LiveExecutor} {op : Op} (h : Passes (TradeTurn ex op) ex ex') :
    ex'.nextUid = ex.nextUid := by
  obtain ⟨evs, hg⟩ := h.grows
  exact hg.nextUid

theorem inv_onPositionUpdate (h : d.Inv) (upd : PositionUpdate) :
    Inv { d with ex := d.ex.onPositionUpdate upd } := by
  have hpasses := onPositionUpdate_passes h.wf.toKeyed upd
  have hbooks := forKey_books (f := applyPositionUpdate upd) (fun m t => .refl m) upd.ticker
    d.ex.toMembers d.ex.trades
  exact inv_same h (h.wf.step (.onPositionUpdate upd)) (grows_nextUid hpasses).ge hbooks.reserved
    (hbooks.reconciliator ▸ h.holds) (sameEntry_of_passes hpasses (by simp) (by simp) (by simp))

theorem inv_closeTrade (h : d.Inv) (env : Env) (ticker : Ticker) (reason : String) :
    Inv { d with ex := d.ex.closeTrade env ticker reason } := by
  have hpasses := closeTrade_passes h.wf.toKeyed env ticker reason
  have hbooks := forKey_books (closeTradeTurn_books env reason) ticker d.ex.toMembers d.ex.trades
  exact inv_same h (h.wf.step (.closeTrade env ticker reason)) (grows_nextUid hpasses).ge
    hbooks.reserved (hbooks.reconciliator ▸ h.holds)
    (sameEntry_of_passes hpasses (by simp) (by simp) (by simp))

/-- A tick that settles no submission. -/
theorem inv_tick (h : d.Inv) {env : Env} {now : TimePoint}
    (hop : Op.isSubmit (.tick env now) = false)
    (hexpire : d.NoTimeout (.other (.tick env now) hop))
    (hC : d.Orderly (.other (.tick env now) hop)) :
    (d.step (.other (.tick env now) hop)).Inv := by
  obtain ⟨o, hholds⟩ := h.holds
  have hund : Undecided env now d.ex o := by
    rintro p rfl hwaiting
    exact hC p hholds.lookup_zero hwaiting
  have hunsettled := tick_unsettled h.wf.toKeyed hholds hund hexpire
  obtain ⟨o', hholds', -⟩ := hunsettled.undecided
  have hwf := h.wf.step (.tick env now)
  have hunknown : ∀ t ∈ d.ex.allTrades, t.state = .submitUnknown →
      ∀ t' ∈ (d.ex.tick env now).allTrades, t'.uid = t.uid → t' = t := by
    intro t ht hst t' ht' huid
    exact List.inj_on_of_nodup_map hwf.nodup ht' (hunsettled.waiting t ht hst) huid
  have hquiet : releases d.ex (.tick env now) = [] := by
    refine List.map_eq_nil_iff.2 (List.filter_eq_nil_iff.2 (fun t ht hgone => ?_))
    simp only [Bool.and_eq_true, decide_eq_true_eq, List.any_eq_true] at hgone
    obtain ⟨hst, t', ht', huid, hclosed⟩ := hgone
    rw [hunknown t ht hst t' ht' huid] at hclosed
    exact absurd (hst.symm.trans hclosed) (by simp)
  rw [step_other_of_quiet hop hquiet rfl rfl]
  have hpasses := tick_passes h.wf.toKeyed env now
  exact inv_same h hwf (grows_nextUid hpasses).ge hunsettled.reserved ⟨o', hholds'⟩
    (sameEntry_of_passes hpasses (by simp) (by simp) (fun _ _ _ => hunknown))

/-- An operation that only moves data. -/
theorem inv_data (h : d.Inv) {ex : LiveExecutor} (hwf : ex.WF) (hnext : ex.nextUid = d.ex.nextUid)
    (hreserved : ex.reservedBalanceUsd = d.ex.reservedBalanceUsd)
    (hrecon : ex.reconciliator = d.ex.reconciliator) (hall : ex.allTrades = d.ex.allTrades) :
    Inv { d with ex := ex } :=
  inv_same h hwf hnext.ge hreserved (hrecon ▸ h.holds)
    (hall ▸ List.forall₂_same.2 (fun t _ => .refl t))

/-- The purge takes no outstanding entry away. -/
theorem inv_popClosedTrades (h : d.Inv)
    (hC : ∀ t ∈ d.ex.allTrades, t.state = .closed → d.isOutstanding t = false) :
    Inv { d with ex := d.ex.popClosedTrades.1 } := by
  have hall : d.ex.popClosedTrades.1.allTrades
      = d.ex.allTrades.filter (fun t => decide (t.state ≠ .closed)) :=
    BucketMap.values_filterValues ..
  have hsub : ∀ t ∈ d.ex.popClosedTrades.1.allTrades, t ∈ d.ex.allTrades := by
    intro t ht
    rw [hall] at ht
    exact (List.mem_filter.1 ht).1
  refine inv_of_ledger h (h.wf.step .popClosedTrades) rfl rfl le_rfl (fun u hu => .inl hu)
    (fun t ht => ⟨t, hsub t ht, rfl⟩) (fun t ht => h.pending t (hsub t ht)) h.holds ?_
  · have hfilter : d.ex.popClosedTrades.1.allTrades.filter d.isOutstanding
        = d.ex.allTrades.filter d.isOutstanding := by
      rw [hall, List.filter_filter]
      refine List.filter_congr (fun t ht => ?_)
      by_cases hst : t.state = .closed
      · simp [hC t ht hst]
      · simp [hst]
    have hout : ({ d with ex := d.ex.popClosedTrades.1 } : Desk).outstanding = d.outstanding :=
      congrArg (fun l => d.submissions.map (fun s => Desk.reservationOf s.inFlight.trade)
        ++ l.map Desk.reservationOf) hfilter
    rw [hout]
    exact h.ledger

/-! ## Recovered trades -/

/-- The recovered trades join the old ones with the next uids, in their own states. -/
theorem foldl_injectOne_perm (ts : List ActiveTrade) (ex : LiveExecutor) :
    ∃ added, (ts.foldl injectOne ex).allTrades.Perm (added ++ ex.allTrades) ∧
      (ts.foldl injectOne ex).nextUid = ex.nextUid + ts.length ∧
      ∀ t' ∈ added, ex.nextUid ≤ t'.uid ∧ t'.uid < ex.nextUid + ts.length ∧
        ∃ t ∈ ts, t'.state = t.state := by
  induction ts generalizing ex with
  | nil => exact ⟨[], .refl _, rfl, by simp⟩
  | cons t ts ih =>
      obtain ⟨added, hperm, hnext, hadded⟩ := ih (ex.injectOne t)
      have hone : (ex.injectOne t).allTrades.Perm ({ t with uid := ex.nextUid } :: ex.allTrades) :=
        BucketMap.values_push ..
      have hnext' : (ex.injectOne t).nextUid = ex.nextUid + 1 := rfl
      rw [hnext'] at hnext hadded
      refine ⟨{ t with uid := ex.nextUid } :: added, ?_, ?_, ?_⟩
      · exact hperm.trans ((hone.append_left added).trans List.perm_middle)
      · rw [List.foldl_cons, hnext, List.length_cons]
        omega
      · intro t' ht'
        rw [List.length_cons]
        rcases List.mem_cons.1 ht' with rfl | ht'
        · refine ⟨le_refl _, ?_, t, List.mem_cons_self .., rfl⟩
          show ex.nextUid < _
          omega
        · obtain ⟨hle, hlt, x, hx, hst⟩ := hadded t' ht'
          exact ⟨by omega, by omega, x, List.mem_cons_of_mem _ hx, hst⟩

theorem inv_injectRecoveredTrades (h : d.Inv) {ts : List ActiveTrade}
    (hC : ∀ t ∈ ts, t.state ≠ .pendingEntry) (hop : Op.isSubmit (.injectRecoveredTrades ts) = false) :
    (d.step (.other (.injectRecoveredTrades ts) hop)).Inv := by
  obtain ⟨added, hperm, hnext, hadded⟩ := foldl_injectOne_perm ts d.ex
  have hbooks := injectRecoveredTrades_books ts d.ex
  set d' := d.step (.other (.injectRecoveredTrades ts) hop) with hd'
  have hall : d'.ex.allTrades.Perm (added ++ d.ex.allTrades) := hperm
  have hle : d.ex.nextUid ≤ d'.ex.nextUid := (Nat.le_add_right ..).trans hnext.ge
  -- a new trade has its entry behind it, an old one is as before
  have hnew : ∀ t ∈ added, d'.isOutstanding t = false := by
    intro t ht
    obtain ⟨hfresh, hlt, x, hx, hst⟩ := hadded t ht
    have hfree : t.uid ∉ d.partly := fun hin => absurd (h.partlyOld _ hin) (not_lt.2 hfresh)
    have hpending : t.state ≠ .pendingEntry := hst ▸ hC x hx
    have hpartly : d'.partly = d.partly := rfl
    simp [isOutstanding, hpending, hpartly, hfree]
  have hold : ∀ t ∈ d.ex.allTrades, d'.isOutstanding t = d.isOutstanding t := by
    intro t ht
    have hend : t.uid ∈ d'.ended ↔ t.uid ∈ d.ended := by
      have hused := h.wf.fresh t ht
      show t.uid ∈ List.range' d.ex.nextUid ts.length ++ d.ended ↔ _
      rw [List.mem_append, List.mem_range'_1]
      exact or_iff_right (fun hin => absurd hused (not_lt.2 hin.1))
    have hpartly : d'.partly = d.partly := rfl
    simp only [isOutstanding, hend, hpartly]
  refine ⟨h.wf.step (.injectRecoveredTrades ts), ?_, ?_, fun u hu => (h.takenOld u hu).trans_le hle,
    fun u hu => (h.partlyOld u hu).trans_le hle, ?_, hbooks.reconciliator ▸ h.holds⟩
  · intro s hs
    obtain ⟨hwait, hst, hfree⟩ := h.waiting s hs
    refine ⟨⟨hwait.key, hwait.used.trans_le hle, fun t ht => ?_, hwait.executedSize⟩, hst, hfree⟩
    rcases List.mem_append.1 (hall.mem_iff.1 ht) with ht | ht
    · exact fun heq => absurd hwait.used (not_lt.2 (heq ▸ (hadded t ht).1))
    · exact hwait.absent t ht
  · -- so what is outstanding is what was
    have hfilter : (d'.ex.allTrades.filter d'.isOutstanding).Perm
        (d.ex.allTrades.filter d.isOutstanding) := by
      refine (hall.filter _).trans (.of_eq ?_)
      rw [List.filter_append, List.filter_congr hold,
        List.filter_eq_nil_iff.2 (fun t ht => by simp [hnew t ht]), List.nil_append]
    have hout : d'.outstanding.Perm d.outstanding :=
      (hfilter.map Desk.reservationOf).append_left _
    have hreserved : d'.ex.reservedBalanceUsd = d.ex.reservedBalanceUsd := hbooks.reserved
    rw [hreserved]
    exact h.ledger.perm hout
  · intro t ht hst
    rcases List.mem_append.1 (hall.mem_iff.1 ht) with ht | ht
    · obtain ⟨-, -, x, hx, hstx⟩ := hadded t ht
      exact absurd (hstx.symm.trans hst) (hC x hx)
    · exact h.pending t ht hst

end Desk

end TradeBot
