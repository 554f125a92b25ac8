import TradeBot.Executor.EntryReports

set_option autoImplicit false

/-! # Each reservation is released once

`cancel_all` releases the reservations of a whole bucket, and with it every step is covered: in an
orderly run the reserved balance is the sum over the outstanding entries (`reservedBalance_accounted`).
In general it is not, because a cancelled entry releases its reservation a second time when the
exchange reports its end (`reservedBalance_lost`).

`cancel_all` is the case that was left: one pass over a bucket, which releases the reservation of
every pending entry in it and takes their entries out of the outstanding ones at the same time
(`CancelledBucket.outstanding`). With it `inv_step` covers all steps, and the result is the invariant
at the end of the run. -/

namespace TradeBot

open KeyedPass LiveExecutor OrderReconciliator

namespace Desk

variable {d : Desk}

/-! ## `cancel_all` -/

/-- The trade after `cancel_all`. -/
def cancelled (t : ActiveTrade) : ActiveTrade :=
  if t.state = .closed then t else { t with state := .cancelling }

theorem cancelled_uid (t : ActiveTrade) : (cancelled t).uid = t.uid := by
  unfold cancelled
  split <;> rfl

theorem cancelled_plan (t : ActiveTrade) : (cancelled t).plan = t.plan := by
  unfold cancelled
  split <;> rfl

theorem cancelled_state_ne (t : ActiveTrade) : (cancelled t).state ≠ .pendingEntry := by
  unfold cancelled
  split
  · next hst => simp [hst]
  · simp

/-- Is the entry pending, so that `cancel_all` releases its reservation? -/
def isPending (t : ActiveTrade) : Bool := decide (t.state = .pendingEntry)

/-- The loop releases the pending entries one after the other. -/
theorem mapAccum_cancelTrade (m : Members) (l : List ActiveTrade) :
    (mapAccum cancelTrade m l).1.reservedBalanceUsd
        = Ledger.releaseAll m.reservedBalanceUsd ((l.filter isPending).map reservationOf) ∧
      (mapAccum cancelTrade m l).1.reconciliator = m.reconciliator ∧
      (mapAccum cancelTrade m l).2 = l.map cancelled := by
  induction l generalizing m with
  | nil => exact ⟨rfl, rfl, rfl⟩
  | cons t ts ih =>
      obtain ⟨hreserved, hrecon, hall⟩ := ih (cancelTrade m t).1
      have htrade : (cancelTrade m t).2 = cancelled t := by
        unfold cancelTrade cancelled
        split <;> rfl
      have hsame : (cancelTrade m t).1.reconciliator = m.reconciliator := by
        unfold cancelTrade
        split
        · rfl
        · dsimp only
          split <;> rfl
      refine ⟨?_, hrecon.trans hsame, by rw [mapAccum, hall, htrade, List.map_cons]⟩
      show (mapAccum cancelTrade (cancelTrade m t).1 ts).1.reservedBalanceUsd = _
      rw [hreserved]
      by_cases hst : t.state = .pendingEntry
      · have hm : (cancelTrade m t).1 = m.releaseReservation t.plan := by simp [cancelTrade, hst]
        rw [hm, List.filter_cons_of_pos (by simp [isPending, hst])]
        rfl
      · have hm : (cancelTrade m t).1 = m := by
          unfold cancelTrade
          rw [if_neg hst]
          split <;> rfl
        rw [hm, List.filter_cons_of_neg (by simp [isPending, hst])]

/-- The pending entries among the outstanding ones come out. -/
theorem cancelled_outstanding {l : List ActiveTrade}
    (hfree : ∀ t ∈ l, t.state = .pendingEntry → t.uid ∉ d.partly) :
    ((l.filter d.isOutstanding).map reservationOf).Perm
      ((l.filter isPending).map reservationOf
        ++ ((l.map cancelled).filter d.isOutstanding).map reservationOf) := by
  induction l with
  | nil => exact .refl _
  | cons t ts ih =>
      have ih := ih (fun x hx => hfree x (List.mem_cons_of_mem _ hx))
      have hkey : reservationOf (cancelled t) = reservationOf t := by
        rw [reservationOf, reservationOf, cancelled_uid, cancelled_plan]
      rw [List.map_cons]
      by_cases hst : t.state = .pendingEntry
      · have huid := hfree t (List.mem_cons_self ..) hst
        have hout : d.isOutstanding t = true := by simp [isOutstanding, hst]
        have hout' : ¬ d.isOutstanding (cancelled t) = true := by
          simp [isOutstanding, cancelled_uid, cancelled_state_ne, huid]
        rw [List.filter_cons_of_pos hout, List.filter_cons_of_neg hout',
          List.filter_cons_of_pos (by simp [isPending, hst])]
        exact ih.cons _
      · have hsame : d.isOutstanding (cancelled t) = d.isOutstanding t := by
          simp [isOutstanding, cancelled_uid, cancelled_state_ne, hst]
        rw [List.filter_cons_of_neg (a := t) (p := isPending) (by simp [isPending, hst])]
        by_cases hout : d.isOutstanding t = true
        · rw [List.filter_cons_of_pos hout, List.filter_cons_of_pos (hsame.trans hout),
            List.map_cons, List.map_cons, hkey]
          exact (ih.cons _).trans List.perm_middle.symm
        · rw [List.filter_cons_of_neg hout, List.filter_cons_of_neg (hsame ▸ hout)]
          exact ih

/-- What an accepted `cancel_all` makes of the bucket `l`. -/
structure CancelledBucket (d : Desk) (env : Env) (ticker : Ticker)
    (pre l post : List ActiveTrade) : Prop where
  before : d.ex.allTrades = pre ++ l ++ post
  after : (d.ex.cancelAll env ticker).1.allTrades = pre ++ l.map cancelled ++ post
  reserved : (d.ex.cancelAll env ticker).1.reservedBalanceUsd
    = Ledger.releaseAll d.ex.reservedBalanceUsd ((l.filter isPending).map reservationOf)
  reconciliator : (d.ex.cancelAll env ticker).1.reconciliator = d.ex.reconciliator
  releases : releases d.ex (.cancelAll env ticker)
    = ((l.filter isPending).map reservationOf).map Prod.fst

section CancelAll

variable {env : Env} {ticker : Ticker} {pre l post : List ActiveTrade}

theorem cancelAll_bucket (hres : env.cancelAllOrders d.ex.trace.length ticker = .ok ())
    (hfind : d.ex.trades.find? ticker = some l) :
    ∃ pre post, CancelledBucket d env ticker pre l post := by
  set m := d.ex.emit (.cancelledAll ticker (.ok ())) with hm
  obtain ⟨pre, post, hvalues, hstate, hpost⟩ :=
    BucketMap.forKey_of_find? hfind (mapAccum cancelTrade) m
  obtain ⟨hreserved, hrecon, hcancelled⟩ := mapAccum_cancelTrade m l
  have hstep : (d.ex.cancelAll env ticker).1 = rebuildActiveSnapshot (ofPass
      { d.ex with toMembers := m } (d.ex.trades.forKey ticker (mapAccum cancelTrade) m)) := by
    unfold cancelAll
    rw [hres]
  have hmembers : (d.ex.cancelAll env ticker).1.toMembers = (mapAccum cancelTrade m l).1 := by
    rw [hstep, ← hstate]
    rfl
  refine ⟨pre, post, hvalues, ?_, ?_, ?_, ?_⟩
  · rw [hstep, ← hcancelled]
    exact hpost
  · rw [hmembers]
    exact hreserved
  · rw [hmembers]
    exact hrecon
  · simp only [releases, hres, hfind, Option.getD_some, List.map_map]
    rfl

theorem CancelledBucket.mem (h : CancelledBucket d env ticker pre l post) {t' : ActiveTrade}
    (ht' : t' ∈ (d.ex.cancelAll env ticker).1.allTrades) :
    (∃ t ∈ d.ex.allTrades, t' = cancelled t) ∨ t' ∈ d.ex.allTrades := by
  rw [h.after] at ht'
  simp only [List.mem_append, List.mem_map] at ht'
  rw [h.before]
  obtain (ht' | ⟨t, ht, rfl⟩) | ht' := ht'
  · exact .inr (by simp [ht'])
  · exact .inl ⟨t, by simp [ht], rfl⟩
  · exact .inr (by simp [ht'])

/-- The reservations of the pending entries of the bucket are no longer outstanding. -/
theorem CancelledBucket.outstanding (h : CancelledBucket d env ticker pre l post)
    (hfree : ∀ t ∈ l, t.state = .pendingEntry → t.uid ∉ d.partly)
    (hop : Op.isSubmit (.cancelAll env ticker) = false) :
    ((l.filter isPending).map reservationOf
      ++ (d.step (.other (.cancelAll env ticker) hop)).outstanding).Perm d.outstanding := by
  set d' := d.step (.other (.cancelAll env ticker) hop) with hd'
  have hafter : d'.ex.allTrades = pre ++ l.map cancelled ++ post := h.after
  have hsame : d'.isOutstanding = d.isOutstanding := rfl
  rw [Desk.outstanding, Desk.outstanding, hafter, h.before, hsame]
  simp only [List.filter_append, List.map_append]
  refine .symm ?_
  refine ((((cancelled_outstanding hfree).append_left _).append_right _).append_left _).trans ?_
  simp only [List.append_assoc]
  exact (List.perm_append_comm_assoc _ _ _).append_left _ |>.trans
    (List.perm_append_comm_assoc _ _ _)

theorem inv_cancelBucket (h : d.Inv) (hcancel : CancelledBucket d env ticker pre l post)
    (hop : Op.isSubmit (.cancelAll env ticker) = false) :
    (d.step (.other (.cancelAll env ticker) hop)).Inv := by
  have hnext : (d.ex.cancelAll env ticker).1.nextUid = d.ex.nextUid :=
    grows_nextUid (cancelAll_passes h.wf.toKeyed env ticker)
  refine inv_of_ledger h (h.wf.step (.cancelAll env ticker)) rfl rfl hnext.ge
    (fun u hu => .inl hu) ?_ ?_ ?_ ?_
  · intro t' ht'
    obtain ⟨t, ht, rfl⟩ | ht' := hcancel.mem ht'
    · exact ⟨t, ht, (cancelled_uid t).symm⟩
    · exact ⟨t', ht', rfl⟩
  · intro t' ht' hst
    obtain ⟨t, ht, rfl⟩ | ht' := hcancel.mem ht'
    · exact absurd hst (cancelled_state_ne t)
    · exact h.pending t' ht' hst
  · show ∃ o, (d.ex.cancelAll env ticker).1.reconciliator.HoldsOnly o
    rw [hcancel.reconciliator]
    exact h.holds
  · have hfree : ∀ t ∈ l, t.state = .pendingEntry → t.uid ∉ d.partly := by
      intro t ht hst
      exact (h.pending t (by simp [hcancel.before, ht]) hst).1
    have hledger := h.ledger.perm (hcancel.outstanding hfree hop)
    show Ledger.Balanced (d.ex.cancelAll env ticker).1.reservedBalanceUsd _ d.taken
      (releases d.ex (.cancelAll env ticker) ++ d.released)
    rw [hcancel.reserved, hcancel.releases]
    exact hledger.releaseAll

/-- `cancel_all` releases the reservations of its pending entries, which end with it. -/
theorem inv_cancelAll (h : d.Inv) (env : Env) (ticker : Ticker)
    (hop : Op.isSubmit (.cancelAll env ticker) = false) :
    (d.step (.other (.cancelAll env ticker) hop)).Inv := by
  have hwf := h.wf.step (.cancelAll env ticker)
  cases hres : env.cancelAllOrders d.ex.trace.length ticker with
  | error e =>
      have hquiet : releases d.ex (.cancelAll env ticker) = [] := by simp [releases, hres]
      have hstep : d.ex.step (.cancelAll env ticker)
          = { d.ex with toMembers := d.ex.emit (.cancelledAll ticker (.error e)) } := by
        show (d.ex.cancelAll env ticker).1 = _
        unfold cancelAll
        rw [hres]
      rw [step_other_of_quiet hop hquiet rfl rfl, hstep]
      exact inv_data h (hstep ▸ hwf) rfl rfl rfl rfl
  | ok u =>
      cases hfind : d.ex.trades.find? ticker with
      | none =>
          -- no trade on the ticker
          have hquiet : releases d.ex (.cancelAll env ticker) = [] := by
            simp [releases, hres, hfind]
          have hstep : d.ex.step (.cancelAll env ticker) = rebuildActiveSnapshot
              { d.ex with toMembers := d.ex.emit (.cancelledAll ticker (.ok ())) } := by
            show (d.ex.cancelAll env ticker).1 = _
            unfold cancelAll
            rw [hres]
            dsimp only
            rw [BucketMap.forKey_of_find?_none hfind]
            rfl
          rw [step_other_of_quiet hop hquiet rfl rfl, hstep]
          exact inv_data h (hstep ▸ hwf) rfl rfl rfl rfl
      | some l =>
          obtain ⟨pre, post, hcancel⟩ := cancelAll_bucket hres hfind
          exact inv_cancelBucket h hcancel hop

end CancelAll

/-! ## Runs -/

/-- Every step that meets the condition keeps the invariant. -/
theorem inv_step (h : d.Inv) {a : DeskStep} (hexpire : d.NoTimeout a) (hC : d.Orderly a) :
    (d.step a).Inv := by
  cases a with
  | reserve ns plan => exact inv_reserve h ns hC
  | place env uid => exact inv_place h env uid
  | push now uid => exact inv_push h now uid
  | other op hop =>
      cases op with
      | submit => simp [Op.isSubmit] at hop
      | cancelAll env ticker => exact inv_cancelAll h env ticker hop
      | injectRecoveredTrades ts => exact inv_injectRecoveredTrades h hC hop
      | onOrderUpdate env upd => exact inv_onOrderUpdate h hC hop
      | tick env now => exact inv_tick h hop hexpire hC
      | popClosedTrades =>
          rw [step_other_of_quiet hop rfl rfl rfl]
          exact inv_popClosedTrades h hC
      | onPositionUpdate upd =>
          rw [step_other_of_quiet hop rfl rfl rfl]
          exact inv_onPositionUpdate h upd
      | closeTrade env ticker reason =>
          rw [step_other_of_quiet hop rfl rfl rfl]
          exact inv_closeTrade h env ticker reason
      | setMarkPrices marks =>
          rw [step_other_of_quiet hop rfl rfl rfl]
          exact inv_data h (h.wf.step (.setMarkPrices marks)) rfl rfl rfl rfl
      | setMarkPrice ticker price =>
          rw [step_other_of_quiet hop rfl rfl rfl]
          exact inv_data h (h.wf.step (.setMarkPrice ticker price)) rfl rfl rfl rfl
      | onBalanceUpdate now =>
          rw [step_other_of_quiet hop rfl rfl rfl]
          exact inv_data h (h.wf.step (.onBalanceUpdate now)) rfl rfl rfl rfl

end Desk

/-- In a run in which the reservation timeout does not fire and every step is orderly, the reserved
    balance is the sum over the outstanding entries, and each reservation is released once. -/
theorem reservedBalance_accounted (cfg : ExecutorConfig) {steps : List DeskStep}
    (hexpire : Runs.Along Desk.step Desk.NoTimeout (Desk.init cfg) steps)
    (hC : Runs.Along Desk.step Desk.Orderly (Desk.init cfg) steps) :
    ((Desk.init cfg).run steps).Accounted := by
  have hinv : ((Desk.init cfg).run steps).Inv :=
    (hexpire.and hC).invariant Desk.Inv (fun _ _ h hstep => Desk.inv_step h hstep.1 hstep.2)
      (Desk.inv_init cfg)
  exact hinv.accounted

/-- The entry of the sample plan is submitted. -/
def submittedSteps : List DeskStep := [.reserve 0 samplePlan, .place .accepting 0, .push 0 0]

/-- The report on the entry of `submittedSteps`, of which `filled` coins are filled. -/
def entryReport (status : OrderStatus) (filled : ℚ) : OrderUpdate :=
  { sampleFill 1 with
    clientOrderId := generateClientOrderId 0 0, status := status, filledSize := filled }

/-- The entry is submitted and filled. -/
theorem reservedBalance_accounted_filled :
    ((Desk.init {}).run (submittedSteps ++
      [.other (.onOrderUpdate .accepting (entryReport .closed 1)) rfl])).Accounted := by
  set d := (Desk.init {}).run submittedSteps with hd
  have hentry : ∀ t ∈ entryOf (entryReport .closed 1) d.ex, d.isOutstanding t = true := by
    decide +kernel
  have hroute : ∀ r ∈ d.ex.route (entryReport .closed 1), r.2.isEntry = true := by
    decide +kernel
  have hnamed : ∀ t ∈ d.ex.allTrades, t.state = .pendingEntry := by decide +kernel
  have horderly : d.OrderlyUpdate (entryReport .closed 1) :=
    { partly := fun hopened => absurd hopened (by decide)
      closed := fun _ t ht => hentry t ht
      entryOnly := fun _ hsize => absurd hsize (by decide +kernel)
      exit := fun _ t om hr hno => absurd (hroute (t, om) hr) (by simp [hno])
      named := fun _ t ht _ hst => absurd (hnamed t ht) hst }
  have hreservation : 0 ≤ samplePlan.reservation := by
    norm_num [samplePlan, TradePlan.reservation]
  exact reservedBalance_accounted {} ⟨trivial, trivial, trivial, trivial, trivial⟩
    ⟨hreservation, trivial, trivial, horderly, trivial⟩

/-- Two entries are submitted, `cancel_all` cancels the first, and the exchange reports that it is
    closed. -/
def doubleRelease : List DeskStep :=
  submittedSteps ++
    [.reserve 0 { samplePlan with ticker := "ETH_USDT" }, .place .accepting 1, .push 0 1,
      .other (.cancelAll .accepting "BTC_USDT") rfl,
      .other (.onOrderUpdate .accepting (entryReport .closed 0)) rfl]

/-- The cancelled entry releases its reservation a second time: the one of the other trade is gone. -/
theorem reservedBalance_lost : ¬ ∀ cfg steps,
    Runs.Along Desk.step Desk.NoTimeout (Desk.init cfg) steps →
      ((Desk.init cfg).run steps).Accounted := by
  intro h
  have haccounted := h {} doubleRelease ⟨trivial, trivial, trivial, trivial, trivial, trivial,
    trivial, trivial, trivial⟩
  have hreserved : ((Desk.init {}).run doubleRelease).ex.reservedBalanceUsd = 0 := by
    decide +kernel
  have hsum : (((Desk.init {}).run doubleRelease).outstanding.map Prod.snd).sum = 100 := by
    decide +kernel
  have hbalance := haccounted.balance
  rw [hreserved, hsum] at hbalance
  norm_num at hbalance

end TradeBot
