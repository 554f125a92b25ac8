import TradeBot.Executor.SubmitRace
import TradeBot.Executor.UnknownSubmits
import TradeBot.Lib.Ledger

set_option autoImplicit false

/-! # The reserved balance

`submit` reserves the value of the entry, and five places release it: the catch block of `submit`,
`cancel_all`, a closed entry, a reconciliation that times out, and the reservation timeout. The
reservation should be held as long as the entry order is outstanding, and be released once.

`Desk` is the executor with the submissions in progress, whose parts interleave with all other
operations, and with the notes of an observer: for which trades the balance was reserved and
released, and whose entries were reported partially filled and closed.

`Inv` ties three things together: the submissions in progress wait for their turn, the ledger is
balanced over the outstanding entries, and no uid is used twice. The parts of a submission are proved
to keep it here, the reports on entries, quiet steps and `cancel_all` in the modules that follow. -/

namespace TradeBot

open KeyedPass LiveExecutor OrderReconciliator

/-! ## The machine -/

/-- What `submit` reserves for the plan. -/
def TradePlan.reservation (plan : TradePlan) : ℚ := plan.sizeCoin * plan.entryPrice

/-- A submission in progress; `answer` is what the gateway said, once it has. -/
structure Submission where
  inFlight : InFlight
  answer : Option (Except String PlaceOrderResult) := none

/-- The uid of the trade that it is going to add. -/
def Submission.uid (s : Submission) : ℕ := s.inFlight.trade.uid

/-- The lists hold uids of trades. -/
structure Desk where
  ex : LiveExecutor
  submissions : List Submission := []
  taken : List ℕ := []
  released : List ℕ := []
  partly : List ℕ := []
  ended : List ℕ := []

/-- The operation is `submit`, which `Desk` performs in its three parts. -/
def LiveExecutor.Op.isSubmit : Op → Bool
  | .submit .. => true
  | _ => false

/-- A part of a submission, or any other operation. -/
inductive DeskStep
  | reserve (ns : ℕ) (plan : TradePlan)
  | place (env : Env) (uid : ℕ)
  | push (now : TimePoint) (uid : ℕ)
  | other (op : Op) (hop : op.isSubmit = false)

/-- The trade that takes the update as a report on its entry. -/
def entryOf (upd : OrderUpdate) (ex : LiveExecutor) : Option ActiveTrade :=
  match ex.route upd with
  | some (t, om) => if om.isEntry then some t else none
  | none => none

/-- The update is about the trade's entry order, by its order id or by its client id. -/
def namesEntry (upd : OrderUpdate) (t : ActiveTrade) : Bool :=
  decide (upd.ticker = t.plan.ticker) &&
    (matchesId upd t.entryOrderId ||
      (decide (upd.clientOrderId ≠ "") && decide (upd.clientOrderId = t.entryClientOrderId)))

/-- The trades whose reservation the operation releases, once for every release. -/
def releases (ex : LiveExecutor) : Op → List ℕ
  | .cancelAll env ticker =>
      match env.cancelAllOrders ex.trace.length ticker with
      | .ok _ => (((ex.trades.find? ticker).getD []).filter
          (fun t => decide (t.state = .pendingEntry))).map ActiveTrade.uid
      | .error _ => []
  | .onOrderUpdate _ upd =>
      if upd.status = .closed then (entryOf upd ex).toList.map ActiveTrade.uid else []
  | .tick env now =>
      -- the submissions that the poll gives up
      (ex.allTrades.filter (fun t => decide (t.state = .submitUnknown) &&
        (ex.tick env now).allTrades.any
          (fun t' => decide (t'.uid = t.uid) && decide (t'.state = .closed)))).map ActiveTrade.uid
  | _ => []

/-- The trades whose entry the operation reports partially filled. -/
def partialFills (ex : LiveExecutor) : Op → List ℕ
  | .onOrderUpdate _ upd =>
      if upd.status = .opened ∧ 0 < upd.filledSize then
        (entryOf upd ex).toList.map ActiveTrade.uid
      else []
  | _ => []

/-- The trades whose entry the operation reports closed, and the recovered ones, whose entry was
    filled before. -/
def entryEnds (ex : LiveExecutor) : Op → List ℕ
  | .onOrderUpdate _ upd =>
      if upd.status = .closed then
        (entryOf upd ex).toList.map ActiveTrade.uid ++
          (ex.allTrades.filter (namesEntry upd)).map ActiveTrade.uid
      else []
  | .injectRecoveredTrades ts => List.range' ex.nextUid ts.length
  | _ => []

/-- A poll at `now` neither finds the order of the intent nor gives it up. -/
def StaysPending (env : Env) (now : TimePoint) (r : OrderReconciliator) (p : PendingIntent) :
    Prop :=
  r.deadlinePassed p now = false ∧
    (p.nextPollAt ≤ now → ∀ n key orders, env.getOpenOrders n key = .ok orders →
      orders.find? (r.matchesIntent p.intent) = none)

namespace Desk

/-- The desk at its start. -/
def init (cfg : ExecutorConfig) : Desk := { ex := LiveExecutor.init cfg }

/-- A part of a submission that is not due changes nothing. -/
def step (d : Desk) : DeskStep → Desk
  | .reserve ns plan =>
      let (ex, f) := submitReserve ns plan d.ex
      { d with
        ex := ex
        submissions := { inFlight := f } :: d.submissions
        taken := f.trade.uid :: d.taken }
  | .place env uid =>
      match d.submissions.find? (fun s => decide (s.uid = uid) && s.answer.isNone) with
      | none => d
      | some s =>
          let (ex, res) := submitPlace env s.inFlight d.ex
          { d with
            ex := ex
            submissions := d.submissions.map
              (fun s => if s.uid = uid then { s with answer := some res } else s) }
  | .push now uid =>
      match d.submissions.find? (fun s => decide (s.uid = uid)) with
      | some { inFlight := f, answer := some res } =>
          { d with
            ex := submitPush now f res d.ex
            submissions := d.submissions.filter (fun s => decide (s.uid ≠ uid))
            released := if res.isOk then d.released else uid :: d.released }
      | _ => d
  | .other op _ =>
      { d with
        ex := d.ex.step op
        released := releases d.ex op ++ d.released
        partly := partialFills d.ex op ++ d.partly
        ended := entryEnds d.ex op ++ d.ended }

/-- The desk after some steps. -/
def run (d : Desk) (steps : List DeskStep) : Desk := steps.foldl step d

/-! ## Statement -/

/-- The entry of the trade is outstanding: `PendingEntry`, or partially filled and not closed. -/
def isOutstanding (d : Desk) (t : ActiveTrade) : Bool :=
  decide (t.state = .pendingEntry) || (decide (t.uid ∈ d.partly) && decide (t.uid ∉ d.ended))

/-- A trade's uid and what was reserved for it. -/
def reservationOf (t : ActiveTrade) : ℕ × ℚ := (t.uid, t.plan.reservation)

/-- The reservations of the entries that are outstanding, in flight or in `trades_`. -/
def outstanding (d : Desk) : List (ℕ × ℚ) :=
  d.submissions.map (fun s => reservationOf s.inFlight.trade) ++
    (d.ex.allTrades.filter d.isOutstanding).map reservationOf

/-- The reserved balance is the sum over the outstanding entries, and of the reservations taken those
    that are not outstanding any more were released exactly once, and no other. -/
structure Accounted (d : Desk) : Prop where
  balance : d.ex.reservedBalanceUsd = (d.outstanding.map Prod.snd).sum
  once : ∀ uid ∈ d.taken, uid ∉ d.outstanding.map Prod.fst → d.released.count uid = 1
  gone : ∀ uid ∈ d.released, uid ∈ d.taken ∧ uid ∉ d.outstanding.map Prod.fst

/-- The reservation timeout of `tick` does not fire. -/
def NoTimeout (d : Desk) : DeskStep → Prop
  | .other (.tick _ now) _ =>
      ¬ (0 < d.ex.reservedBalanceUsd ∧
        d.ex.cfg.balanceReservationTimeout < now - d.ex.lastBalanceUpdate)
  | _ => True

/-- What an order update must be like. -/
structure OrderlyUpdate (d : Desk) (upd : OrderUpdate) : Prop where
  /-- A partial entry fill goes to a trade whose entry is outstanding, unless its entry was reported
      closed before and it is not `PendingEntry`. -/
  partly : upd.status = .opened → 0 < upd.filledSize →
    ∀ t, entryOf upd d.ex = some t → (d.isOutstanding t = true ↔ t.uid ∉ d.ended)
  /-- A closed entry goes to a trade whose entry is outstanding. -/
  closed : upd.status = .closed → ∀ t, entryOf upd d.ex = some t → d.isOutstanding t = true
  /-- A `PendingEntry` trade that takes a closed entry without a fill does not take it for one of its
      exit orders too. -/
  entryOnly : upd.status = .closed → upd.filledSize ≤ 0 → ∀ t om, d.ex.route upd = some (t, om) →
    om.isEntry = true → t.state = .pendingEntry → (om.isStop || om.isTp1 || om.isTp2) = false
  /-- A `PendingEntry` trade takes no exit fill, except as its first TP1 fill. -/
  exit : upd.isFill → ∀ t om, d.ex.route upd = some (t, om) → om.isEntry = false →
    t.state = .pendingEntry → om.isTp1 = true ∧ t.tp1Filled = false
  /-- A closed entry reaches the trade it is about, if that is partially filled. -/
  named : upd.status = .closed → ∀ t ∈ d.ex.allTrades, namesEntry upd t = true →
    t.state ≠ .pendingEntry → d.isOutstanding t = true → entryOf upd d.ex = some t

/-- The condition on the steps. -/
def Orderly (d : Desk) : DeskStep → Prop
  | .reserve _ plan => 0 ≤ plan.reservation
  | .other (.onOrderUpdate _ upd) _ => d.OrderlyUpdate upd
  | .other (.tick env now) _ =>
      -- the poll of a submission that a trade waits for neither finds the order nor gives up
      ∀ p, d.ex.reconciliator.pending.lookup 0 = some p →
        (∃ t ∈ d.ex.allTrades, selectUnknown p.intent t = some ()) →
        StaysPending env now d.ex.reconciliator p
  | .other .popClosedTrades _ =>
      ∀ t ∈ d.ex.allTrades, t.state = .closed → d.isOutstanding t = false
  | .other (.injectRecoveredTrades ts) _ => ∀ t ∈ ts, t.state ≠ .pendingEntry
  | _ => True

/-! ## The invariant -/

/-- The account is in order. -/
structure Inv (d : Desk) : Prop where
  wf : d.ex.WF
  waiting : ∀ s ∈ d.submissions, Race.Waiting s.uid s.inFlight d.ex ∧
    s.inFlight.trade.state = .pendingEntry ∧ s.uid ∉ d.partly
  ledger : Ledger.Balanced d.ex.reservedBalanceUsd d.outstanding d.taken d.released
  takenOld : ∀ u ∈ d.taken, u < d.ex.nextUid
  partlyOld : ∀ u ∈ d.partly, u < d.ex.nextUid
  pending : ∀ t ∈ d.ex.allTrades, t.state = .pendingEntry →
    t.uid ∉ d.partly ∧ t.executedSize = 0
  holds : ∃ o, d.ex.reconciliator.HoldsOnly o

variable {d : Desk}

theorem Inv.accounted (h : d.Inv) : d.Accounted := ⟨h.ledger.sum, h.ledger.once, h.ledger.gone⟩

theorem inv_init (cfg : ExecutorConfig) : (init cfg).Inv where
  wf := wf_init cfg
  waiting := by simp [init]
  ledger := Ledger.balanced_nil
  takenOld := by simp [init]
  partlyOld := by simp [init]
  pending := by simp [init, allTrades, LiveExecutor.init]
  holds := ⟨none, holdsOnly_default⟩

/-! ## The parts of a submission -/

/-- Reserving adds the submission, whose entry is outstanding. -/
theorem inv_reserve (h : d.Inv) (ns : ℕ) {plan : TradePlan} (hC : 0 ≤ plan.reservation) :
    (d.step (.reserve ns plan)).Inv := by
  have hnew : d.ex.nextUid ∉ d.taken := fun hin => lt_irrefl _ (h.takenOld _ hin)
  have hfree : d.ex.nextUid ∉ d.partly := fun hin => lt_irrefl _ (h.partlyOld _ hin)
  refine ⟨(Race.inv_reserve h.wf ns plan).wf, ?_, h.ledger.reserve hnew hC, ?_, ?_,
    h.pending, h.holds⟩
  · intro s hs
    rcases List.mem_cons.1 hs with rfl | hs
    · exact ⟨(Race.inv_reserve h.wf ns plan).thread, rfl, hfree⟩
    · obtain ⟨hwait, hst, hout⟩ := h.waiting s hs
      exact ⟨⟨hwait.key, Nat.lt_succ_of_lt hwait.used, hwait.absent, hwait.executedSize⟩, hst, hout⟩
  · intro u hu
    rcases List.mem_cons.1 hu with rfl | hu
    · exact Nat.lt_succ_self _
    · exact Nat.lt_succ_of_lt (h.takenOld u hu)
  · exact fun u hu => Nat.lt_succ_of_lt (h.partlyOld u hu)

/-- The call to the gateway changes nothing that is outstanding. -/
theorem inv_place (h : d.Inv) (env : Env) (uid : ℕ) : (d.step (.place env uid)).Inv := by
  unfold step
  dsimp only
  cases hfind : d.submissions.find? (fun s => decide (s.uid = uid) && s.answer.isNone) with
  | none => exact h
  | some s =>
      have hs := List.mem_of_find?_eq_some hfind
      have hplace := Race.inv_place h.wf (h.waiting s hs).1 env
      set answered : Submission → Submission := fun x =>
        if x.uid = uid then { x with answer := some (submitPlace env s.inFlight d.ex).2 } else x
        with hanswered
      have hsame : ∀ x, (answered x).inFlight = x.inFlight := by
        intro x
        simp only [hanswered]
        split <;> rfl
      refine ⟨hplace.wf, ?_, ?_, h.takenOld, h.partlyOld, h.pending, h.holds⟩
      · intro x' hx'
        obtain ⟨x, hx, rfl⟩ := List.mem_map.1 hx'
        obtain ⟨hwait, hst, hout⟩ := h.waiting x hx
        have huid : (answered x).uid = x.uid := by rw [Submission.uid, hsame]; rfl
        rw [huid, hsame]
        exact ⟨⟨hwait.key, hwait.used, hwait.absent, hwait.executedSize⟩, hst, hout⟩
      · have hmap : (d.submissions.map answered).map (fun s => reservationOf s.inFlight.trade)
            = d.submissions.map (fun s => reservationOf s.inFlight.trade) := by
          rw [List.map_map]
          exact List.map_congr_left (fun x _ => by rw [Function.comp, hsame])
        have hledger := h.ledger
        rw [outstanding, ← hmap] at hledger
        exact hledger

theorem map_fst_outstanding (d : Desk) : d.outstanding.map Prod.fst
    = d.submissions.map Submission.uid
      ++ (d.ex.allTrades.filter d.isOutstanding).map ActiveTrade.uid := by
  rw [outstanding, List.map_append, List.map_map, List.map_map]
  rfl

/-- The submissions in progress have different uids. -/
theorem Inv.submissions_nodup (h : d.Inv) : (d.submissions.map Submission.uid).Nodup := by
  have hnd := h.ledger.nodup
  rw [map_fst_outstanding] at hnd
  exact hnd.of_append_left

/-- The desk once the submission `uid` is over. -/
def concluded (d : Desk) (uid : ℕ) (ex : LiveExecutor) (released : List ℕ) : Desk :=
  { d with
    ex := ex
    submissions := d.submissions.filter (fun s => decide (s.uid ≠ uid))
    released := released }

section Concluded

variable {s : Submission} {t : ActiveTrade} {ex : LiveExecutor}

/-- The submission has become a trade, whose entry is outstanding or not. -/
theorem concluded_outstanding (released : List ℕ) (h : d.Inv) (hs : s ∈ d.submissions)
    (htrades : ex.allTrades.Perm (t :: d.ex.allTrades))
    (hkey : reservationOf t = reservationOf s.inFlight.trade) :
    d.outstanding.Perm (if d.isOutstanding t then (d.concluded s.uid ex released).outstanding
      else reservationOf t :: (d.concluded s.uid ex released).outstanding) := by
  have hsubs : (d.submissions.map (fun s => reservationOf s.inFlight.trade)).Perm
      (reservationOf t :: (d.concluded s.uid ex released).submissions.map
        (fun s => reservationOf s.inFlight.trade)) := by
    rw [hkey]
    exact (perm_cons_filter_key h.submissions_nodup hs).map _
  have hfilter := htrades.filter d.isOutstanding
  have hmoved := hsubs.append_right ((d.ex.allTrades.filter d.isOutstanding).map reservationOf)
  by_cases hout : d.isOutstanding t = true
  · rw [if_pos hout]
    rw [List.filter_cons_of_pos hout] at hfilter
    have htail := (hfilter.map reservationOf).append_left
      ((d.concluded s.uid ex released).submissions.map (fun s => reservationOf s.inFlight.trade))
    exact hmoved.trans (List.perm_middle.symm.trans htail.symm)
  · rw [if_neg hout]
    rw [List.filter_cons_of_neg hout] at hfilter
    have htail := (hfilter.map reservationOf).append_left
      ((d.concluded s.uid ex released).submissions.map (fun s => reservationOf s.inFlight.trade))
    exact hmoved.trans (htail.symm.cons _)

/-- Everything but the ledger. -/
theorem inv_concluded {released : List ℕ} (h : d.Inv) (hs : s ∈ d.submissions) (hwf : ex.WF)
    (htrades : ex.allTrades.Perm (t :: d.ex.allTrades)) (hnext : ex.nextUid = d.ex.nextUid)
    (huid : t.uid = s.uid) (hsize : t.executedSize = 0)
    (hholds : ∃ o, ex.reconciliator.HoldsOnly o)
    (hledger : Ledger.Balanced ex.reservedBalanceUsd (d.concluded s.uid ex released).outstanding
      d.taken released) : (d.concluded s.uid ex released).Inv := by
  have hmem : ∀ x ∈ ex.allTrades, x = t ∨ x ∈ d.ex.allTrades := fun x hx =>
    List.mem_cons.1 (htrades.mem_iff.1 hx)
  refine ⟨hwf, ?_, hledger, fun u hu => hnext ▸ h.takenOld u hu,
    fun u hu => hnext ▸ h.partlyOld u hu, ?_, hholds⟩
  · intro s' hs'
    obtain ⟨hs', hne⟩ := List.mem_filter.1 hs'
    obtain ⟨hwait, hst, hfree⟩ := h.waiting s' hs'
    refine ⟨⟨hwait.key, hnext ▸ hwait.used, fun x hx => ?_, hwait.executedSize⟩, hst, hfree⟩
    rcases hmem x hx with rfl | hx
    · rw [huid]
      exact Ne.symm (of_decide_eq_true hne)
    · exact hwait.absent x hx
  · intro x hx hst
    rcases hmem x hx with rfl | hx
    · exact ⟨huid ▸ (h.waiting s hs).2.2, hsize⟩
    · exact h.pending x hx hst

end Concluded

/-- Adding the trade ends the submission: its entry is outstanding, or its reservation is released. -/
theorem inv_push (h : d.Inv) (now : TimePoint) (uid : ℕ) : (d.step (.push now uid)).Inv := by
  unfold step
  dsimp only
  cases hfind : d.submissions.find? (fun s => decide (s.uid = uid)) with
  | none => exact h
  | some s =>
  obtain ⟨f, answer⟩ := s
  cases answer with
  | none => exact h
  | some res =>
  have hs := List.mem_of_find?_eq_some hfind
  have huid : f.trade.uid = uid := by
    have hp := List.find?_some hfind
    exact of_decide_eq_true hp
  subst huid
  obtain ⟨hwait, hst, hfree⟩ := h.waiting _ hs
  have hwf := (Race.inv_push h.wf hwait now res).1.wf
  obtain ⟨-, -, -, -, -, -, -, hnext⟩ := submitPush_spec now f res d.ex
  have hexact := submitPush_exact now f res d.ex
  cases res with
  | ok r =>
      -- the trade takes the submission's place
      obtain ⟨hbooks, hadded⟩ := hexact
      have htrades : (submitPush now f (.ok r) d.ex).allTrades.Perm (f.trade :: d.ex.allTrades) := by
        rw [allTrades, hadded]
        exact BucketMap.values_push ..
      have hout : d.isOutstanding f.trade = true := by
        have hpending : f.trade.state = .pendingEntry := hst
        simp [isOutstanding, hpending]
      have hperm := concluded_outstanding d.released h hs htrades rfl
      rw [if_pos hout] at hperm
      refine inv_concluded h hs hwf htrades hnext rfl hwait.executedSize
        (hbooks.reconciliator ▸ h.holds) ?_
      rw [hbooks.reserved]
      exact h.ledger.perm hperm.symm
  | error e =>
      -- a `SubmitUnknown` trade has no reservation: the catch block released it
      obtain ⟨hreserved, hrecon, hadded⟩ := hexact
      set t : ActiveTrade := { f.trade with state := .submitUnknown } with ht
      have htrades : (submitPush now f (.error e) d.ex).allTrades.Perm (t :: d.ex.allTrades) := by
        rw [allTrades, hadded]
        exact BucketMap.values_push ..
      have hout : ¬ d.isOutstanding t = true := by
        have huid : t.uid ∉ d.partly := hfree
        have hunknown : t.state = .submitUnknown := rfl
        simp [isOutstanding, hunknown, huid]
      have hperm := concluded_outstanding (f.trade.uid :: d.released) h hs htrades rfl
      rw [if_neg hout] at hperm
      refine inv_concluded h hs hwf htrades hnext rfl hwait.executedSize ?_ ?_
      · rw [hrecon]
        exact HoldsOnly.enter h.holds rfl now
      · rw [hreserved]
        exact (h.ledger.perm hperm.symm).release

end Desk

end TradeBot
