import TradeBot.Executor.LiveExecutor
import TradeBot.Executor.UpdateEffects

set_option autoImplicit false

/-! # Updates with a known order id

An update whose order id a trade has recorded is meant for that trade, but the loop of
`on_order_update` tries all its ways of matching on one trade before it looks at the next. So the
update goes to the first trade of the ticker that takes it in any way, and every trade listed before
the owner can take it away: `others_kept_iff` says when they do not, `stop_fill_misrouted` shows a
pending entry that takes the fill of another trade's stop for its own.

Two things make the equivalence go through. An update can change only the first trade that takes it
(`onOrderUpdate_bucket`), and a trade that takes an update for something else is changed by it, in
some way, when the gateway accepts everything (`applyOrderUpdate_ne`). So if an earlier trade takes
it in earnest, there is a gateway for which the other trades are not left alone. -/

namespace TradeBot

open KeyedPass LiveExecutor

/-- The trade has recorded the id of `upd`. -/
def knowsId (upd : OrderUpdate) (t : ActiveTrade) : Bool :=
  matchesId upd t.entryOrderId || matchesId upd t.stopOrderId || matchesId upd t.tp1OrderId ||
    matchesId upd t.tp2OrderId

/-- The trade takes `upd`. -/
def takesUpdate (upd : OrderUpdate) (t : ActiveTrade) : Bool := (selectTrade upd t).isSome

/-- The trade takes `upd` by a recorded id, and `upd` is nothing to it: a first acknowledgement, a
    report that an order still rests unfilled, or the end of an exit order without a fill. -/
def takesIdly (upd : OrderUpdate) (t : ActiveTrade) : Bool :=
  knowsId upd t && !matchByClientId upd t &&
    match upd.status with
    | .new => true
    | .opened => !(matchesId upd t.entryOrderId && decide (0 < upd.filledSize))
    | .closed =>
        decide (upd.filledSize ≤ 0) && (matchesId upd t.stopOrderId ||
          matchesId upd t.tp1OrderId || matchesId upd t.tp2OrderId)

/-- All trades of the ticker but the one between `pre` and `post` are as they were. -/
def OthersKept (ticker : Ticker) (pre post : List ActiveTrade) (ex : LiveExecutor) : Prop :=
  ∃ t, ex.trades.find? ticker = some (pre ++ t :: post)

theorem onTp1Filled_tp1Filled (env : Env) (upd : OrderUpdate) (m : Members) (t : ActiveTrade) :
    (onTp1Filled env upd m t).2.tp1Filled = true := by
  obtain ⟨evs, _, ⟨_, ht⟩ | ⟨_, _, r, _, ht⟩ | ⟨_, _, _, e, msg, pre, res, _, _, _, ht⟩⟩ :=
    onTp1Filled_effect env upd m t
  · rw [ht]; rfl
  · rw [ht]; rfl
  · rw [ht]; cases res <;> rfl

section Taking

variable {upd : OrderUpdate} {t : ActiveTrade}

theorem orderMatch_any_of_knowsId (h : knowsId upd t = true) : (orderMatch upd t).any = true := by
  simp only [knowsId, Bool.or_eq_true] at h
  simp only [OrderMatch.any, orderMatch, Bool.or_eq_true]
  tauto

/-- The owner of an id takes the update. -/
theorem selectTrade_of_knowsId (hst : t.state ≠ .closed) (hec : t.state ≠ .emergencyClosing)
    (h : knowsId upd t = true) : selectTrade upd t = some (orderMatch upd t) := by
  rw [selectTrade, if_neg (not_or.2 ⟨hst, hec⟩), if_pos (orderMatch_any_of_knowsId h)]

theorem matchKnown_of_knowsId (h : knowsId upd t = true) : matchKnown upd t = true := by
  simp only [knowsId, Bool.or_eq_true] at h
  simp only [matchKnown, Bool.or_eq_true]
  tauto

/-- A trade that knows the id learns no other. -/
theorem captureIds_of_matchKnown (h : matchKnown upd t = true)
    (hclient : matchByClientId upd t = false) : captureIds upd t = t := by
  simp [captureIds, freshEntry, freshStop, freshTp1, h, hclient]

theorem orderMatch_of_matchKnown (h : matchKnown upd t = true)
    (hclient : matchByClientId upd t = false) :
    orderMatch upd t = { isEntry := matchesId upd t.entryOrderId,
                         isStop := matchesId upd t.stopOrderId,
                         isTp1 := matchesId upd t.tp1OrderId,
                         isTp2 := matchesId upd t.tp2OrderId } := by
  simp [orderMatch, freshEntry, freshStop, freshTp1, h, hclient]

/-- A trade that takes an update idly is left as it is. -/
theorem applyOrderUpdate_of_takesIdly (env : Env) (m : Members) (h : takesIdly upd t = true) :
    (applyOrderUpdate env upd m t (orderMatch upd t)).2 = t := by
  simp only [takesIdly, Bool.and_eq_true, Bool.not_eq_true'] at h
  obtain ⟨⟨hknows, hclient⟩, hidle⟩ := h
  have hknown := matchKnown_of_knowsId hknows
  rw [applyOrderUpdate, captureIds_of_matchKnown hknown hclient,
    orderMatch_of_matchKnown hknown hclient, handleOrderUpdate]
  cases hst : upd.status with
  | new => rfl
  | opened =>
      simp only [hst, Bool.not_eq_true', Bool.and_eq_false_iff, decide_eq_false_iff_not] at hidle
      refine congrArg Prod.snd (if_neg ?_)
      rintro ⟨hentry, hsize⟩
      exact hidle.elim (fun hno => Bool.noConfusion (hentry.symm.trans hno)) (fun hno => hno hsize)
  | closed =>
      simp only [hst, Bool.and_eq_true, decide_eq_true_eq] at hidle
      simp only [if_pos hidle.1, if_pos hidle.2]

/-- An entry report teaches the trade no other id than the entry's. -/
theorem captureIds_of_isEntry (h : (orderMatch upd t).isEntry = true) :
    captureIds upd t = { t with entryOrderId := (captureIds upd t).entryOrderId } := by
  have hstop : freshStop upd t = false ∧ freshTp1 upd t = false := by
    by_cases hknown : matchKnown upd t = true
    · simp [freshStop, freshTp1, hknown]
    · have hfresh : freshEntry upd t = true := by
        simp only [matchKnown, Bool.or_eq_true, not_or, Bool.not_eq_true] at hknown
        simpa [orderMatch, hknown] using h
      simp only [freshEntry, OrderType.isEntryType, Bool.and_eq_true, Bool.or_eq_true,
        decide_eq_true_eq] at hfresh
      rcases hfresh.1.1.2 with htype | htype <;> simp [freshStop, freshTp1, htype]
  simp [captureIds, hstop]

/-- An update that teaches the trade an id changes it, whatever else happens. -/
theorem applyOrderUpdate_ne_of_captures (env : Env) (m : Members) (hsel : (selectTrade upd t).isSome)
    (hcap : captureIds upd t ≠ t) : (applyOrderUpdate env upd m t (orderMatch upd t)).2 ≠ t := by
  obtain ⟨om, hom⟩ := Option.isSome_iff_exists.1 hsel
  obtain ⟨hst, _, rfl, hany⟩ := selectTrade_eq_some hom
  -- an entry report can only teach the entry's id
  have hentry : (orderMatch upd t).isEntry = true →
      (captureIds upd t).entryOrderId ≠ t.entryOrderId := by
    intro hentry heq
    rw [captureIds_of_isEntry hentry, heq] at hcap
    exact hcap rfl
  unfold applyOrderUpdate
  refine handleOrderUpdate_elim (motive := fun r => r.2 ≠ t) env upd _ m (captureIds upd t)
    ?_ ?_ ?_ ?_ ?_ ?_ hany
  · exact fun _ _ _ => hcap
  · exact fun _ _ _ _ _ _ _ heq => hst (congrArg ActiveTrade.state heq).symm
  · intro _ hen _ heq
    obtain ⟨evs, i, j, openedAt, _, _, ht⟩ := onEntryPartial_effect env upd m (captureIds upd t)
    have hid := congrArg ActiveTrade.entryOrderId heq
    rw [ht] at hid
    exact hentry hen hid
  · intro m' _ _ hen heq
    refine hentry hen (Eq.trans ?_ (congrArg ActiveTrade.entryOrderId heq))
    obtain ⟨evs, _, ⟨r, _, ht⟩ | ⟨e, msg, _, ht⟩ | ⟨_, i, j, ht⟩⟩ :=
      onEntryFilled_effect env upd m' (captureIds upd t)
    all_goals rw [ht]; rfl
  · intro _ _ _ hfirst heq
    have htp1 := congrArg ActiveTrade.tp1Filled heq
    rw [onTp1Filled_tp1Filled] at htp1
    exact Bool.noConfusion (htp1.trans hfirst)
  · exact fun _ _ _ heq => hst (congrArg ActiveTrade.state heq).symm

end Taking

/-! ## A gateway that shows every change -/

theorem placeTp1_stopOrderId (env : Env) (failed : Bool) (m : Members) (t : ActiveTrade) :
    (placeTp1 env failed m t).2.stopOrderId = t.stopOrderId := by
  unfold placeTp1
  split
  · dsimp only
    split
    · split <;> rfl
    · rfl
  · rfl

/-- Through a gateway that accepts everything the trade gets the stop id it is answered. -/
theorem placeStops_answered {env : Env} (P : OrderId → Prop)
    (hcancel : ∀ n id ticker, env.cancelOrder n id ticker = .ok ())
    (hplace : ∀ n req, ∃ r, env.placeOrder n req = .ok r ∧ P r.orderId) (m : Members)
    {t : ActiveTrade} (hst : t.state = .opened) (hexec : 0 < t.executedSize) :
    P (placeStops env m t).2.stopOrderId := by
  have hstop : ∀ (m : Members) (t : ActiveTrade), P (placeStopLoss env m t).2.stopOrderId := by
    intro m t
    obtain ⟨r, hr, hP⟩ := hplace m.trace.length
      (t.exitRequest .stopLoss t.plan.stopPrice t.executedSize)
    simp only [placeStopLoss, Members.placeOrder, hr]
    exact hP
  have hold : ∃ m' t', cancelOldStop env m t = (m', some t') := by
    unfold cancelOldStop
    by_cases hid : t.stopOrderId = 0
    · exact ⟨m, t, if_neg (not_not.2 hid)⟩
    · rw [if_pos hid]
      simp only [Members.cancelOrder, hcancel]
      exact ⟨_, _, rfl⟩
  obtain ⟨m', t', hold⟩ := hold
  rw [placeStops, if_neg (not_not.2 hst), if_neg (not_le.2 hexec), hold]
  dsimp only
  rw [placeTp1_stopOrderId]
  exact hstop _ _

/-- A gateway whose answers differ from the stop id the trade knows. -/
def Env.answeringAnew (t : ActiveTrade) : Env :=
  if t.stopOrderId = 0 then .accepting else .anonymous

theorem placeStops_answeringAnew (m : Members) {t t' : ActiveTrade} (hst : t'.state = .opened)
    (hexec : 0 < t'.executedSize) :
    (placeStops (.answeringAnew t) m t').2.stopOrderId ≠ t.stopOrderId := by
  unfold Env.answeringAnew
  by_cases hid : t.stopOrderId = 0
  · rw [if_pos hid, hid]
    exact placeStops_answered (· ≠ 0) (fun _ _ _ => rfl)
      (fun n req => ⟨_, rfl, (by exact_mod_cast Nat.succ_ne_zero n : ((n + 1 : ℕ) : ℤ) ≠ 0)⟩) m hst
      hexec
  · rw [if_neg hid]
    exact placeStops_answered (· ≠ t.stopOrderId) (fun _ _ _ => rfl)
      (fun n req => ⟨_, rfl, fun heq => hid heq.symm⟩) m hst hexec

theorem onEntryFilled_answeringAnew (upd : OrderUpdate) (m : Members) {t : ActiveTrade}
    (hec : t.state ≠ .emergencyClosing) (hsize : 0 < upd.filledSize) :
    (onEntryFilled (.answeringAnew t) upd m t).2 ≠ t := by
  unfold onEntryFilled
  dsimp only
  split
  · intro heq
    have hclose : (slippageClose (.answeringAnew t) upd m (t.entryFilled upd)).2.state
        = .emergencyClosing := by
      unfold Env.answeringAnew
      by_cases hid : t.stopOrderId = 0
      · rw [if_pos hid]; rfl
      · rw [if_neg hid]; rfl
    exact hec ((congrArg ActiveTrade.state heq).symm.trans hclose)
  · exact fun heq =>
      placeStops_answeringAnew m rfl hsize (congrArg ActiveTrade.stopOrderId heq)

/-- A trade that learns no id from an update it takes has recorded the update's id. -/
theorem knowsId_of_captureIds_eq {upd : OrderUpdate} {t : ActiveTrade} (hid : upd.orderId ≠ 0)
    (hany : (orderMatch upd t).any = true) (hcap : captureIds upd t = t) :
    knowsId upd t = true ∧ matchByClientId upd t = false := by
  have hentry : matchByClientId upd t = false ∧ freshEntry upd t = false := by
    rw [← Bool.or_eq_false_iff]
    by_contra hfresh
    rw [Bool.not_eq_false] at hfresh
    have heq : upd.orderId = t.entryOrderId :=
      (if_pos hfresh).symm.trans (congrArg ActiveTrade.entryOrderId hcap)
    simp only [matchByClientId, freshEntry, Bool.or_eq_true, Bool.and_eq_true,
      decide_eq_true_eq] at hfresh
    exact hid (heq.trans (hfresh.elim (·.2) (·.1.1.1.2)))
  have hstop : freshStop upd t = false := by
    by_contra hfresh
    rw [Bool.not_eq_false] at hfresh
    have heq : upd.orderId = t.stopOrderId :=
      (if_pos hfresh).symm.trans (congrArg ActiveTrade.stopOrderId hcap)
    simp only [freshStop, Bool.and_eq_true, decide_eq_true_eq] at hfresh
    exact hid (heq.trans hfresh.1.1.2)
  have htp1 : freshTp1 upd t = false := by
    by_contra hfresh
    rw [Bool.not_eq_false] at hfresh
    have heq : upd.orderId = t.tp1OrderId :=
      (if_pos hfresh).symm.trans (congrArg ActiveTrade.tp1OrderId hcap)
    simp only [freshTp1, Bool.and_eq_true, decide_eq_true_eq] at hfresh
    exact hid (heq.trans hfresh.1.1.2)
  refine ⟨?_, hentry.1⟩
  simpa [OrderMatch.any, orderMatch, knowsId, hentry, hstop, htp1] using hany

/-- Whatever a trade takes not idly can change it. -/
theorem applyOrderUpdate_ne {upd : OrderUpdate} {t : ActiveTrade} (m : Members)
    (hsel : (selectTrade upd t).isSome) (hidle : takesIdly upd t = false)
    (hid : upd.orderId ≠ 0) :
    (applyOrderUpdate (.answeringAnew t) upd m t (orderMatch upd t)).2 ≠ t := by
  by_cases hcap : captureIds upd t = t
  swap
  · exact applyOrderUpdate_ne_of_captures _ m hsel hcap
  obtain ⟨om, hom⟩ := Option.isSome_iff_exists.1 hsel
  obtain ⟨hst, hec, rfl, hany⟩ := selectTrade_eq_some hom
  obtain ⟨hknows, hclient⟩ := knowsId_of_captureIds_eq hid hany hcap
  rw [applyOrderUpdate, hcap]
  by_cases hfill : upd.isFill
  · refine handleOrderUpdate_elim (motive := fun r => r.2 ≠ t) _ upd _ m t ?_ ?_ ?_ ?_ ?_ ?_ hany
    · exact fun _ _ hno => absurd hfill hno
    · exact fun _ _ _ hle => absurd hfill.2 (not_lt.2 hle)
    · exact fun hopened => absurd (hfill.1.symm.trans hopened) (by simp)
    · exact fun m' _ _ _ => onEntryFilled_answeringAnew upd m' hec hfill.2
    · intro _ _ _ hfirst heq
      have htp1 := congrArg ActiveTrade.tp1Filled heq
      rw [onTp1Filled_tp1Filled] at htp1
      exact Bool.noConfusion (htp1.trans hfirst)
    · exact fun _ _ _ heq => hst (congrArg ActiveTrade.state heq).symm
  -- without a fill only the entry's partial fill and its end change the trade
  rw [orderMatch_of_matchKnown (matchKnown_of_knowsId hknows) hclient]
  rw [takesIdly, hknows, hclient] at hidle
  intro heq
  cases hstatus : upd.status with
  | new => simp [hstatus] at hidle
  | opened =>
      have hpartly : matchesId upd t.entryOrderId = true ∧ 0 < upd.filledSize := by
        simpa [hstatus] using hidle
      rw [handleOrderUpdate_partly hstatus hpartly.1 hpartly.2] at heq
      have hexec : t.executedSize + upd.filledSize = t.executedSize := by
        obtain ⟨evs, i, j, openedAt, _, _, ht⟩ := onEntryPartial_effect (.answeringAnew t) upd m t
        rw [ht] at heq
        exact congrArg ActiveTrade.executedSize heq
      linarith [hpartly.2]
  | closed =>
      have hsize : upd.filledSize ≤ 0 := not_lt.1 (fun hlt => hfill ⟨hstatus, hlt⟩)
      have hexit : (matchesId upd t.stopOrderId || matchesId upd t.tp1OrderId ||
          matchesId upd t.tp2OrderId) = false := by
        simpa [hstatus, hsize] using hidle
      simp only [handleOrderUpdate, hstatus, if_pos hsize, hexit] at heq
      exact hst (congrArg ActiveTrade.state heq).symm

/-! ## The results -/

/-- The first trade of the ticker that takes an update is all that the update can change. -/
theorem onOrderUpdate_bucket (env : Env) {ex : LiveExecutor} {upd : OrderUpdate}
    {pre post : List ActiveTrade} {x : ActiveTrade} {om : OrderMatch}
    (hfind : ex.trades.find? upd.ticker = some (pre ++ x :: post))
    (hpre : ∀ y ∈ pre, selectTrade upd y = none) (hsel : selectTrade upd x = some om) :
    (ex.onOrderUpdate env upd).trades.find? upd.ticker
      = some (pre ++ (applyOrderUpdate env upd (ex.emit (.reported upd)) x om).2 :: post) := by
  refine (BucketMap.find?_forKey hfind _ _).trans ?_
  rw [updateFirst?_append _ post hpre hsel, Option.getD_some]

/-- Whatever the gateway answers, an update with a recorded id leaves all trades of the ticker but
    the owner of the id alone, if and only if no trade listed before the owner takes it, or the first
    one that does takes it idly. -/
theorem others_kept_iff (ex : LiveExecutor) (upd : OrderUpdate) (pre post : List ActiveTrade)
    (t : ActiveTrade) (hfind : ex.trades.find? upd.ticker = some (pre ++ t :: post))
    (hst : t.state ≠ .closed) (hec : t.state ≠ .emergencyClosing) (hid : upd.orderId ≠ 0)
    (hknows : knowsId upd t = true) :
    (∀ env, OthersKept upd.ticker pre post (ex.onOrderUpdate env upd)) ↔
      ∀ x, pre.find? (takesUpdate upd) = some x → takesIdly upd x = true := by
  cases hfirst : pre.find? (takesUpdate upd) with
  | none =>
      have hpre : ∀ y ∈ pre, selectTrade upd y = none := fun y hy => by
        simpa [takesUpdate] using List.find?_eq_none.1 hfirst y hy
      have hsel := selectTrade_of_knowsId hst hec hknows
      exact iff_of_true (fun env => ⟨_, onOrderUpdate_bucket env hfind hpre hsel⟩) (by simp)
  | some x =>
      obtain ⟨htakes, front, back, rfl, hfront⟩ := List.find?_eq_some_iff_append.1 hfirst
      have hnone : ∀ y ∈ front, selectTrade upd y = none := fun y hy => by
        simpa [takesUpdate] using hfront y hy
      obtain ⟨om, hom⟩ := Option.isSome_iff_exists.1 htakes
      obtain rfl := (selectTrade_eq_some hom).2.2.1
      rw [List.append_assoc, List.cons_append] at hfind
      have hbucket := fun env => onOrderUpdate_bucket env hfind hnone hom
      constructor
      · intro hkept y hy
        obtain rfl := Option.some.inj hy
        by_contra hidle
        rw [Bool.not_eq_true] at hidle
        obtain ⟨t', ht'⟩ := hkept (.answeringAnew x)
        rw [hbucket, Option.some.injEq, List.append_assoc, List.cons_append,
          List.append_cancel_left_eq, List.cons.injEq] at ht'
        exact applyOrderUpdate_ne _ htakes hidle hid ht'.1
      · intro hidle env
        refine ⟨t, ?_⟩
        rw [hbucket, applyOrderUpdate_of_takesIdly env _ (hidle x rfl), List.append_assoc,
          List.cons_append]

/-- A pending entry of five coins beside the trade of `openedRun`. -/
def pendingTrade (seq : ℕ) : ActiveTrade :=
  { plan := { samplePlan with sizeCoin := 5 }, entryClientOrderId := generateClientOrderId 0 seq,
    uid := seq }

/-- The fill of the older trade's stop does not touch the pending entry. -/
theorem others_kept_iff_opened :
    OthersKept "BTC_USDT" [] [pendingTrade 1]
      ((openedRun.step (.submit .accepting 0 0 (pendingTrade 1).plan)).onOrderUpdate .accepting
        (sampleExit 3 .stopLoss 99 1)) := by
  have hfind : (openedRun.step (.submit .accepting 0 0 (pendingTrade 1).plan)).trades.find?
      "BTC_USDT" = some ([] ++ openedTrade :: [pendingTrade 1]) := by decide +kernel
  exact (others_kept_iff _ (sampleExit 3 .stopLoss 99 1) [] [pendingTrade 1] openedTrade hfind
    (by decide) (by decide) (by decide) (by decide +kernel)).2 (by simp) .accepting

/-- A pending entry of five coins, and after it a trade of one coin that is filled; its stop is
    order 4. -/
def twoTradesRun : LiveExecutor :=
  (init {}).run [.submit .accepting 0 0 (pendingTrade 0).plan, .submit .accepting 0 0 samplePlan,
    .onOrderUpdate .accepting (sampleFill 2)]

/-- The second trade of `twoTradesRun`. -/
def stoppedTrade : ActiveTrade :=
  { openedTrade with entryOrderId := 2, stopOrderId := 4, tp1OrderId := 5,
                     entryClientOrderId := generateClientOrderId 0 1, uid := 1 }

/-- The pending entry takes the fill of the other trade's stop for its own, and is closed by it. -/
theorem stop_fill_misrouted :
    ¬ ∀ (ex : LiveExecutor) (upd : OrderUpdate) (pre post : List ActiveTrade) (t : ActiveTrade),
        ex.Reachable → ex.trades.find? upd.ticker = some (pre ++ t :: post) →
        t.state ≠ .closed → t.state ≠ .emergencyClosing → upd.orderId ≠ 0 →
        knowsId upd t = true → ∀ env, OthersKept upd.ticker pre post (ex.onOrderUpdate env upd) := by
  intro hall
  have hfind : twoTradesRun.trades.find? "BTC_USDT" = some ([pendingTrade 0] ++ stoppedTrade :: []) :=
    by decide +kernel
  obtain ⟨t, ht⟩ := hall twoTradesRun (sampleExit 4 .stopLoss 99 1) [pendingTrade 0] [] stoppedTrade
    ⟨{}, _, rfl⟩ hfind (by decide) (by decide) (by decide) (by decide +kernel) .accepting
  have hhead : ((twoTradesRun.onOrderUpdate .accepting (sampleExit 4 .stopLoss 99 1)).trades.find?
      "BTC_USDT").map (fun l => l.head?.map ActiveTrade.state) = some (some .closed) := by
    decide +kernel
  have hkept := congrArg (Option.map (fun l => l.head?.map ActiveTrade.state)) ht
  exact absurd (hhead.symm.trans hkept) (by simp [pendingTrade])

end TradeBot
