import TradeBot.Executor.QuietSteps

set_option autoImplicit false

/-! # Reports on entries

A closed entry releases the reservation of its trade. Any other report leaves the account alone, if
the exchange reports each entry's end once and in order (`OrderlyUpdate`).

An update is taken by one trade at most. So the trades before and after it are outstanding as before
(`Taken.others`), and what remains is a case distinction over what the one trade makes of it: its
entry has ended, it is open now, or nothing changes. The exchange's order is needed where a report
could come a second time, or after the end. -/

namespace TradeBot

open KeyedPass LiveExecutor OrderReconciliator

namespace Desk

variable {d : Desk} {env : Env} {upd : OrderUpdate} {t : ActiveTrade} {om : OrderMatch}

theorem entryOf_of_route (h : d.ex.route upd = some (t, om)) :
    entryOf upd d.ex = if om.isEntry then some t else none := by
  simp [entryOf, h]

theorem entryOf_eq_some (h : entryOf upd d.ex = some t) :
    ∃ om, d.ex.route upd = some (t, om) ∧ om.isEntry = true := by
  unfold entryOf at h
  split at h
  · next x om hroute =>
      split at h
      · next hentry => exact ⟨om, by rw [hroute, Option.some.inj h], hentry⟩
      · simp at h
  · simp at h

/-- An update that nobody takes is only noted. -/
theorem onOrderUpdate_of_route_none (h : d.ex.route upd = none) :
    (d.ex.onOrderUpdate env upd).toMembers = d.ex.emit (.reported upd) ∧
      (d.ex.onOrderUpdate env upd).allTrades = d.ex.allTrades := by
  set pass := fun (m : Members) (ts : List ActiveTrade) =>
    (updateFirst? (selectTrade upd) (applyOrderUpdate env upd) m ts).getD (m, ts) with hpass
  cases hfind : d.ex.trades.find? upd.ticker with
  | none =>
      have hsame := BucketMap.forKey_of_find?_none hfind pass (d.ex.emit (.reported upd))
      exact ⟨congrArg Prod.fst hsame,
        congrArg (fun r : Members × BucketMap Ticker ActiveTrade => BucketMap.values r.2) hsame⟩
  | some l =>
      have hnone : ∀ x ∈ l, selectTrade upd x = none := by
        rw [LiveExecutor.route, hfind] at h
        intro x hx
        exact Option.map_eq_none_iff.1 (List.findSome?_eq_none_iff.1 h x hx)
      have hl : pass (d.ex.emit (.reported upd)) l = (d.ex.emit (.reported upd), l) := by
        simp only [hpass, updateFirst?_eq_none.2 hnone, Option.getD_none]
      obtain ⟨pre, post, hvalues, hstate, hpost⟩ :=
        BucketMap.forKey_of_find? hfind pass (d.ex.emit (.reported upd))
      rw [hl] at hstate hpost
      exact ⟨hstate, hpost.trans hvalues.symm⟩

theorem mem_partialFills {u : ℕ} : u ∈ partialFills d.ex (.onOrderUpdate env upd) ↔
    (upd.status = .opened ∧ 0 < upd.filledSize) ∧
      ∃ t, entryOf upd d.ex = some t ∧ t.uid = u := by
  by_cases hfill : upd.status = .opened ∧ 0 < upd.filledSize
  · simp [partialFills, hfill]
  · have hnone : partialFills d.ex (.onOrderUpdate env upd) = [] := if_neg hfill
    simp only [hnone, List.not_mem_nil, hfill, false_and]

theorem mem_entryEnds {u : ℕ} : u ∈ entryEnds d.ex (.onOrderUpdate env upd) ↔
    upd.status = .closed ∧ ((∃ t, entryOf upd d.ex = some t ∧ t.uid = u) ∨
      ∃ t ∈ d.ex.allTrades, namesEntry upd t = true ∧ t.uid = u) := by
  by_cases hclosed : upd.status = .closed
  · simp [entryEnds, hclosed, and_assoc]
  · simp [entryEnds, hclosed]

/-- A trade other than the one that takes the update as its entry is outstanding as before. -/
theorem isOutstanding_other (h : d.Inv) (hC : d.OrderlyUpdate upd)
    (hop : Op.isSubmit (.onOrderUpdate env upd) = false) {x : ActiveTrade} (hx : x ∈ d.ex.allTrades)
    (hne : ∀ t, entryOf upd d.ex = some t → x.uid ≠ t.uid) :
    (d.step (.other (.onOrderUpdate env upd) hop)).isOutstanding x = d.isOutstanding x := by
  set d' := d.step (.other (.onOrderUpdate env upd) hop) with hd'
  have hpartly : x.uid ∈ d'.partly ↔ x.uid ∈ d.partly := by
    show x.uid ∈ partialFills d.ex (.onOrderUpdate env upd) ++ d.partly ↔ _
    rw [List.mem_append, mem_partialFills]
    exact or_iff_right (fun ⟨_, t, ht, huid⟩ => hne t ht huid.symm)
  have hended : x.uid ∈ d'.ended ↔ x.uid ∈ entryEnds d.ex (.onOrderUpdate env upd) ∨
      x.uid ∈ d.ended := List.mem_append
  by_cases hpending : x.state = .pendingEntry
  · simp [isOutstanding, hpending]
  by_cases hends : x.uid ∈ entryEnds d.ex (.onOrderUpdate env upd)
  · -- the report names the entry of `x` but does not reach `x`
    obtain ⟨hclosed, ⟨t, ht, huid⟩ | ⟨y, hy, hnames, hyx⟩⟩ := mem_entryEnds.1 hends
    · exact absurd huid.symm (hne t ht)
    obtain rfl : y = x := List.inj_on_of_nodup_map h.wf.nodup hy hx hyx
    have hbefore : d.isOutstanding y = false := by
      by_contra hout
      rw [Bool.not_eq_false] at hout
      exact hne y (hC.named hclosed y hy hnames hpending hout) rfl
    have hafter : d'.isOutstanding y = false := by
      simp [isOutstanding, hpending, hended.2 (.inl hends)]
    rw [hbefore, hafter]
  · simp only [isOutstanding, hpartly, hended, hends, false_or]

/-- A closed entry leaves `PendingEntry`. -/
theorem applyOrderUpdate_entry_closed (m : Members) (hsel : selectTrade upd t = some om)
    (hentry : om.isEntry = true) (hclosed : upd.status = .closed)
    (honly : upd.filledSize ≤ 0 → t.state = .pendingEntry →
      (om.isStop || om.isTp1 || om.isTp2) = false) :
    (applyOrderUpdate env upd m t om).2.state ≠ .pendingEntry := by
  unfold applyOrderUpdate
  by_cases hsize : upd.filledSize ≤ 0
  · unfold handleOrderUpdate
    simp only [hclosed, if_pos hsize]
    split
    · next hexit =>
        intro hst
        exact absurd (honly hsize hst) (by simp [hexit])
    · simp
  · refine handleOrderUpdate_elim (motive := fun r => r.2.state ≠ .pendingEntry) env upd om m
      (captureIds upd t) ?_ ?_ ?_ ?_ ?_ ?_ (selectTrade_eq_some hsel).2.2.2
    · exact fun _ _ hfill => absurd ⟨hclosed, not_le.1 hsize⟩ hfill
    · exact fun _ _ _ hle => absurd hle hsize
    · exact fun hopened => absurd (hclosed.symm.trans hopened) (by simp)
    · intro m' _ _ _
      obtain ⟨evs, -, ⟨r, -, ht⟩ | ⟨e, msg, -, ht⟩ | ⟨-, i, j, ht⟩⟩ :=
        onEntryFilled_effect env upd m' (captureIds upd t)
      all_goals
        rw [ht]
        simp [ActiveTrade.entryFilled, ActiveTrade.withExitIds]
    · exact fun _ hno => absurd (hno.symm.trans hentry) (by simp)
    · exact fun _ hno => absurd (hno.symm.trans hentry) (by simp)

/-- A partial entry fill opens the trade. -/
theorem applyOrderUpdate_entry_partly {m : Members} (hentry : om.isEntry = true)
    (hopened : upd.status = .opened) (hsize : 0 < upd.filledSize) :
    (applyOrderUpdate env upd m t om).2.state = .opened := by
  obtain ⟨evs, i, j, openedAt, -, -, ht⟩ := onEntryPartial_effect env upd m (captureIds upd t)
  unfold applyOrderUpdate handleOrderUpdate
  simp only [hopened, hentry, hsize, and_self, if_true, ht]

/-- The first TP1 fill of a trade that executed nothing only notes the fill. -/
theorem onTp1Filled_state (m : Members) (hsize : t.executedSize = 0) (hfill : 0 < upd.filledSize) :
    (onTp1Filled env upd m t).2 = t.tp1Done := by
  have hnone : t.tp1Done.remaining upd.filledSize = 0 := by
    show max 0 (t.executedSize - upd.filledSize) = 0
    rw [hsize]
    exact max_eq_left (by linarith)
  unfold onTp1Filled
  dsimp only
  rw [hnone, if_neg (fun h => absurd h.1 (by norm_num [kSizeEps]))]

/-- Any other report leaves alone whether the entry is pending. -/
theorem applyOrderUpdate_sameEntry (m : Members) (hsel : selectTrade upd t = some om)
    (hpartly : om.isEntry = true → upd.status = .opened → upd.filledSize ≤ 0)
    (hopen : om.isEntry = true → upd.status ≠ .closed)
    (hexit : upd.isFill → t.state = .pendingEntry →
      om.isTp1 = true ∧ t.tp1Filled = false ∧ t.executedSize = 0) :
    SameEntry t (applyOrderUpdate env upd m t om).2 := by
  obtain ⟨-, -, -, hany⟩ := selectTrade_eq_some hsel
  have hkeeps := applyOrderUpdate_keeps env upd m t hany
  unfold applyOrderUpdate at hkeeps ⊢
  by_cases hfirst : upd.isFill ∧ t.state = .pendingEntry
  · -- the first TP1 fill of a pending entry
    obtain ⟨⟨hclosed, hsize⟩, hst⟩ := hfirst
    obtain ⟨htp1, hnew, hexec⟩ := hexit ⟨hclosed, hsize⟩ hst
    have hentry : om.isEntry = false := by
      by_contra hentry
      exact hopen (by simpa using hentry) hclosed
    have ht : (handleOrderUpdate env upd om m (captureIds upd t)).2 = (captureIds upd t).tp1Done := by
      unfold handleOrderUpdate
      simp only [hclosed, hentry, if_neg (not_le.2 hsize), htp1, captureIds_tp1Filled, hnew,
        Bool.not_false, Bool.and_self, if_true, Bool.false_eq_true, if_false]
      exact onTp1Filled_state m hexec hsize
    rw [ht]
    exact ⟨rfl, rfl, Iff.rfl, fun _ => rfl⟩
  · -- a pending entry stays as it is, and no other trade becomes pending
    suffices hstate : (handleOrderUpdate env upd om m (captureIds upd t)).2 = captureIds upd t ∨
        t.state ≠ .pendingEntry ∧
          (handleOrderUpdate env upd om m (captureIds upd t)).2.state ≠ .pendingEntry by
      obtain hsame | ⟨hbefore, hafter⟩ := hstate
      · rw [hsame]
        exact ⟨rfl, rfl, Iff.rfl, fun _ => rfl⟩
      · exact ⟨hkeeps.uid, hkeeps.plan, iff_of_false hafter hbefore, fun h => absurd h hafter⟩
    clear hkeeps
    refine handleOrderUpdate_elim (motive := fun r => r.2 = captureIds upd t ∨
      t.state ≠ .pendingEntry ∧ r.2.state ≠ .pendingEntry) env upd om m (captureIds upd t)
      ?_ ?_ ?_ ?_ ?_ ?_ hany
    · exact fun _ _ _ => .inl rfl
    · intro _ _ hclosed _ hstop htp1 htp2
      have hentry : om.isEntry = true := by simpa [OrderMatch.any, hstop, htp1, htp2] using hany
      exact absurd hclosed (hopen hentry)
    · exact fun hopened hentry hsize => absurd (hpartly hentry hopened) (not_le.2 hsize)
    · exact fun _ _ hfill hentry => absurd hfill.1 (hopen hentry)
    · intro hfill _ _ _
      have hst : t.state ≠ .pendingEntry := fun hst => hfirst ⟨hfill, hst⟩
      -- whatever becomes of the TP1 fill, the trade is not pending
      obtain ⟨evs, -, ⟨-, ht⟩ | ⟨-, -, r, -, ht⟩ | ⟨-, -, -, e, msg, pre, res, -, -, -, ht⟩⟩ :=
        onTp1Filled_effect env upd m (captureIds upd t)
      · rw [ht]
        exact .inr ⟨hst, hst⟩
      · rw [ht]
        exact .inr ⟨hst, hst⟩
      · rw [ht, afterClose_state]
        refine .inr ⟨hst, ?_⟩
        split
        · simp
        · exact hst
    · intro hfill _ _
      exact .inr ⟨fun hst => hfirst ⟨hfill, hst⟩, by simp [onExitFilled]⟩

/-- An update that does not note the trade leaves its entry alone. -/
theorem isOutstanding_unnoted (hop : Op.isSubmit (.onOrderUpdate env upd) = false)
    {x : ActiveTrade} (hpartly : x.uid ∉ partialFills d.ex (.onOrderUpdate env upd))
    (hends : x.uid ∉ entryEnds d.ex (.onOrderUpdate env upd)) :
    (d.step (.other (.onOrderUpdate env upd) hop)).isOutstanding x = d.isOutstanding x := by
  have hpartly : x.uid ∈ (d.step (.other (.onOrderUpdate env upd) hop)).partly ↔
      x.uid ∈ d.partly := List.mem_append.trans (or_iff_right hpartly)
  have hended : x.uid ∈ (d.step (.other (.onOrderUpdate env upd) hop)).ended ↔
      x.uid ∈ d.ended := List.mem_append.trans (or_iff_right hends)
  simp only [isOutstanding, hpartly, hended]

/-- Nobody takes the update. -/
theorem inv_onOrderUpdate_none (h : d.Inv) (hC : d.OrderlyUpdate upd)
    (hop : Op.isSubmit (.onOrderUpdate env upd) = false) (hroute : d.ex.route upd = none) :
    (d.step (.other (.onOrderUpdate env upd) hop)).Inv := by
  have hentry : entryOf upd d.ex = none := by simp [entryOf, hroute]
  have hreleases : releases d.ex (.onOrderUpdate env upd) = [] := by simp [releases, hentry]
  have hpartly : partialFills d.ex (.onOrderUpdate env upd) = [] := by
    simp [partialFills, hentry]
  obtain ⟨hm, hall⟩ : (d.ex.onOrderUpdate env upd).toMembers = d.ex.emit (.reported upd) ∧
      (d.ex.onOrderUpdate env upd).allTrades = d.ex.allTrades := onOrderUpdate_of_route_none hroute
  have hout : ∀ x ∈ d.ex.allTrades,
      (d.step (.other (.onOrderUpdate env upd) hop)).isOutstanding x = d.isOutstanding x :=
    fun x hx => isOutstanding_other h hC hop hx (by simp [hentry])
  set d' := d.step (.other (.onOrderUpdate env upd) hop) with hd'
  have hall' : d'.ex.allTrades = d.ex.allTrades := hall
  have hm' : d'.ex.toMembers = d.ex.emit (.reported upd) := hm
  have hpartly : d'.partly = d.partly := by
    show partialFills d.ex (.onOrderUpdate env upd) ++ d.partly = d.partly
    rw [hpartly, List.nil_append]
  have hreleased : d'.released = d.released := by
    show releases d.ex (.onOrderUpdate env upd) ++ d.released = d.released
    rw [hreleases, List.nil_append]
  have hsame : d'.outstanding = d.outstanding := by
    rw [outstanding, hall', List.filter_congr hout]
    rfl
  refine inv_of_ledger h (h.wf.step (.onOrderUpdate env upd)) rfl rfl ?_ ?_ ?_ ?_ ?_ ?_
  · rw [hm']
    exact le_rfl
  · exact fun u hu => .inl (hpartly ▸ hu)
  · exact fun t ht => ⟨t, hall' ▸ ht, rfl⟩
  · exact fun t ht hst => hpartly ▸ h.pending t (hall' ▸ ht) hst
  · rw [hm']
    exact h.holds
  · rw [hm', hsame, hreleased]
    exact h.ledger

/-- The trade `t` takes the update and becomes `t'`. -/
structure Taken (d : Desk) (env : Env) (upd : OrderUpdate) (t : ActiveTrade) (om : OrderMatch)
    (pre post : List ActiveTrade) : Prop where
  route : d.ex.route upd = some (t, om)
  before : d.ex.allTrades = pre ++ t :: post
  members : (d.ex.onOrderUpdate env upd).toMembers
    = (applyOrderUpdate env upd (d.ex.emit (.reported upd)) t om).1
  after : (d.ex.onOrderUpdate env upd).allTrades
    = pre ++ (applyOrderUpdate env upd (d.ex.emit (.reported upd)) t om).2 :: post
  selected : selectTrade upd t = some om

variable {pre post : List ActiveTrade}

theorem Taken.uid (h : Taken d env upd t om pre post) :
    (applyOrderUpdate env upd (d.ex.emit (.reported upd)) t om).2.uid = t.uid :=
  (applyOrderUpdate_keeps env upd _ t (selectTrade_eq_some h.selected).2.2.2).uid

theorem Taken.other_uid (h : Taken d env upd t om pre post) (hwf : d.ex.WF) {x : ActiveTrade}
    (hx : x ∈ pre ∨ x ∈ post) : x.uid ≠ t.uid := by
  have hnd := hwf.nodup
  rw [h.before, List.map_append, List.map_cons, List.nodup_middle, List.nodup_cons,
    ← List.map_append] at hnd
  intro heq
  refine hnd.1 (List.mem_map.2 ⟨x, ?_, heq⟩)
  exact List.mem_append.2 hx

/-- What is left to see once a trade has taken the update: the ledger, and the trade itself. -/
theorem inv_onOrderUpdate_taken (h : d.Inv) (htaken : Taken d env upd t om pre post)
    (hop : Op.isSubmit (.onOrderUpdate env upd) = false)
    (hpending : (applyOrderUpdate env upd (d.ex.emit (.reported upd)) t om).2.state = .pendingEntry →
      t.uid ∉ (d.step (.other (.onOrderUpdate env upd) hop)).partly ∧
        (applyOrderUpdate env upd (d.ex.emit (.reported upd)) t om).2.executedSize = 0)
    (hledger : Ledger.Balanced (d.ex.onOrderUpdate env upd).reservedBalanceUsd
      (d.step (.other (.onOrderUpdate env upd) hop)).outstanding d.taken
      (releases d.ex (.onOrderUpdate env upd) ++ d.released)) :
    (d.step (.other (.onOrderUpdate env upd) hop)).Inv := by
  have hpasses := onOrderUpdate_passes h.wf.toKeyed env upd
  -- the trade that has taken the update is the only one with a partial fill
  have hnotTaken : ∀ x ∈ d.ex.allTrades, x.uid ≠ t.uid →
      x.uid ∉ partialFills d.ex (.onOrderUpdate env upd) := by
    intro x _ hne hin
    obtain ⟨-, y, hy, hyx⟩ := mem_partialFills.1 hin
    obtain ⟨om', hroute, -⟩ := entryOf_eq_some hy
    obtain rfl : y = t := (Prod.mk.inj (Option.some.inj (hroute.symm.trans htaken.route))).1
    exact hne hyx.symm
  -- the trades afterwards: the one that has taken the update, and the others as they were
  have hmem : ∀ x ∈ (d.ex.onOrderUpdate env upd).allTrades,
      x = (applyOrderUpdate env upd (d.ex.emit (.reported upd)) t om).2 ∨
        (x ∈ d.ex.allTrades ∧ x.uid ≠ t.uid) := by
    intro x hx
    rw [htaken.after, List.mem_append, List.mem_cons] at hx
    rw [htaken.before]
    obtain hx | rfl | hx := hx
    · exact .inr ⟨by simp [hx], htaken.other_uid h.wf (.inl hx)⟩
    · exact .inl rfl
    · exact .inr ⟨by simp [hx], htaken.other_uid h.wf (.inr hx)⟩
  have hmemt : t ∈ d.ex.allTrades := by simp [htaken.before]
  refine inv_of_ledger h (h.wf.step (.onOrderUpdate env upd)) rfl rfl (grows_nextUid hpasses).ge
    ?_ ?_ ?_ ?_ hledger
  · intro u hu
    obtain hin | hin := List.mem_append.1 hu
    · obtain ⟨-, x, hx, rfl⟩ := mem_partialFills.1 hin
      obtain ⟨om', hroute, -⟩ := entryOf_eq_some hx
      exact .inr ⟨x, mem_of_route h.wf.toKeyed hroute, rfl⟩
    · exact .inl hin
  · intro x hx
    obtain rfl | ⟨hx, -⟩ := hmem x hx
    · exact ⟨t, hmemt, htaken.uid.symm⟩
    · exact ⟨x, hx, rfl⟩
  · intro x hx hst
    obtain rfl | ⟨hx, hne⟩ := hmem x hx
    · rw [htaken.uid]
      exact hpending hst
    · obtain ⟨hfree, hsize⟩ := h.pending x hx hst
      refine ⟨fun hin => ?_, hsize⟩
      obtain hin | hin := List.mem_append.1 hin
      · exact hnotTaken x hx hne hin
      · exact hfree hin
  · have hbooks := applyOrderUpdate_books env (d.ex.emit (.reported upd)) t upd om
    show ∃ o, (d.ex.onOrderUpdate env upd).reconciliator.HoldsOnly o
    have hrecon : (d.ex.onOrderUpdate env upd).reconciliator = d.ex.reconciliator := by
      rw [htaken.members, hbooks.reconciliator]
      unfold releasedBy
      split <;> rfl
    exact hrecon ▸ h.holds

/-- The trades before and after the one that takes the update are outstanding as before. -/
theorem Taken.others (htaken : Taken d env upd t om pre post) (h : d.Inv)
    (hC : d.OrderlyUpdate upd) (hop : Op.isSubmit (.onOrderUpdate env upd) = false)
    {l : List ActiveTrade} (hl : ∀ x ∈ l, x ∈ pre ∨ x ∈ post) :
    l.filter (d.step (.other (.onOrderUpdate env upd) hop)).isOutstanding
      = l.filter d.isOutstanding := by
  refine List.filter_congr (fun x hx => ?_)
  have hmem : x ∈ d.ex.allTrades := by
    rw [htaken.before, List.mem_append, List.mem_cons]
    obtain hx | hx := hl x hx
    · exact .inl hx
    · exact .inr (.inr hx)
  refine isOutstanding_other h hC hop hmem (fun y hy => ?_)
  obtain ⟨om', hroute, -⟩ := entryOf_eq_some hy
  obtain rfl : y = t := (Prod.mk.inj (Option.some.inj (hroute.symm.trans htaken.route))).1
  exact htaken.other_uid h.wf (hl x hx)

/-- A closed entry releases the reservation of the trade, whose entry ends with it. -/
theorem inv_entry_closed (h : d.Inv) (htaken : Taken d env upd t om pre post)
    (hC : d.OrderlyUpdate upd) (hop : Op.isSubmit (.onOrderUpdate env upd) = false)
    (hentry : om.isEntry = true) (hclosed : upd.status = .closed) :
    (d.step (.other (.onOrderUpdate env upd) hop)).Inv := by
  have hentryOf : entryOf upd d.ex = some t := by rw [entryOf_of_route htaken.route, if_pos hentry]
  have hnever : (applyOrderUpdate env upd (d.ex.emit (.reported upd)) t om).2.state
      ≠ .pendingEntry :=
    applyOrderUpdate_entry_closed _ htaken.selected hentry hclosed
      (fun hsize => hC.entryOnly hclosed hsize t om htaken.route hentry)
  have hreleases : releases d.ex (.onOrderUpdate env upd) = [t.uid] := by
    simp [releases, hclosed, hentryOf]
  have hbooks := applyOrderUpdate_books env (d.ex.emit (.reported upd)) t upd om
  -- the reservation is given back to the balance
  have hbalance : (d.ex.onOrderUpdate env upd).reservedBalanceUsd
      = Ledger.release d.ex.reservedBalanceUsd t.plan.reservation := by
    rw [htaken.members, hbooks.reserved, releasedBy, if_pos ⟨hclosed, hentry⟩]
    rfl
  refine inv_onOrderUpdate_taken h htaken hop (fun hst => absurd hst hnever) ?_
  set t' := (applyOrderUpdate env upd (d.ex.emit (.reported upd)) t om).2 with ht'
  set d' := d.step (.other (.onOrderUpdate env upd) hop) with hd'
  -- and the trade is outstanding no longer
  have hgone : ¬ d'.isOutstanding t' = true := by
    have hended : t'.uid ∈ d'.ended := by
      rw [htaken.uid]
      exact List.mem_append_left _ (mem_entryEnds.2 ⟨hclosed, .inl ⟨t, hentryOf, rfl⟩⟩)
    simp [isOutstanding, hnever, hended]
  have hall : d'.ex.allTrades = pre ++ t' :: post := htaken.after
  have hout : d.isOutstanding t = true := hC.closed hclosed t hentryOf
  -- what was outstanding is this trade and what still is
  have hperm : (reservationOf t :: d'.outstanding).Perm d.outstanding := by
    rw [outstanding, outstanding, hall, htaken.before, List.filter_append, List.filter_append,
      List.filter_cons_of_neg hgone, List.filter_cons_of_pos hout,
      htaken.others h hC hop (fun x hx => .inl hx), htaken.others h hC hop (fun x hx => .inr hx)]
    simp only [List.map_append, List.map_cons]
    exact (List.perm_middle.symm.trans (List.perm_middle.symm.append_left _))
  rw [hbalance, hreleases]
  exact (h.ledger.perm hperm).release

/-- The trade stays outstanding or not, as it was, and has executed nothing while its entry is
    pending. -/
structure Kept (d d' : Desk) (t t' : ActiveTrade) : Prop where
  outstanding : d'.isOutstanding t' = d.isOutstanding t
  pending : t'.state = .pendingEntry → t.uid ∉ d'.partly ∧ t'.executedSize = 0

/-- A partial entry fill opens the trade, and is noted. -/
theorem Taken.kept_partly (h : Taken d env upd t om pre post) (hC : d.OrderlyUpdate upd)
    (hop : Op.isSubmit (.onOrderUpdate env upd) = false) (hentry : om.isEntry = true)
    (hopened : upd.status = .opened) (hsize : 0 < upd.filledSize) :
    Kept d (d.step (.other (.onOrderUpdate env upd) hop)) t
      (applyOrderUpdate env upd (d.ex.emit (.reported upd)) t om).2 := by
  set d' := d.step (.other (.onOrderUpdate env upd) hop) with hd'
  set t' := (applyOrderUpdate env upd (d.ex.emit (.reported upd)) t om).2 with ht'
  have hentryOf : entryOf upd d.ex = some t := by rw [entryOf_of_route h.route, if_pos hentry]
  have hst : t'.state = .opened := applyOrderUpdate_entry_partly hentry hopened hsize
  have hpartly : t'.uid ∈ d'.partly := by
    rw [h.uid]
    exact List.mem_append_left _ (mem_partialFills.2 ⟨⟨hopened, hsize⟩, t, hentryOf, rfl⟩)
  have hended : t'.uid ∈ d'.ended ↔ t.uid ∈ d.ended := by
    rw [h.uid]
    refine List.mem_append.trans (or_iff_right (fun hin => ?_))
    exact absurd (mem_entryEnds.1 hin).1 (by simp [hopened])
  refine ⟨?_, fun hpending => absurd (hst.symm.trans hpending) (by simp)⟩
  rw [Bool.eq_iff_iff, hC.partly hopened hsize t hentryOf]
  simp [isOutstanding, hst, hpartly, hended]

/-- Any other report that ends no entry leaves the trade's entry alone. -/
theorem Taken.kept_other (htaken : Taken d env upd t om pre post) (h : d.Inv)
    (hC : d.OrderlyUpdate upd) (hop : Op.isSubmit (.onOrderUpdate env upd) = false)
    (hopen : om.isEntry = true → upd.status ≠ .closed)
    (hpartly : ¬ (om.isEntry = true ∧ upd.status = .opened ∧ 0 < upd.filledSize)) :
    Kept d (d.step (.other (.onOrderUpdate env upd) hop)) t
      (applyOrderUpdate env upd (d.ex.emit (.reported upd)) t om).2 := by
  have hmemt : t ∈ d.ex.allTrades := by simp [htaken.before]
  set d' := d.step (.other (.onOrderUpdate env upd) hop) with hd'
  set t' := (applyOrderUpdate env upd (d.ex.emit (.reported upd)) t om).2 with ht'
  -- the update does not touch the entry
  have hsame : SameEntry t t' := by
    refine applyOrderUpdate_sameEntry _ htaken.selected ?_ hopen ?_
    · intro hentry hopened
      exact not_lt.1 (fun hsize => hpartly ⟨hentry, hopened, hsize⟩)
    · intro hfill hst
      have hentry : om.isEntry = false := by
        by_contra hentry
        exact hopen (by simpa using hentry) hfill.1
      obtain ⟨htp1, hnew⟩ := hC.exit hfill t om htaken.route hentry hst
      exact ⟨htp1, hnew, (h.pending t hmemt hst).2⟩
  -- no partial fill is noted
  have hunnoted : t.uid ∉ partialFills d.ex (.onOrderUpdate env upd) := by
    intro hin
    obtain ⟨⟨hopened, hsize⟩, x, hx, -⟩ := mem_partialFills.1 hin
    obtain ⟨om', hroute, hentry⟩ := entryOf_eq_some hx
    obtain rfl : om' = om := (Prod.mk.inj (Option.some.inj (hroute.symm.trans htaken.route))).2
    exact hpartly ⟨hentry, hopened, hsize⟩
  -- and no entry ends with it
  have hstill : d'.isOutstanding t = d.isOutstanding t := by
    by_cases hentry : om.isEntry = true
    · refine isOutstanding_unnoted hop hunnoted (fun hin => ?_)
      exact hopen hentry (mem_entryEnds.1 hin).1
    · refine isOutstanding_other h hC hop hmemt (fun x hx => ?_)
      simp [entryOf_of_route htaken.route, hentry] at hx
  refine ⟨(hsame.isOutstanding d').trans hstill, fun hst => ?_⟩
  obtain ⟨hfree, hsize⟩ := h.pending t hmemt (hsame.pending.1 hst)
  refine ⟨fun hin => ?_, (hsame.size hst).trans hsize⟩
  exact (List.mem_append.1 hin).elim hunnoted hfree

/-- Any other update leaves the trade outstanding or not, as it was. -/
theorem inv_entry_kept (h : d.Inv) (htaken : Taken d env upd t om pre post)
    (hC : d.OrderlyUpdate upd) (hop : Op.isSubmit (.onOrderUpdate env upd) = false)
    (hopen : om.isEntry = true → upd.status ≠ .closed) :
    (d.step (.other (.onOrderUpdate env upd) hop)).Inv := by
  have hreleases : releases d.ex (.onOrderUpdate env upd) = [] := by
    by_cases hentry : om.isEntry = true
    · simp [releases, hopen hentry]
    · simp [releases, entryOf_of_route htaken.route, hentry]
  have hbooks := applyOrderUpdate_books env (d.ex.emit (.reported upd)) t upd om
  have hbalance : (d.ex.onOrderUpdate env upd).reservedBalanceUsd = d.ex.reservedBalanceUsd := by
    rw [htaken.members, hbooks.reserved, releasedBy, if_neg (fun h => hopen h.2 h.1)]
    rfl
  -- a partial fill of the entry, or a report on another order
  have hkept : Kept d (d.step (.other (.onOrderUpdate env upd) hop)) t
      (applyOrderUpdate env upd (d.ex.emit (.reported upd)) t om).2 := by
    by_cases hpartly : om.isEntry = true ∧ upd.status = .opened ∧ 0 < upd.filledSize
    · exact htaken.kept_partly hC hop hpartly.1 hpartly.2.1 hpartly.2.2
    · exact htaken.kept_other h hC hop hopen hpartly
  refine inv_onOrderUpdate_taken h htaken hop hkept.pending ?_
  set d' := d.step (.other (.onOrderUpdate env upd) hop) with hd'
  set t' := (applyOrderUpdate env upd (d.ex.emit (.reported upd)) t om).2 with ht'
  have hkeeps := applyOrderUpdate_keeps env upd (d.ex.emit (.reported upd)) t
    (selectTrade_eq_some htaken.selected).2.2.2
  have hkey : reservationOf t' = reservationOf t := by
    rw [reservationOf, reservationOf, hkeeps.uid, hkeeps.plan]
  -- trade by trade the outstanding entries are those from before
  have hsame : d'.outstanding = d.outstanding := by
    have hone : ([t'].filter d'.isOutstanding).map reservationOf
        = ([t].filter d.isOutstanding).map reservationOf :=
      filter_outstanding_congr (.cons ⟨hkey, hkept.outstanding⟩ .nil)
    have hbefore : d.ex.allTrades = pre ++ ([t] ++ post) := htaken.before
    have hafter : d'.ex.allTrades = pre ++ ([t'] ++ post) := htaken.after
    have hpre : pre.filter d'.isOutstanding = pre.filter d.isOutstanding :=
      htaken.others h hC hop (fun x hx => .inl hx)
    have hpost : post.filter d'.isOutstanding = post.filter d.isOutstanding :=
      htaken.others h hC hop (fun x hx => .inr hx)
    rw [outstanding, outstanding, hafter, hbefore]
    simp only [List.filter_append, List.map_append, hone, hpre, hpost]
    rfl
  rw [hbalance, hreleases, hsame]
  exact h.ledger

theorem inv_onOrderUpdate (h : d.Inv) (hC : d.OrderlyUpdate upd)
    (hop : Op.isSubmit (.onOrderUpdate env upd) = false) :
    (d.step (.other (.onOrderUpdate env upd) hop)).Inv := by
  cases hroute : d.ex.route upd with
  | none => exact inv_onOrderUpdate_none h hC hop hroute
  | some r =>
      obtain ⟨t, om⟩ := r
      obtain ⟨hsel, -, hmembers, pre, post, hbefore, hafter⟩ :=
        onOrderUpdate_of_route h.wf.toKeyed env hroute
      have htaken : Taken d env upd t om pre post := ⟨hroute, hbefore, hmembers, hafter, hsel⟩
      by_cases hclosed : om.isEntry = true ∧ upd.status = .closed
      · exact inv_entry_closed h htaken hC hop hclosed.1 hclosed.2
      · exact inv_entry_kept h htaken hC hop (fun hentry hst => hclosed ⟨hentry, hst⟩)

end Desk

end TradeBot
