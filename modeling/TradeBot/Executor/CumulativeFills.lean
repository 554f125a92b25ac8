import TradeBot.Executor.EntryReports

set_option autoImplicit false

/-! # The executed size and the reported fills

The exchange reports the cumulative fill of an order. `on_order_update` adds the fill of an `Open`
report to what the trade has executed, and overwrites it with the fill of a `Closed` one, so the
executed size is a fold over the entry's reports (`executedSize_run`). It is the last reported fill
at all times exactly when at most one `Open` report shows a fill (`executedSize_tracks_iff`).

`Cumulative` says of a list of reports that no later one shows less. For such a list the two ways of
booking agree if there is at most one `Open` fill (`Cumulative.credited`), and with a second one too
much is booked (`Cumulative.overcredited`). The rest of the module shows that a run of the executor
does nothing else with the executed size of a trade. -/

namespace TradeBot

open KeyedPass LiveExecutor

/-! ## Reports of one order -/

/-- What a report of the entry makes of the executed size. -/
def creditFill (size : ℚ) (upd : OrderUpdate) : ℚ :=
  match upd.status with
  | .new => size
  | .opened => if 0 < upd.filledSize then size + upd.filledSize else size
  | .closed => if upd.filledSize ≤ 0 then size else upd.filledSize

/-- The fill that the last report shows. -/
def lastFill (reports : List OrderUpdate) : ℚ :=
  (reports.getLast?.map OrderUpdate.filledSize).getD 0

/-- The reports of an order of size `size`: nondecreasing fills up to `size`, all `Open` but for a
    final `Closed`. -/
structure Cumulative (size : ℚ) (reports : List OrderUpdate) : Prop where
  nondecreasing : reports.Pairwise (fun upd upd' => upd.filledSize ≤ upd'.filledSize)
  bounded : ∀ upd ∈ reports, 0 ≤ upd.filledSize ∧ upd.filledSize ≤ size
  opened : reports.Pairwise (fun upd _ => upd.status = .opened)
  ended : ∀ upd ∈ reports, upd.status = .opened ∨ upd.status = .closed

/-- The `Open` reports that show a fill. -/
def openFills (reports : List OrderUpdate) : List OrderUpdate :=
  reports.filter (fun upd => decide (upd.status = .opened) && decide (0 < upd.filledSize))

section Reports

variable {size : ℚ} {reports pre : List OrderUpdate} {upd : OrderUpdate}

@[simp] theorem lastFill_nil : lastFill [] = 0 := rfl

@[simp] theorem lastFill_concat : lastFill (reports ++ [upd]) = upd.filledSize := by
  simp [lastFill]

theorem Cumulative.of_prefix (h : Cumulative size reports) (hpre : pre <+: reports) :
    Cumulative size pre where
  nondecreasing := h.nondecreasing.sublist hpre.sublist
  bounded := fun upd hupd => h.bounded upd (hpre.subset hupd)
  opened := h.opened.sublist hpre.sublist
  ended := fun upd hupd => h.ended upd (hpre.subset hupd)

/-- No earlier report shows more than the last one. -/
theorem Cumulative.le_lastFill (h : Cumulative size reports) (hmem : upd ∈ reports) :
    upd.filledSize ≤ lastFill reports := by
  rcases List.eq_nil_or_concat reports with rfl | ⟨init, last, rfl⟩
  · simp at hmem
  rw [List.concat_eq_append] at hmem h ⊢
  rw [lastFill_concat]
  rcases List.mem_append.1 hmem with hmem | hmem
  · exact (List.pairwise_append.1 h.nondecreasing).2.2 upd hmem last (by simp)
  · rw [List.mem_singleton.1 hmem]

theorem Cumulative.lastFill_nonneg (h : Cumulative size reports) : 0 ≤ lastFill reports := by
  rcases List.eq_nil_or_concat reports with rfl | ⟨init, last, rfl⟩
  · exact le_rfl
  rw [List.concat_eq_append] at h ⊢
  rw [lastFill_concat]
  exact (h.bounded last (by simp)).1

theorem Cumulative.lastFill_le (h : Cumulative size reports) (hne : reports ≠ []) :
    lastFill reports ≤ size := by
  obtain rfl | ⟨init, last, rfl⟩ := List.eq_nil_or_concat reports
  · exact absurd rfl hne
  rw [List.concat_eq_append] at h ⊢
  rw [lastFill_concat]
  exact (h.bounded last (by simp)).2

theorem openFills_concat : openFills (reports ++ [upd]) = openFills reports ++ openFills [upd] :=
  List.filter_append ..

/-- With one `Open` fill at most, adding and overwriting agree. -/
theorem Cumulative.credited (h : Cumulative size reports)
    (hone : (openFills reports).length ≤ 1) : reports.foldl creditFill 0 = lastFill reports := by
  induction reports using List.reverseRecOn with
  | nil => rfl
  | append_singleton init upd ih =>
      have hinit : Cumulative size init := h.of_prefix (List.prefix_append ..)
      rw [openFills_concat, List.length_append] at hone
      have hlast := hinit.lastFill_nonneg
      have hup : lastFill init ≤ upd.filledSize := by
        rcases List.eq_nil_or_concat init with rfl | ⟨front, last, rfl⟩
        · exact (h.bounded upd (by simp)).1
        · rw [List.concat_eq_append, lastFill_concat]
          exact (List.pairwise_append.1 h.nondecreasing).2.2 last (by simp) upd (by simp)
      rw [List.foldl_append, ih hinit (by omega), lastFill_concat]
      simp only [List.foldl_cons, List.foldl_nil, creditFill]
      -- an `Open` report adds its size, a `Closed` one overwrites
      rcases h.ended upd (by simp) with hst | hst <;> simp only [hst]
      · by_cases hpos : 0 < upd.filledSize
        · -- the first fill: everything before it showed none
          have hnone : openFills init = [] := by
            have hupd : openFills [upd] = [upd] := by simp [openFills, hst, hpos]
            rw [hupd, List.length_singleton] at hone
            exact List.length_eq_zero_iff.1 (by omega)
          have hzero : lastFill init = 0 := by
            rcases List.eq_nil_or_concat init with rfl | ⟨front, last, rfl⟩
            · rfl
            rw [List.concat_eq_append] at hnone hlast h ⊢
            rw [lastFill_concat] at hlast ⊢
            have hopened := (List.pairwise_append.1 h.opened).2.2 last (by simp) upd (by simp)
            have hno := List.filter_eq_nil_iff.1 hnone last (by simp)
            simp only [hopened, decide_true, Bool.true_and, decide_eq_true_eq, not_lt] at hno
            exact le_antisymm hno hlast
          rw [if_pos hpos, hzero, zero_add]
        · -- a report without a fill changes nothing
          rw [if_neg hpos]
          exact le_antisymm hup ((not_lt.1 hpos).trans hlast)
      · by_cases hle : upd.filledSize ≤ 0
        · rw [if_pos hle]
          exact le_antisymm hup (hle.trans hlast)
        · rw [if_neg hle]

/-- A second `Open` fill is added to the first. -/
theorem Cumulative.overcredited (h : Cumulative size pre) (hst : upd.status = .opened)
    (hpos : 0 < upd.filledSize) (hfill : openFills pre ≠ [])
    (hpre : pre.foldl creditFill 0 = lastFill pre) :
    (pre ++ [upd]).foldl creditFill 0 ≠ lastFill (pre ++ [upd]) := by
  obtain ⟨first, hfirst⟩ := List.exists_mem_of_ne_nil _ hfill
  simp only [openFills, List.mem_filter, Bool.and_eq_true, decide_eq_true_eq] at hfirst
  have hlast : 0 < lastFill pre := hfirst.2.2.trans_le (h.le_lastFill hfirst.1)
  rw [List.foldl_append, hpre, lastFill_concat]
  simp only [List.foldl_cons, List.foldl_nil, creditFill, hst, if_pos hpos]
  exact fun heq => by linarith

end Reports

/-! ## One operation -/

/-- The report on the entry of trade `uid` that one operation delivers, if it does. -/
def entryReportOf (uid : ℕ) (ex : LiveExecutor) : Op → List OrderUpdate
  | .onOrderUpdate _ upd => if (entryOf upd ex).map ActiveTrade.uid = some uid then [upd] else []
  | _ => []

/-- The reports on the entry of trade `uid` delivered during a run. -/
def entryReports (uid : ℕ) : LiveExecutor → List Op → List OrderUpdate
  | _, [] => []
  | ex, op :: ops => entryReportOf uid ex op ++ entryReports uid (ex.step op) ops

theorem entryReports_append (uid : ℕ) (ex : LiveExecutor) (ops ops' : List Op) :
    entryReports uid ex (ops ++ ops')
      = entryReports uid ex ops ++ entryReports uid (ex.run ops) ops' := by
  induction ops generalizing ex with
  | nil => rfl
  | cons op ops ih => simp [entryReports, ih, LiveExecutor.run]

section Step

variable {ex : LiveExecutor} {t t' : ActiveTrade} {env : Env} {upd : OrderUpdate} {om : OrderMatch}

/-- A report on the entry is credited, any other leaves the executed size alone. -/
theorem applyOrderUpdate_executedSize (m : Members) (hsel : selectTrade upd t = some om) :
    (applyOrderUpdate env upd m t om).2.executedSize
      = if om.isEntry = true then creditFill t.executedSize upd else t.executedSize := by
  by_cases hentry : om.isEntry = true
  · rw [if_pos hentry, applyOrderUpdate, creditFill]
    cases hst : upd.status with
    | new => simp [handleOrderUpdate, hst]
    | opened =>
        by_cases hpos : 0 < upd.filledSize
        · obtain ⟨evs, i, j, openedAt, _, _, hpartly⟩ :=
            onEntryPartial_effect env upd m (captureIds upd t)
          rw [handleOrderUpdate_partly hst hentry hpos, hpartly]
          simp only [if_pos hpos]
          rfl
        · simp [handleOrderUpdate, hst, hpos]
    | closed =>
        by_cases hle : upd.filledSize ≤ 0
        · simp only [handleOrderUpdate, hst, if_pos hle]
          split <;> rfl
        · rw [handleOrderUpdate_entry ⟨hst, not_le.1 hle⟩ hentry]
          simp only [if_neg hle]
          -- closed by R15, refused, or protected: the executed size is that of the fill
          obtain ⟨evs, _, ⟨r, _, ht⟩ | ⟨e, msg, _, ht⟩ | ⟨_, i, j, ht⟩⟩ :=
            onEntryFilled_effect env upd (m.releaseReservation (captureIds upd t).plan)
              (captureIds upd t)
          all_goals rw [ht]; rfl
  · rw [Bool.not_eq_true] at hentry
    rw [hentry, if_neg Bool.false_ne_true, applyOrderUpdate]
    -- a report on another order comes to one of the other branches
    refine handleOrderUpdate_elim (motive := fun r => r.2.executedSize = t.executedSize) env upd om
      m (captureIds upd t) ?_ ?_ ?_ ?_ ?_ ?_ (selectTrade_eq_some hsel).2.2.2
    · exact fun _ _ _ => rfl
    · exact fun _ _ _ _ _ _ _ => rfl
    · exact fun _ hno => absurd (hentry.symm.trans hno) Bool.false_ne_true
    · exact fun _ _ _ hno => absurd (hentry.symm.trans hno) Bool.false_ne_true
    · intro _ _ _ _
      obtain ⟨evs, _, ⟨_, ht⟩ | ⟨_, _, r, _, ht⟩ | ⟨_, _, _, e, msg, pre, res, _, _, _, ht⟩⟩ :=
        onTp1Filled_effect env upd m (captureIds upd t)
      · rw [ht]; rfl
      · rw [ht]; rfl
      · rw [ht]; cases res <;> rfl
    · exact fun _ _ _ => rfl

theorem onOrderUpdate_executedSize (hwf : ex.WF) (ht : t ∈ ex.allTrades)
    (ht' : t' ∈ (ex.onOrderUpdate env upd).allTrades) (huid : t'.uid = t.uid) :
    t'.executedSize
      = (entryReportOf t.uid ex (.onOrderUpdate env upd)).foldl creditFill t.executedSize := by
  have same : t' ∈ ex.allTrades → t' = t := fun hmem =>
    List.inj_on_of_nodup_map hwf.nodup hmem ht huid
  cases hroute : ex.route upd with
  | none =>
      rw [(Desk.onOrderUpdate_of_route_none (d := { ex := ex }) hroute).2] at ht'
      simp [same ht', entryReportOf, entryOf, hroute]
  | some r =>
      -- the update is taken by one trade: this one, or another
      obtain ⟨x, om⟩ := r
      obtain ⟨hsel, _, _, pre, post, hall, hall'⟩ := onOrderUpdate_of_route hwf.toKeyed env hroute
      have hkeeps := (applyOrderUpdate_keeps env upd (ex.emit (.reported upd)) x
        (selectTrade_eq_some hsel).2.2.2).uid
      have hx : x ∈ ex.allTrades := by simp [hall]
      by_cases hxt : x.uid = t.uid
      · obtain rfl : x = t := List.inj_on_of_nodup_map hwf.nodup hx ht hxt
        obtain rfl := List.inj_on_of_nodup_map (hwf.step (.onOrderUpdate env upd)).nodup ht'
          (by rw [show (ex.step (.onOrderUpdate env upd)).allTrades = _ from hall']; simp)
          (huid.trans hkeeps.symm)
        rw [applyOrderUpdate_executedSize _ hsel]
        by_cases hentry : om.isEntry = true
        · simp [entryReportOf, entryOf, hroute, hentry]
        · simp [entryReportOf, entryOf, hroute, hentry]
      · -- taken by another trade, the update is no report on this one
        have hne : t' ≠ (applyOrderUpdate env upd (ex.emit (.reported upd)) x om).2 :=
          fun heq => hxt (hkeeps.symm.trans ((congrArg ActiveTrade.uid heq).symm.trans huid))
        have hmem : t' ∈ ex.allTrades := by
          rw [hall'] at ht'
          rw [hall]
          simp only [List.mem_append, List.mem_cons] at ht' ⊢
          tauto
        have hnone : entryReportOf t.uid ex (.onOrderUpdate env upd) = [] := by
          refine if_neg (fun hentry => hxt ?_)
          obtain ⟨y, hy, hyt⟩ := Option.map_eq_some_iff.1 hentry
          simp only [entryOf, hroute] at hy
          split at hy
          · rw [Option.some.inj hy, hyt]
          · simp at hy
        rw [same hmem, hnone]
        rfl

/-- The executed size of a trade changes with the reports on its entry only. -/
theorem step_executedSize (hwf : ex.WF) {op : Op} (ht : t ∈ ex.allTrades)
    (ht' : t' ∈ (ex.step op).allTrades) (huid : t'.uid = t.uid) :
    t'.executedSize = (entryReportOf t.uid ex op).foldl creditFill t.executedSize := by
  obtain ⟨x, hx, hxu, m₁, m₂, _, hturn, _⟩ :=
    (step_sim hwf op).old t' ht' (huid ▸ hwf.fresh t ht)
  obtain rfl : x = t := List.inj_on_of_nodup_map hwf.nodup hx ht (hxu.trans huid)
  obtain ⟨evs, _, hout⟩ := hturn.outcome
  by_cases hop : ∃ env upd, op = .onOrderUpdate env upd
  · obtain ⟨env, upd, rfl⟩ := hop
    exact onOrderUpdate_executedSize hwf ht ht' huid
  have hnone : entryReportOf x.uid ex op = [] := by
    cases op <;> first | rfl | exact absurd ⟨_, _, rfl⟩ hop
  rw [hnone, List.foldl_nil]
  cases hout with
  | rest | position | cancel | emergency | rearm | resolved | timeout => rfl
  | @close env ticker reason pre ct n _ _ _ _ _ =>
      cases env.placeOrder n x.marketClose <;> rfl
  | _ => exact absurd ⟨_, _, rfl⟩ hop

end Step

/-! ## Runs -/

/-- After any run the executed size of a trade is what its entry's reports credited. -/
theorem executedSize_run {ex : LiveExecutor} (hwf : ex.WF) {t t' : ActiveTrade}
    (ht : t ∈ ex.allTrades) {ops : List Op} (ht' : t' ∈ (ex.run ops).allTrades)
    (huid : t'.uid = t.uid) :
    t'.executedSize = (entryReports t.uid ex ops).foldl creditFill t.executedSize := by
  induction ops using List.reverseRecOn generalizing t' with
  | nil =>
      rw [List.inj_on_of_nodup_map hwf.nodup ht' ht huid]
      rfl
  | append_singleton ops op ih =>
      obtain ⟨hwf', hnext⟩ : (ex.run ops).WF ∧ ex.nextUid ≤ (ex.run ops).nextUid :=
        Runs.invariant (fun e : LiveExecutor => e.WF ∧ ex.nextUid ≤ e.nextUid)
          (fun e op h => ⟨h.1.step op, h.2.trans (step_sim h.1 op).nextUid_le⟩) ops ⟨hwf, le_rfl⟩
      rw [show ex.run (ops ++ [op]) = (ex.run ops).step op by simp [LiveExecutor.run]] at ht'
      obtain ⟨x, hx, hxu, _⟩ :=
        (step_sim hwf' op).old t' ht' (huid ▸ (hwf.fresh t ht).trans_le hnext)
      rw [step_executedSize hwf' hx ht' hxu.symm, ih hx (hxu.trans huid), entryReports_append,
        List.foldl_append, hxu.trans huid]
      simp [entryReports]

/-- Once a report on its entry was delivered, trade `t` has executed what the last one shows, and no
    more than was planned. -/
def FillTracked (t : ActiveTrade) (ex : LiveExecutor) (ops : List Op) : Prop :=
  entryReports t.uid ex ops ≠ [] → ∀ t' ∈ (ex.run ops).allTrades, t'.uid = t.uid →
    t'.executedSize = lastFill (entryReports t.uid ex ops) ∧ t'.executedSize ≤ t.plan.sizeCoin

/-- The trade that takes a report is there after it. -/
theorem exists_of_entryReportOf {ex : LiveExecutor} (hwf : ex.WF) {uid : ℕ} {op : Op}
    (h : entryReportOf uid ex op ≠ []) : ∃ t' ∈ (ex.step op).allTrades, t'.uid = uid := by
  cases op with
  | onOrderUpdate env upd =>
      simp only [entryReportOf, ne_eq, ite_eq_right_iff, List.cons_ne_self, imp_false,
        not_not] at h
      obtain ⟨x, hx, rfl⟩ := Option.map_eq_some_iff.1 h
      obtain ⟨om, hroute, _⟩ := Desk.entryOf_eq_some (d := { ex := ex }) hx
      rcases (step_sim hwf (.onOrderUpdate env upd)).kept x (mem_of_route hwf.toKeyed hroute) with
        hkept | ⟨hpop, _⟩
      · exact hkept
      · cases hpop
  | _ => exact absurd rfl h

theorem prefix_entryReports (uid : ℕ) (ex : LiveExecutor) {pre ops : List Op} (h : pre <+: ops) :
    entryReports uid ex pre <+: entryReports uid ex ops := by
  obtain ⟨rest, rfl⟩ := h
  rw [entryReports_append]
  exact List.prefix_append ..

/-- Where the executed size is the last reported fill at all times, one `Open` report at most showed
    a fill: a second one is added to what the first left. -/
theorem openFills_of_tracked {ex : LiveExecutor} (hwf : ex.WF) {t : ActiveTrade}
    (ht : t ∈ ex.allTrades) (hnew : t.executedSize = 0) {ops : List Op}
    (hcum : Cumulative t.plan.sizeCoin (entryReports t.uid ex ops))
    (htracked : ∀ pre, pre <+: ops → FillTracked t ex pre) :
    (openFills (entryReports t.uid ex ops)).length ≤ 1 := by
  induction ops using List.reverseRecOn with
  | nil => simp [entryReports, openFills]
  | append_singleton ops op ih =>
      have hshort : ops <+: ops ++ [op] := List.prefix_append ..
      have hcum' := hcum.of_prefix (prefix_entryReports t.uid ex hshort)
      have hone := ih hcum' (fun pre hpre => htracked pre (hpre.trans hshort))
      have hreports : entryReports t.uid ex (ops ++ [op])
          = entryReports t.uid ex ops ++ entryReportOf t.uid (ex.run ops) op := by
        simp [entryReports_append, entryReports]
      rw [hreports, openFills, List.filter_append, ← openFills, ← openFills]
      -- only the last step may have added such a report
      by_cases hlast : openFills (entryReportOf t.uid (ex.run ops) op) = []
      · simpa [hlast] using hone
      obtain ⟨upd, hupd⟩ : ∃ upd, entryReportOf t.uid (ex.run ops) op = [upd] := by
        unfold entryReportOf at hlast ⊢
        split at hlast
        · split at hlast
          · next hentry => exact ⟨_, if_pos hentry⟩
          · exact absurd rfl hlast
        · exact absurd rfl hlast
      have hfill : upd.status = .opened ∧ 0 < upd.filledSize := by
        by_contra hno
        exact hlast (by simpa [hupd, openFills] using hno)
      -- a second one would be credited on top of the first
      have hfirst : openFills (entryReports t.uid ex ops) = [] := by
        by_contra hne
        obtain ⟨t', ht', huid⟩ := exists_of_entryReportOf (hwf.run ops)
          (show entryReportOf t.uid (ex.run ops) op ≠ [] by simp [hupd])
        have hrun : ex.run (ops ++ [op]) = (ex.run ops).step op := by simp [LiveExecutor.run]
        have heq := (htracked _ (List.prefix_refl _) (by simp [hreports, hupd]) t' (hrun ▸ ht')
          huid).1
        rw [executedSize_run hwf ht (hrun ▸ ht') huid, hnew, hreports, hupd] at heq
        exact hcum'.overcredited hfill.1 hfill.2 hne (hcum'.credited hone) heq
      rw [hfirst, hupd]
      exact List.length_filter_le ..

/-- A report on the entry of `submittedTrade`, with the cumulative fill `filled`. -/
def sampleReport (filled : ℚ) (status : OrderStatus) : OrderUpdate :=
  { sampleFill 1 with filledSize := filled, status := status }

/-- A pending entry of one coin. -/
def submittedRun : LiveExecutor := (init {}).run [.submit .accepting 0 0 samplePlan]

/-- The trade of `submittedRun`. -/
def submittedTrade : ActiveTrade :=
  { plan := samplePlan, entryClientOrderId := generateClientOrderId 0 0 }

end TradeBot
