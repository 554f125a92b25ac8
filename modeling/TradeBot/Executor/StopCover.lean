import TradeBot.Executor.LiveStops
import TradeBot.Executor.Outcomes

set_option autoImplicit false

/-! # The protective stop covers the executed size

The first partial fill of an entry runs `place_stops_` before it adds the fill to the executed size,
so that nothing is placed, and no later partial fill places anything either. An entry that is filled
in one piece gets its stop. `stopCover_iff` says that these are the only cases.

The result is about any reachable state in which the plan is submitted. The trade then takes its own
entry reports and nothing else happens to it, so its executed size and its live stops are determined
by these reports: without a partial fill the stop is placed with the final fill and covers it
(`stopCovers_of_closed`), with one nothing is placed until the end (`not_stopCovers_of_opened`). -/

namespace TradeBot

open LiveExecutor

/-- If trade `uid` is open and has executed something, a live reduce-only stop-loss of it has the
    executed size. -/
def StopCovers (uid : ℕ) (ex : LiveExecutor) : Prop :=
  ∀ t ∈ ex.allTrades, t.uid = uid → t.state = .opened → 0 < t.executedSize →
    ∃ o ∈ liveStops uid ex.trace, o.req.size = t.executedSize

/-- The gateway answers every call, and every placement with an order id. -/
structure Env.Succeeds (env : Env) : Prop extends env.NeverThrows where
  answersIds : ∀ n req res, env.placeOrder n req = .ok res → res.orderId ≠ 0

theorem Env.accepting_succeeds : Env.accepting.Succeeds where
  toNeverThrows := Env.accepting_neverThrows
  answersIds := by
    rintro n req res ⟨⟩
    exact Int.natCast_ne_zero.2 (Nat.succ_ne_zero n)

/-- Handle order updates one after the other, each with its own surroundings. -/
def handleUpdates (ex : LiveExecutor) (updates : List (Env × OrderUpdate)) : LiveExecutor :=
  updates.foldl (fun ex p => ex.onOrderUpdate p.1 p.2) ex

/-- The updates are about the entry order of trade `uid`, and the gateway always succeeds. -/
def EntryUpdates (uid : ℕ) (ex : LiveExecutor) (updates : List (Env × OrderUpdate)) : Prop :=
  Runs.Along (fun ex p => ex.onOrderUpdate p.1 p.2) (fun ex p => p.1.Succeeds ∧
    ∃ t om, ex.route p.2 = some (t, om) ∧ t.uid = uid ∧ om.isEntry = true) ex updates

section Updates

variable {ex : LiveExecutor} {env : Env} {upd : OrderUpdate} {om : OrderMatch} {t : ActiveTrade}

/-- A submission that the gateway accepts adds a trade that waits for its entry. -/
theorem submit_accepted (hwf : ex.WF) (henv : env.NeverThrows) (ns : ℕ) (now : TimePoint)
    (plan : TradePlan) :
    ex.submitted ns plan .pendingEntry ∈ (ex.submit env ns now plan).allTrades ∧
      liveStops ex.nextUid (ex.submit env ns now plan).trace = [] := by
  set f := (submitReserve ns plan ex).2 with hf
  obtain ⟨r, hr⟩ := henv.placeOrder ex.trace.length f.req
  have hsubmit : ex.submit env ns now plan
      = submitPush now f (.ok r) (submitPlace env f (submitReserve ns plan ex).1).1 := by
    rw [← hr]
    rfl
  rw [hsubmit]
  refine ⟨BucketMap.mem_values_push.2 (Or.inl rfl), ?_⟩
  have hbefore : liveStops ex.nextUid ex.trace = [] :=
    List.sublist_nil.1 (liveStops_append_sublist (hwf.owned ex.nextUid le_rfl).stopless [])
  have hentry : Stopless ex.nextUid
      [.placed ex.nextUid f.req (env.placeOrder ex.trace.length f.req)] := by
    intro e he ⟨req, r, heq, _, hred⟩
    obtain ⟨_, rfl, _⟩ := Event.placed.inj (heq.symm.trans (List.mem_singleton.1 he))
    simp [hf, submitReserve] at hred
  have hsub := liveStops_append_sublist hentry ex.trace
  rw [hbefore, List.sublist_nil] at hsub
  exact hsub

/-- The first partial fill leaves an open position without a stop. -/
theorem not_stopCovers_of_opened (hwf : ex.WF) (hroute : ex.route upd = some (t, om))
    (hentry : om.isEntry = true) (hst : t.state = .pendingEntry) (hexec : t.executedSize = 0)
    (hnone : liveStops t.uid ex.trace = []) (hopened : upd.status = .opened)
    (hsize : 0 < upd.filledSize) : ¬ StopCovers t.uid (ex.onOrderUpdate env upd) := by
  obtain ⟨_, _, hmembers, pre, post, _, hall⟩ := onOrderUpdate_of_route hwf.toKeyed env hroute
  rw [applyOrderUpdate, handleOrderUpdate_partly hopened hentry hsize] at hmembers hall
  -- `place_stops_` finds nothing executed yet
  have hopens : ∃ msg t', onEntryPartial env upd (ex.emit (.reported upd)) (captureIds upd t)
      = ((ex.emit (.reported upd)).alert t.uid msg, t') ∧ t'.uid = t.uid ∧ t'.state = .opened ∧
        t'.executedSize = upd.filledSize := by
    simp only [onEntryPartial, placeStops, captureIds_state, captureIds_executedSize, hst, hexec]
    exact ⟨_, _, rfl, rfl, rfl, zero_add _⟩
  obtain ⟨msg, t', hopens, huid, hopen, hexec'⟩ := hopens
  rw [hopens] at hmembers hall
  intro hcovers
  have ht' : t' ∈ (ex.onOrderUpdate env upd).allTrades := by simp [hall]
  obtain ⟨o, ho, _⟩ := hcovers t' ht' huid hopen (hexec' ▸ hsize)
  have hquiet : Stopless t.uid [.reported upd, .alerted t.uid msg] := by
    rintro e he ⟨req, r, rfl, _⟩
    simp at he
  have hsub := liveStops_append_sublist hquiet ex.trace
  have htrace : (ex.onOrderUpdate env upd).trace
      = ex.trace ++ [.reported upd, .alerted t.uid msg] := by
    rw [hmembers]
    simp [Members.alert]
  rw [htrace] at ho
  rw [hnone, List.sublist_nil] at hsub
  simp [hsub] at ho

/-- After the entry is over, filled in one piece or not at all, the stop covers what it filled. -/
theorem stopCovers_of_closed (hwf : ex.WF) (henv : env.NeverThrows)
    (hroute : ex.route upd = some (t, om)) (hentry : om.isEntry = true)
    (hst : t.state = .pendingEntry) (hclosed : upd.status = .closed) :
    StopCovers t.uid (ex.onOrderUpdate env upd) := by
  obtain ⟨_, _, hmembers, pre, post, _, hall⟩ := onOrderUpdate_of_route hwf.toKeyed env hroute
  have hkeeps := applyOrderUpdate_keeps env upd (ex.emit (.reported upd)) t
    (selectTrade_eq_some (onOrderUpdate_of_route hwf.toKeyed env hroute).1).2.2.2
  intro x hx hxu hopen hexec
  obtain rfl := List.inj_on_of_nodup_map (hwf.step (.onOrderUpdate env upd)).nodup hx
    (show (applyOrderUpdate env upd (ex.emit (.reported upd)) t om).2
      ∈ (ex.onOrderUpdate env upd).allTrades by simp [hall]) (hxu.trans hkeeps.uid.symm)
  rw [hmembers]
  by_cases hfill : upd.isFill
  · rw [applyOrderUpdate, handleOrderUpdate_entry hfill hentry] at hopen ⊢
    set m := (ex.emit (.reported upd)).releaseReservation (captureIds upd t).plan
    have hcases : onEntryFilled env upd m (captureIds upd t)
          = slippageClose env upd m ((captureIds upd t).entryFilled upd) ∨
        onEntryFilled env upd m (captureIds upd t)
          = placeStops env m ((captureIds upd t).entryFilled upd) := by
      unfold onEntryFilled
      dsimp only
      split
      · exact Or.inl rfl
      · exact Or.inr rfl
    rcases hcases with h | h
    · -- R15 closes the trade again
      obtain ⟨r, hr⟩ := henv.placeOrder m.trace.length
        (((captureIds upd t).entryFilled upd).exitRequest .market 0 upd.filledSize)
      rw [h] at hopen
      simp [slippageClose, Members.placeOrder, hr] at hopen
    · -- the stop is placed for everything that was filled
      obtain ⟨before, r, after, htrace, htarget⟩ := placeStops_protects henv m
        (t := (captureIds upd t).entryFilled upd) rfl hfill.2
      obtain ⟨_, i, j, _, _, ht⟩ := placeStops_effect env m ((captureIds upd t).entryFilled upd)
      rw [h, htrace, ht, ← List.append_assoc]
      exact ⟨_, mem_liveStops_placed rfl rfl htarget, rfl⟩
  · -- nothing was filled, so the trade is closed or as it was
    have hnone : upd.filledSize ≤ 0 := by
      by_contra hpos
      exact hfill ⟨hclosed, not_le.1 hpos⟩
    have hst' : (captureIds upd t).state ≠ .opened := by simp [hst]
    simp only [applyOrderUpdate, handleOrderUpdate, hclosed, hentry, if_pos hnone] at hopen
    split at hopen
    · exact absurd hopen hst'
    · simp at hopen

end Updates

/-! ## The results -/

/-- Submit a plan in any reachable state, and let any number of partial fills of its entry be
    reported, then possibly the end of the entry order. The stop covers the executed size after each
    of these reports if and only if there was no partial fill. -/
theorem stopCover_iff (ex : LiveExecutor) (hex : ex.Reachable) (env : Env) (henv : env.Succeeds)
    (ns : ℕ) (now : TimePoint) (plan : TradePlan) (partials : List (Env × OrderUpdate))
    (last : Option (Env × OrderUpdate))
    (hpartials : ∀ p ∈ partials, p.2.status = .opened ∧ 0 < p.2.filledSize)
    (hlast : ∀ p ∈ last, p.2.status = .closed)
    (hupdates : EntryUpdates ex.nextUid (ex.submit env ns now plan) (partials ++ last.toList)) :
    (∀ pre, pre <+: partials ++ last.toList →
        StopCovers ex.nextUid (handleUpdates (ex.submit env ns now plan) pre)) ↔ partials = [] := by
  have hwf : (ex.submit env ns now plan).WF := hex.wf.step (.submit env ns now plan)
  obtain ⟨hmem, hnone⟩ := submit_accepted hex.wf henv.toNeverThrows ns now plan
  -- the update that comes first is routed to the submitted trade
  have first : ∀ {t : ActiveTrade} {om : OrderMatch} {upd : OrderUpdate},
      (ex.submit env ns now plan).route upd = some (t, om) → t.uid = ex.nextUid →
      t = ex.submitted ns plan .pendingEntry := by
    intro t om upd hroute hu
    exact List.inj_on_of_nodup_map hwf.nodup (mem_of_route hwf.toKeyed hroute) hmem hu
  constructor
  · intro hcovers
    cases partials with
    | nil => rfl
    | cons p partials =>
        obtain ⟨⟨_, t, om, hroute, hu, hentry⟩, _⟩ := hupdates
        obtain ⟨hopened, hsize⟩ := hpartials p (List.mem_cons_self ..)
        obtain rfl := first hroute hu
        have hone := hcovers [p] ⟨partials ++ last.toList, rfl⟩
        exact absurd hone (not_stopCovers_of_opened hwf hroute hentry rfl rfl hnone hopened hsize)
  · rintro rfl pre hpre
    cases pre with
    | nil =>
        intro t ht hu hopen _
        obtain rfl := List.inj_on_of_nodup_map hwf.nodup ht hmem hu
        simp [submitted] at hopen
    | cons p pre =>
        cases last with
        | none => simp at hpre
        | some q =>
            obtain ⟨rfl, hnil⟩ := List.cons_prefix_cons.1 hpre
            obtain rfl := List.prefix_nil.1 hnil
            obtain ⟨⟨henv', t, om, hroute, hu, hentry⟩, _⟩ := hupdates
            obtain rfl := first hroute hu
            exact stopCovers_of_closed hwf henv'.toNeverThrows hroute hentry rfl (hlast p rfl)

/-- An entry that is filled in one piece. -/
theorem stopCover_iff_filled :
    (∀ pre, pre <+: [(Env.accepting, sampleFill 1)] →
        StopCovers 0 (handleUpdates ((init {}).submit .accepting 0 0 samplePlan) pre)) ↔
      ([] : List (Env × OrderUpdate)) = [] := by
  have hroute : ((init {}).submit .accepting 0 0 samplePlan).route (sampleFill 1)
      = some ((init {}).submitted 0 samplePlan .pendingEntry,
        { isEntry := true, isStop := false, isTp1 := false, isTp2 := false }) := by decide +kernel
  exact stopCover_iff (init {}) ⟨{}, [], rfl⟩ .accepting Env.accepting_succeeds 0 0 samplePlan []
    (some (.accepting, sampleFill 1)) (by simp) (fun p hp => by cases hp; rfl)
    ⟨⟨Env.accepting_succeeds, _, _, hroute, rfl, rfl⟩, trivial⟩

/-- Half of the entry is filled: half a coin is open without a stop. -/
theorem partial_fill_uncovered :
    ¬ ∀ (ex : LiveExecutor), ex.Reachable → ∀ env, env.Succeeds → ∀ ns now plan updates,
        (∀ p ∈ updates, p.2.status = .opened ∧ 0 < p.2.filledSize) →
        EntryUpdates ex.nextUid (ex.submit env ns now plan) updates →
          StopCovers ex.nextUid (handleUpdates (ex.submit env ns now plan) updates) := by
  intro hall
  set report : OrderUpdate := { sampleFill 1 with filledSize := 1 / 2, status := .opened }
  have hroute : ((init {}).submit .accepting 0 0 samplePlan).route report
      = some ((init {}).submitted 0 samplePlan .pendingEntry,
        { isEntry := true, isStop := false, isTp1 := false, isTp2 := false }) := by decide +kernel
  have hcovers := hall (init {}) ⟨{}, [], rfl⟩ .accepting Env.accepting_succeeds 0 0 samplePlan
    [(.accepting, report)] (by decide +kernel)
    ⟨⟨Env.accepting_succeeds, _, _, hroute, rfl, rfl⟩, trivial⟩
  unfold StopCovers at hcovers
  exact absurd hcovers (by decide +kernel)

end TradeBot
