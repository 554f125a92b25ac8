import TradeBot.Executor.Outcomes

set_option autoImplicit false

/-! # The race between `submit` and the order updates

`submit` releases the mutex for its HTTP call and adds the trade only afterwards, while the WebSocket
thread handles order updates all the time. `Race` is the interleaving of the two. A fill that is
handled after `submit` has added the trade, and finds it, is kept (`fill_kept`); a fill handled
before finds no trade, and is lost.

Two facts about a trade carry the proof over the steps of both threads. Once it has executed its
entry and knows the order's id, only a further report on that entry could change what it has executed
(`entryDone_turnInvariant`), and the exchange sends none. As long as no update is taken for its
entry, it executes nothing (`unexecuted_turnInvariant`), so a fill that came too early leaves it
waiting. -/

namespace TradeBot

open LiveExecutor

/-- Where the thread that runs `submit` is. -/
inductive SubmitThread
  | idle
  | reserved (f : InFlight)
  | answered (f : InFlight) (res : Except String PlaceOrderResult)
  | returned

/-- The executor, and a thread that submits one plan. -/
structure Race where
  ex : LiveExecutor
  thread : SubmitThread := .idle

/-- The three parts of `submit`, and an order update of the WebSocket thread. -/
inductive RaceStep
  | reserve (ns : ℕ) (plan : TradePlan)
  | place (env : Env)
  | push (now : TimePoint)
  | update (env : Env) (upd : OrderUpdate)

namespace Race

/-- A part of `submit` out of its order changes nothing. -/
def step (r : Race) : RaceStep → Race
  | .update env upd => { r with ex := r.ex.onOrderUpdate env upd }
  | .reserve ns plan =>
      match r.thread with
      | .idle =>
          let (ex, f) := submitReserve ns plan r.ex
          { ex := ex, thread := .reserved f }
      | _ => r
  | .place env =>
      match r.thread with
      | .reserved f =>
          let (ex, res) := submitPlace env f r.ex
          { ex := ex, thread := .answered f res }
      | _ => r
  | .push now =>
      match r.thread with
      | .answered f res => { ex := submitPush now f res r.ex, thread := .returned }
      | _ => r

/-- The two after some steps. -/
def run (r : Race) (steps : List RaceStep) : Race := steps.foldl step r

/-- The submission that `f` stands for has not added its trade yet. -/
structure Waiting (uid : ℕ) (f : InFlight) (ex : LiveExecutor) : Prop where
  key : f.trade.uid = uid
  used : uid < ex.nextUid
  absent : ∀ t ∈ ex.allTrades, t.uid ≠ uid
  executedSize : f.trade.executedSize = 0

/-- Trade `uid` is the one that the thread submits. -/
structure Inv (uid : ℕ) (r : Race) : Prop where
  wf : r.ex.WF
  thread : match r.thread with
    | .idle => r.ex.nextUid = uid
    | .reserved f => Waiting uid f r.ex
    | .answered f _ => Waiting uid f r.ex
    | .returned => uid < r.ex.nextUid ∧ ∃ t ∈ r.ex.allTrades, t.uid = uid

section

variable {uid : ℕ} {r : Race} {ex : LiveExecutor} {f : InFlight}

/-! ## The invariant -/

theorem nextUid_onOrderUpdate (hwf : ex.WF) (env : Env) (upd : OrderUpdate) :
    (ex.onOrderUpdate env upd).nextUid = ex.nextUid := by
  obtain ⟨_, hg⟩ := (onOrderUpdate_passes hwf.toKeyed env upd).grows
  exact hg.nextUid

theorem mem_onOrderUpdate (hwf : ex.WF) (env : Env) (upd : OrderUpdate) :
    (∃ t ∈ (ex.onOrderUpdate env upd).allTrades, t.uid = uid) ↔ ∃ t ∈ ex.allTrades, t.uid = uid := by
  have hkeys : (ex.onOrderUpdate env upd).allTrades.map ActiveTrade.uid
      = ex.allTrades.map ActiveTrade.uid := (onOrderUpdate_passes hwf.toKeyed env upd).refines.keys
  rw [← List.mem_map, ← List.mem_map, hkeys]

theorem Waiting.update (h : Waiting uid f ex) (hwf : ex.WF) (env : Env) (upd : OrderUpdate) :
    Waiting uid f (ex.onOrderUpdate env upd) where
  key := h.key
  used := nextUid_onOrderUpdate hwf env upd ▸ h.used
  absent := fun t ht hu => by
    obtain ⟨x, hx, hxu⟩ := (mem_onOrderUpdate hwf env upd).1 ⟨t, ht, hu⟩
    exact h.absent x hx hxu
  executedSize := h.executedSize

theorem inv_reserve (hwf : ex.WF) (ns : ℕ) (plan : TradePlan) :
    Inv ex.nextUid { ex := (submitReserve ns plan ex).1,
                     thread := .reserved (submitReserve ns plan ex).2 } where
  wf :=
    { nodup := hwf.nodup
      keyed := hwf.keyed
      fresh := fun t ht => (hwf.fresh t ht).trans (Nat.lt_succ_self _)
      owned := fun u hu => hwf.owned u (Nat.le_of_succ_le hu)
      buffer := hwf.buffer }
  thread := ⟨rfl, Nat.lt_succ_self _, fun t ht => (hwf.fresh t ht).ne, rfl⟩

theorem inv_place (hwf : ex.WF) (h : Waiting uid f ex) (env : Env) :
    Inv uid { ex := (submitPlace env f ex).1,
              thread := .answered f (submitPlace env f ex).2 } where
  wf :=
    { nodup := hwf.nodup
      keyed := hwf.keyed
      fresh := hwf.fresh
      owned := fun u hu => noneOf_append.2 ⟨hwf.owned u hu, fun e he heq => by
        have hused := h.used
        have hle : ex.nextUid ≤ u := hu
        rw [List.mem_singleton.1 he] at heq
        have hkey := h.key
        simp only [Event.owner, Option.some.injEq] at heq
        omega⟩
      buffer := by
        have hrec : recordsIn (submitPlace env f ex).1.trace = recordsIn ex.trace :=
          (recordsIn_append ..).trans (List.append_nil _)
        exact hrec ▸ hwf.buffer }
  thread := ⟨h.key, h.used, h.absent, h.executedSize⟩

theorem inv_push (hwf : ex.WF) (h : Waiting uid f ex) (now : TimePoint)
    (res : Except String PlaceOrderResult) :
    Inv uid { ex := submitPush now f res ex, thread := .returned } ∧
      ∀ t ∈ (submitPush now f res ex).allTrades, t.uid = uid → t.executedSize = 0 := by
  obtain ⟨state, evs, _, hevs, htrades, htrace, hclosed, hnext⟩ := submitPush_spec now f res ex
  have hmem : ∀ x, x ∈ (submitPush now f res ex).allTrades ↔
      x = { f.trade with state := state } ∨ x ∈ ex.allTrades := fun x => by
    rw [allTrades, htrades]
    exact BucketMap.mem_values_push
  refine ⟨⟨hwf.push { f.trade with state := state } evs ?_ ?_ htrades htrace hevs.owner_eq
    hevs.recordsIn_eq hclosed hnext.ge, hnext ▸ h.used, _, (hmem _).2 (Or.inl rfl), h.key⟩, ?_⟩
  · rw [hnext]
    exact h.key ▸ h.used
  · exact fun x hx heq => h.absent x hx (heq.trans h.key)
  · intro t ht hu
    rcases (hmem t).1 ht with rfl | ht
    · exact h.executedSize
    · exact absurd hu (h.absent t ht)

theorem Inv.step (h : Inv uid r) (s : RaceStep) : Inv uid (r.step s) := by
  obtain ⟨ex, thread⟩ := r
  obtain ⟨hwf, hthread⟩ := h
  cases s with
  | update env upd =>
      refine ⟨hwf.step (.onOrderUpdate env upd), ?_⟩
      cases thread with
      | idle => exact (nextUid_onOrderUpdate hwf env upd).trans hthread
      | reserved f => exact Waiting.update hthread hwf env upd
      | answered f res => exact Waiting.update hthread hwf env upd
      | returned =>
          exact ⟨(nextUid_onOrderUpdate hwf env upd).symm ▸ hthread.1,
            (mem_onOrderUpdate hwf env upd).2 hthread.2⟩
  | reserve ns plan =>
      cases thread with
      | idle =>
          obtain rfl := hthread
          exact inv_reserve hwf ns plan
      | _ => exact ⟨hwf, hthread⟩
  | place env =>
      cases thread with
      | reserved f => exact inv_place hwf hthread env
      | _ => exact ⟨hwf, hthread⟩
  | push now =>
      cases thread with
      | answered f res => exact (inv_push hwf hthread now res).1
      | _ => exact ⟨hwf, hthread⟩

theorem Inv.run (h : Inv uid r) (steps : List RaceStep) : Inv uid (r.run steps) :=
  Runs.invariant (Inv uid) (fun _ s h => h.step s) steps h

end

end Race

/-! ## The fill -/

/-- Trade `uid` is there, is open or further, and has executed what `upd` reported. -/
def FillKept (uid : ℕ) (upd : OrderUpdate) (ex : LiveExecutor) : Prop :=
  ∃ t ∈ ex.allTrades, t.uid = uid ∧ t.executedSize = upd.filledSize ∧
    t.state ≠ .pendingEntry ∧ t.state ≠ .submitUnknown

/-- In the steps no report of an order other than that of `upd` is taken for the entry of trade
    `uid`. -/
def OwnEntry (uid : ℕ) (upd : OrderUpdate) (r : Race) (steps : List RaceStep) : Prop :=
  Runs.Along Race.step (fun r s => ∀ env u t om, s = .update env u →
    r.ex.route u = some (t, om) → t.uid = uid → om.isEntry = true → u.orderId = upd.orderId) r steps

section Fill

variable {ex : LiveExecutor} {upd : OrderUpdate} {om : OrderMatch} {t : ActiveTrade}

/-- A trade that knows its entry order takes no other order for it. -/
theorem isEntry_eq_false (hid : t.entryOrderId ≠ 0) (hne : upd.orderId ≠ t.entryOrderId) :
    (orderMatch upd t).isEntry = false := by
  simp [orderMatch, matchesId, matchByClientId, freshEntry, hid, hne]

theorem captureIds_entryOrderId (hid : t.entryOrderId ≠ 0) :
    (captureIds upd t).entryOrderId = t.entryOrderId := by
  simp [captureIds, matchByClientId, freshEntry, hid]

/-- An entry update leaves the trade with the id of its order. -/
theorem captureIds_entryOrderId_of_isEntry (h : (orderMatch upd t).isEntry = true) :
    (captureIds upd t).entryOrderId = upd.orderId := by
  simp only [captureIds]
  split
  · rfl
  · next hnot =>
      simp only [Bool.or_eq_true, not_or, Bool.not_eq_true] at hnot
      simp only [orderMatch, hnot.1, hnot.2, Bool.or_false, matchesId, Bool.and_eq_true,
        decide_eq_true_eq] at h
      exact h.2.symm

/-- The trade has executed `size` under the entry order `id`. -/
structure EntryDone (id : OrderId) (size : ℚ) (t : ActiveTrade) : Prop where
  entryOrderId : t.entryOrderId = id
  executedSize : t.executedSize = size
  notPending : t.state ≠ .pendingEntry
  notUnknown : t.state ≠ .submitUnknown

/-- Without a further update of the entry order the trade keeps what it executed. -/
theorem entryDone_turnInvariant {id : OrderId} (hid : id ≠ 0) (size : ℚ) :
    TurnInvariant (fun _ op _ => ∀ env upd, op = .onOrderUpdate env upd → upd.orderId ≠ id)
      (fun t _ => EntryDone id size t) (fun _ _ => True) where
  silent := fun _ h => h
  gone := fun _ => trivial
  gone_silent := fun _ h => h
  turn := fun {ex op t t' m₁ m₂} _ _ hC _ h hturn => by
    obtain ⟨evs, _, hout⟩ := hturn.outcome
    -- no update is taken for the entry
    have notEntry : ∀ {env upd om}, op = .onOrderUpdate env upd → selectTrade upd t = some om →
        om.isEntry = false := by
      intro env upd om hop hsel
      rw [(selectTrade_eq_some hsel).2.2.1]
      exact isEntry_eq_false (h.entryOrderId.symm ▸ hid) (h.entryOrderId.symm ▸ hC env upd hop)
    have captured : ∀ upd, EntryDone id size (captureIds upd t) := fun upd =>
      ⟨(captureIds_entryOrderId (h.entryOrderId.symm ▸ hid)).trans h.entryOrderId, h.executedSize,
        h.notPending, h.notUnknown⟩
    have closed : ∀ {x : ActiveTrade} (res : Except String PlaceOrderResult),
        EntryDone id size x → EntryDone id size (x.afterClose res) := by
      intro x res hx
      cases res with
      | ok r => exact ⟨hx.entryOrderId, hx.executedSize, by simp [ActiveTrade.afterClose],
          by simp [ActiveTrade.afterClose]⟩
      | error e => exact ⟨hx.entryOrderId, hx.executedSize, hx.notPending, hx.notUnknown⟩
    cases hout with
    | rest => exact h
    | position => exact ⟨h.entryOrderId, h.executedSize, h.notPending, h.notUnknown⟩
    | cancel => exact ⟨h.entryOrderId, h.executedSize, by simp, by simp⟩
    | ack => exact captured _
    -- outcomes of an entry report
    | dead _ hsel hentry => simp [notEntry rfl hsel] at hentry
    | partly _ hsel hentry => simp [notEntry rfl hsel] at hentry
    | slipped _ hsel hentry => simp [notEntry rfl hsel] at hentry
    | slipRefused _ hsel hentry => simp [notEntry rfl hsel] at hentry
    | entry _ hsel hentry => simp [notEntry rfl hsel] at hentry
    | @tp1Bare _ upd => exact ⟨(captured upd).1, (captured upd).2, (captured upd).3, (captured upd).4⟩
    | @tp1BreakEven _ upd =>
        exact ⟨(captured upd).1, (captured upd).2, (captured upd).3, (captured upd).4⟩
    | @tp1Failed _ upd =>
        exact closed _ ⟨(captured upd).1, (captured upd).2, (captured upd).3, (captured upd).4⟩
    | @exit _ upd => exact ⟨(captured upd).1, (captured upd).2, by simp, by simp⟩
    | emergency => exact ⟨h.entryOrderId, h.executedSize, by simp [ActiveTrade.markClosing],
        by simp [ActiveTrade.markClosing]⟩
    | rearm => exact ⟨h.entryOrderId, h.executedSize, h.notPending, h.notUnknown⟩
    | resolved hst => exact absurd hst h.notUnknown
    | timeout hst => exact absurd hst h.notUnknown
    | close => exact closed _ h

/-- Without an update that is routed to the trade as its entry, the trade executes nothing. -/
theorem unexecuted_turnInvariant :
    TurnInvariant (fun ex op t => ∀ env upd om, op = .onOrderUpdate env upd →
        ex.route upd = some (t, om) → om.isEntry = false)
      (fun t _ => t.executedSize = 0) (fun _ _ => True) where
  silent := fun _ h => h
  gone := fun _ => trivial
  gone_silent := fun _ h => h
  turn := fun {ex op t t' m₁ m₂} _ _ hC _ h hturn => by
    obtain ⟨evs, _, hout⟩ := hturn.outcome
    have closed : ∀ (x : ActiveTrade) (res : Except String PlaceOrderResult),
        (x.afterClose res).executedSize = x.executedSize := by
      intro x res
      cases res <;> rfl
    cases hout with
    | partly hroute _ hentry => simp [hC _ _ _ rfl hroute] at hentry
    | slipped hroute _ hentry => simp [hC _ _ _ rfl hroute] at hentry
    | slipRefused hroute _ hentry => simp [hC _ _ _ rfl hroute] at hentry
    | entry hroute _ hentry => simp [hC _ _ _ rfl hroute] at hentry
    | tp1Failed => exact (closed _ _).trans h
    | close => exact (closed _ _).trans h
    | _ => exact h

/-- The report of the filled entry, when it reaches its trade. -/
theorem entryDone_of_fill (hwf : ex.WF) {env : Env} (hroute : ex.route upd = some (t, om))
    (hentry : om.isEntry = true) (hfill : upd.isFill) :
    ∀ t' ∈ (ex.onOrderUpdate env upd).allTrades, t'.uid = t.uid →
      EntryDone upd.orderId upd.filledSize t' := by
  obtain ⟨hsel, _, _, pre, post, _, hall⟩ := onOrderUpdate_of_route hwf.toKeyed env hroute
  have hom := (selectTrade_eq_some hsel).2.2.1
  rw [applyOrderUpdate, handleOrderUpdate_entry hfill hentry] at hall
  set m := (ex.emit (.reported upd)).releaseReservation (captureIds upd t).plan
  set r := onEntryFilled env upd m (captureIds upd t) with hr
  have hid : ((captureIds upd t).entryFilled upd).entryOrderId = upd.orderId :=
    captureIds_entryOrderId_of_isEntry (hom ▸ hentry)
  intro t' ht' hu
  have huid : r.2.uid = t.uid := (onEntryFilled_keeps ..).uid
  obtain rfl : t' = r.2 := List.inj_on_of_nodup_map (hwf.step (.onOrderUpdate env upd)).nodup ht'
    (show r.2 ∈ (ex.onOrderUpdate env upd).allTrades by simp [hall]) (hu.trans huid.symm)
  obtain ⟨_, _, ⟨_, _, ht⟩ | ⟨_, _, _, ht⟩ | ⟨_, _, _, ht⟩⟩ :=
    onEntryFilled_effect env upd m (captureIds upd t)
  all_goals
    rw [hr, ht]
    exact ⟨hid, rfl, by simp [ActiveTrade.entryFilled, ActiveTrade.withExitIds],
      by simp [ActiveTrade.entryFilled, ActiveTrade.withExitIds]⟩

/-- Once the trade knows its entry order, the fill is kept through every later step. -/
theorem fillKept_run {uid : ℕ} {r : Race} (hinv : Race.Inv uid r) (hret : r.thread = .returned)
    (hid : upd.orderId ≠ 0)
    (hdone : ∀ t ∈ r.ex.allTrades, t.uid = uid → EntryDone upd.orderId upd.filledSize t)
    {steps : List RaceStep} (honce : ∀ env u, .update env u ∈ steps → u.orderId ≠ upd.orderId) :
    FillKept uid upd (r.run steps).ex := by
  set P := fun (t : ActiveTrade) (_ : List Event) => EntryDone upd.orderId upd.filledSize t
  have hC : Runs.Along Race.step (fun _ s => ∀ env u, s = .update env u → u.orderId ≠ upd.orderId)
      r steps := Runs.along_of_mem (fun s hs _ env u heq => honce env u (heq ▸ hs))
  have key : Race.Inv uid (r.run steps) ∧ (r.run steps).thread = .returned ∧
      Holds P (fun _ _ => True) uid (r.run steps).ex := by
    refine hC.invariant (fun r => Race.Inv uid r ∧ r.thread = .returned ∧
      Holds P (fun _ _ => True) uid r.ex) ?_ ⟨hinv, hret, hdone, trivial⟩
    intro r s ⟨hinv, hret, hholds⟩ hne
    obtain ⟨ex, thread⟩ := r
    obtain rfl : thread = .returned := hret
    refine ⟨hinv.step s, ?_⟩
    cases s with
    | update env u =>
        have hstep : Holds P (fun _ _ => True) uid (ex.step (.onOrderUpdate env u)) :=
          (entryDone_turnInvariant hid upd.filledSize).follow_step hinv.wf hinv.thread.1 hholds
            (fun t _ _ env' u' heq => by
              cases heq
              exact hne env u rfl)
        exact ⟨rfl, hstep⟩
    | _ => exact ⟨rfl, hholds⟩
  obtain ⟨hinv', hret', hholds, _⟩ := key
  have hthread := hinv'.thread
  rw [hret'] at hthread
  obtain ⟨_, t, ht, hu⟩ := hthread
  have ht' := hholds t ht hu
  exact ⟨t, ht, hu, ht'.executedSize, ht'.notPending, ht'.notUnknown⟩

/-- As long as no update is taken for its entry, the submitted trade executes nothing. -/
theorem unexecuted_run {uid : ℕ} {r : Race} (hinv : Race.Inv uid r)
    (hzero : ∀ t ∈ r.ex.allTrades, t.uid = uid → t.executedSize = 0) {steps : List RaceStep}
    (hC : Runs.Along Race.step (fun r s => ∀ env u t om, s = .update env u →
      r.ex.route u = some (t, om) → t.uid = uid → om.isEntry = false) r steps) :
    ∀ t ∈ (r.run steps).ex.allTrades, t.uid = uid → t.executedSize = 0 := by
  refine (hC.invariant (fun r => Race.Inv uid r ∧
    ∀ t ∈ r.ex.allTrades, t.uid = uid → t.executedSize = 0) ?_ ⟨hinv, hzero⟩).2
  intro r s ⟨hinv, hzero⟩ hnone
  refine ⟨hinv.step s, ?_⟩
  obtain ⟨ex, thread⟩ := r
  cases s with
  | update env u =>
      -- before the trade has its number, no update can be about it
      by_cases hu : uid < ex.nextUid
      · have hstep : Holds (fun t _ => t.executedSize = 0) (fun _ _ => True) uid
            (ex.step (.onOrderUpdate env u)) :=
          unexecuted_turnInvariant.follow_step hinv.wf hu ⟨hzero, trivial⟩
            (fun t _ htu env' u' om heq hroute => by
              cases heq
              exact hnone env u t om rfl hroute htu)
        exact hstep.1
      · intro t ht htu
        have hfresh : t.uid < (ex.onOrderUpdate env u).nextUid :=
          (hinv.wf.step (.onOrderUpdate env u)).fresh t ht
        rw [Race.nextUid_onOrderUpdate hinv.wf env u] at hfresh
        exact absurd (htu ▸ hfresh) hu
  | reserve ns plan =>
      cases thread with
      | idle => exact hzero
      | _ => exact hzero
  | place env =>
      cases thread with
      | reserved f => exact hzero
      | _ => exact hzero
  | push now =>
      cases thread with
      | answered f res => exact (Race.inv_push hinv.wf hinv.thread now res).2
      | _ => exact hzero

end Fill

/-! ## The results -/

/-- In every interleaving of one submission with the order updates: when the report of the filled
    entry, delivered once, finds the submitted trade, the fill is kept in every later state. When it is
    handled before `submit` has added the trade, the fill is lost, as long as no report of another
    order is taken for the entry. -/
theorem fill_kept (ex : LiveExecutor) (hex : ex.Reachable) (s₁ s₂ : List RaceStep) (env : Env)
    (upd : OrderUpdate) (hfill : upd.isFill) (hid : upd.orderId ≠ 0)
    (honce : ∀ e u, .update e u ∈ s₂ → u.orderId ≠ upd.orderId) :
    let before := Race.run { ex := ex } s₁
    let after := Race.run { ex := ex } (s₁ ++ .update env upd :: s₂)
    ((∃ t om, before.ex.route upd = some (t, om) ∧ t.uid = ex.nextUid ∧ om.isEntry = true) →
        before.thread = .returned ∧ FillKept ex.nextUid upd after.ex) ∧
      (before.thread ≠ .returned → OwnEntry ex.nextUid upd (before.step (.update env upd)) s₂ →
        ¬ FillKept ex.nextUid upd after.ex) := by
  intro before after
  have hinv : Race.Inv ex.nextUid before := Race.Inv.run ⟨hex.wf, rfl⟩ s₁
  have hafter : after = (before.step (.update env upd)).run s₂ := List.foldl_append ..
  rw [hafter]
  -- until `submit` has returned the trade is absent
  have habsent : before.thread ≠ .returned → ∀ t ∈ before.ex.allTrades, t.uid ≠ ex.nextUid := by
    intro hthread t ht
    have hwait := hinv.thread
    cases hcase : before.thread with
    | idle =>
        rw [hcase] at hwait
        exact hwait ▸ (hinv.wf.fresh t ht).ne
    | reserved f =>
        rw [hcase] at hwait
        exact hwait.absent t ht
    | answered f res =>
        rw [hcase] at hwait
        exact hwait.absent t ht
    | returned => exact absurd hcase hthread
  constructor
  · rintro ⟨t, om, hroute, hu, hentry⟩
    have hret : before.thread = .returned := by
      -- a report can only find a trade that is there
      by_contra hthread
      exact habsent hthread t (mem_of_route hinv.wf.toKeyed hroute) hu
    refine ⟨hret, fillKept_run (hinv.step (.update env upd)) hret hid ?_ honce⟩
    exact hu ▸ entryDone_of_fill hinv.wf hroute hentry hfill
  · intro hthread hown ⟨t, ht, hu, hsize, _⟩
    -- no later report is taken for the entry: not this one, which comes once, nor another
    have hnone : Runs.Along Race.step (fun r s => ∀ e u t om, s = .update e u →
        r.ex.route u = some (t, om) → t.uid = ex.nextUid → om.isEntry = false)
        (before.step (.update env upd)) s₂ := by
      refine (hown.and (Runs.along_of_mem (C := fun _ s => ∀ e u, s = .update e u →
        u.orderId ≠ upd.orderId) (fun s hs _ e u heq => honce e u (heq ▸ hs)))).imp
        (fun _ => True) (fun _ _ _ _ => trivial) (fun r s _ ⟨hown, hne⟩ => ?_) trivial
      intro e u t om heq hroute htu
      by_contra hentry
      exact hne e u heq (hown e u t om heq hroute htu (by simpa using hentry))
    have hzero := unexecuted_run (hinv.step (.update env upd)) (fun t ht htu => by
      obtain ⟨x, hx, hxu⟩ := (Race.mem_onOrderUpdate hinv.wf env upd).1 ⟨t, ht, htu⟩
      exact absurd hxu (habsent hthread x hx)) hnone t ht hu
    exact hfill.2.ne (hzero.symm.trans hsize)

/-- The report comes after `submit` has returned. -/
theorem fill_kept_late :
    FillKept 0 (sampleFill 1) (Race.run { ex := init {} } [.reserve 0 samplePlan, .place .accepting,
      .push 0, .update .accepting (sampleFill 1)]).ex := by
  have hroute : (Race.run { ex := init {} } [.reserve 0 samplePlan, .place .accepting,
      .push 0]).ex.route (sampleFill 1) = some ((init {}).submitted 0 samplePlan .pendingEntry,
        { isEntry := true, isStop := false, isTp1 := false, isTp2 := false }) := by decide +kernel
  exact ((fill_kept (init {}) ⟨{}, [], rfl⟩ [.reserve 0 samplePlan, .place .accepting, .push 0] []
    .accepting (sampleFill 1) (by decide +kernel) (by decide +kernel) (by simp)).1
      ⟨_, _, hroute, rfl, rfl⟩).2

/-- `upd` reports on the entry order that the exchange has accepted for trade `uid`. -/
def ReportsEntry (uid : ℕ) (upd : OrderUpdate) (ex : LiveExecutor) : Prop :=
  ∃ req r, .placed uid req (.ok r) ∈ ex.trace ∧ upd.orderId = r.exchangeId ∧
    upd.ticker = req.ticker ∧ upd.side = req.side ∧ upd.type = req.type ∧ upd.size = req.size ∧
    upd.clientOrderId = req.clientOrderId

/-- The fill is reported between the answer and the push: the trade waits for its entry for ever. -/
theorem early_fill_lost :
    ¬ ∀ (ex : LiveExecutor), ex.Reachable → ∀ s₁ s₂ env upd, upd.isFill →
        ReportsEntry ex.nextUid upd (Race.run { ex := ex } s₁).ex →
        (∀ e u, .update e u ∈ s₂ → u.orderId ≠ upd.orderId) →
        (Race.run { ex := ex } (s₁ ++ .update env upd :: s₂)).thread = .returned →
          FillKept ex.nextUid upd (Race.run { ex := ex } (s₁ ++ .update env upd :: s₂)).ex := by
  intro hall
  have hkept := hall (init {}) ⟨{}, [], rfl⟩ [.reserve 0 samplePlan, .place .accepting] [.push 0]
    .accepting { sampleFill 1 with clientOrderId := generateClientOrderId 0 0 } (by decide +kernel)
    ⟨_, _, List.mem_singleton_self _, rfl, rfl, rfl, rfl, rfl, rfl⟩ (by simp) rfl
  unfold FillKept at hkept
  exact absurd hkept (by decide +kernel)

end TradeBot
