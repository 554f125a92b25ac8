import TradeBot.Signals.SignalBus

set_option autoImplicit false

/-! # The order of delivery

From any moment without a publish under way, also right after an exception has ended one, the bus
dispatches the signals in the order of their `publish` calls, each to all subscribers before the next
(`delivered_in_order`). Subscribers may come and go meanwhile; who is present throughout hears every
signal once.

The handlers are not modelled: while one runs, any calls of the bus may come, which is what a handler
could do. `Delivering` is the invariant. A dispatch works on a copy of the subscribers, and this is
why one that is unsubscribed meanwhile may still be called. -/

namespace TradeBot

namespace SignalBus

variable {σ : Type*}

/-- The signals of the `publish` calls, in their order. -/
def published (ops : List (BusOp σ)) : List σ :=
  ops.filterMap (fun
    | .publish sig => some sig
    | _ => none)

/-- The calls of a dispatch: the signal and whom it went to. -/
def roundCalls (round : σ × List ℕ) : List (ℕ × σ) := round.2.map (fun id => (id, round.1))

/-- Some of the subscribers, without repetition, and all that are present throughout. -/
structure FullCopy (present : ℕ → Prop) (ids : List ℕ) : Prop where
  nodup : ids.Nodup
  mem : ∀ id, present id → id ∈ ids

/-- Where the signals published are: dispatched in `rounds`, being dispatched, or pending. -/
def Accounted (present : ℕ → Prop) (before : List (ℕ × σ)) (pubs : List σ)
    (rounds : List (σ × List ℕ)) (bus : SignalBus σ) : Prop :=
  match bus.dispatch with
  | none => pubs = rounds.map Prod.fst ∧ bus.calls = before ++ rounds.flatMap roundCalls
  | some (sig, rest) =>
      pubs = rounds.map Prod.fst ++ sig :: bus.pending ∧
        ∃ called, FullCopy present (called ++ rest) ∧
          bus.calls = before ++ rounds.flatMap roundCalls ++ roundCalls (sig, called)

/-- What has been called since a moment is made up of whole dispatches and the beginning of one. -/
structure Delivering (present : ℕ → Prop) (before : List (ℕ × σ)) (pubs : List σ)
    (bus : SignalBus σ) : Prop where
  stay : ∀ id, present id → id ∈ bus.subscribers
  accounted : ∃ rounds, (∀ round ∈ rounds, FullCopy present round.2) ∧
    Accounted present before pubs rounds bus

variable {present : ℕ → Prop} {before : List (ℕ × σ)} {pubs : List σ} {bus : SignalBus σ}

theorem delivering_drain (hnodup : bus.subscribers.Nodup)
    (hstay : ∀ id, present id → id ∈ bus.subscribers) {rounds : List (σ × List ℕ)}
    (hrounds : ∀ round ∈ rounds, FullCopy present round.2)
    (hcalls : bus.calls = before ++ rounds.flatMap roundCalls) (pending : List σ) :
    Delivering present before (rounds.map Prod.fst ++ pending) (bus.drain pending) := by
  induction pending generalizing rounds with
  | nil => exact ⟨hstay, rounds, hrounds, List.append_nil _, hcalls⟩
  | cons sig pending ih =>
      by_cases hnone : bus.subscribers = []
      · -- nobody is there to be called
        have hround : FullCopy present [] := ⟨List.nodup_nil, fun id hid => hnone ▸ hstay id hid⟩
        rw [drain_nil_subscribers hnone, List.append_cons, ← List.map_singleton (f := Prod.fst)
          (a := (sig, ([] : List ℕ))), ← List.map_append]
        refine ih (fun round hr => ?_) ?_
        · rcases List.mem_append.1 hr with hr | hr
          · exact hrounds round hr
          · exact List.mem_singleton.1 hr ▸ hround
        · rw [hcalls, List.flatMap_append]
          exact congrArg _ (List.append_nil _).symm
      · obtain ⟨id, subs, hsubs⟩ := List.exists_cons_of_ne_nil hnone
        rw [drain_cons hsubs]
        have hcopy : FullCopy present (id :: subs) := hsubs ▸ ⟨hnodup, hstay⟩
        refine ⟨hstay, rounds, hrounds, rfl, [id], hcopy, ?_⟩
        rw [← hcalls]
        rfl

/-- Whoever stays is not unsubscribed, and nobody throws. -/
def BusOp.Keeps (present : ℕ → Prop) : BusOp σ → Prop
  | .unsubscribe id => ¬ present id
  | .handlerThrows => False
  | _ => True

theorem Delivering.step (hsound : bus.Sound) (h : Delivering present before pubs bus)
    {op : BusOp σ} (hop : BusOp.Keeps present op) :
    Delivering present before (pubs ++ published [op]) (bus.step op) := by
  obtain ⟨hstay, rounds, hrounds, haccounted⟩ := h
  cases op with
  | subscribe =>
      rw [show published [BusOp.subscribe (σ := σ)] = [] from rfl, List.append_nil]
      exact ⟨fun id hid => List.mem_append_left _ (hstay id hid), rounds, hrounds, haccounted⟩
  | unsubscribe id =>
      rw [show published [BusOp.unsubscribe (σ := σ) id] = [] from rfl, List.append_nil]
      refine ⟨fun id' hid' => ?_, rounds, hrounds, haccounted⟩
      exact (List.mem_erase_of_ne (fun heq : id' = id => hop (heq ▸ hid'))).2 (hstay id' hid')
  | publish sig =>
      rw [show published [BusOp.publish sig] = [sig] from rfl]
      simp only [SignalBus.step, publish]
      cases hdispatch : bus.dispatch with
      | none =>
          -- idle: a dispatch begins
          rw [Accounted, hdispatch] at haccounted
          rw [hsound.flag, hdispatch, hsound.idle hdispatch, haccounted.1]
          exact delivering_drain hsound.nodup hstay hrounds haccounted.2 [sig]
      | some current =>
          obtain ⟨sig', rest⟩ := current
          rw [Accounted, hdispatch] at haccounted
          -- within a dispatch the signal joins those that are pending
          obtain ⟨hpubs, called, hcopy, hcalls⟩ := haccounted
          rw [hsound.flag, hdispatch, Option.isSome_some, if_pos rfl]
          have hpending : pubs ++ [sig] = rounds.map Prod.fst ++ sig' :: (bus.pending ++ [sig]) := by
            rw [hpubs, List.append_assoc, List.cons_append]
          exact ⟨hstay, rounds, hrounds, hpending, called, hcopy, hcalls⟩
  | handlerReturns =>
      rw [show published [BusOp.handlerReturns (σ := σ)] = [] from rfl, List.append_nil]
      simp only [SignalBus.step, handlerReturns]
      split
      · exact ⟨hstay, rounds, hrounds, haccounted⟩
      · -- the next subscriber of the copy is called
        rename_i sig id subs hdispatch
        rw [Accounted, hdispatch] at haccounted
        obtain ⟨hpubs, called, hcopy, hcalls⟩ := haccounted
        rw [List.append_cons] at hcopy
        refine ⟨hstay, rounds, hrounds, hpubs, called ++ [id], hcopy, ?_⟩
        rw [call, hcalls, roundCalls, roundCalls, List.map_append, List.append_assoc _ _ [_]]
        rfl
      · -- the dispatch is over, with its copy called to the end
        rename_i sig hdispatch
        rw [Accounted, hdispatch] at haccounted
        obtain ⟨hpubs, called, hcopy, hcalls⟩ := haccounted
        rw [List.append_nil] at hcopy
        rw [hpubs, List.append_cons, ← List.map_singleton (f := Prod.fst) (a := (sig, called)),
          ← List.map_append]
        refine delivering_drain hsound.nodup hstay (fun round hr => ?_) ?_ _
        · rcases List.mem_append.1 hr with hr | hr
          · exact hrounds round hr
          · exact List.mem_singleton.1 hr ▸ hcopy
        · rw [hcalls, List.flatMap_append, List.append_assoc, List.flatMap_singleton]
  | handlerThrows => exact absurd hop id

theorem Delivering.run (hsound : bus.Sound) (h : Delivering present before pubs bus)
    {ops : List (BusOp σ)} (hops : ∀ op ∈ ops, BusOp.Keeps present op) :
    Delivering present before (pubs ++ published ops) (bus.run ops) := by
  induction ops generalizing bus pubs with
  | nil => rwa [published, List.filterMap_nil, List.append_nil]
  | cons op ops ih =>
      rw [List.forall_mem_cons] at hops
      have hsplit : pubs ++ published (op :: ops) = pubs ++ published [op] ++ published ops := by
        rw [List.append_assoc, published, published, published, ← List.filterMap_append]
        rfl
      rw [hsplit]
      exact ih (hsound.step op) (h.step hsound hops.1) hops.2

/-! ## Returns end the dispatch -/

/-- The returns until no publish is under way. -/
def owed (bus : SignalBus σ) : ℕ :=
  match bus.dispatch with
  | none => 0
  | some (_, rest) => rest.length + 1 + bus.pending.length * bus.subscribers.length

theorem owed_handlerReturns (bus : SignalBus σ) : (bus.step .handlerReturns).owed ≤ bus.owed - 1 := by
  simp only [SignalBus.step, handlerReturns]
  split
  · rename_i hdispatch
    simp [owed, hdispatch]
  · rename_i sig id subs hdispatch
    rw [owed, owed, hdispatch]
    simp only [call, List.length_cons]
    omega
  · rename_i sig hdispatch
    obtain ⟨-, h⟩ | ⟨sig', rest, id, subs, hpending, hsubs, h⟩ := bus.drain_cases bus.pending
    · rw [h]
      exact Nat.zero_le _
    · rw [h, owed, owed, hdispatch, hpending]
      simp only [call, hsubs, List.length_cons, List.length_nil, Nat.succ_mul]
      omega

theorem run_returns {n : ℕ} (h : bus.owed ≤ n) :
    (bus.run (List.replicate n .handlerReturns)).dispatch = none := by
  induction n generalizing bus with
  | zero =>
      show bus.dispatch = none
      unfold owed at h
      split at h
      · assumption
      · omega
  | succ n ih => exact ih (Nat.le_trans (owed_handlerReturns bus) (by omega))

/-! ## The order -/

/-- Of a dispatch, a subscriber hears the signal once. -/
theorem filter_roundCalls {round : σ × List ℕ} {id : ℕ} (hnodup : round.2.Nodup) (hid : id ∈ round.2) :
    ((roundCalls round).filter (fun call => decide (call.1 = id))).map Prod.snd = [round.1] := by
  have hfilter : round.2.filter (fun id' => decide (id' = id)) = [id] := by
    rw [List.filter_eq, List.count_eq_one_of_mem hnodup hid, List.replicate_one]
  rw [roundCalls, List.filter_map, List.map_map]
  exact congrArg (List.map (fun _ => round.1)) hfilter

theorem heard_rounds {bus' : SignalBus σ} {rounds : List (σ × List ℕ)} {id : ℕ}
    (hcalls : bus'.calls = bus.calls ++ rounds.flatMap roundCalls)
    (hrounds : ∀ round ∈ rounds, round.2.Nodup ∧ id ∈ round.2) :
    bus'.heard id = bus.heard id ++ rounds.map Prod.fst := by
  rw [heard_append hcalls]
  clear hcalls
  congr 1
  induction rounds with
  | nil => rfl
  | cons round rounds ih =>
      rw [List.forall_mem_cons] at hrounds
      rw [List.flatMap_cons, List.filter_append, List.map_append,
        filter_roundCalls hrounds.1.1 hrounds.1.2, ih hrounds.2]
      rfl

theorem handlerThrows_idle (bus : SignalBus σ) : (bus.step .handlerThrows).dispatch = none := by
  simp only [SignalBus.step, handlerThrows]
  split
  · assumption
  · rfl

theorem idle_after_throw {earlier : List (BusOp σ)} (hlast : earlier.getLast? = some .handlerThrows) :
    (({} : SignalBus σ).run earlier).dispatch = none := by
  obtain ⟨before, rfl⟩ := List.getLast?_eq_some_iff.1 hlast
  show ((before ++ [BusOp.handlerThrows]).foldl SignalBus.step {}).dispatch = none
  rw [List.foldl_append]
  exact handlerThrows_idle _

theorem delivering_idle (hidle : bus.dispatch = none)
    (hstay : ∀ id, present id → id ∈ bus.subscribers) : Delivering present bus.calls [] bus := by
  refine ⟨hstay, [], fun _ h => absurd h List.not_mem_nil, ?_⟩
  rw [Accounted, hidle]
  exact ⟨rfl, (List.append_nil _).symm⟩

theorem keeps_of_mem {ops : List (BusOp σ)} (hthrow : .handlerThrows ∉ ops) (subs : List ℕ) :
    ∀ op ∈ ops, BusOp.Keeps (fun id => id ∈ subs ∧ .unsubscribe id ∉ ops) op := by
  intro op hop
  cases op with
  | unsubscribe id => exact fun hpresent => hpresent.2 hop
  | handlerThrows => exact hthrow hop
  | _ => trivial

/-- From a moment without a publish under way, or right after an exception, let any calls come and no
    handler throw. Enough returns end the last publish. Once it is over, the signals have been dispatched
    one by one in the order of their `publish` calls, and a subscriber present throughout has been called
    in each of these rounds and has heard exactly these signals. -/
theorem delivered_in_order (earlier ops : List (BusOp σ))
    (hstart : earlier.getLast? = some .handlerThrows ∨ (({} : SignalBus σ).run earlier).dispatch = none)
    (hthrow : .handlerThrows ∉ ops) :
    let bus := ({} : SignalBus σ).run earlier
    (∃ n, (bus.run (ops ++ List.replicate n .handlerReturns)).dispatch = none) ∧
      ((bus.run ops).dispatch = none →
        ∃ rounds : List (σ × List ℕ),
          rounds.map Prod.fst = published ops ∧
          (bus.run ops).calls = bus.calls ++ rounds.flatMap roundCalls ∧
          (∀ round ∈ rounds, round.2.Nodup) ∧
          ∀ id ∈ bus.subscribers, .unsubscribe id ∉ ops →
            (∀ round ∈ rounds, id ∈ round.2) ∧
              (bus.run ops).heard id = bus.heard id ++ published ops) := by
  intro bus
  have hidle : bus.dispatch = none := hstart.elim idle_after_throw id
  constructor
  · refine ⟨(bus.run ops).owed, ?_⟩
    rw [run, List.foldl_append]
    exact run_returns (Nat.le_refl _)
  · intro hend
    have hdelivering : Delivering (fun id => id ∈ bus.subscribers ∧ .unsubscribe id ∉ ops) bus.calls []
      bus := delivering_idle hidle (fun _ hid => hid.1)
    obtain ⟨-, rounds, hrounds, haccounted⟩ :=
      hdelivering.run (sound_run earlier) (keeps_of_mem hthrow bus.subscribers)
    rw [Accounted, hend] at haccounted
    obtain ⟨hpubs, hcalls⟩ := haccounted
    refine ⟨rounds, hpubs.symm, hcalls, fun round hr => (hrounds round hr).nodup, ?_⟩
    intro id hid hstays
    have hmem : ∀ round ∈ rounds, id ∈ round.2 := fun round hr => (hrounds round hr).mem id ⟨hid, hstays⟩
    refine ⟨hmem, ?_⟩
    rw [heard_rounds hcalls (fun round hr => ⟨(hrounds round hr).nodup, hmem round hr⟩), ← hpubs]
    rfl

/-- A publish ends with an exception; then the first subscriber publishes while it is called. -/
theorem delivered_in_order_nested :
    let bus := ({} : SignalBus String).run [.subscribe, .subscribe, .publish "a", .handlerThrows]
    let ops := [.publish "b", .publish "c"] ++ List.replicate 4 .handlerReturns
    bus.heard 1 = [] ∧ (bus.run ops).heard 1 = ["b", "c"] ∧
      ∃ rounds : List (String × List ℕ), rounds.map Prod.fst = ["b", "c"] ∧
        (bus.run ops).calls = bus.calls ++ rounds.flatMap roundCalls := by
  have h := (delivered_in_order (σ := String) [.subscribe, .subscribe, .publish "a", .handlerThrows]
    ([.publish "b", .publish "c"] ++ List.replicate 4 .handlerReturns) (Or.inl rfl) (by simp)).2 rfl
  obtain ⟨rounds, hpubs, hcalls, -, hheard⟩ := h
  exact ⟨rfl, (hheard 1 (by decide) (by simp)).2, rounds, hpubs, hcalls⟩

/-! ## Callbacks after `unsubscribe`

A dispatch calls the subscribers of its copy, so it also calls those that are unsubscribed after the copy
was made. Apart from these nobody is called again (`unsubscribe_final_iff`). -/

variable {σ : Type*} {bus : SignalBus σ} {id : ℕ}

/-- The dispatch under way has yet to call the subscriber. -/
def StillToCall (bus : SignalBus σ) (id : ℕ) : Prop :=
  ∃ sig rest, bus.dispatch = some (sig, rest) ∧ id ∈ rest

/-- Nothing in the bus leads to a call of the subscriber. -/
structure Forgotten (bus : SignalBus σ) (id : ℕ) (signals : List σ) : Prop where
  lt_nextId : id < bus.nextId
  not_subscribed : id ∉ bus.subscribers
  not_stillToCall : ∀ sig rest, bus.dispatch = some (sig, rest) → id ∉ rest
  heard_eq : bus.heard id = signals

variable {signals : List σ}

theorem heard_call (bus : SignalBus σ) (sig : σ) (id' : ℕ) (subs : List ℕ) (id : ℕ) :
    (bus.call sig id' subs).heard id = bus.heard id ++ if id' = id then [sig] else [] := by
  have hcalls : (bus.call sig id' subs).calls = bus.calls ++ [(id', sig)] := rfl
  rw [heard_append hcalls]
  by_cases heq : id' = id <;> simp [heq]

theorem Forgotten.call (h : bus.Forgotten id signals) (sig : σ) {id' : ℕ} {subs : List ℕ}
    (hnot : id ∉ id' :: subs) : (bus.call sig id' subs).Forgotten id signals := by
  rw [List.mem_cons, not_or] at hnot
  refine ⟨h.lt_nextId, h.not_subscribed, fun sig' rest hdispatch => ?_, ?_⟩
  · cases hdispatch
    exact hnot.2
  · rw [heard_call, if_neg (Ne.symm hnot.1), List.append_nil, h.heard_eq]

theorem Forgotten.stop (h : bus.Forgotten id signals) (inPublish : Bool) (pending : List σ) :
    Forgotten { bus with inPublish := inPublish, pending := pending, dispatch := none } id signals :=
  ⟨h.lt_nextId, h.not_subscribed, fun _ _ heq => absurd heq.symm (Option.some_ne_none _), h.heard_eq⟩

theorem Forgotten.drain (h : bus.Forgotten id signals) (pending : List σ) :
    (bus.drain pending).Forgotten id signals := by
  obtain ⟨-, heq⟩ | ⟨sig, rest, id', subs, -, hsubs, heq⟩ := bus.drain_cases pending
  · exact heq ▸ h.stop _ _
  · have hstart : { bus with inPublish := true, pending := rest }.Forgotten id signals :=
      ⟨h.lt_nextId, h.not_subscribed, h.not_stillToCall, h.heard_eq⟩
    exact heq ▸ hstart.call sig (hsubs ▸ h.not_subscribed)

theorem Forgotten.step (h : bus.Forgotten id signals) (op : BusOp σ) :
    (bus.step op).Forgotten id signals := by
  cases op with
  | subscribe =>
      refine ⟨Nat.lt_succ_of_lt h.lt_nextId, fun hin => ?_, h.not_stillToCall, h.heard_eq⟩
      rcases List.mem_append.1 hin with hin | hin
      · exact h.not_subscribed hin
      · exact Nat.ne_of_lt h.lt_nextId (List.mem_singleton.1 hin)
  | unsubscribe id' =>
      exact ⟨h.lt_nextId, fun hin => h.not_subscribed (List.mem_of_mem_erase hin), h.not_stillToCall,
        h.heard_eq⟩
  | publish sig =>
      simp only [SignalBus.step, publish]
      split_ifs
      · exact ⟨h.lt_nextId, h.not_subscribed, h.not_stillToCall, h.heard_eq⟩
      · exact h.drain _
  | handlerReturns =>
      simp only [SignalBus.step, handlerReturns]
      split
      · exact h
      · rename_i sig id' subs hdispatch
        exact h.call sig (h.not_stillToCall _ _ hdispatch)
      · exact h.drain _
  | handlerThrows =>
      simp only [SignalBus.step, handlerThrows]
      split
      · exact h
      · exact h.stop _ _

theorem forgotten_unsubscribe (hsound : bus.Sound) (hid : id < bus.nextId)
    (hnot : ¬ bus.StillToCall id) : (bus.step (.unsubscribe id)).Forgotten id (bus.heard id) :=
  ⟨hid, hsound.nodup.not_mem_erase, fun sig rest hdispatch hin => hnot ⟨sig, rest, hdispatch, hin⟩, rfl⟩

/-- The returns of the subscribers before it lead to its call. -/
theorem heard_of_stillToCall {sig : σ} {rest : List ℕ} (hdispatch : bus.dispatch = some (sig, rest))
    (hin : id ∈ rest) :
    ∃ n, (bus.run (List.replicate n .handlerReturns)).heard id = bus.heard id ++ [sig] := by
  induction rest generalizing bus with
  | nil => exact absurd hin List.not_mem_nil
  | cons id' subs ih =>
      have hstep : bus.step .handlerReturns = bus.call sig id' subs := by
        simp only [SignalBus.step, handlerReturns, hdispatch]
      by_cases heq : id' = id
      · refine ⟨1, ?_⟩
        show (bus.step .handlerReturns).heard id = _
        rw [hstep, heard_call, if_pos heq]
      · have hcall : (bus.call sig id' subs).dispatch = some (sig, subs) := rfl
        obtain ⟨n, hn⟩ := ih hcall (List.mem_of_ne_of_mem (Ne.symm heq) hin)
        refine ⟨n + 1, ?_⟩
        show ((bus.step .handlerReturns).run (List.replicate n .handlerReturns)).heard id = _
        rw [hstep, hn, heard_call, if_neg heq, List.append_nil]

/-- Whatever comes later, an unsubscribed callback is never called again, if and only if the dispatch
    under way, if there is one, has not to call it. -/
theorem unsubscribe_final_iff (ops : List (BusOp σ)) (id : ℕ)
    (hid : id < (({} : SignalBus σ).run ops).nextId) :
    let bus := ({} : SignalBus σ).run ops
    (∀ later, ((bus.step (.unsubscribe id)).run later).heard id = bus.heard id) ↔
      ¬ bus.StillToCall id := by
  intro bus
  constructor
  · rintro hnever ⟨sig, rest, hdispatch, hin⟩
    have hunsubscribed : (bus.step (.unsubscribe id)).dispatch = some (sig, rest) := hdispatch
    obtain ⟨n, hn⟩ := heard_of_stillToCall hunsubscribed hin
    rw [hnever (List.replicate n .handlerReturns)] at hn
    exact absurd hn.symm (by simp [SignalBus.step, unsubscribe, heard])
  · intro hnot later
    have hforgotten := forgotten_unsubscribe (sound_run ops) hid hnot
    exact (Runs.invariant (Forgotten · id (bus.heard id)) (fun _ op h => h.step op) later
      hforgotten).heard_eq

/-- The subscriber that is running, the first of two. -/
theorem unsubscribe_final_iff_running :
    let bus := ({} : SignalBus String).run [.subscribe, .subscribe, .publish "formed"]
    ∀ later, ((bus.step (.unsubscribe 0)).run later).heard 0 = bus.heard 0 := by
  refine (unsubscribe_final_iff [.subscribe, .subscribe, .publish "formed"] 0 (by decide)).2 ?_
  rintro ⟨sig, rest, hdispatch, hin⟩
  cases hdispatch
  exact absurd hin (by decide)

/-- The first of two subscribers unsubscribes the second, which is called nevertheless. -/
theorem unsubscribe_other :
    let bus := ({} : SignalBus String).run [.subscribe, .subscribe, .publish "formed"]
    bus.heard 1 = [] ∧
      ((bus.step (.unsubscribe 1)).run [.handlerReturns]).heard 1 = ["formed"] := by
  decide

end SignalBus

end TradeBot
