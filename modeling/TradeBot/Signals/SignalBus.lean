import TradeBot.Lib.Runs
import Mathlib.Data.List.Nodup

set_option autoImplicit false

/-! # The signal bus

`signals/SignalBus.cpp`. A publish calls every subscriber of a copy of the list, and a publish from
within one of these calls is put off until the dispatch is over. What subscribers do is not fixed: while
one of them runs, any call of the bus may come, until it returns or throws.

`drain` starts the next dispatch of those that are pending, and goes on until a subscriber is called
or nothing is left. A handler that throws ends the dispatch, and what was put off stays pending until
the next publish. -/

namespace TradeBot

/-- The bus, with subscribers by their ids. -/
structure SignalBus (σ : Type*) where
  subscribers : List ℕ := []
  nextId : ℕ := 0
  inPublish : Bool := false
  /-- `pending_signals_`. -/
  pending : List σ := []
  /-- The `dispatch_one` under way: its signal, and the part of its copy behind the subscriber that is
      running. -/
  dispatch : Option (σ × List ℕ) := none
  /-- The calls of subscribers so far, the latest last. -/
  calls : List (ℕ × σ) := []
  deriving DecidableEq

namespace SignalBus

variable {σ : Type*}

/-- `subscribe`, with the id that it returns. -/
def subscribe (bus : SignalBus σ) : ℕ × SignalBus σ :=
  (bus.nextId,
    { bus with subscribers := bus.subscribers ++ [bus.nextId], nextId := bus.nextId + 1 })

/-- A dispatch under way goes on with its copy. -/
def unsubscribe (bus : SignalBus σ) (id : ℕ) : SignalBus σ :=
  { bus with subscribers := bus.subscribers.erase id }

/-- A turn of the loop in `dispatch_one`, up to the call. -/
def call (bus : SignalBus σ) (sig : σ) (id : ℕ) (subs : List ℕ) : SignalBus σ :=
  { bus with dispatch := some (sig, subs), calls := bus.calls ++ [(id, sig)] }

/-- Signals dispatched one after the other, up to the first call. -/
def drain (bus : SignalBus σ) : List σ → SignalBus σ
  | [] => { bus with inPublish := false, pending := [], dispatch := none }
  | sig :: pending =>
      match bus.subscribers with
      | [] => bus.drain pending
      | id :: subs => { bus with inPublish := true, pending := pending }.call sig id subs

/-- Within a dispatch the signal waits for its end. -/
def publish (bus : SignalBus σ) (sig : σ) : SignalBus σ :=
  if bus.inPublish then { bus with pending := bus.pending ++ [sig] }
  else bus.drain (sig :: bus.pending)

/-- The subscriber that is running returns. -/
def handlerReturns (bus : SignalBus σ) : SignalBus σ :=
  match bus.dispatch with
  | none => bus
  | some (sig, id :: subs) => bus.call sig id subs
  | some (_, []) => bus.drain bus.pending

/-- The subscriber that is running throws, which ends the `publish`. -/
def handlerThrows (bus : SignalBus σ) : SignalBus σ :=
  match bus.dispatch with
  | none => bus
  | some _ => { bus with inPublish := false, pending := [], dispatch := none }

end SignalBus

/-! ## Runs -/

/-- A call of the bus, or the end of a handler. -/
inductive BusOp (σ : Type*)
  | subscribe
  | unsubscribe (id : ℕ)
  | publish (sig : σ)
  | handlerReturns
  | handlerThrows

namespace SignalBus

variable {σ : Type*}

/-- The bus after an operation. -/
def step (bus : SignalBus σ) : BusOp σ → SignalBus σ
  | .subscribe => bus.subscribe.2
  | .unsubscribe id => bus.unsubscribe id
  | .publish sig => bus.publish sig
  | .handlerReturns => bus.handlerReturns
  | .handlerThrows => bus.handlerThrows

/-- The bus after some operations. -/
def run (bus : SignalBus σ) (ops : List (BusOp σ)) : SignalBus σ := ops.foldl step bus

/-- The signals that a subscriber has been called with. -/
def heard (bus : SignalBus σ) (id : ℕ) : List σ :=
  (bus.calls.filter (fun call => decide (call.1 = id))).map Prod.snd

theorem heard_append {bus bus' : SignalBus σ} {calls : List (ℕ × σ)}
    (h : bus'.calls = bus.calls ++ calls) (id : ℕ) :
    bus'.heard id
      = bus.heard id ++ (calls.filter (fun call => decide (call.1 = id))).map Prod.snd := by
  rw [heard, h, List.filter_append, List.map_append]
  rfl

/-! ## What holds of every bus -/

/-- What holds of every bus that calls lead to. -/
structure Sound (bus : SignalBus σ) : Prop where
  nodup : bus.subscribers.Nodup
  lt_nextId : ∀ id ∈ bus.subscribers, id < bus.nextId
  flag : bus.inPublish = bus.dispatch.isSome
  idle : bus.dispatch = none → bus.pending = []

theorem drain_nil_subscribers {bus : SignalBus σ} (h : bus.subscribers = []) (sig : σ)
    (pending : List σ) : bus.drain (sig :: pending) = bus.drain pending := by
  rw [drain, h]

theorem drain_cons {bus : SignalBus σ} {id : ℕ} {subs : List ℕ} (h : bus.subscribers = id :: subs)
    (sig : σ) (pending : List σ) :
    bus.drain (sig :: pending) =
      { bus with inPublish := true, pending := pending }.call sig id subs := by
  rw [drain, h]

/-- A drain ends at a call or without anything pending, and leaves the subscribers alone. -/
theorem drain_cases (bus : SignalBus σ) (pending : List σ) :
    (bus.subscribers = [] ∨ pending = []) ∧
        bus.drain pending = { bus with inPublish := false, pending := [], dispatch := none } ∨
      ∃ sig rest id subs, pending = sig :: rest ∧ bus.subscribers = id :: subs ∧
        bus.drain pending = { bus with inPublish := true, pending := rest }.call sig id subs := by
  induction pending with
  | nil => exact Or.inl ⟨Or.inr rfl, rfl⟩
  | cons sig rest ih =>
      by_cases hnone : bus.subscribers = []
      · rw [drain_nil_subscribers hnone]
        obtain ⟨-, h⟩ | ⟨_, _, _, _, -, hsubs, -⟩ := ih
        · exact Or.inl ⟨Or.inl hnone, h⟩
        · exact absurd (hsubs.symm.trans hnone) (List.cons_ne_nil _ _)
      · obtain ⟨id, subs, hsubs⟩ := List.exists_cons_of_ne_nil hnone
        exact Or.inr ⟨sig, rest, id, subs, rfl, hsubs, drain_cons hsubs sig rest⟩

variable {bus : SignalBus σ}

theorem drain_sound (hnodup : bus.subscribers.Nodup) (hlt : ∀ id ∈ bus.subscribers, id < bus.nextId)
    (pending : List σ) : (bus.drain pending).Sound := by
  obtain ⟨-, h⟩ | ⟨_, _, _, _, -, -, h⟩ := bus.drain_cases pending
  · exact h ▸ ⟨hnodup, hlt, rfl, fun _ => rfl⟩
  · exact h ▸ ⟨hnodup, hlt, rfl, fun hnone => absurd hnone (Option.some_ne_none _)⟩

theorem Sound.step (h : bus.Sound) (op : BusOp σ) : (bus.step op).Sound := by
  cases op with
  | subscribe =>
      refine ⟨?_, fun id hid => ?_, h.flag, h.idle⟩
      · refine List.nodup_append.2 ⟨h.nodup, List.nodup_singleton _, fun id hid id' hid' heq => ?_⟩
        rw [List.mem_singleton.1 hid'] at heq
        exact Nat.ne_of_lt (h.lt_nextId id hid) heq
      · rcases List.mem_append.1 hid with hid | hid
        · exact Nat.lt_succ_of_lt (h.lt_nextId id hid)
        · exact List.mem_singleton.1 hid ▸ Nat.lt_succ_self _
  | unsubscribe id =>
      exact ⟨h.nodup.erase id, fun id' hid' => h.lt_nextId id' (List.mem_of_mem_erase hid'), h.flag,
        h.idle⟩
  | publish sig =>
      simp only [SignalBus.step, publish]
      split_ifs with hflag
      · refine ⟨h.nodup, h.lt_nextId, h.flag, fun hnone => ?_⟩
        rw [h.flag, show bus.dispatch = none from hnone] at hflag
        cases hflag
      · exact drain_sound h.nodup h.lt_nextId _
  | handlerReturns =>
      simp only [SignalBus.step, handlerReturns]
      split
      · exact h
      · rename_i hdispatch
        refine ⟨h.nodup, h.lt_nextId, ?_, fun hnone => absurd hnone (Option.some_ne_none _)⟩
        exact h.flag.trans (by rw [hdispatch]; rfl)
      · exact drain_sound h.nodup h.lt_nextId _
  | handlerThrows =>
      simp only [SignalBus.step, handlerThrows]
      split
      · exact h
      · exact ⟨h.nodup, h.lt_nextId, rfl, fun _ => rfl⟩

theorem sound_run (ops : List (BusOp σ)) : (({} : SignalBus σ).run ops).Sound :=
  Runs.invariant Sound (fun _ op h => h.step op) ops
    ⟨List.nodup_nil, fun _ hid => absurd hid List.not_mem_nil, rfl, fun _ => rfl⟩

end SignalBus

end TradeBot
