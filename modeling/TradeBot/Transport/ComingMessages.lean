import TradeBot.Transport.WrittenMessages

set_option autoImplicit false

/-! # The messages that are still to come

A venue learns of a message once its write has succeeded. `coming` lists what it has yet to learn: a
handler hands its head over at most, and `send` alone adds to it.

Every event is described by what it makes of this list: most leave it as it is. So in the runs in
which writes end one by one, what a venue has learned and what is still to come make up what was
sent, up to the writes that failed and the messages that were dropped. -/

namespace TradeBot

namespace BeastWsClient

variable {M : Type*} {c c' : BeastWsClient M} {e : Event M} {message : M} {k n : ℕ} {ok : Bool}

/-- The messages that no write has taken yet. -/
def future (c : BeastWsClient M) : List M := c.out.waiting ++ c.posted

/-- The same behind the messages of the writes under way. -/
def coming (c : BeastWsClient M) : List M := c.out.coming ++ c.posted

theorem QueueStep.future_suffix (h : QueueStep c c' e) (hsent : sent [e] = []) :
    c'.future <:+ c.future := by
  have hposted {o o' : Outbox M} {ps : List M} (ho : o'.waiting <:+ o.waiting) :
      o'.waiting ++ ps <:+ o.waiting ++ ps :=
    List.suffix_append_self_iff.2 ho
  cases h with
  | stay _ hout hposted =>
      have heq : c'.future = c.future := by rw [future, future, hout, hposted]
      exact heq ▸ List.suffix_rfl
  | connects _ hc => rw [hc]; exact List.suffix_rfl
  | posts _ _ => simp [sent] at hsent
  | pushes _ _ => simp [sent] at hsent
  | @runs message rest _ hrest hc =>
      -- the oldest posted message moves to the end of the queue
      have hfuture : c.future = c.out.waiting ++ [message] ++ rest := by
        rw [future, hrest, List.append_cons]
      rw [hfuture, hc]
      refine List.suffix_append_self_iff.2 ?_
      dsimp only
      split
      · exact Outbox.waiting_start_suffix.trans Outbox.waiting_push_suffix
      · exact Outbox.waiting_push_suffix
  | writes _ _ hc =>
      rw [hc]
      refine hposted ?_
      dsimp only
      split
      · exact Outbox.waiting_start_suffix.trans Outbox.waiting_finish_suffix
      · exact Outbox.waiting_finish_suffix
  | fails _ _ hout hposted' =>
      rw [future, future, hout, hposted']
      exact hposted Outbox.waiting_finish_suffix
  | flushes _ hc =>
      rw [hc]
      refine hposted ?_
      dsimp only
      split
      · exact Outbox.waiting_start_suffix
      · exact List.suffix_rfl

/-- A message that is sent comes last. -/
theorem future_send (hstragglers : c.NoStragglers) (message : M) :
    ∃ kept, kept <:+ c.future ∧ (c.send message).future = kept ++ [message] := by
  unfold send
  split
  · exact ⟨c.future, List.suffix_rfl, (List.append_assoc ..).symm⟩
  · rename_i hws
    have hposted : c.posted = [] := hstragglers (by simpa using hws)
    obtain ⟨kept, hkept, heq⟩ :=
      c.out.waiting_push c.maxQueueSize message
    exact ⟨kept, by simpa [future, hposted] using hkept, by simp [future, hposted, heq]⟩

theorem coming_send (hws : c.ws = true) (message : M) :
    (c.send message).coming = c.coming ++ [message] := by
  rw [send, if_pos hws, coming, coming, List.append_assoc]

theorem coming_greeted : c.greeted.coming = c.coming := by
  unfold greeted
  dsimp only
  split
  · rfl
  · rw [doWrite_eq, coming]
    dsimp only
    split
    · rw [Outbox.coming_start]
      rfl
    · rfl

/-- The queue of a connected client does not overflow. -/
def HasRoom (c : BeastWsClient M) (handler : Handler) : Prop :=
  handler = .posted → c.connected = true → c.out.queue.length < c.maxQueueSize

/-- The slot of the write under way is still the front slot. -/
def Tidy (c : BeastWsClient M) : Prop := c.connected = true → c.out.debt = 0

/-- What the other end of the connection gets with a handler. -/
def received (c : BeastWsClient M) : Handler → Option M
  | .write k true => (c.out.writes[k]?).join
  | _ => none

theorem coming_push (h : c.out.queue.length < c.maxQueueSize) (message : M) (rest : List M) :
    (c.out.push c.maxQueueSize message).coming ++ rest = c.out.coming ++ message :: rest := by
  rw [Outbox.coming, Outbox.waiting_push_of_lt h, Outbox.writes_push, Outbox.coming]
  simp

theorem coming_runPosted (hroom : c.HasRoom .posted) (hconnected : c.runPosted.connected = true) :
    c.runPosted.coming = c.coming := by
  unfold runPosted at hconnected ⊢
  cases hposted : c.posted with
  | nil => rfl
  | cons message rest =>
      simp only [hposted, enqueue, doWrite_eq] at hconnected ⊢
      have hup : c.connected = true := by
        split at hconnected <;> exact hconnected
      have hpush := coming_push (hroom rfl hup) message rest
      have hcoming : c.coming = c.out.coming ++ message :: rest := by rw [coming, hposted]
      rw [hcoming]
      split
      · dsimp only [coming]
        split
        · rw [Outbox.coming_start]
          exact hpush
        · exact hpush
      · exact hpush

/-- A connected client keeps all that is still to come, but for what the handler delivers. -/
theorem coming_handle (hflow : Flow c) (htidy : c.Tidy) {handler : Handler}
    (hne : handler ≠ .handshake) (hroom : c.HasRoom handler)
    (hconnected : (c.handle handler).connected = true) :
    (c.received handler).toList ++ (c.handle handler).coming = c.coming := by
  cases handler with
  | handshake => exact absurd rfl hne
  | posted => exact coming_runPosted hroom hconnected
  | write k ok =>
      dsimp only [handle] at hconnected ⊢
      by_cases hk : k < c.out.writes.length
      · rw [if_pos hk] at hconnected ⊢
        cases ok with
        | false =>
            -- a write that fails disconnects it
            rw [onWrite, scheduleReconnect_eq] at hconnected
            exact absurd hconnected Bool.false_ne_true
        | true =>
            simp only [onWrite, if_true, doWrite_eq] at hconnected ⊢
            -- a write that succeeds does not connect the client
            have hup : c.connected = true := by
              split at hconnected <;> exact hconnected
            have hfinish := congrArg (· ++ c.posted) (Outbox.coming_finish hflow.serial (htidy hup) hk)
            rw [List.append_assoc] at hfinish
            split
            · exact hfinish
            · rw [if_pos (hflow.stream hup), coming, Outbox.coming_start]
              exact hfinish
      · rw [if_neg hk]
        cases ok with
        | false => rfl
        | true => rw [received, List.getElem?_eq_none (Nat.not_lt.1 hk)]; rfl
  | resolved => rfl
  | closed => rfl
  | setUpFailed => rw [handle, scheduleReconnect_eq]; rfl
  | pingFailed => rw [handle, scheduleReconnect_eq]; rfl
  | readFailed =>
      dsimp only [handle, onReadError]
      split
      · rfl
      · rw [scheduleReconnect_eq]; rfl
  | reconnect =>
      dsimp only [handle]
      split <;> rfl

theorem QueueStep.tidy (h : QueueStep c c' e) (hflow : Flow c) (htidy : c.Tidy)
    (horderly : c.Orderly e) (hroom : ∀ handler, e = .handle handler → c.HasRoom handler) :
    c'.Tidy := by
  cases h with
  | stay _ hout _ _ _ hconnected => exact fun hc => hout ▸ htidy (hconnected hc)
  | connects _ hc => rw [hc]; exact fun _ => Outbox.debt_of_writes (horderly.1 rfl).2
  | posts _ hc => rw [hc]; exact htidy
  | pushes hws hc =>
      rw [hc]
      intro hconnected
      simp [hflow.stream hconnected] at hws
  | runs _ _ hc =>
      rw [hc]
      intro hconnected
      dsimp only
      split
      · rename_i hstart
        -- the outbox was empty, so the message is written at once
        simp only [Bool.and_eq_true, List.isEmpty_iff] at hstart
        exact Outbox.debt_start (Outbox.writes_push.trans (hflow.writes_eq_nil hstart.1.1))
      · -- it waits, and there is room for it
        rw [Outbox.debt_push_of_lt hflow.serial (hroom _ rfl rfl hconnected)]
        exact htidy hconnected
  | @writes k _ hk hc =>
      have hidle := hflow.serial.writes_finish true hk
      rw [hc]
      intro _
      dsimp only
      split
      · exact Outbox.debt_start hidle
      · exact Outbox.debt_of_writes hidle
  | fails _ _ _ _ _ _ hconnected => simp [Tidy, hconnected]
  | flushes hgreeting hc =>
      obtain ⟨hws, hwrites⟩ := hflow.greeting hgreeting
      rw [hc]
      simp only [Tidy, hws, if_true]
      exact fun _ => Outbox.debt_start hwrites

theorem QueueStep.connected (h : QueueStep c c' e) (hne : e ≠ .handle .handshake)
    (hconnected : c'.connected = true) : c.connected = true := by
  cases h with
  | stay _ _ _ _ _ hup => exact hup hconnected
  | connects _ _ => exact absurd rfl hne
  | posts _ hc => rwa [hc] at hconnected
  | pushes _ hc => rwa [hc] at hconnected
  | runs _ _ hc => rwa [hc] at hconnected
  | writes _ _ hc => rwa [hc] at hconnected
  | fails _ _ _ _ _ _ hdown => simp [hdown] at hconnected
  | flushes _ hc => rwa [hc] at hconnected

/-- What a client keeps whose handlers come in order and whose queue does not overflow while it is
    connected. -/
structure Sound (c : BeastWsClient M) : Prop where
  flow : c.Flow
  tidy : c.Tidy
  noStragglers : c.NoStragglers

theorem sound_start : Sound { maxQueueSize := n : BeastWsClient M } where
  flow := flow_start
  tidy := nofun
  noStragglers := fun _ => rfl

theorem Sound.step (h : c.Sound) (horderly : c.Orderly e)
    (hroom : ∀ handler, e = .handle handler → c.HasRoom handler) : (c.step e).Sound where
  flow := h.flow.step horderly (queueStep c e)
  tidy := (queueStep c e).tidy h.flow h.tidy horderly hroom
  noStragglers := (queueStep c e).noStragglers (fun heq => (horderly.2 heq).1) h.noStragglers

theorem Sound.send (h : c.Sound) (message : M) : (c.send message).Sound :=
  h.step (e := .send message) ⟨nofun, nofun⟩ nofun

end BeastWsClient

end TradeBot
