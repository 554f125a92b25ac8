import TradeBot.Lib.Outbox
import TradeBot.Lib.Runs

set_option autoImplicit false

/-! # The WebSocket client

`transport/BeastWsClient.cpp`: messages are sent from any thread, and everything else runs on one
strand, in an order that is up to the network. A step is one call of the application or one handler of
the strand, so a run is an interleaving of them. Messages are of any type `M`; an empty slot of the
write queue is a string that `do_write` has moved out. -/

namespace TradeBot

/-- The fields that the calls and handlers share. -/
structure BeastWsClient (M : Type*) where
  maxQueueSize : ℕ := 1000
  /-- `m_ws` holds a stream. -/
  ws : Bool := false
  connected : Bool := false
  closing : Bool := false
  reconnectDelay : ℕ := 1
  /-- What `m_reconnect_timer` was armed with, while it waits. -/
  reconnectTimer : Option ℕ := none
  /-- The messages that `send` has posted to the strand, oldest first. -/
  posted : List M := []
  /-- `m_write_queue` and its writes. -/
  out : Outbox M := {}
  /-- The strand is in `on_handshake`, which calls `m_on_connect`. -/
  greeting : Bool := false
  /-- All waits that the timer was armed with. -/
  waits : List ℕ := []
  deriving DecidableEq

namespace BeastWsClient

variable {M : Type*}

/-- The handlers of the strand. -/
inductive Handler
  /-- The function that a `send` has posted. -/
  | posted
  | resolved
  /-- `on_resolve`, `on_connect`, `on_ssl_handshake` or `on_handshake` with an error. -/
  | setUpFailed
  /-- `on_handshake`, up to the call of `m_on_connect`. -/
  | handshake
  /-- `on_write` for one of the writes under way. -/
  | write (k : ℕ) (ok : Bool)
  | readFailed
  | pingFailed
  | reconnect
  /-- The handler of `async_close`. -/
  | closed
  deriving DecidableEq

/-- What can happen next, in the application or on the strand. -/
inductive Event (M : Type*)
  | connect
  | send (message : M)
  | disconnect
  | handle (handler : Handler)
  /-- `m_on_connect` returns, and `on_handshake` goes on. -/
  | greeted
  deriving DecidableEq

/-! ## The client -/

/-- `do_resolve` leads to `resolved` or `setUpFailed`. -/
def connect (c : BeastWsClient M) : BeastWsClient M := { c with closing := false, reconnectDelay := 1 }

/-- A pending reconnect is cancelled. -/
def disconnect (c : BeastWsClient M) : BeastWsClient M :=
  { c with closing := true, reconnectTimer := none, connected := false }

/-- The delay doubles, up to a limit, unless the client is closing. -/
def scheduleReconnect (c : BeastWsClient M) : BeastWsClient M :=
  if c.closing then c
  else
    { c with
      reconnectTimer := some c.reconnectDelay
      waits := c.waits ++ [c.reconnectDelay]
      reconnectDelay := min (c.reconnectDelay * 2) 30 }

/-- A message is posted to the strand. Without a stream it goes to the queue at once. -/
def send (c : BeastWsClient M) (message : M) : BeastWsClient M :=
  if c.ws then { c with posted := c.posted ++ [message] }
  else { c with out := c.out.push c.maxQueueSize message }

/-- The front message is moved out of the queue and its write is started. -/
def doWrite (c : BeastWsClient M) : BeastWsClient M :=
  if c.ws then { c with out := c.out.start } else c

/-- The function that `send` posts. -/
def enqueue (c : BeastWsClient M) (message : M) : BeastWsClient M :=
  let writeInProgress := !c.out.queue.isEmpty
  let c := { c with out := c.out.push c.maxQueueSize message }
  if !writeInProgress && c.connected then c.doWrite else c

/-- The `k`-th write under way has ended. The slot of a message goes when the write has succeeded,
    and the next write is started. -/
def onWrite (c : BeastWsClient M) (k : ℕ) (ok : Bool) : BeastWsClient M :=
  let c := { c with out := c.out.finish k ok }
  if ok then if c.out.queue.isEmpty then c else c.doWrite
  else ({ c with connected := false }).scheduleReconnect

/-- The connection is lost, unless the client is closing. -/
def onReadError (c : BeastWsClient M) : BeastWsClient M :=
  if c.closing then c else ({ c with connected := false }).scheduleReconnect

/-- The delay starts anew, and `m_on_connect` is called. -/
def onHandshake (c : BeastWsClient M) : BeastWsClient M :=
  { c with connected := true, reconnectDelay := 1, greeting := true }

/-- The end of `on_handshake`: what is queued is written. -/
def greeted (c : BeastWsClient M) : BeastWsClient M :=
  let c := { c with greeting := false }
  if c.out.queue.isEmpty then c else c.doWrite

/-- The oldest of the posted functions runs. -/
def runPosted (c : BeastWsClient M) : BeastWsClient M :=
  match c.posted with
  | [] => c
  | message :: rest => ({ c with posted := rest }).enqueue message

/-- The client after a handler. One that has nothing to run for changes nothing. -/
def handle (c : BeastWsClient M) : Handler → BeastWsClient M
  | .posted => c.runPosted
  | .resolved => { c with ws := true }
  | .setUpFailed => c.scheduleReconnect
  | .handshake => c.onHandshake
  | .write k ok => if k < c.out.writes.length then c.onWrite k ok else c
  | .readFailed => c.onReadError
  | .pingFailed => ({ c with connected := false }).scheduleReconnect
  | .reconnect => if c.reconnectTimer.isSome then ({ c with reconnectTimer := none }).connect else c
  | .closed => { c with ws := false }

/-- No other handler runs while the strand is in `on_handshake`. -/
def step (c : BeastWsClient M) : Event M → BeastWsClient M
  | .connect => c.connect
  | .send message => c.send message
  | .disconnect => c.disconnect
  | .handle handler => if c.greeting then c else c.handle handler
  | .greeted => if c.greeting then c.greeted else c

/-- The messages that the application sends, in the order of the calls. -/
def sent (es : List (Event M)) : List M :=
  es.filterMap (fun
    | .send message => some message
    | _ => none)

/-- What was written, is queued or is posted, oldest first. -/
def pipeline (c : BeastWsClient M) : List M := c.out.content ++ c.posted

/-! ## What a step does to the queue -/

variable {c c' : BeastWsClient M} {e : Event M} {message : M} {k : ℕ} {ok : Bool}

theorem scheduleReconnect_eq :
    c.scheduleReconnect = { c with
      reconnectTimer := c.scheduleReconnect.reconnectTimer
      waits := c.scheduleReconnect.waits
      reconnectDelay := c.scheduleReconnect.reconnectDelay } := by
  unfold scheduleReconnect
  split <;> rfl

theorem doWrite_eq :
    c.doWrite = { c with out := if c.ws then c.out.start else c.out } := by
  unfold doWrite
  split <;> rfl

/-- What a step does to the write queue, its writes and the posted messages. -/
inductive QueueStep (c c' : BeastWsClient M) : Event M → Prop
  | stay {e : Event M} (hsent : sent [e] = []) (hout : c'.out = c.out)
      (hposted : c'.posted = c.posted) (hmax : c'.maxQueueSize = c.maxQueueSize)
      (hws : c'.ws = c.ws ∨ c'.ws = true ∨ e = .handle .closed ∧ c.greeting = false)
      (hconnected : c'.connected = true → c.connected = true)
      (hgreeting : c'.greeting = c.greeting) : QueueStep c c' e
  | connects (hgreeting : c.greeting = false) (hc : c' = c.onHandshake) :
      QueueStep c c' (.handle .handshake)
  | posts {message : M} (hws : c.ws = true) (hc : c' = { c with posted := c.posted ++ [message] }) :
      QueueStep c c' (.send message)
  | pushes {message : M} (hws : c.ws = false)
      (hc : c' = { c with out := c.out.push c.maxQueueSize message }) :
      QueueStep c c' (.send message)
  | runs {message : M} {rest : List M} (hgreeting : c.greeting = false)
      (hposted : c.posted = message :: rest)
      (hc : c' = { c with
        posted := rest
        out := if c.out.queue.isEmpty && c.connected && c.ws then
            (c.out.push c.maxQueueSize message).start
          else c.out.push c.maxQueueSize message }) :
      QueueStep c c' (.handle .posted)
  | writes {k : ℕ} (hgreeting : c.greeting = false) (hk : k < c.out.writes.length)
      (hc : c' = { c with
        out := if c.ws then (c.out.finish k true).start else c.out.finish k true }) :
      QueueStep c c' (.handle (.write k true))
  | fails {k : ℕ} (hidle : c.greeting = false) (hk : k < c.out.writes.length)
      (hout : c'.out = c.out.finish k false) (hposted : c'.posted = c.posted)
      (hmax : c'.maxQueueSize = c.maxQueueSize) (hws : c'.ws = c.ws)
      (hconnected : c'.connected = false) (hgreeting : c'.greeting = false) :
      QueueStep c c' (.handle (.write k false))
  | flushes (hgreeting : c.greeting = true)
      (hc : c' = { c with greeting := false, out := if c.ws then c.out.start else c.out }) :
      QueueStep c c' .greeted

theorem start_of_isEmpty {o : Outbox M} (h : o.queue.isEmpty = true) : o.start = o := by
  unfold Outbox.start
  rw [List.isEmpty_iff.1 h]

theorem QueueStep.refl (hsent : sent [e] = []) : QueueStep c c e :=
  .stay hsent rfl rfl rfl (.inl rfl) id rfl

theorem QueueStep.schedule (hsent : sent [e] = []) (b : Bool) :
    QueueStep c ({ c with connected := b && c.connected } : BeastWsClient M).scheduleReconnect e := by
  rw [scheduleReconnect_eq]
  exact .stay hsent rfl rfl rfl (.inl rfl) (fun h => (Bool.and_eq_true _ _ ▸ h).2) rfl

theorem runPosted_step (hgreeting : c.greeting = false) :
    QueueStep c c.runPosted (.handle .posted) := by
  unfold runPosted
  cases hposted : c.posted with
  | nil => exact .refl rfl
  | cons message rest =>
      refine .runs hgreeting hposted ?_
      simp only [enqueue, doWrite_eq]
      cases c.out.queue.isEmpty <;> cases c.connected <;> cases c.ws <;> rfl

theorem onWrite_step (hgreeting : c.greeting = false) (hk : k < c.out.writes.length) :
    QueueStep c (c.onWrite k ok) (.handle (.write k ok)) := by
  cases ok with
  | false =>
      have hc : c.onWrite k false = BeastWsClient.scheduleReconnect
          { c with out := c.out.finish k false, connected := false } := rfl
      rw [hc, scheduleReconnect_eq]
      exact .fails hgreeting hk rfl rfl rfl rfl rfl hgreeting
  | true =>
      refine .writes hgreeting hk ?_
      simp only [onWrite, if_true, doWrite_eq]
      split
      · rename_i hempty
        rw [start_of_isEmpty hempty, ite_self]
      · rfl

theorem handle_step (hgreeting : c.greeting = false) (handler : Handler) :
    QueueStep c (c.handle handler) (.handle handler) := by
  cases handler with
  | posted => exact runPosted_step hgreeting
  | resolved => exact .stay rfl rfl rfl rfl (.inr (.inl rfl)) id rfl
  | setUpFailed => exact .schedule rfl true
  | handshake => exact .connects hgreeting rfl
  | readFailed =>
      dsimp only [handle, onReadError]
      split
      · exact .refl rfl
      · exact .schedule rfl false
  | pingFailed => exact .schedule rfl false
  | closed => exact .stay rfl rfl rfl rfl (.inr (.inr ⟨rfl, hgreeting⟩)) id rfl
  | write k ok =>
      dsimp only [handle]
      split
      · exact onWrite_step hgreeting ‹_›
      · exact .refl rfl
  | reconnect =>
      dsimp only [handle]
      split
      · exact .stay rfl rfl rfl rfl (.inl rfl) id rfl
      · exact .refl rfl

theorem queueStep (c : BeastWsClient M) (e : Event M) : QueueStep c (c.step e) e := by
  cases e with
  | connect => exact .stay rfl rfl rfl rfl (.inl rfl) id rfl
  | disconnect => exact .stay rfl rfl rfl rfl (.inl rfl) (fun h => nomatch h) rfl
  | send message =>
      dsimp only [step, send]
      cases hws : c.ws with
      | false => exact .pushes hws (by simp [hws])
      | true => exact .posts hws (by simp [hws])
  | handle handler =>
      dsimp only [step]
      cases hgreeting : c.greeting with
      | false => exact handle_step hgreeting handler
      | true => exact .refl rfl
  | greeted =>
      dsimp only [step]
      cases hgreeting : c.greeting with
      | false => exact .refl rfl
      | true =>
          refine .flushes hgreeting ?_
          simp only [greeted, doWrite_eq, if_true]
          split
          · rename_i hempty
            rw [start_of_isEmpty hempty, ite_self]
          · rfl

/-! ## The waits between reconnects

`schedule_reconnect` of `transport/BeastWsClient.cpp` arms the timer with the delay and doubles the
delay, up to 30 s; only a handshake and a `connect` reset it. -/

variable {M : Type*} {c c' : BeastWsClient M} {n : ℕ}

/-- What a step does to the reconnect timer. -/
inductive TimerStep (c c' : BeastWsClient M) : Prop
  | stay (hwaits : c'.waits = c.waits) (htimer : c'.reconnectTimer = c.reconnectTimer)
      (hdelay : c'.reconnectDelay = c.reconnectDelay) (hclosing : c'.closing = c.closing)
  | reset (hwaits : c'.waits = c.waits) (hdelay : c'.reconnectDelay = 1)
  | stop (hwaits : c'.waits = c.waits) (htimer : c'.reconnectTimer = none)
      (hclosing : c'.closing = true)
  | arm (hwaits : c'.waits = c.waits ++ [c.reconnectDelay])
      (htimer : c'.reconnectTimer = some c.reconnectDelay)
      (hdelay : c'.reconnectDelay = min (c.reconnectDelay * 2) 30) (hclosing : c.closing = false)

theorem TimerStep.schedule (hwaits : c'.waits = c.waits)
    (htimer : c'.reconnectTimer = c.reconnectTimer) (hdelay : c'.reconnectDelay = c.reconnectDelay)
    (hclosing : c'.closing = c.closing) : TimerStep c c'.scheduleReconnect := by
  unfold scheduleReconnect
  split
  · exact .stay hwaits htimer hdelay hclosing
  · rename_i h
    rw [hclosing] at h
    rw [hdelay, hwaits]
    exact .arm rfl rfl rfl (by simpa using h)

theorem timerStep_doWrite (h : TimerStep c c') : TimerStep c c'.doWrite := by
  rw [doWrite_eq]
  cases h with
  | stay hwaits htimer hdelay hclosing => exact .stay hwaits htimer hdelay hclosing
  | reset hwaits hdelay => exact .reset hwaits hdelay
  | stop hwaits htimer hclosing => exact .stop hwaits htimer hclosing
  | arm hwaits htimer hdelay hclosing => exact .arm hwaits htimer hdelay hclosing

theorem timerStep_handle (handler : Handler) : TimerStep c (c.handle handler) := by
  have hstay : TimerStep c c := .stay rfl rfl rfl rfl
  cases handler with
  | posted =>
      dsimp only [handle, runPosted]
      split
      · exact hstay
      · dsimp only [enqueue]
        split
        · exact timerStep_doWrite (.stay rfl rfl rfl rfl)
        · exact .stay rfl rfl rfl rfl
  -- only a failed write schedules a reconnect
  | write k ok =>
      dsimp only [handle, onWrite]
      split
      · split
        · split
          · exact .stay rfl rfl rfl rfl
          · exact timerStep_doWrite (.stay rfl rfl rfl rfl)
        · exact .schedule rfl rfl rfl rfl
      · exact hstay
  | readFailed =>
      dsimp only [handle, onReadError]
      split
      · exact hstay
      · exact .schedule rfl rfl rfl rfl
  | reconnect =>
      dsimp only [handle]
      split
      · exact .reset rfl rfl
      · exact hstay
  -- these leave the timer alone
  | resolved => exact .stay rfl rfl rfl rfl
  | closed => exact .stay rfl rfl rfl rfl
  -- a connection that stands resets the delay, and a failed one doubles it
  | handshake => exact .reset rfl rfl
  | setUpFailed => exact .schedule rfl rfl rfl rfl
  | pingFailed => exact .schedule rfl rfl rfl rfl

theorem timerStep (c : BeastWsClient M) (e : Event M) : TimerStep c (c.step e) := by
  have hstay : TimerStep c c := .stay rfl rfl rfl rfl
  cases e with
  | connect => exact .reset rfl rfl
  | disconnect => exact .stop rfl rfl rfl
  | send message =>
      dsimp only [step, send]
      split <;> exact .stay rfl rfl rfl rfl
  | handle handler =>
      dsimp only [step]
      split
      · exact hstay
      · exact timerStep_handle handler
  | greeted =>
      dsimp only [step, greeted]
      split
      · split
        · exact .stay rfl rfl rfl rfl
        · exact timerStep_doWrite (.stay rfl rfl rfl rfl)
      · exact hstay

/-- The delay of the next wait, as far as the timer determines it. -/
structure Waiting (c : BeastWsClient M) : Prop where
  fresh : c.closing = false → c.reconnectTimer = none → c.reconnectDelay = 1
  pending : ∀ d, c.reconnectTimer = some d → c.reconnectDelay = 1 ∨ c.reconnectDelay = min (d * 2) 30

theorem Waiting.step (h : c.Waiting) (hstep : TimerStep c c') : c'.Waiting := by
  cases hstep with
  | stay _ htimer hdelay hclosing =>
      exact ⟨by rw [htimer, hdelay, hclosing]; exact h.fresh,
        by rw [htimer, hdelay]; exact h.pending⟩
  | reset _ hdelay => exact ⟨fun _ _ => hdelay, fun _ _ => .inl hdelay⟩
  | stop _ htimer hclosing => exact ⟨by simp [hclosing], by simp [htimer]⟩
  | arm _ htimer hdelay =>
      refine ⟨by simp [htimer], fun d hd => .inr ?_⟩
      rw [htimer, Option.some.injEq] at hd
      rw [hdelay, hd]

/-- In every run, a reconnect that is scheduled while no other is pending waits for one second: timer
    and `connect` reset the delay before it can grow. It grows only with errors that are reported
    while a wait of `d` seconds is pending. -/
theorem reconnect_waits (es : List (Event M)) (e : Event M) :
    let c := es.foldl step { maxQueueSize := n }
    (c.step e).waits = c.waits ∨
      ∃ w, (c.step e).waits = c.waits ++ [w] ∧ (c.step e).reconnectTimer = some w ∧
        (c.reconnectTimer = none → w = 1) ∧
          ∀ d, c.reconnectTimer = some d → w = 1 ∨ w = min (d * 2) 30 := by
  intro c
  have hwaiting : c.Waiting := Runs.invariant Waiting
    (fun c e hc => hc.step (timerStep c e)) es ⟨fun _ _ => rfl, nofun⟩
  cases timerStep c e with
  | stay hwaits => exact .inl hwaits
  | reset hwaits => exact .inl hwaits
  | stop hwaits => exact .inl hwaits
  | arm hwaits htimer _ hclosing =>
      exact .inr ⟨_, hwaits, htimer, hwaiting.fresh hclosing, hwaiting.pending⟩

end BeastWsClient

end TradeBot
