import TradeBot.Lib.Runs
import TradeBot.Transport.BeastWsClient

set_option autoImplicit false

/-! # The messages that were written

What the write queue of `transport/BeastWsClient.cpp` keeps of the messages that were sent: their order
in every interleaving, and all of them but the failed writes and the overflows where the handlers come
in order.

The queue is the outbox of `Lib/Outbox`, whose results are about any order of writes. What the client
adds is when its handlers start a write: one at a time as long as nothing is posted while a write is
under way. `QueueStep` lists what a step can do to the queue, and hides the rest of the client. -/

namespace TradeBot

namespace BeastWsClient

variable {M : Type*} {c c' : BeastWsClient M} {e : Event M} {message : M} {k n : ℕ} {ok : Bool}
  {es : List (Event M)}

/-! ## Order -/

/-- `m_ws` is released only after the posted messages were queued. -/
def ClosesIdle (c : BeastWsClient M) (e : Event M) : Prop := e = .handle .closed → c.posted = []

/-- Nothing is posted once the stream is gone. -/
def NoStragglers (c : BeastWsClient M) : Prop := c.ws = false → c.posted = []

theorem pipeline_enqueued (rest : List M) :
    List.Sublist ((c.out.push c.maxQueueSize message).content ++ rest)
      (c.out.content ++ message :: rest) := by
  rw [List.append_cons]
  exact Outbox.content_push_sublist.append (List.Sublist.refl _)

/-- A step adds nothing but the message that it sends, behind all others. -/
theorem QueueStep.pipeline_sublist (h : QueueStep c c' e) (hstragglers : c.NoStragglers) :
    List.Sublist c'.pipeline (c.pipeline ++ sent [e]) := by
  cases h with
  | stay hsent hout hposted => simp [pipeline, hsent, hout, hposted]
  | connects _ hc => simp [hc, pipeline, onHandshake, sent]
  | posts _ hc => simp [hc, pipeline, sent]
  | pushes hws hc =>
      rw [hc, pipeline, pipeline, hstragglers hws, List.append_nil, List.append_nil]
      exact Outbox.content_push_sublist
  | @runs message rest _ hposted hc =>
      have hpipeline : c.pipeline ++ sent [Event.handle Handler.posted] =
          c.out.content ++ message :: rest := by
        simp [pipeline, hposted, sent]
      rw [hpipeline, hc]
      dsimp only [pipeline]
      split
      · rw [Outbox.content_start]
        exact pipeline_enqueued rest
      · exact pipeline_enqueued rest
  | writes _ _ hc =>
      rw [hc]
      refine List.Sublist.trans ?_ (List.sublist_append_left c.pipeline _)
      dsimp only [pipeline]
      refine List.Sublist.append ?_ (List.Sublist.refl _)
      split
      · rw [Outbox.content_start]
        exact Outbox.content_finish_sublist
      · exact Outbox.content_finish_sublist
  | fails _ _ hout hposted =>
      rw [pipeline, hout, hposted]
      exact (Outbox.content_finish_sublist.append (List.Sublist.refl _)).trans
        (List.sublist_append_left ..)
  | flushes _ hc =>
      rw [hc]
      dsimp only [pipeline]
      split <;> simp [sent]

theorem QueueStep.noStragglers (h : QueueStep c c' e) (hclose : c.ClosesIdle e)
    (hstragglers : c.NoStragglers) : c'.NoStragglers := by
  cases h with
  | stay hsent hout hposted hmax hws =>
      rw [NoStragglers, hposted]
      rcases hws with hsame | hup | ⟨hclosed, -⟩
      · rwa [hsame]
      · simp [hup]
      · exact fun _ => hclose hclosed
  | connects _ hc => rw [hc]; exact hstragglers
  | posts hws hc => rw [hc, NoStragglers]; simp [hws]
  | pushes hws hc => rw [hc]; exact hstragglers
  | runs _ hposted hc =>
      rw [hc]
      intro hws
      simp [hstragglers hws] at hposted
  | writes _ _ hc => rw [hc]; exact hstragglers
  | fails _ _ hout hposted hmax hws => rw [NoStragglers, hws, hposted]; exact hstragglers
  | flushes _ hc => rw [hc]; exact hstragglers

theorem QueueStep.maxQueueSize_eq (h : QueueStep c c' e) : c'.maxQueueSize = c.maxQueueSize := by
  cases h with
  | stay _ _ _ hmax => exact hmax
  | fails _ _ _ _ hmax => exact hmax
  | connects _ hc => rw [hc]; rfl
  | posts _ hc => rw [hc]
  | pushes _ hc => rw [hc]
  | runs _ _ hc => rw [hc]
  | writes _ _ hc => rw [hc]
  | flushes _ hc => rw [hc]

/-- The queue fits into its bound. -/
def Fits (c : BeastWsClient M) : Prop := c.out.queue.length ≤ c.maxQueueSize

theorem QueueStep.fits (h : QueueStep c c' e) (hmax : 0 < c.maxQueueSize) (hfits : c.Fits) :
    c'.Fits := by
  rw [Fits, h.maxQueueSize_eq]
  cases h with
  | stay hsent hout => rwa [hout]
  | connects _ hc => rw [hc]; exact hfits
  | posts _ hc => rw [hc]; exact hfits
  | pushes _ hc => rw [hc]; exact Outbox.length_queue_push_le hmax hfits
  | runs _ _ hc =>
      rw [hc]
      dsimp only
      split
      · rw [Outbox.length_queue_start]
        exact Outbox.length_queue_push_le hmax hfits
      · exact Outbox.length_queue_push_le hmax hfits
  | writes _ _ hc =>
      rw [hc]
      dsimp only
      split
      · rw [Outbox.length_queue_start]
        exact Outbox.length_queue_finish_le.trans hfits
      · exact Outbox.length_queue_finish_le.trans hfits
  | fails _ _ hout => rw [hout]; exact Outbox.length_queue_finish_le.trans hfits
  | flushes _ hc =>
      rw [hc]
      dsimp only
      split
      · rwa [Outbox.length_queue_start]
      · exact hfits

theorem sent_append (es es' : List (Event M)) : sent (es ++ es') = sent es ++ sent es' :=
  List.filterMap_append

/-- What was written or waits is what was sent, in the order of the calls. -/
structure InOrder (maxQueueSize : ℕ) (done : List (Event M)) (c : BeastWsClient M) : Prop where
  sublist : List.Sublist c.pipeline (sent done)
  noStragglers : c.NoStragglers
  fits : c.Fits
  bound : c.maxQueueSize = maxQueueSize

theorem inOrder_run (hmax : 0 < n)
    (h : Runs.Along step ClosesIdle { maxQueueSize := n : BeastWsClient M } es) :
    InOrder n es (es.foldl step { maxQueueSize := n }) := by
  refine h.invariant_history (InOrder n) ?_ ⟨List.Sublist.refl _, fun _ => rfl, Nat.zero_le _, rfl⟩
  intro done c e hc hclose
  have hstep := queueStep c e
  refine ⟨?_, hstep.noStragglers hclose hc.noStragglers, hstep.fits (hc.bound ▸ hmax) hc.fits,
    hstep.maxQueueSize_eq.trans hc.bound⟩
  rw [sent_append]
  exact (hstep.pipeline_sublist hc.noStragglers).trans (hc.sublist.append (List.Sublist.refl _))

theorem InOrder.started_sublist {c : BeastWsClient M} (h : InOrder n es c) :
    List.Sublist c.out.started.reduceOption (sent es) :=
  ((List.sublist_append_left ..).trans (List.sublist_append_left ..)).trans h.sublist

/-- In every interleaving of calls and handlers, the messages of the writes that were started are some
    of those that were sent, in the order of the calls and none of them twice, and the queue keeps
    within its bound. -/
theorem written_in_order (hmax : 0 < n)
    (h : Runs.Along step ClosesIdle { maxQueueSize := n : BeastWsClient M } es) :
    let c := es.foldl step { maxQueueSize := n }
    List.Sublist c.out.started.reduceOption (sent es) ∧ c.out.queue.length ≤ n := by
  have hinv := inOrder_run hmax h
  exact ⟨hinv.started_sublist, hinv.fits.trans_eq hinv.bound⟩

/-! ## Losses -/

/-- Replacing a stream ends its writes before the new one is connected, and no call comes while a
    stream is being released. -/
def Orderly (c : BeastWsClient M) (e : Event M) : Prop :=
  (e = .handle .handshake → c.ws = true ∧ c.out.writes = []) ∧
    (e = .handle .closed → c.posted = [] ∧ c.connected = false)

/-- A connected client writes as long as anything is queued. -/
structure Flow (c : BeastWsClient M) : Prop where
  serial : c.out.Serial
  stream : c.connected = true → c.ws = true
  greeting : c.greeting = true → c.ws = true ∧ c.out.writes = []
  flows : c.connected = true → c.greeting = false → c.out.writes = [] → c.out.queue = []

theorem flow_start : Flow { maxQueueSize := n : BeastWsClient M } where
  serial := ⟨Nat.zero_le _, fun h => absurd rfl h, rfl⟩
  stream := nofun
  greeting := nofun
  flows := fun _ _ _ => rfl

theorem Flow.writes_eq_nil (h : Flow c) (hqueue : c.out.queue = []) : c.out.writes = [] := by
  by_contra hne
  exact h.serial.queue_ne_nil hne hqueue

/-- A posted message starts a write if there was none. -/
theorem Flow.runs {rest : List M} (h : Flow c) (hgreeting : c.greeting = false) :
    Flow { c with
      posted := rest
      out := if c.out.queue.isEmpty && c.connected && c.ws then
          (c.out.push c.maxQueueSize message).start
        else c.out.push c.maxQueueSize message } := by
  have hpush := h.serial.push c.maxQueueSize message
  split
  · rename_i hstart
    simp only [Bool.and_eq_true, List.isEmpty_iff] at hstart
    have hidle := h.writes_eq_nil hstart.1.1
    exact ⟨hpush.start (Outbox.writes_push.trans hidle), h.stream,
      fun hg => absurd hg (by simp [hgreeting]), fun _ _ => Outbox.queue_start_eq_nil⟩
  · rename_i hstart
    refine ⟨hpush, h.stream, fun hg => absurd hg (by simp [hgreeting]), ?_⟩
    -- a connected client with an empty queue would have started the write
    intro (hconnected : c.connected = true) _ hwrites
    rw [Outbox.writes_push] at hwrites
    have hempty := h.flows hconnected hgreeting hwrites
    exact absurd (by simp [hempty, hconnected, h.stream hconnected]) hstart

theorem Flow.stays (h : Flow c) (horderly : c.Orderly e) (hout : c'.out = c.out)
    (hws : c'.ws = c.ws ∨ c'.ws = true ∨ e = .handle .closed ∧ c.greeting = false)
    (hconnected : c'.connected = true → c.connected = true)
    (hgreeting : c'.greeting = c.greeting) : Flow c' := by
  have hup (hneeded : c.ws = true) (hopen : c.connected = true ∨ c.greeting = true) :
      c'.ws = true := by
    rcases hws with hsame | hup | ⟨hclosed, hidle⟩
    · rw [hsame, hneeded]
    · exact hup
    · simp [(horderly.2 hclosed).2, hidle] at hopen
  refine ⟨hout ▸ h.serial, ?_, ?_, ?_⟩
  · exact fun hc => hup (h.stream (hconnected hc)) (.inl (hconnected hc))
  · rw [hgreeting, hout]
    exact fun hg => ⟨hup (h.greeting hg).1 (.inr hg), (h.greeting hg).2⟩
  · rw [hgreeting, hout]
    exact fun hc => h.flows (hconnected hc)

theorem Flow.step (h : Flow c) (horderly : c.Orderly e) (hstep : QueueStep c c' e) : Flow c' := by
  cases hstep with
  | stay hsent hout hposted hmax hws hconnected hgreeting =>
      exact h.stays horderly hout hws hconnected hgreeting
  | connects _ hc =>
      -- an orderly client connects only when no write is under way
      obtain ⟨hws, hwrites⟩ := horderly.1 rfl
      rw [hc]
      exact ⟨h.serial, fun _ => hws, fun _ => ⟨hws, hwrites⟩, nofun⟩
  | posts hws hc =>
      rw [hc]
      exact ⟨h.serial, h.stream, h.greeting, h.flows⟩
  | pushes hws hc =>
      rw [hc]
      -- without a stream the client is not connected
      have hdown : c.connected ≠ true := fun hconnected => by simp [h.stream hconnected] at hws
      refine ⟨h.serial.push _ _, h.stream, fun hg => ?_, fun hconnected => absurd hconnected hdown⟩
      simp [(h.greeting hg).1] at hws
  | runs hgreeting hposted hc => rw [hc]; exact h.runs hgreeting
  | writes hgreeting hk hc =>
      have hidle := h.serial.writes_finish true hk
      rw [hc]
      refine ⟨?_, h.stream, fun hg => absurd hg (by simp [hgreeting]), ?_⟩
      · dsimp only
        split
        · exact h.serial.finish.start hidle
        · exact h.serial.finish
      · intro hconnected _
        dsimp only
        rw [if_pos (h.stream hconnected)]
        exact Outbox.queue_start_eq_nil
  -- a failed write leaves the client disconnected, which only the serial writes survive
  | fails hidle hk hout hposted hmax hws hconnected hgreeting =>
      exact ⟨hout ▸ h.serial.finish, by simp [hconnected], by simp [hgreeting], by simp [hconnected]⟩
  -- the greeting is done: the first write starts if something waits
  | flushes hgreeting hc =>
      obtain ⟨hws, hwrites⟩ := h.greeting hgreeting
      rw [hc]
      simp only [hws, if_true]
      exact ⟨h.serial.start hwrites, fun _ => rfl, nofun, fun _ _ => Outbox.queue_start_eq_nil⟩

/-- The messages that have left the strand's list are accounted for. -/
def Accounted (done : List (Event M)) (c : BeastWsClient M) : Prop :=
  ∃ m, m + c.posted.length = (sent done).length ∧ c.out.Accounted m

theorem Accounted.step {done : List (Event M)} (h : Accounted done c) (hserial : c.out.Serial)
    (hstep : QueueStep c c' e) : Accounted (done ++ [e]) c' := by
  obtain ⟨m, hm, hacc⟩ := h
  have hquiet (hsent : sent [e] = []) : m + c.posted.length = (sent (done ++ [e])).length := by
    rw [sent_append, hsent, List.append_nil, hm]
  cases hstep with
  | stay hsent hout hposted => exact ⟨m, hposted ▸ hquiet hsent, hout ▸ hacc⟩
  | connects _ hc => rw [hc]; exact ⟨m, hquiet rfl, hacc⟩
  | posts _ hc =>
      rw [hc]
      refine ⟨m, ?_, hacc⟩
      rw [sent_append, List.length_append, List.length_append, ← hm, ← Nat.add_assoc]
      rfl
  -- a message that is queued counts as pushed, and so does one that was posted
  | pushes _ hc =>
      rw [hc]
      refine ⟨m + 1, ?_, hacc.push hserial⟩
      rw [sent_append, List.length_append, ← hm]
      exact Nat.add_right_comm ..
  | runs _ hposted hc =>
      rw [hc]
      refine ⟨m + 1, ?_, ?_⟩
      · -- the oldest of the posted messages is pushed now
        have hcount := hquiet rfl
        rw [hposted, List.length_cons] at hcount
        exact (Nat.succ_add_eq_add_succ ..).trans hcount
      · dsimp only
        split
        · exact (hacc.push hserial).start
        · exact hacc.push hserial
  | writes _ _ hc =>
      rw [hc]
      refine ⟨m, hquiet rfl, ?_⟩
      dsimp only
      split
      · exact (hacc.finish hserial).start
      · exact hacc.finish hserial
  | fails _ _ hout hposted => exact ⟨m, hposted ▸ hquiet rfl, hout ▸ hacc.finish hserial⟩
  | flushes _ hc =>
      rw [hc]
      refine ⟨m, hquiet rfl, ?_⟩
      dsimp only
      split
      · exact hacc.start
      · exact hacc

/-- In an orderly run, a connected client that has nothing posted and no write under way has written
    everything: what was sent was delivered in its order, but for one message at most for each failed
    write and each overflow of the queue. -/
theorem delivers_all_but_failures (hmax : 0 < n)
    (h : Runs.Along step Orderly { maxQueueSize := n : BeastWsClient M } es) :
    let c := es.foldl step { maxQueueSize := n }
    c.connected = true → c.greeting = false → c.posted = [] → c.out.writes = [] →
      List.Sublist c.out.delivered.reduceOption (sent es) ∧
        (sent es).length ≤ c.out.delivered.reduceOption.length + c.out.failures + c.out.overflows := by
  intro c hconnected hgreeting hposted hwrites
  have hinv : Flow c ∧ Accounted es c := h.invariant_history (fun done c => Flow c ∧ Accounted done c)
    (fun done c e hc horderly =>
      ⟨hc.1.step horderly (queueStep c e), hc.2.step hc.1.serial (queueStep c e)⟩)
    ⟨flow_start, 0, rfl, Nat.le_refl _⟩
  obtain ⟨hflow, m, hm, hacc⟩ := hinv
  have hclose : Runs.Along step ClosesIdle { maxQueueSize := n : BeastWsClient M } es :=
    h.imp (fun _ => True) (fun _ _ _ _ => trivial) (fun _ _ _ horderly heq => (horderly.2 heq).1)
      trivial
  have hwritten := (inOrder_run hmax hclose).started_sublist
  have hdelivered := (Outbox.delivered_sublist hflow.serial).filterMap id
  have hall := hacc.delivered hflow.serial hwrites (hflow.flows hconnected hgreeting hwrites)
  rw [hposted, List.length_nil, Nat.add_zero] at hm
  exact ⟨hdelivered.trans hwritten, hm ▸ hall⟩

instance [DecidableEq M] : Decidable (c.ClosesIdle e) :=
  inferInstanceAs (Decidable (e = .handle .closed → c.posted = []))

instance [DecidableEq M] : Decidable (c.Orderly e) :=
  inferInstanceAs (Decidable ((_ → _) ∧ (_ → _)))

/-- A connection that breaks while the first of three messages is being written. -/
def brokenWrite : List (Event ℕ) :=
  [.connect, .send 1, .handle .resolved, .handle .handshake, .send 2, .greeted,
    .handle (.write 0 false), .send 3, .handle .posted, .handle .posted, .handle .reconnect,
    .handle .resolved, .handle .handshake, .greeted, .handle (.write 0 true),
    .handle (.write 0 true), .handle (.write 0 true)]

theorem written_in_order_brokenWrite :
    let c := brokenWrite.foldl step { maxQueueSize := 1000 }
    List.Sublist c.out.started.reduceOption (sent brokenWrite) ∧ c.out.queue.length ≤ 1000 :=
  written_in_order (by decide) (by decide +kernel)

theorem delivers_all_but_failures_brokenWrite :
    let c := brokenWrite.foldl step { maxQueueSize := 1000 }
    List.Sublist c.out.delivered.reduceOption (sent brokenWrite) ∧
      (sent brokenWrite).length
        ≤ c.out.delivered.reduceOption.length + c.out.failures + c.out.overflows :=
  delivers_all_but_failures (by decide) (by decide +kernel)
    (by decide +kernel) (by decide +kernel) (by decide +kernel) (by decide +kernel)

/-- The moved-out string of the failed write is written again after the reconnect. -/
example : (brokenWrite.foldl step { maxQueueSize := 1000 }).out.delivered = [none, some 2, some 3] := by
  decide +kernel

end BeastWsClient

end TradeBot
