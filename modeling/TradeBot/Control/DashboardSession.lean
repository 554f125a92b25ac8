import TradeBot.Lib.Histories
import TradeBot.Lib.Outbox
import TradeBot.Lib.Runs

set_option autoImplicit false

/-! # A session of the dashboard

`DashboardServer::Session` of `control/DashboardServer.cpp`: payloads are posted to the strand of the
session, which queues them and writes one at a time. The queue drops its front when it is full, also
while that is being written, and a write that ends takes the front with it. A session uses one of its
two queues only. An empty slot is the payload that is being written.

`async_write` does not copy what it writes: the string belongs to the queue alone, so dropping the front
slot during its write frees the buffer (`buffers_alive_iff`). What such a write puts on the wire is not
known, and the payload counts as started only (`payloads_in_order`). `written` lists the payloads whose
buffers have lived to the end of their writes. If the queue never overflows during a write, these are
all that was sent (`all_payloads_written`). -/

namespace TradeBot

open Runs Histories

/-- A session, with what it has written so far. -/
structure DashboardSession (P : Type*) where
  /-- `m_max_write_queue_size`. -/
  maxWriteQueueSize : ℕ := 8
  /-- The payloads that `send_payload` has posted, oldest first. -/
  posted : List P := []
  /-- `write_queue_` or `binary_queue_`, with its writes. -/
  out : Outbox P := {}
  writing : Bool := false
  /-- The session is in `sessions_`. -/
  listed : Bool := true
  /-- The payloads that were written to their ends. -/
  written : List P := []
  deriving DecidableEq

namespace DashboardSession

variable {P : Type*}

/-- What happens to a session. -/
inductive Event (P : Type*)
  | sendPayload (payload : P)
  /-- The function that `send_payload` has posted. -/
  | posted
  /-- The handler of `async_write`. -/
  | written (ok : Bool)
  /-- The handler of `async_read`, with an error. -/
  | readFailed
  deriving DecidableEq

/-- `send_payload`: the payload is posted to the strand. -/
def sendPayload (s : DashboardSession P) (payload : P) : DashboardSession P :=
  { s with posted := s.posted ++ [payload] }

/-- `do_write_`: the front payload is written, if there is one. -/
def doWrite (s : DashboardSession P) : DashboardSession P :=
  if s.out.queue.isEmpty then { s with writing := false }
  else { s with writing := true, out := s.out.start }

/-- The function that `send_payload` has posted: a full queue drops its oldest payload. -/
def runPosted (s : DashboardSession P) : DashboardSession P :=
  match s.posted with
  | [] => s
  | payload :: posted =>
      let s := { s with posted := posted, out := s.out.push s.maxWriteQueueSize payload }
      if s.writing then s else s.doWrite

/-- What a write that ends has written: its payload, if the queue has kept it until now. -/
def writtenNow (s : DashboardSession P) : List P :=
  match s.out.queue with
  | none :: _ => s.out.writes[0]?.join.toList
  | _ => []

/-- The handler of `async_write`: the front goes and the next write starts, or all of them go. -/
def onWrite (s : DashboardSession P) (ok : Bool) : DashboardSession P :=
  if s.out.writes = [] then s
  else if ok then
    { s with out := s.out.finish 0 true, written := s.written ++ s.writtenNow }.doWrite
  else
    { s with out := { s.out.finish 0 false with queue := [] }, writing := false, listed := false }

/-- The session after an event. -/
def step (s : DashboardSession P) : Event P → DashboardSession P
  | .sendPayload payload => s.sendPayload payload
  | .posted => s.runPosted
  | .written ok => s.onWrite ok
  | .readFailed => { s with listed := false }

/-- The payloads of a run. -/
def sent (es : List (Event P)) : List P :=
  es.filterMap fun
    | .sendPayload payload => some payload
    | _ => none

variable {s : DashboardSession P} {e : Event P} {n : ℕ} {es done : List (Event P)}

theorem sent_concat (es : List (Event P)) (e : Event P) : sent (es ++ [e]) = sent es ++ sent [e] :=
  List.filterMap_append ..

/-! ## One write at a time -/

/-- `writing_` says whether a write is under way, and there is one while anything is queued. -/
structure Flow (s : DashboardSession P) : Prop where
  serial : s.out.Serial
  writing : s.writing = true ↔ s.out.writes ≠ []
  flows : s.out.writes = [] → s.out.queue = []

theorem flow_start : Flow { maxWriteQueueSize := n : DashboardSession P } where
  serial := ⟨Nat.zero_le _, fun h => absurd rfl h, rfl⟩
  writing := by simp
  flows := fun _ => rfl

/-- `do_write_`, called while nothing is written. -/
theorem Flow.doWrite (hserial : s.out.Serial) (hidle : s.out.writes = []) : s.doWrite.Flow := by
  unfold DashboardSession.doWrite
  split
  · rename_i hempty
    exact ⟨hserial, by simp [hidle], fun _ => List.isEmpty_iff.1 hempty⟩
  · rename_i hne
    have hwrites : s.out.start.writes ≠ [] := fun hnil =>
      hne (by
        have hqueue := Outbox.queue_start_eq_nil hnil
        rw [← List.length_eq_zero_iff, Outbox.length_queue_start] at hqueue
        simpa using hqueue)
    exact ⟨hserial.start hidle, by simp [hwrites], fun hnil => absurd hnil hwrites⟩

theorem Flow.runPosted (h : s.Flow) : s.runPosted.Flow := by
  unfold DashboardSession.runPosted
  split
  · exact h
  · rename_i payload posted _
    have hserial := h.serial.push s.maxWriteQueueSize payload
    dsimp only
    split
    · rename_i hwriting
      have hwrites : (s.out.push s.maxWriteQueueSize payload).writes ≠ [] := by
        rw [Outbox.writes_push]
        exact h.writing.1 hwriting
      exact ⟨hserial, by simp [hwriting, hwrites], fun hnil => absurd hnil hwrites⟩
    · rename_i hwriting
      refine Flow.doWrite hserial (Outbox.writes_push.trans ?_)
      by_contra hne
      exact hwriting (h.writing.2 hne)

theorem Flow.onWrite (h : s.Flow) (ok : Bool) : (s.onWrite ok).Flow := by
  unfold DashboardSession.onWrite
  split
  · exact h
  · rename_i hwrites
    have hk : 0 < s.out.writes.length := List.length_pos_iff.2 hwrites
    have hidle := h.serial.writes_finish ok hk
    cases ok with
    | true => exact Flow.doWrite h.serial.finish hidle
    | false =>
        have hserial : (s.out.finish 0 false).Serial := h.serial.finish
        exact ⟨⟨hserial.writes_le, fun hne => absurd hidle hne, hserial.started_eq⟩,
          by simp [hidle], fun _ => rfl⟩

theorem Flow.step (h : s.Flow) (e : Event P) : (s.step e).Flow := by
  cases e with
  | sendPayload payload => exact ⟨h.serial, h.writing, h.flows⟩
  | posted => exact h.runPosted
  | written ok => exact h.onWrite ok
  | readFailed => exact ⟨h.serial, h.writing, h.flows⟩

/-! ## What a step does to the queue -/

/-- A step as the queue sees it. -/
inductive QueueStep (s s' : DashboardSession P) : Event P → Prop
  | stay {e : Event P} (hsent : sent [e] = []) (hidle : e = .posted → s.posted = [])
      (hout : s'.out = s.out) (hposted : s'.posted = s.posted) (hwritten : s'.written = s.written) :
      QueueStep s s' e
  | posts {payload : P} (hout : s'.out = s.out) (hposted : s'.posted = s.posted ++ [payload])
      (hwritten : s'.written = s.written) : QueueStep s s' (.sendPayload payload)
  /-- A payload is queued behind a write. -/
  | queues {payload : P} (hwrites : s.out.writes ≠ []) (hposted : s.posted = payload :: s'.posted)
      (hout : s'.out = s.out.push s.maxWriteQueueSize payload) (hwritten : s'.written = s.written) :
      QueueStep s s' .posted
  /-- A payload is queued and written. -/
  | writes {payload : P} (hwrites : s.out.writes = []) (hposted : s.posted = payload :: s'.posted)
      (hout : s'.out = (s.out.push s.maxWriteQueueSize payload).start)
      (hwritten : s'.written = s.written) : QueueStep s s' .posted
  /-- A write succeeds, and the next one starts if anything is queued. -/
  | succeeds (hwrites : s.out.writes ≠ []) (hposted : s'.posted = s.posted)
      (hout : s'.out = (s.out.finish 0 true).start)
      (hwritten : s'.written = s.written ++ s.writtenNow) : QueueStep s s' (.written true)
  | fails (hwrites : s.out.writes ≠ []) (hposted : s'.posted = s.posted)
      (hout : s'.out = { s.out.finish 0 false with queue := [] }) (hwritten : s'.written = s.written) :
      QueueStep s s' (.written false)

theorem out_doWrite : s.doWrite.out = s.out.start := by
  unfold doWrite
  split
  · rename_i hempty
    rw [Outbox.start, List.isEmpty_iff.1 hempty]
  · rfl

theorem posted_doWrite : s.doWrite.posted = s.posted := by
  unfold doWrite
  split <;> rfl

theorem written_doWrite : s.doWrite.written = s.written := by
  unfold doWrite
  split <;> rfl

theorem maxWriteQueueSize_doWrite : s.doWrite.maxWriteQueueSize = s.maxWriteQueueSize := by
  unfold doWrite
  split <;> rfl

theorem Flow.queueStep (h : s.Flow) (e : Event P) : QueueStep s (s.step e) e := by
  cases e with
  | sendPayload payload => exact .posts rfl rfl rfl
  | readFailed => exact .stay rfl nofun rfl rfl rfl
  | posted =>
      change QueueStep s s.runPosted .posted
      unfold DashboardSession.runPosted
      split
      · rename_i hposted
        exact .stay rfl (fun _ => hposted) rfl rfl rfl
      · rename_i payload rest hposted
        dsimp only
        split
        · rename_i hwriting
          exact .queues (h.writing.1 hwriting) hposted rfl rfl
        · rename_i hwriting
          refine .writes ?_ (by rw [posted_doWrite, hposted]) out_doWrite written_doWrite
          by_contra hne
          exact hwriting (h.writing.2 hne)
  | written ok =>
      change QueueStep s (s.onWrite ok) (.written ok)
      unfold DashboardSession.onWrite
      split
      · exact .stay rfl nofun rfl rfl rfl
      · rename_i hwrites
        cases ok with
        | true => exact .succeeds hwrites posted_doWrite out_doWrite written_doWrite
        | false => exact .fails hwrites rfl rfl rfl

theorem maxWriteQueueSize_step (s : DashboardSession P) (e : Event P) :
    (s.step e).maxWriteQueueSize = s.maxWriteQueueSize := by
  cases e with
  | sendPayload payload => rfl
  | readFailed => rfl
  | posted =>
      change s.runPosted.maxWriteQueueSize = _
      unfold runPosted
      split
      · rfl
      · dsimp only
        split
        · rfl
        · exact maxWriteQueueSize_doWrite
  | written ok =>
      change (s.onWrite ok).maxWriteQueueSize = _
      unfold onWrite
      split
      · rfl
      · cases ok with
        | true => exact maxWriteQueueSize_doWrite
        | false => rfl

/-! ## Order -/

section

variable {s' : DashboardSession P}

/-- What was written, is queued or is posted, oldest first. -/
def pipeline (s : DashboardSession P) : List P := s.out.content ++ s.posted

theorem QueueStep.pipeline_sublist (h : QueueStep s s' e) :
    List.Sublist s'.pipeline (s.pipeline ++ sent [e]) := by
  have hpush {payload : P} :
      List.Sublist ((s.out.push s.maxWriteQueueSize payload).content ++ s'.posted)
        (s.out.content ++ payload :: s'.posted) := by
    rw [List.append_cons]
    exact Outbox.content_push_sublist.append (List.Sublist.refl _)
  unfold pipeline
  cases h with
  | stay hsent _ hout hposted _ => rw [hsent, hout, hposted, List.append_nil]
  | posts hout hposted _ =>
      rw [hout, hposted, List.append_assoc]
      rfl
  | queues _ hposted hout _ =>
      rw [hout, hposted]
      exact hpush.trans (List.sublist_append_left ..)
  | writes _ hposted hout _ =>
      rw [hout, hposted, Outbox.content_start]
      exact hpush.trans (List.sublist_append_left ..)
  | succeeds _ hposted hout _ =>
      rw [hout, hposted, Outbox.content_start]
      exact (Outbox.content_finish_sublist.append (List.Sublist.refl _)).trans
        (List.sublist_append_left ..)
  | fails _ hposted hout _ =>
      rw [hout, hposted]
      refine List.Sublist.trans (List.Sublist.append ?_ (List.Sublist.refl _))
        (List.sublist_append_left ..)
      refine List.Sublist.trans ?_ (@Outbox.content_finish_sublist P s.out 0 false)
      exact List.Sublist.append (List.Sublist.refl _) (List.nil_sublist _)

/-- The queue is within its bound. -/
def Fits (s : DashboardSession P) : Prop := s.out.queue.length ≤ s.maxWriteQueueSize

theorem QueueStep.length_le (h : QueueStep s s' e) (hmax : 0 < s.maxWriteQueueSize)
    (hfits : s.Fits) : s'.out.queue.length ≤ s.maxWriteQueueSize := by
  unfold Fits at hfits
  cases h with
  | stay _ _ hout _ _ => rwa [hout]
  | posts hout _ _ => rwa [hout]
  | queues _ _ hout _ =>
      rw [hout]
      exact Outbox.length_queue_push_le hmax hfits
  | writes _ _ hout _ =>
      rw [hout, Outbox.length_queue_start]
      exact Outbox.length_queue_push_le hmax hfits
  | succeeds _ _ hout _ =>
      rw [hout, Outbox.length_queue_start]
      exact Outbox.length_queue_finish_le.trans hfits
  | fails _ _ hout _ =>
      rw [hout]
      exact Nat.zero_le _

/-- The payloads whose writes have ended. -/
def ended (s : DashboardSession P) : List P := (s.out.finished.map Prod.fst).reduceOption

theorem ended_finish {o : Outbox P} {ok : Bool} :
    ((o.finish 0 ok).finished.map Prod.fst).reduceOption
      = (o.finished.map Prod.fst).reduceOption ++ o.writes[0]?.join.toList := by
  unfold Outbox.finish
  rcases o.writes[0]? with _ | slot
  · exact (List.append_nil _).symm
  · rw [List.map_append, List.reduceOption_append]
    cases slot <;> rfl

theorem finished_push {o : Outbox P} {maxSize : ℕ} {payload : P} :
    (o.push maxSize payload).finished = o.finished := by
  unfold Outbox.push
  split <;> rfl

theorem finished_start {o : Outbox P} : o.start.finished = o.finished := by
  unfold Outbox.start
  split <;> rfl

theorem writtenNow_sublist : List.Sublist s.writtenNow s.out.writes[0]?.join.toList := by
  unfold writtenNow
  split
  · exact List.Sublist.refl _
  · exact List.nil_sublist _

theorem QueueStep.written_sublist (h : QueueStep s s' e) (hsub : List.Sublist s.written s.ended) :
    List.Sublist s'.written s'.ended := by
  unfold ended at hsub ⊢
  cases h with
  | stay _ _ hout _ hwritten => rwa [hout, hwritten]
  | posts hout _ hwritten => rwa [hout, hwritten]
  | queues _ _ hout hwritten => rwa [hout, hwritten, finished_push]
  | writes _ _ hout hwritten => rwa [hout, hwritten, finished_start, finished_push]
  | succeeds _ _ hout hwritten =>
      rw [hout, hwritten, finished_start, ended_finish]
      exact hsub.append writtenNow_sublist
  | fails _ _ hout hwritten =>
      rw [hout, hwritten]
      dsimp only
      rw [ended_finish]
      exact hsub.trans (List.sublist_append_left ..)

end

/-- What a session keeps in every run. -/
structure InOrder (n : ℕ) (done : List (Event P)) (s : DashboardSession P) : Prop where
  flow : s.Flow
  bound : s.maxWriteQueueSize = n
  fits : s.Fits
  sublist : List.Sublist s.pipeline (sent done)
  whole : List.Sublist s.written s.ended

theorem InOrder.step (h : InOrder n done s) (hmax : 0 < n) (e : Event P) :
    InOrder n (done ++ [e]) (s.step e) := by
  have hstep := h.flow.queueStep e
  refine ⟨h.flow.step e, (maxWriteQueueSize_step s e).trans h.bound, ?_, ?_,
    hstep.written_sublist h.whole⟩
  · rw [Fits, maxWriteQueueSize_step]
    exact hstep.length_le (h.bound ▸ hmax) h.fits
  · rw [sent_concat]
    exact hstep.pipeline_sublist.trans (h.sublist.append (List.Sublist.refl _))

theorem inOrder_start : InOrder n [] { maxWriteQueueSize := n : DashboardSession P } :=
  ⟨flow_start, rfl, Nat.zero_le _, List.nil_sublist _, List.nil_sublist _⟩

/-- In every interleaving, whatever fails, the writes are started one at a time, for payloads that were
    sent and in their order; the payloads that are written to their ends are some of these; and the
    queue stays within its bound. -/
theorem payloads_in_order (hmax : 0 < n) (es : List (Event P)) :
    let s := es.foldl step { maxWriteQueueSize := n }
    List.Sublist s.out.started.reduceOption (sent es) ∧
      List.Sublist s.written s.out.started.reduceOption ∧ s.out.queue.length ≤ n ∧
        s.out.writes.length ≤ 1 := by
  intro s
  have hinv : InOrder n es s :=
    (along_of_mem (C := fun _ _ => True) fun _ _ _ => trivial).invariant_history (InOrder n)
      (fun _ _ e h _ => h.step hmax e) inOrder_start
  refine ⟨?_, hinv.whole.trans ?_, hinv.fits.trans_eq hinv.bound, hinv.flow.serial.writes_le⟩
  · exact ((List.sublist_append_left ..).trans (List.sublist_append_left ..)).trans hinv.sublist
  · rw [hinv.flow.serial.started_eq, List.reduceOption_append]
    exact List.sublist_append_left ..

/-- Three payloads for a queue of two: the third one drops the first while that is being written, and
    the write that ends takes the second one with it. -/
def overflown : List (Event ℕ) :=
  [.sendPayload 1, .posted, .sendPayload 2, .posted, .sendPayload 3, .posted, .written true,
    .written true]

theorem payloads_in_order_overflown :
    let s := overflown.foldl step { maxWriteQueueSize := 2 }
    List.Sublist s.out.started.reduceOption (sent overflown) ∧
      List.Sublist s.written s.out.started.reduceOption ∧ s.out.queue.length ≤ 2 ∧
        s.out.writes.length ≤ 1 :=
  payloads_in_order Nat.two_pos overflown

example : (overflown.foldl step { maxWriteQueueSize := 2 }).out.started = [some 1, some 3] ∧
    (overflown.foldl step { maxWriteQueueSize := 2 }).written = [3] := by
  decide +kernel

/-! ## The buffer that is being written -/

/-- The buffer of the write under way is kept alive by the front slot. -/
def Alive (s : DashboardSession P) : Prop := s.writing = true → s.out.queue.head? = some none

/-- No payload is queued on a full queue while another one is being written. -/
def Roomy (s : DashboardSession P) (e : Event P) : Prop :=
  e = .posted → s.posted ≠ [] → s.writing = true → s.out.queue.length < s.maxWriteQueueSize

instance [DecidableEq P] (s : DashboardSession P) (e : Event P) : Decidable (s.Roomy e) :=
  inferInstanceAs (Decidable (_ → _ → _ → _))

theorem roomy_of_ne {s : DashboardSession P} {e : Event P} (h : e ≠ .posted) : s.Roomy e :=
  fun heq => absurd heq h

theorem head?_start {o : Outbox P} (hne : o.queue ≠ []) : o.start.queue.head? = some none := by
  unfold Outbox.start
  cases hq : o.queue with
  | nil => exact absurd hq hne
  | cons slot rest => rfl

theorem alive_of_start (hflow : s.Flow) {o : Outbox P} (hout : s.out = o.start)
    (hidle : o.writes = []) : s.Alive := by
  intro hwriting
  have hwrites := hflow.writing.1 hwriting
  rw [hout] at hwrites ⊢
  refine head?_start fun hnil => hwrites ?_
  rw [Outbox.start, hnil]
  exact hidle

section

variable {s' : DashboardSession P}

theorem QueueStep.packed (h : QueueStep s s' e) (hpacked : s.out.Packed) : s'.out.Packed := by
  cases h with
  | stay _ _ hout _ _ => exact hout ▸ hpacked
  | posts hout _ _ => exact hout ▸ hpacked
  | queues _ _ hout _ => exact hout ▸ hpacked.push
  | writes _ _ hout _ => exact hout ▸ hpacked.push.start
  | succeeds _ _ hout _ => exact hout ▸ hpacked.finish.start
  | fails _ _ hout _ =>
      rw [hout]
      exact fun _ hslot => absurd hslot List.not_mem_nil

end

/-- A step keeps the buffer alive if and only if it does not drop the front slot during its write. -/
theorem alive_iff_roomy (hflow : s.Flow) (hpacked : s.out.Packed) (halive : s.Alive) (e : Event P) :
    (s.step e).Alive ↔ s.Roomy e := by
  have hflow' := hflow.step e
  have hstep := hflow.queueStep e
  have hsame (hout : (s.step e).out = s.out) : (s.step e).Alive := by
    intro hwriting
    rw [hout]
    exact halive (hflow.writing.2 (hout ▸ hflow'.writing.1 hwriting))
  cases hstep with
  | stay _ hidle hout _ _ => exact iff_of_true (hsame hout) fun heq hne => absurd (hidle heq) hne
  | posts hout _ _ => exact iff_of_true (hsame hout) (roomy_of_ne (by simp))
  | @queues payload hwrites hposted hout _ =>
      have hwriting := hflow.writing.2 hwrites
      have hwriting' : (s.step .posted).writing = true :=
        hflow'.writing.2 (by rw [hout, Outbox.writes_push]; exact hwrites)
      obtain ⟨rest, hqueue⟩ : ∃ rest, s.out.queue = none :: rest :=
        List.head?_eq_some_iff.1 (halive hwriting)
      have hroomy : s.Roomy .posted ↔ s.out.queue.length < s.maxWriteQueueSize :=
        ⟨fun h => h rfl (by simp [hposted]) hwriting, fun h _ _ _ => h⟩
      have halive' : (s.step .posted).Alive ↔ (s.step .posted).out.queue.head? = some none :=
        ⟨fun h => h hwriting', fun h _ => h⟩
      rw [halive', hroomy, hout, Outbox.push]
      split_ifs with hfull
      · -- the front slot is dropped, and the next one holds a payload
        refine iff_of_false (fun hhead => ?_) (Nat.not_lt.2 hfull)
        cases rest with
        | nil => simp [hqueue] at hhead
        | cons slot rest =>
            have hslot := hpacked slot (by simp [hqueue])
            simp [hqueue] at hhead
            simp [hhead] at hslot
      · exact iff_of_true (by simp [hqueue]) (Nat.not_le.1 hfull)
  | writes hwrites _ hout _ =>
      refine iff_of_true (alive_of_start hflow' hout (Outbox.writes_push.trans hwrites)) ?_
      exact fun _ _ hwriting => absurd hwrites (hflow.writing.1 hwriting)
  | succeeds hwrites _ hout _ =>
      exact iff_of_true (alive_of_start hflow' hout
        (hflow.serial.writes_finish true (List.length_pos_iff.2 hwrites))) (roomy_of_ne (by simp))
  | fails hwrites _ hout _ =>
      have hidle := hflow.serial.writes_finish false (List.length_pos_iff.2 hwrites)
      refine iff_of_true (fun hwriting => absurd ?_ (hflow'.writing.1 hwriting))
        (roomy_of_ne (by simp))
      rw [hout]
      exact hidle

/-- What a session and its queue keep in every run. -/
structure Kept (n : ℕ) (s : DashboardSession P) : Prop where
  flow : s.Flow
  packed : s.out.Packed
  bound : s.maxWriteQueueSize = n

theorem kept_start : Kept n { maxWriteQueueSize := n : DashboardSession P } :=
  ⟨flow_start, fun _ hslot => absurd hslot List.not_mem_nil, rfl⟩

theorem Kept.step (h : Kept n s) (e : Event P) : Kept n (s.step e) :=
  ⟨h.flow.step e, (h.flow.queueStep e).packed h.packed, (maxWriteQueueSize_step s e).trans h.bound⟩

/-- In a run, the buffer of the write under way is alive at every moment if and only if no payload is
    ever queued on a full queue while another one is being written. -/
theorem buffers_alive_iff (es : List (Event P)) :
    Throughout (fun done => (done.foldl step { maxWriteQueueSize := n }).Alive) es ↔
      Along step Roomy { maxWriteQueueSize := n } es := by
  let Inv (s : DashboardSession P) : Prop := Kept n s ∧ s.Alive
  rw [← throughout_iff_along Inv (fun s e h => ?_) ⟨kept_start, nofun⟩]
  · exact forall₂_congr fun done _ => (and_iff_right
      (Runs.invariant _ (fun _ e h => h.step e) done kept_start)).symm
  · rw [← alive_iff_roomy h.1.flow h.1.packed h.2 e]
    exact and_iff_right (h.1.step e)

/-- The third payload is queued on a full queue, and drops the first one in its write. -/
example : ¬ Along step Roomy { maxWriteQueueSize := 2 } overflown := by decide +kernel

/-! ## Everything is written -/

/-- A write whose buffer is alive has no debt, and writes its payload to the end. -/
theorem Alive.writing (halive : s.Alive) (hflow : s.Flow) (hwrites : s.out.writes ≠ []) :
    s.out.debt = 0 ∧ s.writtenNow = s.out.writes[0]?.join.toList := by
  obtain ⟨rest, hqueue⟩ := List.head?_eq_some_iff.1 (halive (hflow.writing.2 hwrites))
  refine ⟨?_, ?_⟩
  · obtain ⟨w, ws, hw⟩ := List.exists_cons_of_ne_nil hwrites
    rw [Outbox.debt, hw, hqueue]
  · rw [writtenNow, hqueue]

/-- Without failed writes and with room in the queue, nothing is lost on its way. -/
theorem QueueStep.everything {s' : DashboardSession P} (h : QueueStep s s' e) (hkept : Kept n s)
    (hmax : 0 < n) (halive : s.Alive) (hroomy : s.Roomy e) (hsucceeds : e ≠ .written false) :
    s'.written ++ s'.out.coming ++ s'.posted
      = s.written ++ s.out.coming ++ s.posted ++ sent [e] := by
  have hpush {payload : P} (hlt : s.out.queue.length < s.maxWriteQueueSize) :
      (s.out.push s.maxWriteQueueSize payload).coming = s.out.coming ++ [payload] := by
    rw [Outbox.coming, Outbox.writes_push, Outbox.waiting_push_of_lt hlt, ← List.append_assoc]
    rfl
  cases h with
  | stay hsent _ hout hposted hwritten => rw [hout, hposted, hwritten, hsent, List.append_nil]
  | posts hout hposted hwritten =>
      rw [hout, hposted, hwritten, ← List.append_assoc]
      rfl
  | queues hwrites hposted hout hwritten =>
      have hlt := hroomy rfl (by simp [hposted]) (hkept.flow.writing.2 hwrites)
      rw [hout, hposted, hwritten, hpush hlt]
      simp [sent]
  | writes hwrites hposted hout hwritten =>
      have hlt : s.out.queue.length < s.maxWriteQueueSize := by
        rw [hkept.flow.flows hwrites, hkept.bound, List.length_nil]
        exact hmax
      rw [hout, hposted, hwritten, Outbox.coming_start, hpush hlt]
      simp [sent]
  | succeeds hwrites hposted hout hwritten =>
      -- the payload goes from those to come to those that are written
      obtain ⟨hdebt, hnow⟩ := halive.writing hkept.flow hwrites
      have hfinish := Outbox.coming_finish hkept.flow.serial hdebt (List.length_pos_iff.2 hwrites)
      rw [hout, hposted, hwritten, Outbox.coming_start, hnow, List.append_assoc s.written, hfinish]
      exact (List.append_nil _).symm
  | fails _ _ _ _ => exact absurd rfl hsucceeds

/-- A session whose writes all succeed and whose queue never overflows during a write has, once it
    rests, written all that was sent, in its order. -/
theorem all_payloads_written (hmax : 0 < n) (hsucceeds : ∀ e ∈ es, e ≠ .written false)
    (hroomy : Along step Roomy { maxWriteQueueSize := n } es)
    (hposted : (es.foldl step { maxWriteQueueSize := n }).posted = [])
    (hrests : (es.foldl step { maxWriteQueueSize := n }).writing = false) :
    (es.foldl step { maxWriteQueueSize := n }).written = sent es := by
  have hruns := hroomy.and (along_of_mem (C := fun _ e => e ≠ .written false) fun e he _ => hsucceeds e he)
  obtain ⟨hkept, -, hall⟩ := hruns.invariant_history
    (fun done s => Kept n s ∧ s.Alive ∧ s.written ++ s.out.coming ++ s.posted = sent done)
    (fun done s e h hstep => by
      obtain ⟨hkept, halive, hall⟩ := h
      have halive' := (alive_iff_roomy hkept.flow hkept.packed halive e).2 hstep.1
      refine ⟨hkept.step e, halive', ?_⟩
      rw [(hkept.flow.queueStep e).everything hkept hmax halive hstep.1 hstep.2, hall, sent_concat])
    ⟨kept_start, nofun, rfl⟩
  have hwrites : (es.foldl step { maxWriteQueueSize := n }).out.writes = [] := by
    by_contra hne
    exact absurd (hkept.flow.writing.2 hne) (by simp [hrests])
  rw [hposted, Outbox.coming, Outbox.waiting, hwrites, hkept.flow.flows hwrites] at hall
  simpa using hall

/-- Three payloads for a queue of two, the third of which waits for the end of the first write. -/
def paced : List (Event ℕ) :=
  [.sendPayload 1, .posted, .sendPayload 2, .posted, .sendPayload 3, .written true, .posted,
    .written true, .written true]

theorem all_payloads_written_paced :
    (paced.foldl step { maxWriteQueueSize := 2 }).written = sent paced :=
  all_payloads_written Nat.two_pos (by decide) (by decide +kernel) (by decide +kernel) (by decide +kernel)

end DashboardSession

end TradeBot
