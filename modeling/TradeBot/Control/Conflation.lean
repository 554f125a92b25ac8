import TradeBot.Lib.Cusum
import TradeBot.Lib.LastWrite
import TradeBot.Lib.Runs

set_option autoImplicit false

/-! # Conflation of the dashboard's states

`DashboardServer` of `control/DashboardServer.cpp`: states are posted to a strand that keeps the newest
one, and a timer hands it over for broadcasting. The timer stops when nobody is connected, and the
first session starts it again. A detected iceberg asks for a broadcast too, also when no state was
posted since the last one: then what was left of that one is handed over.

The server keeps a log of what was stored and handed over, and every field is a function of the log
(`Tracks`). So what a tick hands over is read from the entries since the tick before
(`tick_hands_over`).

That a tick comes at all is the other half. `Ticking` says where it is on its way: the timer waits, a
handler is to run, or a restart is queued or about to be. No step leaves that while somebody is
connected (`ticking_step`), and running what is queued makes the tick happen (`shows_last_posted`).
-/

namespace TradeBot

open Episodes

/-- `DashboardServer::State`, by what happens to its parts. -/
structure DashboardState (F L H I : Type*) where
  isFullUpdate : Bool := true
  /-- The numbers and flags that every update carries. -/
  figures : F
  /-- The lists that every update carries: trades, order book. -/
  lists : List L := []
  /-- The lists that only a full update carries: charts, journal, strategies. -/
  history : List H := []
  icebergEvents : List I := []

namespace DashboardState

variable {F L H I : Type*}

/-- What a move leaves behind. -/
def movedFrom (s : DashboardState F L H I) : DashboardState F L H I :=
  { s with lists := [], history := [], icebergEvents := [] }

/-- `update_state` on `current_state_`. -/
def merge (current state : DashboardState F L H I) : DashboardState F L H I :=
  if state.isFullUpdate then state
  else { current with isFullUpdate := false, figures := state.figures, lists := state.lists }

end DashboardState

/-- A function on the strand. -/
inductive DashboardTask (S : Type*)
  /-- That of `update_state_async`. -/
  | store (state : S)
  /-- That of `start_ws_session`. -/
  | schedule

/-- What decides what the next tick hands over. -/
inductive DashboardEntry (S : Type*)
  | stored (state : S)
  | iceberg
  | ticked

/-- The dashboard server as far as its states are concerned. -/
structure Conflation (F L H I : Type*) where
  /-- The number of `sessions_`. -/
  sessions : ℕ := 0
  /-- First sessions that have not restarted the timer yet. -/
  starting : ℕ := 0
  strand : List (DashboardTask (DashboardState F L H I)) := []
  /-- `conflation_timer_` waits. -/
  armed : Bool := false
  /-- Handlers of the timer that are to run. -/
  due : ℕ := 0
  pending : DashboardState F L H I
  pendingDirty : Bool := false
  current : DashboardState F L H I
  stateGen : ℕ := 0
  /-- The states that `update_state` was called with. -/
  updates : List (DashboardState F L H I) := []
  log : List (DashboardEntry (DashboardState F L H I)) := []

namespace Conflation

variable {F L H I : Type*}

/-- What sessions, callers and the event loop do. -/
inductive Event (F L H I : Type*)
  | start
  | updateStateAsync (state : DashboardState F L H I)
  | pushIcebergEvent (event : I)
  /-- The oldest function on the strand runs. -/
  | runTask
  | expired
  /-- A handler of the timer runs. -/
  | tick
  /-- `start_ws_session` inserts the session. -/
  | joined
  /-- `start_ws_session` posts to the strand. -/
  | posted
  | left

/-- How many icebergs the dashboard shows. -/
def kMaxIcebergEvents : ℕ := 10

/-- `schedule_conflation_`; a wait that is under way is cancelled. -/
def scheduleConflation (s : Conflation F L H I) : Conflation F L H I := { s with armed := true }

/-- `push_iceberg_event`. -/
def pushIcebergEvent (s : Conflation F L H I) (event : I) : Conflation F L H I :=
  { s with
    current := { s.current with
      icebergEvents := (s.current.icebergEvents ++ [event]).rtake kMaxIcebergEvents }
    pendingDirty := true
    log := s.log ++ [.iceberg] }

/-- The oldest function on the strand. -/
def runTask (s : Conflation F L H I) : Conflation F L H I :=
  match s.strand with
  | [] => s
  | .store state :: strand =>
      { s with
        strand := strand
        pending := state
        pendingDirty := true
        log := s.log ++ [.stored state] }
  | .schedule :: strand => { s with strand := strand }.scheduleConflation

/-- The locked part of the handler of the timer, and its call of `update_state`. -/
def handOver (s : Conflation F L H I) : Conflation F L H I :=
  if s.pendingDirty then
    { s with
      pending := s.pending.movedFrom
      pendingDirty := false
      stateGen := s.stateGen + 1
      current := s.current.merge s.pending
      updates := s.updates ++ [s.pending]
      log := s.log ++ [.ticked] }
  else { s with log := s.log ++ [.ticked] }

/-- A handler of the timer. -/
def tick (s : Conflation F L H I) : Conflation F L H I :=
  if s.due = 0 then s
  else
    let s := { s with due := s.due - 1 }.handOver
    if 0 < s.sessions then s.scheduleConflation else s

/-- The server after an event. -/
def step (s : Conflation F L H I) : Event F L H I → Conflation F L H I
  | .start => s.scheduleConflation
  | .updateStateAsync state => { s with strand := s.strand ++ [.store state] }
  | .pushIcebergEvent event => s.pushIcebergEvent event
  | .runTask => s.runTask
  | .expired => if s.armed then { s with armed := false, due := s.due + 1 } else s
  | .tick => s.tick
  | .joined =>
      { s with
        sessions := s.sessions + 1
        starting := if s.sessions = 0 then s.starting + 1 else s.starting }
  | .posted =>
      if s.starting = 0 then s
      else { s with starting := s.starting - 1, strand := s.strand ++ [.schedule] }
  | .left => { s with sessions := s.sessions - 1 }

/-! ## The timer -/

/-- The next tick is on its way. -/
def Ticking (s : Conflation F L H I) : Prop :=
  s.armed = true ∨ 0 < s.due ∨ .schedule ∈ s.strand ∨ 0 < s.starting

variable {s : Conflation F L H I}

/-- No step lets the timer stop while somebody is connected. -/
theorem ticking_step (h : 0 < s.sessions → s.Ticking) (e : Event F L H I)
    (hsessions : 0 < (s.step e).sessions) : (s.step e).Ticking := by
  -- a task more does not stop the timer
  have hmore {task : DashboardTask (DashboardState F L H I)} (hticking : s.Ticking) :
      Ticking { s with strand := s.strand ++ [task] } := by
    rcases hticking with harmed | hdue | hstrand | hstarting
    · exact .inl harmed
    · exact .inr (.inl hdue)
    · exact .inr (.inr (.inl (List.mem_append_left _ hstrand)))
    · exact .inr (.inr (.inr hstarting))
  cases e with
  | start => exact .inl rfl
  | updateStateAsync state => exact hmore (h hsessions)
  | pushIcebergEvent event => exact h hsessions
  | runTask =>
      simp only [step, runTask] at hsessions ⊢
      cases hstrand : s.strand with
      | nil =>
          rw [hstrand] at hsessions
          exact h hsessions
      | cons task strand =>
          rw [hstrand] at hsessions
          cases task with
          | schedule => exact .inl rfl
          | store state =>
              -- a stored state is not what keeps the timer going
              rcases h hsessions with harmed | hdue | hmem | hstarting
              · exact .inl harmed
              · exact .inr (.inl hdue)
              · rw [hstrand] at hmem
                exact .inr (.inr (.inl ((List.mem_cons.1 hmem).resolve_left (by simp))))
              · exact .inr (.inr (.inr hstarting))
  | expired =>
      simp only [step] at hsessions ⊢
      split_ifs at hsessions ⊢
      · exact .inr (.inl (Nat.succ_pos _))
      · exact h hsessions
  | tick =>
      simp only [step, tick] at hsessions ⊢
      split_ifs at hsessions ⊢ with hdue hconnected
      · exact h hsessions
      · exact .inl rfl
      · exact absurd hsessions hconnected
  | joined =>
      simp only [step]
      -- the first session has the timer started
      split_ifs with hfirst
      · exact .inr (.inr (.inr (Nat.succ_pos _)))
      · exact h (Nat.pos_of_ne_zero hfirst)
  | posted =>
      simp only [step] at hsessions ⊢
      split_ifs at hsessions ⊢
      · exact h hsessions
      · exact .inr (.inr (.inl (List.mem_append_right _ (List.mem_singleton_self _))))
  | left => exact h (Nat.lt_of_lt_of_le hsessions (Nat.sub_le _ _))

/-- Before `start`. -/
def initial (figures : F) : Conflation F L H I :=
  { pending := { figures := figures }, current := { figures := figures } }

/-- **As long as somebody is connected, the next tick is on its way**, in every interleaving of
    sessions that come and go with the handlers of timer and strand. -/
theorem ticks_while_connected (figures : F) (es : List (Event F L H I)) :
    let s := es.foldl step (initial figures)
    0 < s.sessions → s.Ticking :=
  Runs.invariant (fun s : Conflation F L H I => 0 < s.sessions → s.Ticking)
    (fun _ e h => ticking_step h e) es fun h => absurd h (Nat.lt_irrefl 0)

/-- Everybody left, the timer stopped, and somebody came back. -/
def backAgain : List (Event ℕ ℕ ℕ ℕ) :=
  [.start, .joined, .left, .expired, .tick, .joined, .updateStateAsync { figures := 7 }]

theorem ticks_while_connected_backAgain : (backAgain.foldl step (initial 0)).Ticking :=
  ticks_while_connected 0 backAgain (by decide)

/-! ## What is handed over -/

/-- The entry ends an episode. -/
def isTick {S : Type*} : DashboardEntry S → Bool
  | .ticked => true
  | _ => false

/-- The state of an entry. -/
def stored? {S : Type*} : DashboardEntry S → Option S
  | .stored state => some state
  | _ => none

/-- The newest update so far. -/
def newest (figures : F) (updates : List (DashboardState F L H I)) : DashboardState F L H I :=
  updates.getLast?.getD { figures := figures }

/-- What a tick would hand over: the newest state that was stored since the last tick, or else what was
    left of the last update. -/
def next (figures : F) (s : Conflation F L H I) : DashboardState F L H I :=
  (LastWrite.last stored? (episode isTick s.log)).getD (newest figures s.updates).movedFrom

/-- The server is what its log says. -/
structure Tracks (figures : F) (s : Conflation F L H I) : Prop where
  pending : s.pending = s.next figures
  dirty : s.pendingDirty = !(episode isTick s.log).isEmpty
  shownFigures : s.current.figures = (newest figures s.updates).figures
  shownLists : s.current.lists = (newest figures s.updates).lists
  shownHistory : s.current.history
    = (newest figures (s.updates.filter DashboardState.isFullUpdate)).history
  generation : s.stateGen = s.updates.length

variable {figures : F}

theorem tracks_initial : Tracks figures (initial figures : Conflation F L H I) :=
  ⟨rfl, rfl, rfl, rfl, rfl, rfl⟩

theorem newest_concat (updates : List (DashboardState F L H I)) (state : DashboardState F L H I) :
    newest figures (updates ++ [state]) = state := by
  rw [newest, List.getLast?_concat]
  rfl

theorem Tracks.handOver (h : Tracks figures s) : Tracks figures s.handOver := by
  have hepisode : episode isTick (s.log ++ [.ticked]) = [] := episode_of_ends rfl
  unfold Conflation.handOver
  split_ifs with hdirty
  · refine ⟨?_, ?_, ?_, ?_, ?_, ?_⟩
    · rw [next, hepisode, newest_concat]
      rfl
    · rw [hepisode]
      rfl
    · rw [newest_concat, DashboardState.merge]
      split <;> rfl
    · rw [newest_concat, DashboardState.merge]
      split <;> rfl
    · rw [List.filter_append, DashboardState.merge]
      cases hfull : s.pending.isFullUpdate with
      | true => simp [hfull, newest_concat]
      | false => simpa [hfull] using h.shownHistory
    · simp [h.generation]
  · have hquiet : episode isTick s.log = [] := by
      simpa [h.dirty] using hdirty
    refine ⟨?_, ?_, h.shownFigures, h.shownLists, h.shownHistory, h.generation⟩
    · rw [next, hepisode, h.pending, next, hquiet]
    · rw [hepisode, h.dirty, hquiet]

theorem Tracks.scheduleConflation (h : Tracks figures s) : Tracks figures s.scheduleConflation :=
  ⟨h.pending, h.dirty, h.shownFigures, h.shownLists, h.shownHistory, h.generation⟩

theorem Tracks.step (h : Tracks figures s) (e : Event F L H I) : Tracks figures (s.step e) := by
  -- most events leave alone everything that the log speaks of
  have hsame (s' : Conflation F L H I) (hpending : s'.pending = s.pending)
      (hdirty : s'.pendingDirty = s.pendingDirty) (hcurrent : s'.current = s.current)
      (hupdates : s'.updates = s.updates) (hlog : s'.log = s.log)
      (hgeneration : s'.stateGen = s.stateGen) : Tracks figures s' := by
    refine ⟨?_, ?_, ?_, ?_, ?_, ?_⟩
    · rw [hpending, next, hlog, hupdates]
      exact h.pending
    · rw [hdirty, hlog]
      exact h.dirty
    · rw [hcurrent, hupdates]
      exact h.shownFigures
    · rw [hcurrent, hupdates]
      exact h.shownLists
    · rw [hcurrent, hupdates]
      exact h.shownHistory
    · rw [hgeneration, hupdates]
      exact h.generation
  cases e with
  | start => exact hsame _ rfl rfl rfl rfl rfl rfl
  | updateStateAsync state => exact hsame _ rfl rfl rfl rfl rfl rfl
  | pushIcebergEvent event =>
      -- the history grows, and the episode goes on
      have hepisode : episode isTick (s.log ++ [.iceberg]) = episode isTick s.log ++ [.iceberg] :=
        episode_of_not_ends rfl
      refine ⟨?_, ?_, h.shownFigures, h.shownLists, h.shownHistory, h.generation⟩
      · rw [next, Conflation.step, pushIcebergEvent, hepisode, LastWrite.last_append]
        exact h.pending
      · rw [Conflation.step, pushIcebergEvent, hepisode]
        simp
  | runTask =>
      simp only [Conflation.step, runTask]
      split
      · exact h
      · -- a stored state is the latest of its episode
        next state strand _ =>
          have hepisode : episode isTick (s.log ++ [.stored state])
              = episode isTick s.log ++ [.stored state] := episode_of_not_ends rfl
          refine ⟨?_, ?_, h.shownFigures, h.shownLists, h.shownHistory, h.generation⟩
          · rw [next, hepisode, LastWrite.last_append, LastWrite.last_singleton]
            rfl
          · rw [hepisode]
            simp
      · exact hsame _ rfl rfl rfl rfl rfl rfl
  | expired =>
      simp only [Conflation.step]
      split
      · exact hsame _ rfl rfl rfl rfl rfl rfl
      · exact h
  | tick =>
      simp only [Conflation.step, tick]
      split_ifs
      · exact h
      · exact (hsame { s with due := s.due - 1 } rfl rfl rfl rfl rfl rfl).handOver.scheduleConflation
      · exact (hsame { s with due := s.due - 1 } rfl rfl rfl rfl rfl rfl).handOver
  | joined => exact hsame _ rfl rfl rfl rfl rfl rfl
  | posted =>
      simp only [Conflation.step]
      split
      · exact h
      · exact hsame _ rfl rfl rfl rfl rfl rfl
  | left => exact hsame _ rfl rfl rfl rfl rfl rfl

theorem Tracks.figures_eq_pending (h : Tracks figures s) (hticked : episode isTick s.log = []) :
    s.current.figures = s.pending.figures := by
  rw [h.shownFigures, h.pending, next, hticked]
  rfl

theorem log_tick (hdue : s.due ≠ 0) : (s.step .tick).log = s.log ++ [.ticked] := by
  have hover (t : Conflation F L H I) : t.handOver.log = t.log ++ [.ticked] := by
    unfold handOver
    split <;> rfl
  simp only [Conflation.step, tick, if_neg hdue]
  split <;> exact hover { s with due := s.due - 1 }

theorem strand_tick (s : Conflation F L H I) : (s.step .tick).strand = s.strand := by
  have hover (t : Conflation F L H I) : t.handOver.strand = t.strand := by
    unfold handOver
    split <;> rfl
  simp only [Conflation.step, tick]
  split_ifs
  · rfl
  · exact hover { s with due := s.due - 1 }
  · exact hover { s with due := s.due - 1 }

/-- **A tick hands over the newest state that was stored since the last one.** If there was only an
    iceberg since then, it hands over the last update again without its lists, and nothing otherwise.
    What is shown are figures and lists of the last update, and the history of the last full one. -/
theorem tick_hands_over (figures : F) (es : List (Event F L H I)) :
    let s := es.foldl step (initial figures)
    ((s.step .tick).updates = s.updates ++
      if 0 < s.due ∧ (episode isTick s.log).isEmpty = false then [s.next figures] else []) ∧
    s.current.figures = (newest figures s.updates).figures ∧
    s.current.lists = (newest figures s.updates).lists ∧
    s.current.history = (newest figures (s.updates.filter DashboardState.isFullUpdate)).history ∧
    s.stateGen = s.updates.length := by
  intro s
  have htracks : Tracks figures s :=
    Runs.invariant (Tracks figures) (fun _ e h => h.step e) es tracks_initial
  refine ⟨?_, htracks.shownFigures, htracks.shownLists, htracks.shownHistory, htracks.generation⟩
  have hdirty := htracks.dirty
  rw [← htracks.pending]
  simp only [Conflation.step, tick]
  by_cases hdue : s.due = 0
  · simp [hdue]
  · rw [if_neg hdue]
    have hupdates : ∀ t : Conflation F L H I,
        (if 0 < t.sessions then t.scheduleConflation else t).updates = t.updates := by
      intro t
      split <;> rfl
    rw [hupdates, Conflation.handOver]
    cases hepisode : (episode isTick s.log).isEmpty with
    | true => simp [hdirty, hepisode]
    | false => simp [hdirty, hepisode, Nat.pos_of_ne_zero hdue]

/-! ## Freshness -/

/-- The figures that an event posts. -/
def figures? : Event F L H I → Option F
  | .updateStateAsync state => some state.figures
  | _ => none

/-- The figures that a function on the strand is going to store. -/
def taskFigures? : DashboardTask (DashboardState F L H I) → Option F
  | .store state => some state.figures
  | .schedule => none

/-- The figures that are shown when everything on the strand has run, and a tick. -/
def coming (s : Conflation F L H I) : F :=
  (LastWrite.last taskFigures? s.strand).getD s.pending.figures

theorem coming_step (s : Conflation F L H I) (e : Event F L H I) :
    (s.step e).coming = (figures? e).getD s.coming := by
  have hschedule : taskFigures? (.schedule : DashboardTask (DashboardState F L H I)) = none := rfl
  cases e with
  | start => rfl
  | updateStateAsync state =>
      rw [coming, step, LastWrite.last_append, LastWrite.last_singleton]
      rfl
  | pushIcebergEvent event => rfl
  | runTask =>
      have hnone : figures? (.runTask : Event F L H I) = none := rfl
      simp only [step, runTask]
      split
      · rfl
      · -- the figures move from the strand to the pending state
        next state strand hstrand =>
          rw [coming, hnone, Option.getD_none, coming, hstrand, LastWrite.last_cons, Option.getD_or]
          rfl
      · next strand hstrand =>
          rw [coming, hnone, Option.getD_none, coming, hstrand, LastWrite.last_cons, hschedule,
            Option.or_none]
          rfl
  | expired =>
      simp only [step]
      split <;> rfl
  | tick =>
      -- a hand-over leaves the pending state as it is
      have hover (t : Conflation F L H I) : t.handOver.coming = t.coming := by
        unfold handOver
        split <;> rfl
      simp only [step, tick]
      split_ifs
      · rfl
      · exact hover { s with due := s.due - 1 }
      · exact hover { s with due := s.due - 1 }
  | joined => rfl
  | posted =>
      simp only [step]
      split
      · rfl
      · rw [coming, LastWrite.last_append, LastWrite.last_singleton, hschedule, Option.none_or]
        rfl
  | left => rfl

/-- All that is on the strand runs. -/
theorem run_strand {n : ℕ} (hlength : s.strand.length ≤ n)
    (h : s.armed = true ∨ 0 < s.due ∨ .schedule ∈ s.strand) :
    let s' := (List.replicate n .runTask).foldl step s
    s'.strand = [] ∧ (s'.armed = true ∨ 0 < s'.due) := by
  induction n generalizing s with
  | zero =>
      have hempty : s.strand = [] := List.eq_nil_of_length_eq_zero (Nat.le_zero.1 hlength)
      refine ⟨hempty, h.imp_right fun h => h.resolve_right ?_⟩
      rw [hempty]
      exact List.not_mem_nil
  | succ n ih =>
      rw [List.replicate_succ, List.foldl_cons]
      refine ih ?_ ?_
      · simp only [step, runTask]
        split
        · next hstrand => rw [hstrand]; exact Nat.zero_le _
        · next hstrand => rw [hstrand] at hlength; exact Nat.le_of_succ_le_succ hlength
        · next hstrand => rw [hstrand] at hlength; exact Nat.le_of_succ_le_succ hlength
      · simp only [step, runTask]
        split
        · exact h
        · next hstrand =>
            rw [hstrand] at h
            exact h.imp_right (.imp_right fun hmem => (List.mem_cons.1 hmem).resolve_left (by simp))
        · exact .inl rfl

theorem due_expired (h : s.armed = true ∨ 0 < s.due) :
    (s.step .expired).due ≠ 0 ∧ (s.step .expired).strand = s.strand := by
  simp only [step]
  split_ifs with harmed
  · exact ⟨Nat.succ_ne_zero _, rfl⟩
  · exact ⟨Nat.pos_iff_ne_zero.1 (h.resolve_left harmed), rfl⟩

/-- What is queued runs, and the timer expires. -/
def settling (s : Conflation F L H I) : List (Event F L H I) :=
  .posted :: (List.replicate (s.strand.length + 1) .runTask ++ [.expired, .tick])

/-- **Whoever is connected is shown the figures that were posted last**, as soon as what is queued has
    run: no other event is needed for it. -/
theorem shows_last_posted (figures : F) (es : List (Event F L H I)) :
    let s := es.foldl step (initial figures)
    0 < s.sessions →
      ((settling s).foldl step s).current.figures = (LastWrite.last figures? es).getD figures := by
  intro s hsessions
  have hticking : s.Ticking :=
    Runs.invariant (fun s : Conflation F L H I => 0 < s.sessions → s.Ticking)
      (fun _ e h => ticking_step h e) es (fun h => absurd h (Nat.lt_irrefl 0)) hsessions
  -- while somebody is connected the timer is running, or is about to be started
  have hposted : (s.step .posted).strand.length ≤ s.strand.length + 1 ∧
      ((s.step .posted).armed = true ∨ 0 < (s.step .posted).due ∨
        .schedule ∈ (s.step .posted).strand) := by
    simp only [step]
    split_ifs with hstarting
    · refine ⟨Nat.le_succ _, ?_⟩
      rcases hticking with harmed | hdue | hmem | hpos
      · exact .inl harmed
      · exact .inr (.inl hdue)
      · exact .inr (.inr hmem)
      · exact absurd hpos (by simp [hstarting])
    · exact ⟨by simp, .inr (.inr (by simp))⟩
  -- the strand runs empty, the timer expires, and its handler is due
  obtain ⟨hempty, hwaits⟩ := run_strand hposted.1 hposted.2
  obtain ⟨hdue, hstrand⟩ := due_expired hwaits
  set ready := ((List.replicate (s.strand.length + 1) .runTask).foldl step (s.step .posted)).step
    (.expired : Event F L H I)
  have hsettled : (settling s).foldl step s = ready.step .tick := by
    rw [settling, List.foldl_cons, List.foldl_append]
    rfl
  have hrun : (settling s).foldl step s = (es ++ settling s).foldl step (initial figures) :=
    List.foldl_append.symm
  have htracks : Tracks figures (ready.step .tick) := by
    rw [← hsettled, hrun]
    exact Runs.invariant (Tracks figures) (fun _ e h => h.step e) _ tracks_initial
  -- none of these steps posts anything, so the last figures are the ones to come
  have hcoming : (ready.step .tick).coming = (LastWrite.last figures? es).getD figures := by
    have hquiet : LastWrite.last figures? (settling s) = none :=
      LastWrite.last_eq_none.2 fun e he => by
        simp only [settling, List.mem_cons, List.mem_append, List.mem_replicate] at he
        rcases he with rfl | ⟨-, rfl⟩ | rfl | rfl | he
        · rfl
        · rfl
        · rfl
        · rfl
        · cases he
    rw [← hsettled, hrun, LastWrite.read_foldl coming coming_step, LastWrite.last_append, hquiet,
      Option.none_or]
    rfl
  rw [hsettled, htracks.figures_eq_pending (by rw [log_tick hdue, episode_of_ends rfl]), ← hcoming,
    coming, strand_tick, hstrand, hempty]
  rfl

theorem shows_last_posted_backAgain :
    let s := backAgain.foldl step (initial 0)
    ((settling s).foldl step s).current.figures = (LastWrite.last figures? backAgain).getD 0 :=
  shows_last_posted 0 backAgain (by decide)

end Conflation

end TradeBot
