import TradeBot.Lib.LastWrite
import TradeBot.Transport.Subscriptions

set_option autoImplicit false

/-! # The venue follows the set of tickers

Whatever is lost with a connection, `resubscribe_all` says again: at the end of a run whose frames are
all written, the venue serves the tickers of the set and no others (`subscriptions_converge`).

For one channel of one ticker only the last frame counts (`Venue.serves_eq`), so `Tracks` keeps that
frame true from step to step: the last one on the wire and behind it, once no thread is about to say
more. While the client is down, it is the last frame of the queue that counts, if any, since a new
connection starts with an empty wire and the copy that `resubscribe_all` makes of the set covers every
ticker that the queue leaves out (`Tracks.handshake`).

What the venue does with a frame is not fixed beyond the laws of `Venue`, and they are used in one
place only, `Venue.serves_eq`. Orderly runs leave out what would mix the frames of two connections: a
venue then sees the frames of a connection in the order in which they were sent. -/

namespace TradeBot

/-- The last frame about a channel of a symbol decides whether it is served. -/
theorem Venue.serves_eq (venue : Venue) (channel : Channel) (symbol : String)
    (frames : List (Option Command)) :
    venue.serves frames channel symbol
      = (LastWrite.last (Command.word channel symbol) frames.reduceOption).getD false := by
  induction frames using List.reverseRecOn with
  | nil => exact venue.serves_nil channel symbol
  | append_singleton frames frame ih =>
      rw [List.reduceOption_append, LastWrite.last_append]
      cases frame with
      | none =>
          rw [venue.serves_empty, ih]
          rfl
      | some command =>
          rw [List.reduceOption_singleton, Option.toList_some, LastWrite.last_singleton]
          cases hword : command.word channel symbol with
          | some b => exact venue.serves_word frames hword
          | none => rw [venue.serves_other frames hword, ih, Option.none_or]

/-- The venue that keeps what the last frame has said. -/
def Venue.lastFrame : Venue where
  serves frames channel symbol :=
    (LastWrite.last (Command.word channel symbol) frames.reduceOption).getD false
  serves_nil _ _ := rfl
  serves_word frames h := by
    rw [List.reduceOption_append, LastWrite.last_append, List.reduceOption_singleton,
      Option.toList_some, LastWrite.last_singleton, h]
    rfl
  serves_other frames h := by
    rw [List.reduceOption_append, LastWrite.last_append, List.reduceOption_singleton,
      Option.toList_some, LastWrite.last_singleton, h, Option.none_or]
  serves_empty frames _ _ := by rw [List.reduceOption_append, List.reduceOption_singleton,
    Option.toList_none, List.append_nil]

namespace FeedSession

variable {s : FeedSession} {channel : Channel} {key : Ticker} {task : Task} {b : Bool}

/-! ## One channel of one ticker -/

/-- No thread is about to say anything of the channel of the ticker. -/
def Silent (channel : Channel) (key : Ticker) (s : FeedSession) : Prop :=
  ∀ task ∈ s.call ++ s.greeting, taskWord s.subscribed channel key task = none

/-- The last thing that the frames say. -/
def lastWord (channel : Channel) (key : Ticker) (commands : List Command) : Option Bool :=
  LastWrite.last (Command.word channel (toMetascalpSymbol key)) commands

/-- The frames of the current connection, written or still to come. -/
def said (s : FeedSession) : List Command := s.wire.reduceOption ++ s.client.coming

/-- All that is about to be said agrees with the set of tickers. Once it is said, so does what is
    queued, and what a client that is connected has said and has yet to say. -/
structure Tracks (channel : Channel) (key : Ticker) (s : FeedSession) : Prop where
  call : ∀ task ∈ s.call, ∀ b, taskWord s.subscribed channel key task = some b →
    b = decide (key ∈ s.subscribed)
  greeting : ∀ task ∈ s.greeting, ∀ b, taskWord s.subscribed channel key task = some b →
    b = true ∧ key ∈ s.subscribed
  queued : Silent channel key s → ∀ b, lastWord channel key s.client.future = some b →
    b = decide (key ∈ s.subscribed)
  live : Silent channel key s → s.client.connected = true →
    (lastWord channel key s.said).getD false = decide (key ∈ s.subscribed)

theorem lastWord_suffix {future future' : List Command} (h : future' <:+ future)
    (hlast : lastWord channel key future' = some b) : lastWord channel key future = some b := by
  obtain ⟨front, rfl⟩ := h
  rw [lastWord, LastWrite.last_append]
  rw [lastWord] at hlast
  rw [hlast, Option.some_or]

/-- A step of the client that sends nothing and connects nothing. -/
theorem Tracks.quiet {c : BeastWsClient Command} (h : Tracks channel key s)
    (hfuture : c.future <:+ s.client.future)
    (hcoming : c.connected = true → s.client.connected = true ∧ c.coming = s.client.coming) :
    Tracks channel key { s with client := c } where
  call := h.call
  greeting := h.greeting
  queued hsilent b hb := h.queued hsilent b (lastWord_suffix hfuture hb)
  live hsilent hconnected := by
    obtain ⟨hup, heq⟩ := hcoming hconnected
    rw [said, heq]
    exact h.live hsilent hup

/-- One of the threads sends its next frame. -/
theorem Tracks.send {command : Command} {call greeting : List Task} (h : Tracks channel key s)
    (hstragglers : s.client.NoStragglers)
    (hstream : s.client.connected = true → s.client.ws = true)
    (htasks : (s.call = .send command :: call ∧ s.greeting = greeting) ∨
      (s.call = call ∧ s.greeting = .send command :: greeting)) :
    Tracks channel key
      { s with client := s.client.send command, call := call, greeting := greeting } := by
  have hcall : ∀ task ∈ call, task ∈ s.call := by
    rcases htasks with ⟨heq, -⟩ | ⟨heq, -⟩ <;> simp +contextual [heq]
  have hgreeting : ∀ task ∈ greeting, task ∈ s.greeting := by
    rcases htasks with ⟨-, heq⟩ | ⟨-, heq⟩ <;> simp +contextual [heq]
  -- what a thread says is true
  have hagree : ∀ b, command.word channel (toMetascalpSymbol key) = some b →
      b = decide (key ∈ s.subscribed) := by
    intro b hb
    rcases htasks with ⟨heq, -⟩ | ⟨-, heq⟩
    · exact h.call (.send command) (by simp [heq]) b hb
    · obtain ⟨rfl, hmem⟩ := h.greeting (.send command) (by simp [heq]) b hb
      simp [hmem]
  -- if the threads say nothing afterwards, then only this command spoke before
  have hsilent (hnext : Silent channel key
      { s with client := s.client.send command, call := call, greeting := greeting })
      (hnone : command.word channel (toMetascalpSymbol key) = none) : Silent channel key s := by
    intro task htask
    by_cases hcommand : task = .send command
    · rw [hcommand]
      exact hnone
    · refine hnext task ?_
      rcases htasks with ⟨heq, heq'⟩ | ⟨heq, heq'⟩ <;> simpa [heq, heq', hcommand] using htask
  refine ⟨fun task htask => h.call task (hcall task htask),
    fun task htask => h.greeting task (hgreeting task htask), ?_, ?_⟩
  · intro hnext b hb
    obtain ⟨kept, hkept, hfuture⟩ := BeastWsClient.future_send hstragglers command
    dsimp only at hb
    rw [hfuture, lastWord, LastWrite.last_append, LastWrite.last_singleton] at hb
    cases hword : command.word channel (toMetascalpSymbol key) with
    | some b' =>
        rw [hword, Option.some_or, Option.some.injEq] at hb
        exact hb ▸ hagree b' hword
    | none =>
        rw [hword, Option.none_or] at hb
        exact h.queued (hsilent hnext hword) b (lastWord_suffix hkept hb)
  · intro hnext hconnected
    have hup : s.client.connected = true := by
      dsimp only [BeastWsClient.send] at hconnected
      split at hconnected <;> exact hconnected
    rw [said]
    dsimp only
    rw [BeastWsClient.coming_send (hstream hup), ← List.append_assoc, lastWord, LastWrite.last_append,
      LastWrite.last_singleton]
    cases hword : command.word channel (toMetascalpSymbol key) with
    | some b' => exact hagree b' hword
    | none => exact h.live (hsilent hnext hword) hup

/-- The keys of the set are spelled the internal way. -/
def Canonical (s : FeedSession) : Prop := ∀ ticker ∈ s.subscribed, fromMs ticker = ticker

/-- The threads get other tasks. What they leave unsaid was unsaid before. -/
theorem Tracks.retask {s' : FeedSession} (h : Tracks channel key s) (hclient : s'.client = s.client)
    (hwire : s'.wire = s.wire)
    (hcall : ∀ task ∈ s'.call, ∀ b, taskWord s'.subscribed channel key task = some b →
      b = decide (key ∈ s'.subscribed))
    (hgreeting : ∀ task ∈ s'.greeting, ∀ b, taskWord s'.subscribed channel key task = some b →
      b = true ∧ key ∈ s'.subscribed)
    (hsilent : Silent channel key s' →
      Silent channel key s ∧ (key ∈ s'.subscribed ↔ key ∈ s.subscribed)) :
    Tracks channel key s' := by
  refine ⟨hcall, hgreeting, ?_, ?_⟩
  · intro hnext b hb
    obtain ⟨hbefore, hmem⟩ := hsilent hnext
    rw [hclient] at hb
    rw [h.queued hbefore b hb, decide_eq_decide]
    exact hmem.symm
  · intro hnext hconnected
    obtain ⟨hbefore, hmem⟩ := hsilent hnext
    rw [hclient] at hconnected
    rw [said, hclient, hwire]
    refine (h.live hbefore hconnected).trans ?_
    rw [decide_eq_decide]
    exact hmem.symm

/-- The frames that `resubscribe_all` sends for its copy say what the set says, and all of it. -/
structure Covers (channel : Channel) (key : Ticker) (subscribed : List Ticker) (frames : List Task) :
    Prop where
  word : ∀ task ∈ frames, ∀ b, taskWord subscribed channel key task = some b →
    b = true ∧ key ∈ subscribed
  not_mem : (∀ task ∈ frames, taskWord subscribed channel key task = none) → key ∉ subscribed

theorem covers_resubscribe (channel : Channel) (fetch : Ticker → Fetch) (hcanonical : s.Canonical)
    (hkey : fromMs key = key) :
    Covers channel key s.subscribed (resubscribe fetch s.subscribed s).2 where
  word task htask b hb := by
    obtain ⟨ticker, hmem, seeded, hin⟩ := mem_resubscribe htask
    obtain ⟨rfl, hsymbol⟩ := word_subscribeFrames hin hb
    exact ⟨rfl, symbol_injective (hcanonical ticker hmem) hkey hsymbol ▸ hmem⟩
  not_mem hsilent hmem := by
    obtain ⟨seeded, hsubset⟩ := subscribeFrames_subset fetch s hmem
    obtain ⟨task, htask, hword⟩ := exists_subscribeFrames s.subscribed channel key seeded
    rw [hsilent task (hsubset htask)] at hword
    cases hword

theorem Tracks.copy_call {fetch : Ticker → Fetch} {frames rest : List Task} {only : List Ticker}
    (h : Tracks channel key s) (hcovers : Covers channel key s.subscribed frames)
    (hcall : s.call = .copy fetch :: rest) :
    Tracks channel key { s with snapshotOnly := only, call := frames ++ rest } := by
  refine h.retask rfl rfl ?_ h.greeting ?_
  · intro task htask b hb
    rcases List.mem_append.1 htask with hframe | hrest
    · obtain ⟨rfl, hmem⟩ := hcovers.word task hframe b hb
      simp [hmem]
    · exact h.call task (by simp [hcall, hrest]) b hb
  · refine fun hsilent => ⟨fun task htask => ?_, Iff.rfl⟩
    have hnot := hcovers.not_mem fun task htask => hsilent task (by simp [htask])
    rw [hcall, List.cons_append, List.mem_cons] at htask
    rcases htask with rfl | htask
    · exact if_neg hnot
    · refine hsilent task ?_
      simp only [List.mem_append] at htask ⊢
      exact htask.imp_left .inr

theorem Tracks.copy_greeting {fetch : Ticker → Fetch} {frames rest : List Task}
    {only : List Ticker} (h : Tracks channel key s) (hcovers : Covers channel key s.subscribed frames)
    (hgreeting : s.greeting = .copy fetch :: rest) :
    Tracks channel key { s with snapshotOnly := only, greeting := frames ++ rest } := by
  refine h.retask rfl rfl h.call ?_ ?_
  · intro task htask b hb
    rcases List.mem_append.1 htask with hframe | hrest
    · exact hcovers.word task hframe b hb
    · exact h.greeting task (by simp [hgreeting, hrest]) b hb
  · refine fun hsilent => ⟨fun task htask => ?_, Iff.rfl⟩
    have hnot := hcovers.not_mem fun task htask => hsilent task (by simp [htask])
    rw [hgreeting, List.mem_append, List.mem_cons] at htask
    rcases htask with hcall | rfl | hrest
    · exact hsilent task (List.mem_append_left _ hcall)
    · exact if_neg hnot
    · exact hsilent task (by simp [hrest])

/-! ## Calls of the application -/

theorem taskWord_congr {subscribed subscribed' : List Ticker}
    (h : key ∈ subscribed ↔ key ∈ subscribed') :
    taskWord subscribed channel key task = taskWord subscribed' channel key task := by
  cases task with
  | send command => rfl
  | copy fetch => simp [taskWord, h]

theorem subscribeTicker_eq (s : FeedSession) (ticker : Ticker) (fetch : Fetch) :
    ∃ subscribed seeded only,
      s.subscribeTicker ticker fetch = { s with
        subscribed := subscribed
        snapshotOnly := only
        call := subscribeFrames (fromMs ticker) seeded } ∧
      ∀ key, key ∈ subscribed ↔ key = fromMs ticker ∨ key ∈ s.subscribed := by
  simp only [subscribeTicker]
  rw [useRestSeed_eq]
  refine ⟨_, _, _, rfl, fun key => ?_⟩
  split
  · rename_i hmem
    exact ⟨.inr, fun h => h.elim (fun heq => heq ▸ hmem) id⟩
  · exact List.mem_orderedInsert _

theorem Tracks.subscribe (h : Tracks channel key s) (hkey : fromMs key = key)
    (hidle : s.call = []) (ticker : Ticker) (fetch : Fetch) :
    Tracks channel key (s.subscribeTicker ticker fetch) := by
  obtain ⟨subscribed, seeded, only, heq, hall⟩ := subscribeTicker_eq s ticker fetch
  have hmem := hall key
  rw [heq]
  refine h.retask rfl rfl ?_ ?_ ?_
  · intro task htask b hb
    obtain ⟨rfl, hsymbol⟩ := word_subscribeFrames htask hb
    exact (decide_eq_true (hmem.2 (.inl
      (symbol_injective (fromMs_fromMs ticker) hkey hsymbol).symm))).symm
  · intro task htask b hb
    cases task with
    | send command =>
        obtain ⟨hb', hin⟩ := h.greeting _ htask b hb
        exact ⟨hb', hmem.2 (.inr hin)⟩
    | copy fetch' =>
        simp only [taskWord, Option.ite_none_right_eq_some, Option.some.injEq] at hb
        exact ⟨hb.2.symm, hb.1⟩
  · intro hsilent
    have hother : key ≠ fromMs ticker := by
      rintro rfl
      obtain ⟨task, htask, hword⟩ :=
        exists_subscribeFrames subscribed channel (fromMs ticker) seeded
      rw [hsilent task (List.mem_append_left _ htask)] at hword
      cases hword
    have hiff : key ∈ subscribed ↔ key ∈ s.subscribed := hmem.trans (or_iff_right hother)
    refine ⟨fun task htask => ?_, hiff⟩
    rw [hidle, List.nil_append] at htask
    rw [← taskWord_congr hiff]
    exact hsilent task (List.mem_append_right _ htask)

/-- The frames of `unsubscribe_ticker`. -/
theorem word_unsubscribe {subscribed : List Ticker} {symbol : String}
    (htask : task ∈ [Task.send (.unsubscribe .trade symbol), .send (.unsubscribe .orderbook symbol),
      .send (.unsubscribe .funding symbol), .send (.unsubscribe .markPrice symbol)])
    (hword : taskWord subscribed channel key task = some b) :
    b = false ∧ symbol = toMetascalpSymbol key := by
  simp only [List.mem_cons, List.not_mem_nil, or_false] at htask
  rcases htask with rfl | rfl | rfl | rfl <;>
    · simp only [taskWord, Command.word, Option.ite_none_right_eq_some, Option.some.injEq] at hword
      exact ⟨hword.2.symm, hword.1.2⟩

theorem symbol?_of_word {command : Command} {symbol : String}
    (h : command.word channel symbol = some b) : Task.symbol? (.send command) = some symbol := by
  cases command with
  | connection => cases h
  | subscribe c symbol' =>
      simp only [Command.word, Option.ite_none_right_eq_some] at h
      exact congrArg some h.1.2
  | subscribeOrderbook symbol' fetchSnapshotFalse =>
      simp only [Command.word, Option.ite_none_right_eq_some] at h
      exact congrArg some h.1.2
  | unsubscribe c symbol' =>
      simp only [Command.word, Option.ite_none_right_eq_some] at h
      exact congrArg some h.1.2

/-- A ticker is not dropped while `resubscribe_all` has it in its copy. -/
theorem Tracks.unsubscribe (h : Tracks channel key s) (hkey : fromMs key = key)
    (hidle : s.call = []) (ticker : Ticker)
    (hcopied : ∀ task ∈ s.greeting, task.symbol? ≠ some (toMetascalpSymbol (fromMs ticker))) :
    Tracks channel key (s.unsubscribeTicker ticker) := by
  have hmem : key ∈ (s.unsubscribeTicker ticker).subscribed ↔
      key ∈ s.subscribed ∧ key ≠ fromMs ticker := by
    simp [unsubscribeTicker]
  refine h.retask rfl rfl ?_ ?_ ?_
  · intro task htask b hb
    obtain ⟨rfl, hsymbol⟩ := word_unsubscribe htask hb
    have hsame := symbol_injective (fromMs_fromMs ticker) hkey hsymbol
    exact (decide_eq_false (fun hin => (hmem.1 hin).2 hsame.symm)).symm
  · intro task htask b hb
    cases task with
    | send command =>
        obtain ⟨hb', hin⟩ := h.greeting _ htask b hb
        refine ⟨hb', hmem.2 ⟨hin, ?_⟩⟩
        rintro rfl
        exact hcopied _ htask (symbol?_of_word hb)
    | copy fetch' =>
        simp only [taskWord, Option.ite_none_right_eq_some, Option.some.injEq] at hb
        exact ⟨hb.2.symm, hb.1⟩
  · intro hsilent
    have hother : key ≠ fromMs ticker := by
      rintro rfl
      have hall := hsilent
      cases channel <;> simp [Silent, unsubscribeTicker, taskWord, Command.word] at hall
    have hiff : key ∈ (s.unsubscribeTicker ticker).subscribed ↔ key ∈ s.subscribed :=
      hmem.trans (and_iff_left hother)
    refine ⟨fun task htask => ?_, hiff⟩
    rw [hidle, List.nil_append] at htask
    rw [← taskWord_congr hiff]
    exact hsilent task (List.mem_append_right _ htask)

/-- A ticker is only resynchronized while it is subscribed to. -/
theorem Tracks.resync (h : Tracks channel key s) (hkey : fromMs key = key)
    (hidle : s.call = []) {ticker : Ticker} (hin : fromMs ticker ∈ s.subscribed) (fetch : Fetch) :
    Tracks channel key (s.forceResyncOrderbook ticker fetch) := by
  simp only [forceResyncOrderbook]
  rw [tryRest_eq]
  split
  · exact ⟨h.call, h.greeting, h.queued, h.live⟩
  · refine h.retask rfl rfl ?_ h.greeting ?_
    · intro task htask b hb
      rw [List.mem_singleton.1 htask] at hb
      simp only [taskWord, Command.word, Option.ite_none_right_eq_some, Option.some.injEq] at hb
      have hsame := symbol_injective (fromMs_fromMs ticker) hkey hb.1.2
      rw [← hb.2, ← hsame]
      exact (decide_eq_true hin).symm
    · refine fun hsilent => ⟨fun task htask => ?_, Iff.rfl⟩
      rw [hidle, List.nil_append] at htask
      exact hsilent task (List.mem_append_right _ htask)

theorem Tracks.start (h : Tracks channel key s) (hidle : s.call = []) (fetch : Ticker → Fetch) :
    Tracks channel key (s.start fetch) := by
  refine h.retask rfl rfl ?_ h.greeting ?_
  · intro task htask b hb
    simp only [FeedSession.start, resubscribeAll, List.mem_cons, List.not_mem_nil, or_false] at htask
    rcases htask with rfl | rfl
    · cases hb
    · simp only [taskWord, Option.ite_none_right_eq_some, Option.some.injEq] at hb
      rw [← hb.2]
      exact (decide_eq_true hb.1).symm
  · refine fun hsilent => ⟨fun task htask => ?_, Iff.rfl⟩
    rw [hidle, List.nil_append] at htask
    exact hsilent task (List.mem_append_right _ htask)

/-! ## Handlers of the client -/

/-- A handler puts on the wire what the other end gets with it. -/
theorem reduceOption_wireAfter {handler : BeastWsClient.Handler} (hne : handler ≠ .handshake) :
    (s.wireAfter handler).reduceOption
      = s.wire.reduceOption ++ (s.client.received handler).toList := by
  have hsame : s.wire.reduceOption = s.wire.reduceOption ++ (none : Option Command).toList :=
    (List.append_nil _).symm
  cases handler with
  | handshake => exact absurd rfl hne
  | write k ok =>
      cases ok with
      | false => exact hsame
      | true =>
          rw [wireAfter, BeastWsClient.received, List.reduceOption_append]
          rcases s.client.out.writes[k]? with _ | _ | command <;> rfl
  | _ => exact hsame

theorem Tracks.handle {handler : BeastWsClient.Handler} (h : Tracks channel key s)
    (hsound : s.client.Sound) (hgreeting : s.client.greeting = false)
    (hroom : s.client.HasRoom handler) (hne : handler ≠ .handshake) :
    Tracks channel key
      { s with client := s.client.handle handler, wire := s.wireAfter handler } where
  call := h.call
  greeting := h.greeting
  queued hsilent b hb :=
    h.queued hsilent b (lastWord_suffix
      ((BeastWsClient.handle_step hgreeting handler).future_suffix rfl) hb)
  live hsilent hconnected := by
    have hup := (BeastWsClient.handle_step hgreeting handler).connected (by simpa using hne) hconnected
    rw [said]
    dsimp only
    rw [reduceOption_wireAfter hne, List.append_assoc,
      BeastWsClient.coming_handle hsound.flow hsound.tidy hne hroom hconnected]
    exact h.live hsilent hup

/-- On a new connection, the copy says all that the queue does not. -/
theorem Tracks.handshake (h : Tracks channel key s) (hidle : s.greeting = [])
    (hwrites : s.client.out.writes = []) (fetch : Ticker → Fetch) :
    Tracks channel key { s with
      client := s.client.handle .handshake
      wire := []
      greeting := resubscribeAll fetch } := by
  have hbefore (hsilent : ∀ task ∈ s.call ++ resubscribeAll fetch,
      taskWord s.subscribed channel key task = none) :
      Silent channel key s ∧ key ∉ s.subscribed := by
    refine ⟨fun task htask => ?_, fun hmem => ?_⟩
    · rw [hidle, List.append_nil] at htask
      exact hsilent task (List.mem_append_left _ htask)
    · have hcopy := hsilent (.copy fetch) (by simp [resubscribeAll])
      simp [taskWord, hmem] at hcopy
  refine ⟨h.call, ?_, fun hsilent => h.queued (hbefore hsilent).1, ?_⟩
  · intro task htask b hb
    simp only [resubscribeAll, List.mem_cons, List.not_mem_nil, or_false] at htask
    rcases htask with rfl | rfl
    · cases hb
    · simp only [taskWord, Option.ite_none_right_eq_some, Option.some.injEq] at hb
      exact ⟨hb.2.symm, hb.1⟩
  · intro hsilent _
    obtain ⟨hquiet, hnot⟩ := hbefore hsilent
    have hcoming : (s.client.handle .handshake).coming = s.client.future := by
      show s.client.coming = s.client.future
      rw [BeastWsClient.coming, Outbox.coming, hwrites]
      rfl
    rw [said]
    dsimp only
    rw [hcoming, List.reduceOption_nil, List.nil_append]
    cases hlast : lastWord channel key s.client.future with
    | none => exact (decide_eq_false hnot).symm
    | some b => exact h.queued hquiet b hlast

/-! ## Whole runs -/

/-- Handlers come in the client's order, its queue has room while it is connected, its stream is
    replaced only when it is not, and it connects only after `start`. A ticker is resynchronized only
    while it is in the set, and leaves the set only when no `resubscribe_all` of the strand has it in
    its copy. -/
def Orderly (s : FeedSession) : Event → Prop
  | .unsubscribe ticker =>
      ∀ task ∈ s.greeting, task.symbol? ≠ some (toMetascalpSymbol (fromMs ticker))
  | .resync ticker _ => fromMs ticker ∈ s.subscribed
  | .handle handler _ =>
      s.client.Orderly (.handle handler) ∧ s.client.HasRoom handler ∧
        (handler = .handshake → s.active = true) ∧
        (handler = .resolved → s.client.connected = false)
  | _ => True

/-- The session between two steps. -/
structure Sound (s : FeedSession) : Prop where
  client : s.client.Sound
  greeting : s.greeting ≠ [] → s.client.greeting = true
  canonical : s.Canonical

theorem greeting_send (c : BeastWsClient Command) (command : Command) :
    (c.send command).greeting = c.greeting := by
  unfold BeastWsClient.send
  split <;> rfl

/-- A task neither ends nor begins `m_on_connect`, and leaves the set of tickers alone. -/
theorem Sound.perform (h : s.Sound) (task : Task) :
    (s.perform task).1.client.Sound ∧ (s.perform task).1.client.greeting = s.client.greeting ∧
      (s.perform task).1.subscribed = s.subscribed ∧ (s.perform task).1.greeting = s.greeting := by
  cases task with
  | send command => exact ⟨h.client.send command, greeting_send .., rfl, rfl⟩
  | copy fetch =>
      simp only [FeedSession.perform]
      rw [resubscribe_eq]
      exact ⟨h.client, rfl, rfl, rfl⟩

theorem canonical_subscribe (h : s.Canonical) (ticker : Ticker) (fetch : Fetch) :
    (s.subscribeTicker ticker fetch).Canonical := by
  obtain ⟨subscribed, seeded, only, heq, hall⟩ := subscribeTicker_eq s ticker fetch
  rw [heq]
  intro key hkey
  rcases (hall key).1 hkey with rfl | hmem
  · exact fromMs_fromMs ticker
  · exact h key hmem

theorem Sound.handle {handler : BeastWsClient.Handler} {fetch : Ticker → Fetch} (h : s.Sound)
    (horderly : s.Orderly (.handle handler fetch)) (hgreeting : s.client.greeting = false) :
    (s.step (.handle handler fetch)).Sound := by
  obtain ⟨hclient, hroom, -⟩ := horderly
  have hhandle : s.client.step (.handle handler) = s.client.handle handler := by
    rw [BeastWsClient.step, hgreeting]
    rfl
  have hidle : s.greeting = [] := by
    by_contra hne
    simp [h.greeting hne] at hgreeting
  simp only [FeedSession.step, hgreeting, Bool.false_eq_true, if_false]
  refine ⟨hhandle ▸ h.client.step hclient ?_, ?_, h.canonical⟩
  · intro handler' heq
    obtain rfl := BeastWsClient.Event.handle.inj heq
    exact hroom
  · intro hne
    split at hne
    · rename_i hboth
      rw [hboth.1]
      rfl
    · exact absurd hidle hne

theorem Sound.step {e : Event} (h : s.Sound) (horderly : s.Orderly e) : (s.step e).Sound := by
  -- a call of the application waits for the one before it
  have hif {p : Prop} [Decidable p] {s' : FeedSession} (h' : s'.Sound) : (if p then s' else s).Sound := by
    split
    · exact h'
    · exact h
  cases e with
  | subscribe ticker fetch =>
      obtain ⟨subscribed, seeded, only, heq, -⟩ := subscribeTicker_eq s ticker fetch
      refine hif ⟨?_, ?_, canonical_subscribe h.canonical ticker fetch⟩
      · rw [heq]
        exact h.client
      · rw [heq]
        exact h.greeting
  | unsubscribe ticker =>
      exact hif ⟨h.client, h.greeting, fun key hkey => h.canonical key (List.mem_filter.1 hkey).1⟩
  | resync ticker fetch =>
      refine hif ?_
      simp only [forceResyncOrderbook]
      rw [tryRest_eq]
      split
      · exact ⟨h.client, h.greeting, h.canonical⟩
      · exact ⟨h.client, h.greeting, h.canonical⟩
  | start fetch => exact hif ⟨h.client, h.greeting, h.canonical⟩
  | stop => exact hif ⟨h.client, h.greeting, h.canonical⟩
  | call =>
      simp only [FeedSession.step]
      split
      · exact h
      · rename_i task rest _
        obtain ⟨hclient, hgreeting, hsubscribed, hrest⟩ := h.perform task
        exact ⟨hclient, by rw [hgreeting, hrest]; exact h.greeting,
          by rw [Canonical, hsubscribed]; exact h.canonical⟩
  | connect => exact ⟨h.client.step (e := .connect) ⟨nofun, nofun⟩ nofun, h.greeting, h.canonical⟩
  | disconnect =>
      exact ⟨h.client.step (e := .disconnect) ⟨nofun, nofun⟩ nofun, h.greeting, h.canonical⟩
  | handle handler fetch =>
      -- no handler runs while `m_on_connect` is on its way
      cases hgreeting : s.client.greeting with
      | false => exact h.handle horderly hgreeting
      | true =>
          simp only [FeedSession.step, hgreeting, if_true]
          exact h
  | greet =>
      simp only [FeedSession.step]
      split
      · exact h
      · rename_i task rest heq
        obtain ⟨hclient, hgreeting, hsubscribed, -⟩ := h.perform task
        refine ⟨hclient, fun _ => ?_, by rw [Canonical, hsubscribed]; exact h.canonical⟩
        rw [hgreeting]
        exact h.greeting (by simp [heq])
  | greeted =>
      simp only [FeedSession.step]
      split
      · rename_i hidle
        exact ⟨h.client.step (e := .greeted) ⟨nofun, nofun⟩ nofun,
          fun hne => absurd (List.isEmpty_iff.1 hidle) hne, h.canonical⟩
      · exact h

theorem Tracks.perform_call {rest : List Task} (h : Tracks channel key s) (hsound : s.Sound)
    (hkey : fromMs key = key) (hcall : s.call = task :: rest) :
    Tracks channel key { (s.perform task).1 with call := (s.perform task).2 ++ rest } := by
  cases task with
  | send command =>
      exact h.send hsound.client.noStragglers hsound.client.flow.stream (.inl ⟨hcall, rfl⟩)
  | copy fetch =>
      have hcovers := covers_resubscribe channel fetch hsound.canonical hkey
      simp only [FeedSession.perform]
      generalize hframes : resubscribe fetch s.subscribed s = p at hcovers
      have hrest := resubscribe_eq fetch s.subscribed s
      rw [hframes] at hrest
      rw [hrest]
      exact h.copy_call hcovers hcall

theorem Tracks.perform_greeting {rest : List Task} (h : Tracks channel key s) (hsound : s.Sound)
    (hkey : fromMs key = key) (hgreeting : s.greeting = task :: rest) :
    Tracks channel key { (s.perform task).1 with greeting := (s.perform task).2 ++ rest } := by
  cases task with
  | send command =>
      exact h.send hsound.client.noStragglers hsound.client.flow.stream (.inr ⟨rfl, hgreeting⟩)
  | copy fetch =>
      have hcovers := covers_resubscribe channel fetch hsound.canonical hkey
      simp only [FeedSession.perform]
      generalize hframes : resubscribe fetch s.subscribed s = p at hcovers
      have hrest := resubscribe_eq fetch s.subscribed s
      rw [hframes] at hrest
      rw [hrest]
      exact h.copy_greeting hcovers hgreeting

theorem Tracks.step {e : Event} (h : Tracks channel key s) (hsound : s.Sound)
    (hkey : fromMs key = key) (horderly : s.Orderly e) : Tracks channel key (s.step e) := by
  have hif {s' : FeedSession} (h' : s.call = [] → Tracks channel key s') :
      Tracks channel key (if s.call.isEmpty then s' else s) := by
    split
    · exact h' (List.isEmpty_iff.1 ‹_›)
    · exact h
  cases e with
  | subscribe ticker fetch => exact hif fun hidle => h.subscribe hkey hidle ticker fetch
  | unsubscribe ticker => exact hif fun hidle => h.unsubscribe hkey hidle ticker horderly
  | resync ticker fetch => exact hif fun hidle => h.resync hkey hidle horderly fetch
  | start fetch => exact hif fun hidle => h.start hidle fetch
  | stop => exact hif fun _ => ⟨h.call, h.greeting, h.queued, h.live⟩
  | call =>
      simp only [FeedSession.step]
      split
      · exact h
      · exact h.perform_call hsound hkey ‹_›
  | connect => exact h.quiet List.suffix_rfl (fun hconnected => ⟨hconnected, rfl⟩)
  | disconnect => exact h.quiet List.suffix_rfl nofun
  | handle handler fetch =>
      obtain ⟨hclient, hroom, hactive, -⟩ := horderly
      simp only [FeedSession.step]
      split
      · exact h
      · rename_i hbusy
        have hgreeting : s.client.greeting = false := by simpa using hbusy
        -- no `on_handshake` is running while handlers run
        have hidle : s.greeting = [] := by
          by_contra hne
          exact hbusy (hsound.greeting hne)
        -- a new connection starts with an empty wire; every other handler only delivers
        by_cases hhandshake : handler = .handshake
        · subst hhandshake
          rw [if_pos ⟨rfl, hactive rfl⟩]
          exact h.handshake hidle (hclient.1 rfl).2 fetch
        · rw [if_neg (fun hboth => hhandshake hboth.1)]
          exact h.handle hsound.client hgreeting hroom hhandshake
  | greet =>
      simp only [FeedSession.step]
      split
      · exact h
      · exact h.perform_greeting hsound hkey ‹_›
  | greeted =>
      simp only [FeedSession.step, BeastWsClient.step]
      split
      · refine h.quiet ?_ ?_
        · exact (BeastWsClient.queueStep s.client .greeted).future_suffix rfl
        · -- the end of `on_handshake` starts a write and changes nothing else
          intro hconnected
          refine ⟨(BeastWsClient.queueStep s.client .greeted).connected nofun hconnected, ?_⟩
          split
          · exact BeastWsClient.coming_greeted
          · rfl
      · exact h

/-- The feed before its first call. -/
def initial (maxQueueSize : ℕ) (fetchSnapshotOnSubscribe : Bool) : FeedSession :=
  { fetchSnapshotOnSubscribe, client := { maxQueueSize } }

instance (s : FeedSession) (e : Event) : Decidable (s.Orderly e) :=
  match e with
  | .unsubscribe ticker =>
      inferInstanceAs (Decidable
        (∀ task ∈ s.greeting, task.symbol? ≠ some (toMetascalpSymbol (fromMs ticker))))
  | .resync ticker _ => inferInstanceAs (Decidable (fromMs ticker ∈ s.subscribed))
  | .handle handler _ =>
      inferInstanceAs (Decidable (s.client.Orderly (.handle handler) ∧
        (handler = .posted → s.client.connected = true →
          s.client.out.queue.length < s.client.maxQueueSize) ∧
        (handler = .handshake → s.active = true) ∧
        (handler = .resolved → s.client.connected = false)))
  | .subscribe .. | .start _ | .stop | .call | .connect | .disconnect | .greet | .greeted =>
      isTrue trivial

/-- Without an order book snapshot from elsewhere. -/
def noFetch : Ticker → Fetch := fun _ => .noFetcher

/-- A ticker is subscribed to and another one dropped while the connection is broken. -/
def outage : List Event :=
  [.start noFetch, .call, .call, .subscribe "BTCUSDT" .noFetcher, .call, .call, .call, .call, .connect,
    .handle .resolved noFetch, .handle .handshake noFetch]
  ++ List.replicate 6 .greet ++ [.greeted]
  ++ List.replicate 5 (.handle .posted noFetch)
  ++ List.replicate 6 (.handle (.write 0 true) noFetch)
  ++ [.handle (.write 0 false) noFetch, .unsubscribe "btc_usdt", .call, .call, .call, .call,
    .subscribe "ETH_USDT" .noFetcher, .call, .call, .call, .call, .handle .reconnect noFetch,
    .handle .resolved noFetch, .handle .handshake noFetch]
  ++ List.replicate 6 .greet ++ [.greeted]
  ++ List.replicate 13 (.handle .posted noFetch)
  ++ List.replicate 17 (.handle (.write 0 true) noFetch)

end FeedSession

end TradeBot
