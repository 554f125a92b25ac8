import TradeBot.Lib.Enrolments
import TradeBot.Lib.Runs
import TradeBot.Lib.SecondaryIndex
import TradeBot.Trading.OrderReconciliator

set_option autoImplicit false

/-! # One outcome for each intent

Calls to the reconciliator interleave: `poll_open_orders` releases the lock around the fetch, so that
other calls, and other polls, run between its two locked sections. In every interleaving the local ids
of each ticker are those of the pending intents for it, and each registered intent is settled at most
once.

A poll in flight keeps the ids that were due at its first section. In between, an id may have been
resolved, and even registered again; the second section looks each of them up anew, and skips those
that are gone. Registrations are told apart by how many times an id was opened (`Lib/Enrolments`). -/

namespace TradeBot

/-! ## Interleaved calls -/

/-- A poll that has released the lock for its fetch. -/
structure PollInFlight where
  key : Ticker
  now : TimePoint
  out : List ReconcileResult
  due : List OrderId

/-- How the fetch of a poll ends. -/
inductive FetchAnswer
  | orders (os : List RestOrder)
  /-- It throws a `std::exception`, which the poll catches. -/
  | failed
  /-- It throws something else, which leaves the poll. -/
  | escaped

/-- What a call has returned. -/
inductive CallAnswer
  | entered (localId : OrderId) (registered : Bool)
  | resolved (localId : OrderId) (known : Bool)
  | polled (results : List ReconcileResult)

/-- The reconciliator, the polls in flight, and what the calls so far have returned, latest first. -/
structure ReconcilerCalls where
  r : OrderReconciliator
  /-- `fetch_` has been set. -/
  hasFetcher : Bool := false
  inFlight : List PollInFlight := []
  answers : List CallAnswer := []

namespace ReconcilerCalls

/-- A call, or the next section of a poll. -/
inductive Op
  | setFetchOpenOrders
  | enterSubmitUnknown (intent : OrderIntent) (now : TimePoint)
  | resolveOrder (localId : OrderId)
  | pollBegin (ticker : Ticker) (now : TimePoint)
  /-- The fetch of the `i`-th poll in flight has ended. -/
  | pollEnd (i : ℕ) (answer : FetchAnswer)

variable (s : ReconcilerCalls)

/-- An answer is recorded. -/
def answer (a : CallAnswer) : ReconcilerCalls := { s with answers := a :: s.answers }

/-- The first section: a poll without due intents returns at once. -/
def pollBegin (ticker : Ticker) (now : TimePoint) : ReconcilerCalls :=
  if s.hasFetcher = false then s.answer (.polled [])
  else
    let key := toInternalTicker ticker
    let (out, due) := s.r.pollDue key now
    if due = [] then s.answer (.polled out)
    else { s with inFlight := s.inFlight ++ [{ key := key, now := now, out := out, due := due }] }

/-- The second section. -/
def pollEnd (poll : PollInFlight) : FetchAnswer → ReconcilerCalls
  | .orders os =>
      let (r, out) := s.r.pollSettle poll.key poll.now poll.due (some os) poll.out
      { s with r := r }.answer (.polled out)
  | .failed =>
      let (r, out) := s.r.pollSettle poll.key poll.now poll.due none poll.out
      { s with r := r }.answer (.polled out)
  | .escaped => s

/-- The calls after an operation. -/
def step (s : ReconcilerCalls) : Op → ReconcilerCalls
  | .setFetchOpenOrders => { s with hasFetcher := true }
  | .enterSubmitUnknown intent now =>
      let (r, registered) := s.r.enterSubmitUnknown intent now
      { s with r := r }.answer (.entered intent.localOrderId registered)
  | .resolveOrder localId =>
      let (r, known) := s.r.resolveOrder localId
      { s with r := r }.answer (.resolved localId known)
  | .pollBegin ticker now => s.pollBegin ticker now
  | .pollEnd i a =>
      match s.inFlight[i]? with
      | none => s
      | some poll => { s with inFlight := s.inFlight.eraseIdx i }.pollEnd poll a

/-- The calls after some operations. -/
def run (s : ReconcilerCalls) (ops : List Op) : ReconcilerCalls := ops.foldl step s

end ReconcilerCalls

/-! ## Registrations and outcomes -/

open Enrolments (Mark)

/-- The local ids a poll's results report as resolved or timed out. -/
def settledIds (results : List ReconcileResult) : List OrderId :=
  (results.filter (fun res => decide (res.outcome ≠ .pending))).map (fun res => res.localOrderId)

/-- The registrations and the terminal outcomes in what a call returned, latest first. -/
def CallAnswer.marks : CallAnswer → List (Mark OrderId)
  | .entered localId true => [.opened localId]
  | .resolved localId true => [.ended localId]
  | .polled results => ((settledIds results).map Mark.ended).reverse
  | _ => []

/-- The registrations and outcomes among the answers. -/
def ReconcilerCalls.marks (s : ReconcilerCalls) : List (Mark OrderId) := s.answers.flatMap CallAnswer.marks

/-- `by_ticker_` and `pending_` agree, and `by_ticker_` has no empty set. -/
structure OrderReconciliator.Consistent (r : OrderReconciliator) : Prop where
  mem_iff : ∀ id ticker, (∃ ids, r.byTicker.lookup ticker = some ids ∧ id ∈ ids) ↔
    ∃ p, r.pending.lookup id = some p ∧ p.intent.ticker = ticker
  nonempty : ∀ ticker, r.byTicker.lookup ticker ≠ some []

/-! ## The index of the pending intents -/

namespace OrderReconciliator

/-- The ids by ticker are an index of the pending intents. -/
def Indexed (r : OrderReconciliator) : Prop :=
  SecondaryIndex (fun id => r.pending.lookup id) (fun p => p.intent.ticker)
    (fun ticker => r.byTicker.lookup ticker)

variable {r r' : OrderReconciliator} {localId : OrderId} {p : PendingIntent}

theorem Indexed.consistent (h : r.Indexed) : r.Consistent := ⟨h.mem_iff, h.nonempty⟩

theorem lookup_insert_eq_update {α β : Type} [DecidableEq α] (m : AList (fun _ : α => β)) (a : α)
    (b : β) :
    (fun a' => (m.insert a b).lookup a') = Function.update (fun a' => m.lookup a') a (some b) := by
  funext a'
  by_cases h : a' = a
  · rw [h, AList.lookup_insert, Function.update_self]
  · rw [AList.lookup_insert_ne h, Function.update_of_ne h]

theorem lookup_erase_eq_update {α β : Type} [DecidableEq α] (m : AList (fun _ : α => β)) (a : α) :
    (fun a' => (m.erase a).lookup a') = Function.update (fun a' => m.lookup a') a none := by
  funext a'
  by_cases h : a' = a
  · rw [h, AList.lookup_erase, Function.update_self]
  · rw [AList.lookup_erase_ne h, Function.update_of_ne h]

theorem lookup_pending_eq_none : r.pending.lookup localId = none ↔ localId ∉ r.pending := by
  rw [← AList.lookup_isSome, ← Option.isNone_iff_eq_none, ← Option.not_isSome]
  simp

theorem Indexed.enterSubmitUnknown (h : r.Indexed) (intent : OrderIntent) (now : TimePoint) :
    (r.enterSubmitUnknown intent now).1.Indexed := by
  unfold OrderReconciliator.enterSubmitUnknown
  by_cases hin : intent.localOrderId ∈ r.pending
  · rw [if_pos hin]
    exact h
  · rw [if_neg hin]
    unfold Indexed
    dsimp only
    generalize toInternalTicker intent.ticker = key
    rw [lookup_insert_eq_update, lookup_insert_eq_update]
    exact SecondaryIndex.insert h (lookup_pending_eq_none.2 hin)

/-- `remove` drops a pending intent and keeps the index. -/
theorem Indexed.remove (h : r.Indexed) (localId : OrderId) : (r.remove localId).Indexed := by
  unfold OrderReconciliator.remove
  cases hp : r.pending.lookup localId with
  | none => exact h
  | some p =>
      obtain ⟨ids, hids, _⟩ := SecondaryIndex.exists_entry h hp
      have herase := SecondaryIndex.erase h hp hids
      unfold Indexed
      dsimp only
      rw [hids]
      dsimp only
      rw [lookup_erase_eq_update]
      split <;> rename_i hnil
      · rw [lookup_erase_eq_update]
        rw [if_pos hnil] at herase
        exact herase
      · rw [lookup_insert_eq_update]
        rw [if_neg hnil] at herase
        exact herase

theorem remove_pending_lookup (r : OrderReconciliator) (localId id : OrderId) :
    (r.remove localId).pending.lookup id = if id = localId then none else r.pending.lookup id := by
  have herase : (r.pending.erase localId).lookup id
      = if id = localId then none else r.pending.lookup id := by
    split <;> rename_i heq
    · rw [heq, AList.lookup_erase]
    · rw [AList.lookup_erase_ne heq]
  unfold OrderReconciliator.remove
  cases hp : r.pending.lookup localId with
  | none =>
      dsimp only
      split <;> rename_i heq
      · rw [heq, hp]
      · rfl
  | some p =>
      dsimp only
      cases r.byTicker.lookup p.intent.ticker with
      | none => exact herase
      | some ids => exact herase

theorem removeAll_pending_lookup (ids : List OrderId) (r : OrderReconciliator) (id : OrderId) :
    (ids.foldl OrderReconciliator.remove r).pending.lookup id
      = if id ∈ ids then none else r.pending.lookup id := by
  induction ids generalizing r with
  | nil => simp
  | cons localId ids ih =>
      rw [List.foldl_cons, ih, remove_pending_lookup]
      by_cases hin : id ∈ ids
      · simp [hin]
      · by_cases heq : id = localId <;> simp [hin, heq]

/-! ## The sections of a poll -/

/-- What the first section answers for an id that is not due. -/
def stillPending? (r : OrderReconciliator) (now : TimePoint) (localId : OrderId) :
    Option ReconcileResult :=
  match r.pending.lookup localId with
  | none => none
  | some p =>
      if now < p.nextPollAt ∧ ¬ r.deadlinePassed p now then
        some { outcome := .pending, localOrderId := localId, intent := some p.intent }
      else none

/-- An intent is due at its next poll, or when its deadline has passed. -/
def isDue (r : OrderReconciliator) (now : TimePoint) (localId : OrderId) : Bool :=
  match r.pending.lookup localId with
  | none => false
  | some p => decide (¬ (now < p.nextPollAt ∧ ¬ r.deadlinePassed p now))

/-- A loop that appends to two lists. -/
theorem foldl_append_pair {α β γ : Type} {f : List β × List γ → α → List β × List γ}
    {g : α → Option β} {k : α → Option γ}
    (hf : ∀ acc a, f acc a = (acc.1 ++ (g a).toList, acc.2 ++ (k a).toList)) (l : List α)
    (acc : List β × List γ) : l.foldl f acc = (acc.1 ++ l.filterMap g, acc.2 ++ l.filterMap k) := by
  induction l generalizing acc with
  | nil => simp
  | cons a l ih =>
      rw [List.foldl_cons, ih, hf]
      cases hg : g a <;> cases hk : k a <;> simp [hg, hk]

theorem pollDue_eq (r : OrderReconciliator) (key : Ticker) (now : TimePoint) :
    r.pollDue key now
      = ((r.idsOf key).filterMap (r.stillPending? now), (r.idsOf key).filter (r.isDue now)) := by
  unfold pollDue
  rw [foldl_append_pair (g := r.stillPending? now) (k := Option.guard (r.isDue now)),
    List.nil_append, List.nil_append, List.filterMap_eq_filter]
  intro acc id
  cases hp : r.pending.lookup id with
  | none => simp [stillPending?, isDue, hp, Option.guard]
  | some p =>
      by_cases hlater : now < p.nextPollAt ∧ ¬ r.deadlinePassed p now
      · simp [stillPending?, isDue, hp, hlater, Option.guard]
      · have hdue : r.isDue now id = true := by
          simp only [isDue, hp, hlater, not_false_eq_true, decide_true]
        simp only [stillPending?, hp, Option.guard, hdue, if_neg hlater]
        simp

/-- The first section settles nothing. -/
theorem settledIds_pollDue (r : OrderReconciliator) (key : Ticker) (now : TimePoint) :
    settledIds (r.pollDue key now).1 = [] := by
  rw [pollDue_eq, settledIds, List.map_eq_nil_iff, List.filter_eq_nil_iff]
  intro res hres
  obtain ⟨id, _, hid⟩ := List.mem_filterMap.1 hres
  unfold stillPending? at hid
  split at hid
  · cases hid
  · split at hid
    · cases hid
      simp
    · cases hid

theorem Indexed.nodup_due (h : r.Indexed) (key : Ticker) (now : TimePoint) :
    (r.pollDue key now).2.Nodup := by
  rw [pollDue_eq]
  refine List.Nodup.filter _ ?_
  exact (SecondaryIndex.sorted_getD h).imp (fun hlt => ne_of_lt hlt)

/-- Where the second section stands in its loop: intents have been backed off, results added, and the
    ids of the settled ones noted down for removal. -/
structure Settling (r : OrderReconciliator) (out : List ReconcileResult) (rest : List OrderId)
    (acc : OrderReconciliator × List ReconcileResult × List OrderId) : Prop where
  indexed : acc.1.Indexed
  same : ∀ id, (acc.1.pending.lookup id).isSome = (r.pending.lookup id).isSome
  settled : settledIds acc.2.1 = settledIds out ++ acc.2.2
  pending : ∀ id ∈ acc.2.2, (r.pending.lookup id).isSome
  nodup : (acc.2.2 ++ rest).Nodup

variable {out : List ReconcileResult} {rest : List OrderId}
  {acc : OrderReconciliator × List ReconcileResult × List OrderId}

theorem Settling.skip {id : OrderId} (h : Settling r out (id :: rest) acc) :
    Settling r out rest acc :=
  { h with nodup := h.nodup.sublist ((List.sublist_cons_self id rest).append_left _) }

/-- An intent is resolved or times out. -/
theorem Settling.settle {id : OrderId} (h : Settling r out (id :: rest) acc)
    (hp : acc.1.pending.lookup id = some p) {res : ReconcileResult} (hres : res.localOrderId = id)
    (hout : res.outcome ≠ .pending) :
    Settling r out rest (acc.1, acc.2.1 ++ [res], acc.2.2 ++ [id]) where
  indexed := h.indexed
  same := h.same
  settled := by
    have hone : settledIds [res] = [id] := by simp [settledIds, hout, hres]
    have happend : settledIds (acc.2.1 ++ [res]) = settledIds acc.2.1 ++ settledIds [res] := by
      simp [settledIds]
    dsimp only
    rw [happend, h.settled, hone, List.append_assoc]
  pending := by
    intro id' hid'
    rcases List.mem_append.1 hid' with hid' | hid'
    · exact h.pending id' hid'
    · rw [List.mem_singleton.1 hid', ← h.same, hp]
      rfl
  nodup := by
    dsimp only
    rw [List.append_assoc, List.singleton_append]
    exact h.nodup

/-- An intent is backed off. -/
theorem Settling.backOff {id : OrderId} (h : Settling r out (id :: rest) acc)
    (hp : acc.1.pending.lookup id = some p) {res : ReconcileResult} (hout : res.outcome = .pending)
    (now : TimePoint) :
    Settling r out rest ({ acc.1 with pending := acc.1.pending.insert id (acc.1.backOff p now) },
      acc.2.1 ++ [res], acc.2.2) where
  indexed := by
    unfold Indexed
    dsimp only
    rw [lookup_insert_eq_update]
    exact SecondaryIndex.replace h.indexed hp rfl
  same := by
    intro id'
    dsimp only
    rw [← h.same id']
    by_cases heq : id' = id
    · rw [heq, AList.lookup_insert, hp]
      rfl
    · rw [AList.lookup_insert_ne heq]
  settled := by
    rw [← h.settled]
    simp [settledIds, hout]
  pending := h.pending
  nodup := h.skip.nodup

theorem Settling.settleOne {id : OrderId} (h : Settling r out (id :: rest) acc)
    (found : OrderIntent → Option OrderId) (note : String) (now : TimePoint) :
    Settling r out rest (settleOne found note now acc id) := by
  obtain ⟨r', out', toRemove⟩ := acc
  unfold OrderReconciliator.settleOne
  dsimp only
  cases hp : r'.pending.lookup id with
  | none => exact h.skip
  | some p =>
      dsimp only
      split
      · exact h.settle hp rfl (by simp)
      split
      · exact h.settle hp rfl (by simp)
      · exact h.backOff hp rfl now

theorem Settling.foldl (found : OrderIntent → Option OrderId) (note : String) (now : TimePoint)
    (h : Settling r out rest acc) :
    Settling r out [] (rest.foldl (OrderReconciliator.settleOne found note now) acc) := by
  induction rest generalizing acc with
  | nil => exact h
  | cons id rest ih => exact ih (h.settleOne found note now)

/-- The intents settled by a section are pending before it, different, and dropped. -/
structure Settles (r : OrderReconciliator) (res : OrderReconciliator × List ReconcileResult) : Prop where
  indexed : res.1.Indexed
  nodup : (settledIds res.2).Nodup
  pending : ∀ id ∈ settledIds res.2, (r.pending.lookup id).isSome
  dropped : ∀ id, (res.1.pending.lookup id).isSome
    ↔ (r.pending.lookup id).isSome ∧ id ∉ settledIds res.2

theorem Indexed.settleAll (h : r.Indexed) {due : List OrderId} (hdue : due.Nodup)
    (hout : settledIds out = []) (found : OrderIntent → Option OrderId) (note : String)
    (now : TimePoint) :
    Settles r
      ((due.foldl (OrderReconciliator.settleOne found note now) (r, out, [])).2.2.foldl
          OrderReconciliator.remove
          (due.foldl (OrderReconciliator.settleOne found note now) (r, out, [])).1,
        (due.foldl (OrderReconciliator.settleOne found note now) (r, out, [])).2.1) := by
  have hstart : Settling r out due (r, out, []) :=
    ⟨h, fun _ => rfl, by simp, by simp, by simpa using hdue⟩
  have hend := hstart.foldl found note now
  have hsettled := hend.settled
  rw [hout, List.nil_append] at hsettled
  refine ⟨?_, ?_, ?_, fun id => ?_⟩
  · exact Runs.invariant Indexed (fun _ id hr => hr.remove id) _ hend.indexed
  · rw [hsettled]
    simpa using hend.nodup
  · rw [hsettled]
    exact hend.pending
  · rw [hsettled, removeAll_pending_lookup, ← hend.same]
    split <;> rename_i hin
    · simp [hin]
    · simp [hin]

theorem Indexed.pollSettle (h : r.Indexed) {due : List OrderId} (hdue : due.Nodup)
    (hout : settledIds out = []) (key : Ticker) (now : TimePoint) (orders : Option (List RestOrder)) :
    Settles r (r.pollSettle key now due orders out) := by
  unfold OrderReconciliator.pollSettle
  split
  · exact ⟨h, by simp [hout], by simp [hout], by simp [hout]⟩
  · cases orders with
    | none => exact h.settleAll hdue hout ..
    | some os => exact h.settleAll hdue hout ..

theorem enterSubmitUnknown_registered (r : OrderReconciliator) (intent : OrderIntent)
    (now : TimePoint) (id : OrderId) :
    ((r.enterSubmitUnknown intent now).1.pending.lookup id).isSome
      ↔ (r.pending.lookup id).isSome
        ∨ (r.enterSubmitUnknown intent now).2 = true ∧ id = intent.localOrderId := by
  unfold OrderReconciliator.enterSubmitUnknown
  by_cases hin : intent.localOrderId ∈ r.pending
  · rw [if_pos hin]
    simp
  · rw [if_neg hin]
    dsimp only
    by_cases heq : id = intent.localOrderId
    · rw [heq, AList.lookup_insert]
      simp
    · rw [AList.lookup_insert_ne heq]
      simp [heq]

end OrderReconciliator

/-! ## Every interleaving -/

namespace ReconcilerCalls

/-- The index holds, the marks of what was returned are those of the pending intents, and the polls in
    flight have settled nothing and hold different ids. -/
structure Inv (s : ReconcilerCalls) : Prop where
  indexed : s.r.Indexed
  tracked : Enrolments.Tracked s.marks (fun id => (s.r.pending.lookup id).isSome)
  inFlight : ∀ poll ∈ s.inFlight, settledIds poll.out = [] ∧ poll.due.Nodup

variable {s : ReconcilerCalls}

theorem inv_init (cfg : ReconcilerConfig) : Inv { r := { cfg := cfg } } where
  indexed := SecondaryIndex.empty (fun _ => rfl) (fun _ => rfl)
  tracked := Enrolments.tracked_nil (fun id => by simp)
  inFlight := by simp

theorem marks_answer (s : ReconcilerCalls) (a : CallAnswer) : (s.answer a).marks = a.marks ++ s.marks :=
  List.flatMap_cons ..

@[simp] theorem answer_r (s : ReconcilerCalls) (a : CallAnswer) : (s.answer a).r = s.r := rfl

/-- An answer that registers and settles nothing. -/
theorem Inv.answer (h : Inv s) {a : CallAnswer} (ha : a.marks = []) : Inv (s.answer a) where
  indexed := h.indexed
  tracked := by
    rw [marks_answer, ha]
    exact h.tracked
  inFlight := h.inFlight

theorem Inv.enterSubmitUnknown (h : Inv s) (intent : OrderIntent) (now : TimePoint) :
    Inv (s.step (.enterSubmitUnknown intent now)) where
  indexed := h.indexed.enterSubmitUnknown intent now
  tracked := by
    have hmem := s.r.enterSubmitUnknown_registered intent now
    simp only [step, marks_answer, answer_r]
    cases hreg : (s.r.enterSubmitUnknown intent now).2 with
    | false => exact h.tracked.congr (fun id => by simpa [hreg] using hmem id)
    | true =>
        refine (h.tracked.open intent.localOrderId).congr (fun id => (hmem id).trans ?_)
        rw [hreg, or_comm]
        simp
  inFlight := h.inFlight

theorem Inv.resolveOrder (h : Inv s) (localId : OrderId) : Inv (s.step (.resolveOrder localId)) := by
  simp only [step, OrderReconciliator.resolveOrder]
  by_cases hin : localId ∈ s.r.pending
  · rw [if_pos hin]
    refine ⟨h.indexed.remove localId, ?_, h.inFlight⟩
    rw [marks_answer]
    refine (h.tracked.end (AList.lookup_isSome.2 hin)).congr (fun id => ?_)
    rw [answer_r, OrderReconciliator.remove_pending_lookup]
    split <;> rename_i heq
    · simp [heq]
    · simp [heq]
  · rw [if_neg hin]
    exact h.answer rfl

theorem Inv.pollBegin (h : Inv s) (ticker : Ticker) (now : TimePoint) :
    Inv (s.pollBegin ticker now) := by
  have hout := s.r.settledIds_pollDue (toInternalTicker ticker) now
  unfold ReconcilerCalls.pollBegin
  by_cases hfetch : s.hasFetcher = false
  · rw [if_pos hfetch]
    exact h.answer rfl
  · rw [if_neg hfetch]
    dsimp only
    by_cases hdue : (s.r.pollDue (toInternalTicker ticker) now).2 = []
    · rw [if_pos hdue]
      exact h.answer (by simp [CallAnswer.marks, hout])
    · rw [if_neg hdue]
      refine ⟨h.indexed, h.tracked, fun poll hpoll => ?_⟩
      rcases List.mem_append.1 hpoll with hpoll | hpoll
      · exact h.inFlight poll hpoll
      · rw [List.mem_singleton.1 hpoll]
        exact ⟨hout, h.indexed.nodup_due _ _⟩

/-- The second section of a poll, however the fetch ended. -/
theorem Inv.settle (h : Inv s) {poll : PollInFlight} (hpoll : settledIds poll.out = [] ∧ poll.due.Nodup)
    (orders : Option (List RestOrder)) :
    Inv ({ s with r := (s.r.pollSettle poll.key poll.now poll.due orders poll.out).1 }.answer
      (.polled (s.r.pollSettle poll.key poll.now poll.due orders poll.out).2)) := by
  have hsettles := h.indexed.pollSettle hpoll.2 hpoll.1 poll.key poll.now orders
  refine ⟨hsettles.indexed, ?_, h.inFlight⟩
  rw [marks_answer]
  exact (h.tracked.endAll hsettles.nodup hsettles.pending).congr hsettles.dropped

theorem Inv.pollEnd (h : Inv s) {poll : PollInFlight}
    (hpoll : settledIds poll.out = [] ∧ poll.due.Nodup) (a : FetchAnswer) : Inv (s.pollEnd poll a) := by
  cases a with
  | orders os => exact h.settle hpoll (some os)
  | failed => exact h.settle hpoll none
  | escaped => exact h

theorem Inv.step (h : Inv s) (op : Op) : Inv (s.step op) := by
  cases op with
  | setFetchOpenOrders => exact ⟨h.indexed, h.tracked, h.inFlight⟩
  | enterSubmitUnknown intent now => exact h.enterSubmitUnknown intent now
  | resolveOrder localId => exact h.resolveOrder localId
  | pollBegin ticker now => exact h.pollBegin ticker now
  | pollEnd i a =>
      unfold ReconcilerCalls.step
      dsimp only
      cases hpoll : s.inFlight[i]? with
      | none => exact h
      | some poll =>
          have hrest : Inv { s with inFlight := s.inFlight.eraseIdx i } :=
            ⟨h.indexed, h.tracked, fun poll' hpoll' => h.inFlight poll' (List.mem_of_mem_eraseIdx hpoll')⟩
          exact hrest.pollEnd (h.inFlight poll (List.mem_of_getElem? hpoll)) a

/-- **In every interleaving of the reconciliator's calls**, `by_ticker_` and `pending_` agree, and each
    registration (named by its local id and by how many times the id had been registered) has at most
    one terminal outcome. -/
theorem intents_settled_once (cfg : ReconcilerConfig) (ops : List Op) :
    (run { r := { cfg := cfg } } ops).r.Consistent ∧
      (Enrolments.endings (run { r := { cfg := cfg } } ops).marks).Nodup ∧
      ∀ e ∈ Enrolments.endings (run { r := { cfg := cfg } } ops).marks,
        1 ≤ e.2 ∧ e.2 ≤ Enrolments.openings e.1 (run { r := { cfg := cfg } } ops).marks := by
  have hinv : Inv (run { r := { cfg := cfg } } ops) :=
    Runs.invariant Inv (fun _ op h => h.step op) ops (inv_init cfg)
  exact ⟨hinv.indexed.consistent, hinv.tracked.nodup, hinv.tracked.known⟩

end ReconcilerCalls

end TradeBot
