import Mathlib.Data.List.ReduceOption
import Mathlib.Order.Nat

set_option autoImplicit false

/-! # A bounded outbox written from its front

Messages wait in a bounded queue. A write takes the message of the front slot and leaves the slot in
place, empty, until the write has succeeded; a full queue drops its front slot, empty or not, for a new
message. `content` is what was or still can be written: it never gains a message but the one pushed,
and keeps their order. Where only one write is under way at a time (`Serial`), the messages that are
missing from it are no more than the overflows (`Accounted`).

A write whose own slot was dropped takes the slot of another message with it when it succeeds: that is
its `debt`. Without one, what a write takes from `coming` is exactly its message (`coming_finish`). The
slots behind the front are never empty as long as no write fails (`Packed`). -/

/-- The queue, its writes, and the history of both. -/
structure Outbox (M : Type*) where
  /-- Oldest first. A slot is empty once a write has taken its message. -/
  queue : List (Option M) := []
  /-- The writes under way. -/
  writes : List (Option M) := []
  /-- All the writes that were ever started. -/
  started : List (Option M) := []
  /-- The writes that have ended, and whether they succeeded. -/
  finished : List (Option M × Bool) := []
  /-- How often a push found the queue full. -/
  overflows : ℕ := 0
  deriving DecidableEq

namespace Outbox

variable {M : Type*}

/-- A full queue drops its front slot, whether its message is being written or not. -/
def push (o : Outbox M) (maxSize : ℕ) (m : M) : Outbox M :=
  if maxSize ≤ o.queue.length then
    { o with queue := o.queue.tail ++ [some m], overflows := o.overflows + 1 }
  else { o with queue := o.queue ++ [some m] }

/-- Start a write of the front slot. -/
def start (o : Outbox M) : Outbox M :=
  match o.queue with
  | [] => o
  | slot :: rest =>
      { o with queue := none :: rest, writes := o.writes ++ [slot], started := o.started ++ [slot] }

/-- One of the writes under way ends. The front slot goes if it has succeeded. -/
def finish (o : Outbox M) (k : ℕ) (ok : Bool) : Outbox M :=
  match o.writes[k]? with
  | none => o
  | some slot =>
      { o with
        queue := if ok then o.queue.tail else o.queue
        writes := o.writes.eraseIdx k
        finished := o.finished ++ [(slot, ok)] }

/-- The messages that no write has taken yet. -/
def waiting (o : Outbox M) : List M := o.queue.reduceOption

/-- The messages that were taken or can still be. -/
def content (o : Outbox M) : List M := o.started.reduceOption ++ o.waiting

/-- What was written with success. -/
def delivered (o : Outbox M) : List (Option M) := (o.finished.filter Prod.snd).map Prod.fst

/-- How many of the writes that have ended have failed. -/
def failures (o : Outbox M) : ℕ := o.finished.countP (fun w => !w.2)

variable {o : Outbox M} {maxSize k n : ℕ} {m : M} {ok : Bool}

/-! ## What is still to come -/

theorem reduceOption_tail_suffix (q : List (Option M)) : q.tail.reduceOption <:+ q.reduceOption := by
  cases q with
  | nil => exact List.suffix_rfl
  | cons slot rest =>
      cases slot with
      | none => exact List.suffix_rfl
      | some m => exact List.suffix_cons m _

theorem waiting_push (o : Outbox M) (maxSize : ℕ) (m : M) :
    ∃ kept, kept <:+ o.waiting ∧ (o.push maxSize m).waiting = kept ++ [m] := by
  unfold push
  split
  · exact ⟨_, reduceOption_tail_suffix o.queue, List.reduceOption_append ..⟩
  · exact ⟨_, List.suffix_rfl, List.reduceOption_append ..⟩

theorem waiting_push_suffix : (o.push maxSize m).waiting <:+ o.waiting ++ [m] := by
  obtain ⟨kept, hkept, heq⟩ := o.waiting_push maxSize m
  rw [heq]
  exact List.suffix_append_self_iff.2 hkept

theorem waiting_push_of_lt (h : o.queue.length < maxSize) :
    (o.push maxSize m).waiting = o.waiting ++ [m] := by
  rw [push, if_neg (Nat.not_le.2 h), waiting, List.reduceOption_append]
  rfl

/-- The message of the front slot goes from the queue to the writes. -/
theorem reduceOption_take (taken rest : List (Option M)) (slot : Option M) :
    (taken ++ [slot]).reduceOption ++ (none :: rest).reduceOption
      = taken.reduceOption ++ (slot :: rest).reduceOption := by
  rw [List.reduceOption_cons_of_none, ← List.reduceOption_append, ← List.reduceOption_append,
    List.append_assoc, List.singleton_append]

theorem waiting_start_suffix : o.start.waiting <:+ o.waiting := by
  unfold start
  cases hq : o.queue with
  | nil => exact List.suffix_rfl
  | cons slot rest =>
      have htail := reduceOption_tail_suffix (slot :: rest)
      rw [waiting, waiting, hq]
      exact htail

theorem waiting_finish_suffix : (o.finish k ok).waiting <:+ o.waiting := by
  unfold finish
  split
  · exact List.suffix_rfl
  · cases ok with
    | false => exact List.suffix_rfl
    | true => exact reduceOption_tail_suffix _

/-- The messages of the writes under way, and those that wait behind them. -/
def coming (o : Outbox M) : List M := o.writes.reduceOption ++ o.waiting

@[simp] theorem coming_start : o.start.coming = o.coming := by
  unfold start
  cases hq : o.queue with
  | nil => rfl
  | cons slot rest => simp only [coming, waiting, hq, reduceOption_take]

/-! ## Order -/

theorem started_push : (o.push maxSize m).started = o.started := by
  unfold push
  split <;> rfl

theorem content_push_sublist : List.Sublist (o.push maxSize m).content (o.content ++ [m]) := by
  rw [content, content, started_push, List.append_assoc]
  exact (List.Sublist.refl _).append waiting_push_suffix.sublist

@[simp] theorem content_start : o.start.content = o.content := by
  unfold start
  cases hq : o.queue with
  | nil => rfl
  | cons slot rest => simp only [content, waiting, hq, reduceOption_take]

theorem started_finish : (o.finish k ok).started = o.started := by
  unfold finish
  split <;> rfl

theorem content_finish_sublist : List.Sublist (o.finish k ok).content o.content := by
  rw [content, content, started_finish]
  exact (List.Sublist.refl _).append waiting_finish_suffix.sublist

/-! ## Room -/

theorem length_queue_push_le (hmax : 0 < maxSize) (h : o.queue.length ≤ maxSize) :
    (o.push maxSize m).queue.length ≤ maxSize := by
  unfold push
  split
  · rw [List.length_append, List.length_tail, List.length_singleton]
    omega
  · rw [List.length_append, List.length_singleton]
    omega

theorem length_queue_start : o.start.queue.length = o.queue.length := by
  unfold start
  cases hq : o.queue with
  | nil => rw [hq]
  | cons slot rest => rfl

theorem length_queue_finish_le : (o.finish k ok).queue.length ≤ o.queue.length := by
  unfold finish
  split
  · exact le_rfl
  · cases ok with
    | false => exact le_rfl
    | true =>
        rw [if_pos rfl, List.length_tail]
        exact Nat.sub_le ..

/-! ## One write at a time -/

/-- At most one write is under way, and its slot or a later one is in the queue. -/
structure Serial (o : Outbox M) : Prop where
  writes_le : o.writes.length ≤ 1
  queue_ne_nil : o.writes ≠ [] → o.queue ≠ []
  started_eq : o.started = o.finished.map Prod.fst ++ o.writes

theorem Serial.push (h : o.Serial) (maxSize : ℕ) (m : M) : (o.push maxSize m).Serial := by
  unfold Outbox.push
  split
  · exact ⟨h.writes_le, fun _ => by simp, h.started_eq⟩
  · exact ⟨h.writes_le, fun _ => by simp, h.started_eq⟩

theorem Serial.start (h : o.Serial) (hidle : o.writes = []) : o.start.Serial := by
  unfold Outbox.start
  cases hq : o.queue with
  | nil => exact h
  | cons slot rest =>
      exact ⟨by simp [hidle], fun _ => List.cons_ne_nil _ _,
        by simp [h.started_eq, hidle]⟩

/-- The write under way is the first one. -/
theorem Serial.finish_cases (h : o.Serial) (k : ℕ) (ok : Bool) :
    o.finish k ok = o ∨
      ∃ slot, o.writes = [slot] ∧ o.queue ≠ [] ∧
        o.finish k ok = { o with
          queue := if ok then o.queue.tail else o.queue
          writes := []
          finished := o.finished ++ [(slot, ok)] } := by
  unfold finish
  cases hk : o.writes[k]? with
  | none => exact .inl rfl
  | some slot =>
      right
      obtain ⟨hlt, hget⟩ := List.getElem?_eq_some_iff.1 hk
      obtain rfl : k = 0 := by have := h.writes_le; omega
      obtain ⟨w, hw⟩ := List.length_eq_one_iff.1 (le_antisymm h.writes_le hlt)
      obtain rfl : w = slot := by simpa only [hw, List.getElem_cons_zero] using hget
      exact ⟨w, hw, h.queue_ne_nil (by simp [hw]), by simp [hw]⟩

theorem Serial.finish (h : o.Serial) : (o.finish k ok).Serial := by
  rcases h.finish_cases k ok with heq | ⟨slot, hw, -, heq⟩
  · rwa [heq]
  · rw [heq]
    exact ⟨Nat.zero_le _, fun hne => absurd rfl hne, by simp [h.started_eq, hw]⟩

theorem Serial.writes_finish (h : o.Serial) (ok : Bool) (hk : k < o.writes.length) :
    (o.finish k ok).writes = [] := by
  have hlt := h.writes_le
  obtain rfl : k = 0 := by omega
  unfold Outbox.finish
  rw [List.getElem?_eq_getElem hk]
  exact List.eq_nil_of_length_eq_zero (by rw [List.length_eraseIdx_of_lt hk]; omega)

theorem writes_push : (o.push maxSize m).writes = o.writes := by
  unfold push
  split <;> rfl

/-- A start that leaves no write under way has found nothing to write. -/
theorem queue_start_eq_nil (h : o.start.writes = []) : o.start.queue = [] := by
  unfold start at h ⊢
  cases hq : o.queue with
  | nil => rw [hq]
  | cons slot rest => simp [hq] at h

/-! ## Losses -/

/-- A write under way whose slot was dropped will take another one with it. -/
def debt (o : Outbox M) : ℕ :=
  match o.writes, o.queue with
  | [], _ => 0
  | _ :: _, none :: _ => 0
  | _ :: _, _ => 1

/-- Of the `n` messages pushed, no more are missing than there were overflows. -/
def Accounted (o : Outbox M) (n : ℕ) : Prop := n + o.debt ≤ o.content.length + o.overflows

@[simp] theorem debt_idle (q : List (Option M)) (ss : List (Option M))
    (fs : List (Option M × Bool)) (n : ℕ) : debt ⟨q, [], ss, fs, n⟩ = 0 := rfl

theorem debt_le_one : o.debt ≤ 1 := by
  unfold debt
  split <;> omega

theorem debt_of_writes (h : o.writes = []) : o.debt = 0 := by
  rw [debt, h]

theorem debt_start (h : o.writes = []) : o.start.debt = 0 := by
  unfold start
  cases hq : o.queue with
  | nil => exact debt_of_writes h
  | cons slot rest => simp [debt, h]

/-- Without an overflow the front slot stays. -/
theorem debt_push_of_lt (hserial : o.Serial) (h : o.queue.length < maxSize) :
    (o.push maxSize m).debt = o.debt := by
  rw [push, if_neg (Nat.not_le.2 h)]
  cases hw : o.writes with
  | nil => simp only [debt_idle, debt_of_writes hw]
  | cons w ws =>
      cases hq : o.queue with
      | nil => exact absurd hq (hserial.queue_ne_nil (by simp [hw]))
      | cons slot rest => cases slot <;> simp [debt, hw, hq]

/-- The write under way succeeds, and its slot goes. -/
theorem coming_finish (hserial : o.Serial) (hdebt : o.debt = 0) (hk : k < o.writes.length) :
    (o.writes[k]?).join.toList ++ (o.finish k true).coming = o.coming := by
  have hidle := hserial.writes_finish true hk
  rcases hserial.finish_cases k true with heq | ⟨slot, hw, hq, heq⟩
  · rw [heq] at hidle
    simp [hidle] at hk
  · obtain rfl : k = 0 := by simpa [hw] using hk
    cases hqueue : o.queue with
    | nil => exact absurd hqueue hq
    | cons front rest =>
        cases front with
        | some m => simp [debt, hw, hqueue] at hdebt
        | none => simp [heq, coming, waiting, hw, hqueue, List.reduceOption_singleton]

theorem length_content : o.content.length = o.started.reduceOption.length + o.waiting.length :=
  List.length_append

theorem Accounted.push (h : o.Accounted n) (hserial : o.Serial) :
    (o.push maxSize m).Accounted (n + 1) := by
  have hdebt := debt_le_one (o := o.push maxSize m)
  obtain ⟨queue, writes, started, finished, overflows⟩ := o
  unfold Accounted at h ⊢
  rw [length_content] at h ⊢
  unfold Outbox.push at hdebt ⊢
  cases writes with
  | nil =>
      -- nothing is under way, so that a dropped slot costs one message at most
      split
      · cases queue with
        | nil => simp [waiting] at h ⊢; omega
        | cons slot rest => cases slot <;> simp [waiting, List.reduceOption_append] at h ⊢ <;> omega
      · simp [waiting, List.reduceOption_append] at h ⊢
        omega
  | cons w ws =>
      cases queue with
      | nil => exact absurd rfl (hserial.queue_ne_nil (List.cons_ne_nil _ _))
      | cons slot rest =>
          split
          · -- a taken slot costs nothing yet, but leaves a debt
            rename_i hfull
            rw [if_pos hfull] at hdebt
            cases slot <;> simp [waiting, List.reduceOption_append, debt] at h hdebt ⊢ <;> omega
          · cases slot <;> simp [waiting, List.reduceOption_append, debt] at h ⊢ <;> omega

theorem Accounted.start (h : o.Accounted n) : o.start.Accounted n := by
  unfold Accounted at h ⊢
  rw [content_start]
  have hle : o.start.debt ≤ o.debt := by
    unfold Outbox.start
    cases hq : o.queue with
    | nil => exact le_rfl
    | cons slot rest =>
        have hzero : debt { o with
            queue := none :: rest, writes := o.writes ++ [slot],
            started := o.started ++ [slot] } = 0 := by
          cases hw : o.writes <;> rfl
        rw [hzero]
        exact Nat.zero_le _
  have hsame : o.start.overflows = o.overflows := by
    unfold Outbox.start
    split <;> rfl
  omega

theorem Accounted.finish (h : o.Accounted n) (hserial : o.Serial) :
    (o.finish k ok).Accounted n := by
  rcases hserial.finish_cases k ok with heq | ⟨slot, hw, hq, heq⟩
  · rwa [heq]
  · rw [heq]
    obtain ⟨queue, writes, started, finished, overflows⟩ := o
    obtain rfl : writes = [slot] := hw
    unfold Accounted at h ⊢
    rw [length_content] at h ⊢
    cases queue with
    | nil => exact absurd rfl hq
    | cons front rest =>
        cases ok with
        | false => cases front <;> simp [waiting, debt] at h ⊢ <;> omega
        | true => cases front <;> simp [waiting, debt] at h ⊢ <;> omega

/-! ## Deliveries -/

theorem delivered_sublist (hserial : o.Serial) : List.Sublist o.delivered o.started := by
  rw [hserial.started_eq]
  exact ((List.filter_sublist).map _).trans (List.sublist_append_left ..)

theorem length_reduceOption_le (ws : List (Option M × Bool)) :
    (ws.map Prod.fst).reduceOption.length
      ≤ ((ws.filter Prod.snd).map Prod.fst).reduceOption.length + ws.countP (fun w => !w.2) := by
  induction ws with
  | nil => exact le_rfl
  | cons w ws ih =>
      obtain ⟨_ | m, _ | _⟩ := w <;> simp at ih ⊢ <;> omega

/-- An outbox without writes and slots has delivered all but the failed and the overflown messages. -/
theorem Accounted.delivered (h : o.Accounted n) (hserial : o.Serial) (hwrites : o.writes = [])
    (hqueue : o.queue = []) :
    n ≤ o.delivered.reduceOption.length + o.failures + o.overflows := by
  have hle := length_reduceOption_le o.finished
  have hstarted := hserial.started_eq
  unfold Accounted at h
  rw [length_content, waiting, hqueue, hstarted, hwrites] at h
  simp only [List.append_nil, List.reduceOption_nil, List.length_nil] at h
  unfold Outbox.delivered failures
  omega

/-! ## Empty slots -/

/-- Only the front slot can be empty. -/
def Packed (o : Outbox M) : Prop := ∀ slot ∈ o.queue.tail, slot.isSome

theorem Packed.push (h : o.Packed) : (o.push maxSize m).Packed := by
  have hnew : ∀ slot ∈ o.queue.tail ++ [some m], slot.isSome := by
    intro slot hslot
    rcases List.mem_append.1 hslot with hold | hnew
    · exact h slot hold
    · rw [List.mem_singleton.1 hnew]
      rfl
  unfold Outbox.push
  split
  · exact fun slot hslot => hnew slot (List.mem_of_mem_tail hslot)
  · intro slot hslot
    cases hq : o.queue with
    | nil => simp [hq] at hslot
    | cons front rest => exact hnew slot (by simpa [hq] using hslot)

theorem Packed.start (h : o.Packed) : o.start.Packed := by
  unfold Outbox.start
  cases hq : o.queue with
  | nil => exact h
  | cons slot rest => simpa [Packed, hq] using h

theorem Packed.finish (h : o.Packed) : (o.finish k true).Packed := by
  unfold Outbox.finish
  split
  · exact h
  · exact fun slot hslot => h slot (List.mem_of_mem_tail hslot)

end Outbox
