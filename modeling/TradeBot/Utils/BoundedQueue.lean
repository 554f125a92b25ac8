import TradeBot.Lib.SortedSlices
import TradeBot.Utils.CircularBuffer

set_option autoImplicit false

/-! # The slots of CircularBuffer

`utils/CircularBuffer.hpp` as it stores its values: an array with the positions of the next write and of
the oldest value, and a count. It is a queue of at most `n` values from the outside, the one that
`CircularBuffer` models.

The abstract side is a list of at most `n` values, and `Represents` is the refinement relation: the
slots from the tail on hold the list. Positions are taken modulo `n`, but with the count beside them
they are never ambiguous, so no call needs a condition. -/

namespace TradeBot

/-- `data_` is read and written below `n` only. -/
structure RingSlots (α : Type*) where
  data : ℕ → α
  head : ℕ := 0
  tail : ℕ := 0
  size : ℕ := 0

/-- A call that changes the buffer. -/
inductive QueueCall (α : Type*)
  | pushBack (value : α)
  | popFront
  | clear

namespace RingSlots

variable {α : Type*} (n : ℕ)

/-- A full buffer overwrites its oldest value. -/
def pushBack (r : RingSlots α) (value : α) : RingSlots α :=
  let r := { r with data := Function.update r.data r.head value, head := (r.head + 1) % n }
  if r.size < n then { r with size := r.size + 1 } else { r with tail := (r.tail + 1) % n }

/-- An empty buffer stays as it is. -/
def popFront (r : RingSlots α) : RingSlots α :=
  if r.size = 0 then r else { r with tail := (r.tail + 1) % n, size := r.size - 1 }

/-- The values stay in their slots, and the positions are reset. -/
def clear (r : RingSlots α) : RingSlots α := { r with head := 0, tail := 0, size := 0 }

/-- The oldest value, if there is one. -/
def front (r : RingSlots α) : α := r.data r.tail

/-- The newest value, if there is one. -/
def back (r : RingSlots α) : α := r.data ((r.head + n - 1) % n)

/-- The value behind the `i` oldest ones. -/
def get (r : RingSlots α) (i : ℕ) : α := r.data ((r.tail + i) % n)

/-- The buffer after a call. -/
def step (r : RingSlots α) : QueueCall α → RingSlots α
  | .pushBack value => r.pushBack n value
  | .popFront => r.popFront n
  | .clear => r.clear

end RingSlots

/-- A list that is appended to, and loses its first element when it would be longer than `n`. -/
def queueStep {α : Type*} (n : ℕ) (queue : List α) : QueueCall α → List α
  | .pushBack value =>
      if n < (queue ++ [value]).length then (queue ++ [value]).tail else queue ++ [value]
  | .popFront => queue.tail
  | .clear => []

namespace RingSlots

open RingBuffer

variable {α : Type*} {n : ℕ} {r : RingSlots α} {queue : List α}

/-- The slots are those of a ring that was written since the last `clear`, and the queue is the window
from the tail on. -/
def Represents (n : ℕ) (r : RingSlots α) (queue : List α) : Prop :=
  ∃ history, Holds n r.data history ∧ r.head = history.length % n ∧
    IsWindow n history r.tail queue ∧ r.size = queue.length

theorem represents_empty {head tail size : ℕ} (data : ℕ → α) (hhead : head = 0) (htail : tail = 0)
    (hsize : size = 0) : Represents n ⟨data, head, tail, size⟩ [] := by
  subst hhead htail hsize
  exact ⟨[], holds_nil, (Nat.zero_mod n).symm, isWindow_nil, rfl⟩

theorem Represents.pushBack (h : Represents n r queue) (hn : 0 < n) (value : α) :
    Represents n (r.pushBack n value) (queueStep n queue (.pushBack value)) := by
  obtain ⟨history, hslots, hhead, hwindow, hsize⟩ := h
  have hdata : Holds n (Function.update r.data r.head value) (history ++ [value]) := by
    rw [hhead]
    exact hslots.push value
  have hnext : (r.head + 1) % n = (history.length + 1) % n := by
    rw [hhead, Nat.mod_add_mod]
  have hlength := hwindow.length_le
  refine ⟨history ++ [value], ?_⟩
  simp only [RingSlots.pushBack, queueStep, List.length_append, List.length_singleton]
  by_cases hroom : r.size < n
  · rw [if_pos hroom, if_neg (by omega)]
    refine ⟨hdata, hnext, hwindow.push (hsize ▸ hroom) value, ?_⟩
    simp [hsize]
  · rw [if_neg hroom, if_pos (by omega)]
    cases queue with
    | nil =>
        rw [List.length_nil] at hsize
        omega
    | cons x queue =>
        -- the slot of the oldest value is the one that was written
        have hfull : (x :: queue).length = n := by omega
        rw [List.length_cons] at hfull
        refine ⟨hdata, hnext, hwindow.pop.push (by omega) value, ?_⟩
        simp [hsize]

theorem Represents.popFront (h : Represents n r queue) :
    Represents n (r.popFront n) (queueStep n queue .popFront) := by
  obtain ⟨history, hslots, hhead, hwindow, hsize⟩ := h
  unfold RingSlots.popFront
  cases queue with
  | nil =>
      rw [if_pos (by simpa using hsize)]
      exact ⟨history, hslots, hhead, hwindow, hsize⟩
  | cons x queue =>
      rw [List.length_cons] at hsize
      rw [if_neg (by omega)]
      refine ⟨history, hslots, hhead, hwindow.pop, ?_⟩
      show r.size - 1 = queue.length
      omega

theorem Represents.step (h : Represents n r queue) (hn : 0 < n) (call : QueueCall α) :
    Represents n (r.step n call) (queueStep n queue call) := by
  cases call with
  | pushBack value => exact h.pushBack hn value
  | popFront => exact h.popFront
  | clear => exact represents_empty r.data rfl rfl rfl

theorem represents_foldl (hn : 0 < n) (data : ℕ → α) (calls : List (QueueCall α)) :
    Represents n (calls.foldl (RingSlots.step n) { data := data }) (calls.foldl (queueStep n) []) :=
  List.foldl_rel (represents_empty data rfl rfl rfl) fun call _ _ _ h => h.step hn call

theorem Represents.get (h : Represents n r queue) {i : ℕ} (hi : i < queue.length) :
    r.get n i = queue[i] := by
  obtain ⟨history, hslots, -, hwindow, -⟩ := h
  exact hwindow.getElem hslots hi

theorem Represents.front (h : Represents n r queue) {x : α} (hx : queue.head? = some x) :
    r.front = x := by
  obtain ⟨history, hslots, -, hwindow, -⟩ := h
  obtain ⟨rest, rfl⟩ := List.head?_eq_some_iff.1 hx
  exact hwindow.slot hslots

theorem Represents.back (h : Represents n r queue) (hn : 0 < n) {x : α}
    (hx : queue.getLast? = some x) : r.back n = x := by
  obtain ⟨history, hslots, hhead, hwindow, -⟩ := h
  obtain ⟨rest, rfl⟩ := List.getLast?_eq_some_iff.1 hx
  have hlast := hwindow.slot_last hn hslots
  rwa [← hhead] at hlast

/-- The buffers of the detectors are queues of this kind. -/
theorem entries_pushBack (buf : CircularBuffer α n) (value : α) :
    (buf.pushBack value).entries = queueStep n buf.entries (.pushBack value) := by
  have hlength := buf.length_le
  unfold CircularBuffer.pushBack queueStep
  simp only [List.length_append, List.length_singleton]
  by_cases hroom : buf.entries.length < n
  · rw [if_pos hroom, if_neg (by omega)]
  · rw [if_neg hroom, if_pos (by omega)]

theorem Represents.popFront_iterate (h : Represents n r queue) (k : ℕ) :
    Represents n ((RingSlots.popFront n)^[k] r) (queue.drop k) := by
  induction k with
  | zero => exact h
  | succ k ih =>
      rw [Function.iterate_succ_apply', ← List.tail_drop]
      exact ih.popFront

theorem Represents.popWhile {buf : CircularBuffer α n} (h : Represents n r buf.entries) (p : α → Bool) :
    Represents n ((RingSlots.popFront n)^[(buf.entries.takeWhile p).length] r)
      (buf.popWhile p).entries := by
  show Represents n _ (buf.entries.dropWhile p)
  rw [← SortedSlices.drop_length_takeWhile]
  exact h.popFront_iterate _

theorem calls_agree (n : ℕ) (hn : 1 ≤ n) (data : ℕ → α) (calls : List (QueueCall α)) :
    let r := calls.foldl (RingSlots.step n) { data := data }
    let queue := calls.foldl (queueStep n) []
    r.size = queue.length ∧
    (∀ x, queue.head? = some x → r.front = x) ∧
    (∀ x, queue.getLast? = some x → r.back n = x) ∧
    ∀ i (hi : i < queue.length), r.get n i = queue[i] := by
  intro r queue
  have hrep : Represents n r queue := represents_foldl hn data calls
  obtain ⟨-, -, -, -, hsize⟩ := id hrep
  exact ⟨hsize, fun _ hx => hrep.front hx, fun _ hx => hrep.back hn hx, fun _ hi => hrep.get hi⟩

theorem calls_agree_two :
    let calls : List (QueueCall ℕ) := [.pushBack 1, .pushBack 2, .pushBack 3, .popFront, .pushBack 4]
    (calls.foldl (RingSlots.step 2) { data := fun _ => 0 }).size
      = (calls.foldl (queueStep 2) []).length :=
  (calls_agree 2 (by decide) (fun _ => 0)
    [.pushBack 1, .pushBack 2, .pushBack 3, .popFront, .pushBack 4]).1

end RingSlots

end TradeBot
