import TradeBot.Lib.RingBuffer

set_option autoImplicit false

/-! # CircularBuffer

`utils/CircularBuffer.hpp`: a buffer of fixed capacity, which holds the values that were pushed last.

The slots of the source are modelled in `BoundedQueue` and refine this list. The detectors keep their
histories in such buffers, and look at them from the oldest value on. -/

namespace TradeBot

/-- What is seen of a buffer from outside. The bound is part of the type. -/
structure CircularBuffer (α : Type*) (n : ℕ) where
  /-- The values, the oldest one first, as `operator[]` reads them. -/
  entries : List α
  length_le : entries.length ≤ n

namespace CircularBuffer

variable {α : Type*} {n : ℕ}

instance : EmptyCollection (CircularBuffer α n) := ⟨⟨[], Nat.zero_le n⟩⟩

instance : Membership α (CircularBuffer α n) := ⟨fun buf x => x ∈ buf.entries⟩

@[simp] theorem entries_empty : (∅ : CircularBuffer α n).entries = [] := rfl

/-- `push_back`; the oldest value leaves a full buffer. -/
@[irreducible] def pushBack (buf : CircularBuffer α n) (x : α) : CircularBuffer α n where
  entries :=
    if buf.entries.length < n then buf.entries ++ [x] else (buf.entries ++ [x]).tail
  length_le := by
    have hlength := buf.length_le
    split_ifs
    · rw [List.length_append, List.length_singleton]
      omega
    · rw [List.length_tail, List.length_append, List.length_singleton]
      omega

/-- `pop_front` as long as the oldest value meets a condition. -/
def popWhile (buf : CircularBuffer α n) (p : α → Bool) : CircularBuffer α n where
  entries := buf.entries.dropWhile p
  length_le := (List.dropWhile_suffix p).length_le.trans buf.length_le

variable {buf : CircularBuffer α n}

theorem entries_pushBack_eq (buf : CircularBuffer α n) (x : α) :
    (buf.pushBack x).entries = (buf.entries ++ [x]).rtake n := by
  have hlength := buf.length_le
  unfold pushBack
  rw [List.rtake, List.length_append, List.length_singleton]
  dsimp only
  split_ifs
  · rw [Nat.sub_eq_zero_of_le (by omega), List.drop_zero]
  · rw [← List.drop_one]
    congr 1
    omega

theorem entries_pushBack_succ (buf : CircularBuffer α (n + 1)) (x : α) :
    (buf.pushBack x).entries = buf.entries.rtake n ++ [x] := by
  rw [entries_pushBack_eq, List.rtake_concat_succ]

theorem mem_of_mem_pushBack {x y : α} (h : y ∈ buf.pushBack x) : y ∈ buf ∨ y = x := by
  have hmem : y ∈ (buf.entries ++ [x]).rtake n := entries_pushBack_eq buf x ▸ h
  rcases List.mem_append.1 (List.mem_of_mem_drop hmem) with hold | hnew
  · exact Or.inl hold
  · exact Or.inr (List.mem_singleton.1 hnew)

/-- A buffer that holds the last values of a history goes on to do so. -/
theorem entries_pushBack {history : List α} (h : buf.entries = history.rtake n) (x : α) :
    (buf.pushBack x).entries = (history ++ [x]).rtake n := by
  rw [entries_pushBack_eq, h, ← RingBuffer.rtake_concat]

end CircularBuffer

end TradeBot
