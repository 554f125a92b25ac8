import Mathlib.Data.List.DropRight
import Mathlib.Data.List.Rotate
import Mathlib.Data.List.TakeWhile
import Mathlib.Data.Nat.ModEq
import Mathlib.Logic.Function.Basic

set_option autoImplicit false

/-! # Ring buffers and windows over them

A ring of `cap` slots that is written round and round holds the last `cap` entries of everything that
was ever written. A window over it is a tail that follows the head: the entries from the tail on. Head
and tail are positions in the history taken modulo `cap`, so equal positions mean an empty window or
one that fills the ring, and nothing in the ring says which.

`IsWindow` relates the two positions to a list, which is the tail of the history that the window
stands for. Pushing and popping are stated on the list. The case that the ring cannot tell apart is
left to the caller, as `IsWindow.tail_eq_head_iff`. -/

namespace RingBuffer

variable {α : Type*} {cap : ℕ} {slots : ℕ → α} {history window : List α} {tail : ℕ}

theorem mod_ne_mod {a b : ℕ} (hlt : a < b) (hnear : b < a + cap) : a % cap ≠ b % cap := by
  intro heq
  have hdvd : cap ∣ b - a := (Nat.modEq_iff_dvd' hlt.le).1 heq
  have hle : cap ≤ b - a := Nat.le_of_dvd (by omega) hdvd
  omega

/-- The number of steps from the tail to the head. -/
def distance (cap head tail : ℕ) : ℕ := (head + cap - tail) % cap

theorem distance_eq {a b : ℕ} (hcap : 0 < cap) (hle : a ≤ b) (hnear : b ≤ a + cap) :
    distance cap (b % cap) (a % cap) = if b = a + cap then 0 else b - a := by
  have ha : a % cap < cap := Nat.mod_lt _ hcap
  have hsum : (b % cap + cap - a % cap + a % cap) % cap = (b - a + a % cap) % cap := by
    rw [Nat.sub_add_cancel (by omega), Nat.add_mod_right, Nat.mod_mod, Nat.add_mod_mod,
      Nat.sub_add_cancel hle]
  have hmod : distance cap (b % cap) (a % cap) = (b - a) % cap :=
    Nat.ModEq.add_right_cancel' (a % cap) hsum
  rw [hmod]
  split
  · rename_i h
    rw [h, Nat.add_sub_cancel_left, Nat.mod_self]
  · exact Nat.mod_eq_of_lt (by omega)

/-- The slots hold the last entries of the history. -/
def Holds (cap : ℕ) (slots : ℕ → α) (history : List α) : Prop :=
  ∀ i (h : i < history.length), history.length ≤ i + cap → slots (i % cap) = history[i]

theorem holds_nil : Holds cap slots [] := fun _ h => absurd h (Nat.not_lt_zero _)

theorem Holds.push (h : Holds cap slots history) (x : α) :
    Holds cap (Function.update slots (history.length % cap) x) (history ++ [x]) := by
  intro i hi hnear
  rw [List.length_append, List.length_singleton] at hi hnear
  rcases Nat.lt_succ_iff_lt_or_eq.1 hi with hlt | rfl
  · rw [Function.update_of_ne (mod_ne_mod hlt (by omega)), List.getElem_append_left hlt]
    exact h i hlt (by omega)
  · rw [Function.update_self, List.getElem_append_right le_rfl]
    simp

/-- `tail` points at the oldest entry of `window`, the newest entries of the history. -/
structure IsWindow (cap : ℕ) (history : List α) (tail : ℕ) (window : List α) : Prop where
  length_le : window.length ≤ cap
  suffix : window <:+ history
  tail_eq : tail = (history.length - window.length) % cap

theorem isWindow_nil : IsWindow cap ([] : List α) 0 [] where
  length_le := Nat.zero_le _
  suffix := List.suffix_rfl
  tail_eq := (Nat.zero_mod _).symm

theorem IsWindow.length_le_history (h : IsWindow cap history tail window) :
    window.length ≤ history.length := h.suffix.length_le

/-- Head and tail coincide exactly on an empty window and on one that fills the ring. -/
theorem IsWindow.tail_eq_head_iff (h : IsWindow cap history tail window) :
    tail = history.length % cap ↔ window.length = 0 ∨ window.length = cap := by
  have hle := h.length_le_history
  have hcap := h.length_le
  rw [h.tail_eq]
  constructor
  · intro heq
    by_contra hno
    exact mod_ne_mod (by omega) (by omega) heq
  · rintro (hzero | hfull)
    · rw [hzero, Nat.sub_zero]
    · rw [hfull, ← Nat.add_mod_right, Nat.sub_add_cancel (hfull ▸ hle)]

/-- A window that does not fill the ring takes the new entry. -/
theorem IsWindow.push (h : IsWindow cap history tail window) (hroom : window.length < cap) (x : α) :
    IsWindow cap (history ++ [x]) tail (window ++ [x]) where
  length_le := by
    rw [List.length_append, List.length_singleton]
    exact hroom
  suffix := by
    obtain ⟨older, rfl⟩ := h.suffix
    exact ⟨older, (List.append_assoc ..).symm⟩
  tail_eq := by
    rw [h.tail_eq, List.length_append, List.length_append, Nat.add_sub_add_right]

/-- The oldest entry leaves a window. -/
theorem IsWindow.pop {x : α} (h : IsWindow cap history tail (x :: window)) :
    IsWindow cap history ((tail + 1) % cap) window where
  length_le := (Nat.le_succ _).trans h.length_le
  suffix := (List.suffix_cons x window).trans h.suffix
  tail_eq := by
    have hle := h.length_le_history
    rw [List.length_cons] at hle
    rw [h.tail_eq, Nat.mod_add_mod, List.length_cons]
    congr 1
    omega

/-- The slot at the tail holds the oldest entry. -/
theorem IsWindow.slot {x : α} (h : IsWindow cap history tail (x :: window))
    (hslots : Holds cap slots history) : slots tail = x := by
  obtain ⟨older, rfl⟩ := h.suffix
  have hcap := h.length_le
  have hi : older.length < (older ++ x :: window).length := by simp
  have hslot := hslots older.length hi (by simpa using hcap)
  rw [h.tail_eq, List.length_append, Nat.add_sub_cancel, hslot]
  simp

/-- The slots from the tail on hold the window. -/
theorem IsWindow.getElem (h : IsWindow cap history tail window) (hslots : Holds cap slots history)
    {i : ℕ} (hi : i < window.length) : slots ((tail + i) % cap) = window[i] := by
  obtain ⟨older, rfl⟩ := h.suffix
  have hcap := h.length_le
  have hj : older.length + i < (older ++ window).length := by simpa using hi
  have hslot := hslots (older.length + i) hj (by rw [List.length_append]; omega)
  rw [h.tail_eq, List.length_append, Nat.add_sub_cancel, Nat.mod_add_mod, hslot]
  simp

/-- The slot before the head holds the newest entry. -/
theorem IsWindow.slot_last {x : α} (h : IsWindow cap history tail (window ++ [x])) (hcap : 0 < cap)
    (hslots : Holds cap slots history) : slots ((history.length % cap + cap - 1) % cap) = x := by
  have hget := h.getElem hslots (i := window.length) (by simp)
  rw [List.getElem_concat_length rfl] at hget
  rw [← hget, h.tail_eq, Nat.mod_add_mod, Nat.add_sub_assoc hcap, Nat.mod_add_mod,
    List.length_append, List.length_singleton]
  have hle : window.length + 1 ≤ history.length := by simpa using h.length_le_history
  have hshift : history.length + (cap - 1) = history.length - (window.length + 1) + window.length + cap := by
    omega
  rw [hshift, Nat.add_mod_right]

theorem IsWindow.distance_eq (h : IsWindow cap history tail window) (hcap : 0 < cap) :
    distance cap (history.length % cap) tail = if window.length = cap then 0 else window.length := by
  have hle := h.length_le_history
  have hlen := h.length_le
  rw [h.tail_eq, RingBuffer.distance_eq hcap (Nat.sub_le _ _) (by omega)]
  split_ifs <;> omega

/-! ## The last entries of a history -/

/-- A vector that is written at its oldest slot drops that one, in the order of the ring. -/
theorem rotate_set {l : List α} {i : ℕ} (hi : i < l.length) (x : α) :
    (l.set i x).rotate ((i + 1) % l.length) = (l.rotate i).tail ++ [x] := by
  have hset : (l.set i x).length = l.length := List.length_set
  have htake : (l.set i x).take (i + 1) = l.take i ++ [x] := by
    rw [List.take_add_one, List.take_set_of_le le_rfl, List.getElem?_set_self hi]
    rfl
  have htail : (l.rotate i).tail = l.drop (i + 1) ++ l.take i := by
    rw [List.rotate_eq_drop_append_take hi.le, List.drop_eq_getElem_cons hi, List.cons_append,
      List.tail_cons]
  rw [← hset, List.rotate_mod, List.rotate_eq_drop_append_take (by omega), htake,
    List.drop_set_of_lt (Nat.lt_succ_self i), htail, List.append_assoc]

theorem rtake_concat_of_length_le {l : List α} {n : ℕ} (hn : 0 < n) (h : n ≤ l.length) (x : α) :
    (l ++ [x]).rtake n = (l.rtake n).tail ++ [x] := by
  obtain ⟨n, rfl⟩ := Nat.exists_eq_succ_of_ne_zero hn.ne'
  have hlength : l.length - (n + 1) + 1 = l.length - n := by omega
  rw [Nat.succ_eq_add_one, List.rtake_concat_succ, List.rtake, List.rtake, List.tail_drop, hlength]

theorem rtake_of_length_le {l : List α} {n : ℕ} (h : l.length ≤ n) : l.rtake n = l := by
  rw [List.rtake, Nat.sub_eq_zero_of_le h, List.drop_zero]

theorem map_rtake {β : Type*} (f : α → β) (l : List α) (n : ℕ) :
    (l.map f).rtake n = (l.rtake n).map f := by
  rw [List.rtake, List.length_map, ← List.map_drop]
  rfl

theorem rtake_append (l l' : List α) (n : ℕ) : ∃ k, (l ++ l').rtake n = l.drop k ++ l'.rtake n := by
  refine ⟨(l ++ l').length - n, ?_⟩
  have hlen : (l ++ l').length - n - l.length = l'.length - n := by
    rw [List.length_append]
    omega
  rw [List.rtake, List.rtake, List.drop_append, hlen]

theorem rtake_concat (l : List α) (x : α) (n : ℕ) :
    (l ++ [x]).rtake n = (l.rtake n ++ [x]).rtake n := by
  cases n with
  | zero => rw [List.rtake_zero, List.rtake_zero]
  | succ n =>
      have hshort : (l.rtake (n + 1)).rtake n = l.rtake n := by
        simp [List.rtake_eq_reverse_take_reverse, List.take_take]
      rw [List.rtake_concat_succ, List.rtake_concat_succ, hshort]

/-- Entries that were dropped from the front would be dropped from it again. -/
theorem dropWhile_rtake_concat {p q : α → Bool} (hpq : ∀ a, p a = true → q a = true) (l : List α)
    (x : α) (n : ℕ) :
    ((((l.rtake n).dropWhile p) ++ [x]).rtake n).dropWhile q = ((l ++ [x]).rtake n).dropWhile q := by
  have hsplit : (l.rtake n ++ [x]) = (l.rtake n).takeWhile p ++ ((l.rtake n).dropWhile p ++ [x]) := by
    rw [← List.append_assoc, List.takeWhile_append_dropWhile]
  obtain ⟨k, hk⟩ := rtake_append ((l.rtake n).takeWhile p) ((l.rtake n).dropWhile p ++ [x]) n
  rw [rtake_concat l, hsplit, hk, List.dropWhile_append_of_pos]
  exact fun a ha => hpq a (List.mem_takeWhile_imp (List.mem_of_mem_drop ha))

/-- Where whatever meets `p` comes first, dropping it from the front removes all of it. -/
theorem dropWhile_eq_filter {p : α → Bool} {l : List α}
    (h : l.Pairwise (fun a b => p b = true → p a = true)) :
    l.dropWhile p = l.filter (fun a => !p a) := by
  induction l with
  | nil => rfl
  | cons a l ih =>
      obtain ⟨hfirst, hrest⟩ := List.pairwise_cons.1 h
      cases hp : p a with
      | true => simp [hp, ih hrest]
      | false =>
          have hall : (a :: l).filter (fun b => !p b) = a :: l := by
            refine List.filter_eq_self.2 fun b hb => ?_
            rcases List.mem_cons.1 hb with rfl | hb
            · simp [hp]
            · by_contra hpb
              simp [hfirst b hb (by simpa using hpb)] at hp
          rw [List.dropWhile_cons_of_neg (by simp [hp]), hall]

end RingBuffer
