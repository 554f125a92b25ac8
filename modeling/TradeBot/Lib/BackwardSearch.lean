import Mathlib.Data.List.Induction
import Mathlib.Data.List.Nodup
import Mathlib.Data.List.TakeWhile
import Mathlib.Order.Lattice

set_option autoImplicit false

/-! # Searching a log from its end

A key is searched from the newest entry of a log on, and the search gives up at the first entry with a
smaller key. It finds every key in a log that is ordered by its keys. In any other log it misses the
keys that were overtaken: a smaller key was logged after them (`finds_iff`).

`Overtaken` is a property of the log alone. A caller that looks for a key in the last entries of a
log and logs it if the search fails will log a key twice only if it had been overtaken among these
entries (`finds_or_not_mem_iff`). -/

namespace BackwardSearch

variable {α κ : Type*} [LinearOrder κ] (key : α → κ) (k : κ)

/-- The search, with the newest entry first. -/
def search : List α → Bool
  | [] => false
  | a :: older => if key a = k then true else if key a < k then false else search older

/-- Is the key found in a log, which has its oldest entry first? -/
def finds (log : List α) : Bool := search key k log.reverse

/-- The key is in the log, and a smaller one comes after it. -/
def Overtaken (log : List α) : Prop := ∃ a ∈ log.dropWhile (fun a => decide (key a ≠ k)), key a < k

instance (log : List α) : Decidable (Overtaken key k log) :=
  inferInstanceAs (Decidable (∃ a ∈ _, _))

variable {key k} {a : α} {log front : List α}

theorem finds_concat : finds key k (log ++ [a])
    = if key a = k then true else if key a < k then false else finds key k log := by
  rw [finds, List.reverse_append]
  rfl

theorem dropWhile_eq_nil_iff :
    log.dropWhile (fun a => decide (key a ≠ k)) = [] ↔ k ∉ log.map key := by
  simp [List.dropWhile_eq_nil_iff, List.mem_map]

theorem not_overtaken_of_not_mem (h : k ∉ log.map key) : ¬ Overtaken key k log := by
  rintro ⟨a, ha, -⟩
  rw [dropWhile_eq_nil_iff.2 h] at ha
  cases ha

theorem overtaken_concat (h : k ∈ log.map key) :
    Overtaken key k (log ++ [a]) ↔ Overtaken key k log ∨ key a < k := by
  have hne : log.dropWhile (fun a => decide (key a ≠ k)) ≠ [] := fun hnil =>
    dropWhile_eq_nil_iff.1 hnil h
  rw [Overtaken, Overtaken, List.dropWhile_append, if_neg (by simpa using hne)]
  simp [or_and_right, exists_or]

/-- Exactly the keys that were not overtaken are found. -/
theorem finds_iff (hnodup : (log.map key).Nodup) :
    finds key k log = true ↔ k ∈ log.map key ∧ ¬ Overtaken key k log := by
  induction log using List.reverseRecOn with
  | nil => simp [finds, search]
  | append_singleton log a ih =>
      rw [List.map_append, List.nodup_append] at hnodup
      obtain ⟨hlog, -, hdisjoint⟩ := hnodup
      rw [finds_concat]
      by_cases hk : key a = k
      · have hnew : k ∉ log.map key := fun hmem => hdisjoint k hmem k (by simp [hk]) rfl
        rw [if_pos hk]
        refine iff_of_true rfl ⟨by simp [hk], ?_⟩
        rw [Overtaken, List.dropWhile_append, dropWhile_eq_nil_iff.2 hnew]
        simp [hk]
      · have hmem : k ∈ (log ++ [a]).map key ↔ k ∈ log.map key := by
          rw [List.map_append, List.mem_append]
          simp [Ne.symm hk]
        rw [if_neg hk, hmem]
        by_cases hin : k ∈ log.map key
        · rw [overtaken_concat hin]
          split_ifs with hlt
          · simp [hlt]
          · rw [ih hlog]
            simp [hlt]
        · split_ifs
          · simp [hin]
          · rw [ih hlog]
            simp [hin]

/-- Nothing before the key matters. -/
theorem finds_append (h : k ∈ log.map key) : finds key k (front ++ log) = finds key k log := by
  induction log using List.reverseRecOn with
  | nil => cases h
  | append_singleton log a ih =>
      rw [← List.append_assoc, finds_concat, finds_concat]
      split_ifs with hk
      · rfl
      · rfl
      · refine ih ?_
        rw [List.map_append, List.mem_append] at h
        exact h.resolve_right (by simpa using Ne.symm hk)

/-- A key can be logged again without a repetition among the last entries if and only if it was not
    overtaken there. -/
theorem finds_or_not_mem_iff {last : List α} (hnodup : (log.map key).Nodup) (hlast : last <:+ log) :
    finds key k log = true ∨ k ∉ last.map key ↔ ¬ Overtaken key k last := by
  obtain ⟨front, rfl⟩ := hlast
  by_cases hin : k ∈ last.map key
  · have hnodup' : (last.map key).Nodup := hnodup.sublist ((List.sublist_append_right _ _).map key)
    rw [finds_append hin, finds_iff hnodup']
    simp [hin]
  · exact iff_of_true (Or.inr hin) (not_overtaken_of_not_mem hin)

end BackwardSearch
