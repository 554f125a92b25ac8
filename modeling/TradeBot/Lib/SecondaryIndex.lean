import Mathlib.Data.List.Sort
import Mathlib.Logic.Function.Basic

set_option autoImplicit false

/-! # Secondary indices

A store holds values by key, and an index lists, for each value of a field, the keys of the values
that have it. Both are given by their lookups, so that any kind of map can be one of them. The keys of
an index entry are in increasing order, and there is no empty entry.

An operation on the store comes with the one on the index that keeps the two together. `update` is
the general case of one key and one entry, and inserting and erasing a key are instances of it. -/

variable {κ ν β : Type*} [LinearOrder κ]

/-- The index lists exactly the keys that are stored with a value of the field. -/
structure SecondaryIndex (store : κ → Option β) (field : β → ν) (index : ν → Option (List κ)) :
    Prop where
  mem_iff : ∀ k t, (∃ ks, index t = some ks ∧ k ∈ ks) ↔ ∃ v, store k = some v ∧ field v = t
  nonempty : ∀ t, index t ≠ some []
  sorted : ∀ t ks, index t = some ks → ks.Pairwise (· < ·)

namespace SecondaryIndex

variable {store : κ → Option β} {field : β → ν} {index : ν → Option (List κ)} {k : κ} {v v' : β}
  {t : ν} {ks : List κ}

theorem empty (hstore : ∀ k, store k = none) (hindex : ∀ t, index t = none) :
    SecondaryIndex store field index where
  mem_iff := by simp [hstore, hindex]
  nonempty := by simp [hindex]
  sorted := by simp [hindex]

theorem exists_entry (h : SecondaryIndex store field index) (hk : store k = some v) :
    ∃ ks, index (field v) = some ks ∧ k ∈ ks :=
  (h.mem_iff k (field v)).2 ⟨v, hk, rfl⟩

theorem mem_getD (h : SecondaryIndex store field index) :
    k ∈ (index t).getD [] ↔ ∃ v, store k = some v ∧ field v = t := by
  rw [← h.mem_iff]
  cases index t <;> simp

theorem sorted_getD (h : SecondaryIndex store field index) : ((index t).getD []).Pairwise (· < ·) := by
  cases ht : index t with
  | none => exact List.Pairwise.nil
  | some ks => exact h.sorted t ks ht

/-- A stored value is replaced by one of the same field. -/
theorem replace (h : SecondaryIndex store field index) (hk : store k = some v)
    (hfield : field v' = field v) :
    SecondaryIndex (Function.update store k (some v')) field index where
  mem_iff := by
    intro k' t'
    rw [h.mem_iff]
    by_cases hkey : k' = k
    · subst hkey
      rw [Function.update_self, hk]
      simp [hfield]
    · rw [Function.update_of_ne hkey]
  nonempty := h.nonempty
  sorted := h.sorted

variable [DecidableEq ν]

/-- One entry and the value of one key are replaced. The key has the field of the entry before and
after, where it has a value. -/
theorem update (h : SecondaryIndex store field index) {value : Option β} {entry : Option (List κ)}
    (hold : ∀ v, store k = some v → field v = t) (hnew : ∀ v, value = some v → field v = t)
    (hmem : ∀ k', (∃ ks, entry = some ks ∧ k' ∈ ks) ↔
      ∃ v, Function.update store k value k' = some v ∧ field v = t)
    (hnonempty : entry ≠ some []) (hsorted : ∀ ks, entry = some ks → ks.Pairwise (· < ·)) :
    SecondaryIndex (Function.update store k value) field (Function.update index t entry) where
  mem_iff := by
    intro k' t'
    by_cases ht : t' = t
    · rw [ht, Function.update_self]
      exact hmem k'
    · rw [Function.update_of_ne ht, h.mem_iff]
      by_cases hkey : k' = k
      · -- neither the old nor the new value has the field `t'`
        rw [hkey, Function.update_self]
        exact iff_of_false (fun ⟨v, hv, hfield⟩ => ht (hfield.symm.trans (hold v hv)))
          fun ⟨v, hv, hfield⟩ => ht (hfield.symm.trans (hnew v hv))
      · rw [Function.update_of_ne hkey]
  nonempty := by
    intro t'
    by_cases ht : t' = t
    · rwa [ht, Function.update_self]
    · rw [Function.update_of_ne ht]
      exact h.nonempty t'
  sorted := by
    intro t' ks hks
    by_cases ht : t' = t
    · rw [ht, Function.update_self] at hks
      exact hsorted ks hks
    · rw [Function.update_of_ne ht] at hks
      exact h.sorted t' ks hks

/-- A new key is stored and indexed. -/
theorem insert (h : SecondaryIndex store field index) (hk : store k = none) :
    SecondaryIndex (Function.update store k (some v)) field
      (Function.update index (field v)
        (some (((index (field v)).getD []).orderedInsert (· ≤ ·) k))) := by
  have hsorted : ((index (field v)).getD []).Pairwise (· < ·) := h.sorted_getD
  refine h.update (by simp [hk]) (by simp) (fun k' => ?_) ?_ (fun ks hks => ?_)
  · by_cases hkey : k' = k
    · subst hkey
      simp
    · rw [Function.update_of_ne hkey, ← h.mem_getD]
      simp [hkey]
  · rw [ne_eq, Option.some.injEq]
    exact List.ne_nil_of_mem ((List.mem_orderedInsert _).2 (Or.inl rfl))
  · rw [Option.some.injEq] at hks
    subst hks
    have hnew : k ∉ (index (field v)).getD [] := by
      rw [h.mem_getD, hk]
      simp
    have hnodup : (((index (field v)).getD []).orderedInsert (· ≤ ·) k).Nodup := by
      refine (List.perm_orderedInsert (· ≤ ·) k _).nodup_iff.2 ?_
      exact List.nodup_cons.2 ⟨hnew, hsorted.imp (fun hlt => ne_of_lt hlt)⟩
    have hle := hsorted.imp (fun hlt => le_of_lt hlt)
    exact (hle.orderedInsert k _).imp₂ (fun a b hab hne => lt_of_le_of_ne hab hne) hnodup

/-- A key is dropped from both; an entry that becomes empty goes. -/
theorem erase (h : SecondaryIndex store field index) (hk : store k = some v)
    (hks : index (field v) = some ks) :
    SecondaryIndex (Function.update store k none) field
      (Function.update index (field v) (if ks.erase k = [] then none else some (ks.erase k))) := by
  have hsorted := h.sorted _ ks hks
  have hnodup : ks.Nodup := hsorted.imp (fun hlt => ne_of_lt hlt)
  refine h.update (fun v' hv' => ?_) (by simp) (fun k' => ?_) ?_ (fun ks' hks' => ?_)
  · rw [Option.some.inj (hk.symm.trans hv')]
  · have hentry : (∃ ks', (if ks.erase k = [] then none else some (ks.erase k)) = some ks' ∧ k' ∈ ks')
        ↔ k' ∈ ks.erase k := by
      split <;> rename_i hnil
      · simp [hnil]
      · simp
    rw [hentry, hnodup.mem_erase_iff]
    by_cases hkey : k' = k
    · subst hkey
      simp
    · rw [Function.update_of_ne hkey, ← h.mem_iff, hks]
      simp [hkey]
  · split <;> rename_i hnil
    · simp
    · simpa using hnil
  · split at hks'
    · cases hks'
    · rw [Option.some.injEq] at hks'
      subst hks'
      exact hsorted.sublist List.erase_sublist

end SecondaryIndex
