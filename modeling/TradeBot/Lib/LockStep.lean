import Mathlib.Data.Finset.Card
import Mathlib.Data.List.Nodup

set_option autoImplicit false

/-! # Two tables compared in lock step

Tables as lists of entries with distinct keys. A comparison in lock step counts the positions of the
first table where the second has another entry or none. The set difference counts the keys at which the
two tables do not say the same. `mismatches_add_extra` relates the two counts: lock step overlooks the
keys that only the second table has, and counts the entries that stand at another position. -/

namespace LockStep

variable {α β γ : Type*} [DecidableEq α] [DecidableEq γ]

/-! ## Positions -/

/-- The positions of `as` where `bs` has another entry or none. -/
def mismatches : List γ → List γ → ℕ
  | [], _ => 0
  | a :: as, bs => (if bs.head? = some a then 0 else 1) + mismatches as bs.tail

/-- The entries of `as` that `bs` lacks. -/
def lacking (as bs : List γ) : ℕ := as.countP (fun a => decide (a ∉ bs))

/-- The entries of `as` that `bs` has at another position. -/
def displaced (as bs : List γ) : ℕ :=
  as.zipIdx.countP (fun p => decide (p.1 ∈ bs ∧ bs[p.2]? ≠ some p.1))

theorem mismatches_drop (as bs : List γ) (i : ℕ) :
    mismatches as (bs.drop i) = (as.zipIdx i).countP (fun p => decide (bs[p.2]? ≠ some p.1)) := by
  induction as generalizing i with
  | nil => rfl
  | cons a as ih =>
      rw [mismatches, List.tail_drop, ih, List.head?_drop, List.zipIdx_cons, List.countP_cons,
        Nat.add_comm]
      simp only [decide_eq_true_eq, ite_not]

/-- An entry mismatches because it is missing or because it stands elsewhere. -/
theorem mismatches_eq (as bs : List γ) : mismatches as bs = lacking as bs + displaced as bs := by
  have hsplit (ps : List (γ × ℕ)) :
      ps.countP (fun p => decide (bs[p.2]? ≠ some p.1)) =
        ps.countP (fun p => decide (p.1 ∉ bs)) +
          ps.countP (fun p => decide (p.1 ∈ bs ∧ bs[p.2]? ≠ some p.1)) := by
    induction ps with
    | nil => rfl
    | cons p ps ih =>
        have hmem : p.1 ∉ bs → bs[p.2]? ≠ some p.1 := fun h hget => h (List.mem_of_getElem? hget)
        rw [List.countP_cons, List.countP_cons, List.countP_cons, ih]
        by_cases hin : p.1 ∈ bs
        · by_cases hget : bs[p.2]? = some p.1 <;> simp [hin, hget, Nat.add_assoc]
        · simp [hin, hmem hin, Nat.add_right_comm]
  have hlacking : as.zipIdx.countP (fun p => decide (p.1 ∉ bs)) = lacking as bs := by
    have hmap := List.countP_map (p := fun a => decide (a ∉ bs)) (f := Prod.fst) (l := as.zipIdx)
    rw [List.zipIdx_map_fst] at hmap
    exact hmap.symm
  rw [← hlacking, displaced, ← hsplit]
  exact mismatches_drop as bs 0

/-! ## Keys -/

/-- What a table says at a key. -/
def entry (as : List (α × β)) (k : α) : Option β :=
  (as.find? (fun a => decide (a.1 = k))).map Prod.snd

/-- The keys of a table, without their order. -/
def keys (as : List (α × β)) : Finset α := (as.map Prod.fst).toFinset

/-- The keys in only one of the tables, or with different values. -/
def difference [DecidableEq β] (as bs : List (α × β)) : Finset α :=
  (keys as ∪ keys bs).filter (fun k => entry as k ≠ entry bs k)

/-- The keys that only the second table has. -/
def extra (as bs : List (α × β)) : Finset α := keys bs \ keys as

variable {as bs : List (α × β)} {k : α} {v : β}

theorem mem_keys : k ∈ keys as ↔ ∃ v, (k, v) ∈ as := by
  simp [keys]

theorem entry_eq_some (h : (as.map Prod.fst).Nodup) : entry as k = some v ↔ (k, v) ∈ as := by
  rw [entry, Option.map_eq_some_iff]
  constructor
  · rintro ⟨a, hfind, rfl⟩
    have hkey : a.1 = k := of_decide_eq_true (List.find?_some hfind :)
    exact hkey ▸ List.mem_of_find?_eq_some hfind
  · intro hmem
    cases hfind : as.find? (fun a => decide (a.1 = k)) with
    | none => exact absurd (decide_eq_true rfl) (List.find?_eq_none.1 hfind _ hmem)
    | some a =>
        have hkey : a.1 = k := of_decide_eq_true (List.find?_some hfind :)
        have heq := List.inj_on_of_nodup_map h (List.mem_of_find?_eq_some hfind) hmem hkey
        exact ⟨a, rfl, congrArg Prod.snd heq⟩

theorem entry_eq_none : entry as k = none ↔ k ∉ keys as := by
  rw [entry, Option.map_eq_none_iff, List.find?_eq_none, mem_keys]
  simp only [decide_eq_true_eq, not_exists, Prod.forall]
  exact ⟨fun h v hmem => h k v hmem rfl, fun h a b hmem heq => h b (heq ▸ hmem)⟩

variable [DecidableEq β]

/-- The tables differ at the keys of the entries that the second lacks and at its extra keys. -/
theorem difference_card (ha : (as.map Prod.fst).Nodup) (hb : (bs.map Prod.fst).Nodup) :
    (difference as bs).card = lacking as bs + (extra as bs).card := by
  have hlacking : lacking as bs =
      ((as.filter (fun a => decide (a ∉ bs))).map Prod.fst).toFinset.card := by
    rw [List.toFinset_card_of_nodup (ha.sublist (List.filter_sublist.map _)), List.length_map, lacking,
      List.countP_eq_length_filter]
    exact congrArg List.length (List.filter_congr (fun a _ => decide_eq_decide.2 Iff.rfl))
  rw [hlacking, ← Finset.card_union_of_disjoint]
  · congr 1
    ext k
    simp only [difference, extra, Finset.mem_filter, Finset.mem_union, List.mem_toFinset,
      List.mem_map, List.mem_filter, decide_eq_true_eq, Finset.mem_sdiff, Prod.exists, exists_and_right,
      exists_eq_right]
    constructor
    · rintro ⟨hkey, hne⟩
      cases hentry : entry as k with
      | none =>
          have hnot := entry_eq_none.1 hentry
          exact Or.inr ⟨hkey.resolve_left hnot, hnot⟩
      | some v =>
          refine Or.inl ⟨v, (entry_eq_some ha).1 hentry, fun hin => hne ?_⟩
          rw [hentry, (entry_eq_some hb).2 hin]
    · rintro (⟨v, hin, hnot⟩ | ⟨hin, hnot⟩)
      · refine ⟨Or.inl (mem_keys.2 ⟨v, hin⟩), fun heq => hnot ?_⟩
        exact (entry_eq_some hb).1 (heq ▸ (entry_eq_some ha).2 hin)
      · refine ⟨Or.inr hin, fun heq => ?_⟩
        exact entry_eq_none.1 (heq ▸ entry_eq_none.2 hnot) hin
  · rw [Finset.disjoint_left]
    intro k hk hextra
    obtain ⟨a, hin, rfl⟩ := List.mem_map.1 (List.mem_toFinset.1 hk)
    exact (Finset.mem_sdiff.1 hextra).2 (mem_keys.2 ⟨a.2, (List.mem_filter.1 hin).1⟩)

/-- The two counts. -/
theorem mismatches_add_extra (ha : (as.map Prod.fst).Nodup) (hb : (bs.map Prod.fst).Nodup) :
    mismatches as bs + (extra as bs).card = (difference as bs).card + displaced as bs := by
  rw [mismatches_eq, difference_card ha hb, Nat.add_right_comm]

end LockStep
