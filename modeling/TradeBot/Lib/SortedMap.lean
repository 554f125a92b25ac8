import Mathlib.Order.RelClasses
import Mathlib.Data.List.Nodup
import Mathlib.Data.List.Perm.Basic
import TradeBot.Lib.SortedSlices

set_option autoImplicit false

/-! # Maps kept in the order of their keys

A map as the list of its entries in the order of a comparison of keys, as `btree_map` keeps them. The
order is a field of the structure, so an unsorted map cannot be built. The members and the lookups
describe each operation, and either of them determines the map. -/

/-- Entries in strictly increasing order, so no key occurs twice. -/
structure SortedMap {α : Type*} (lt : α → α → Prop) (β : Type*) where
  entries : List (α × β)
  sorted : entries.Pairwise (fun e e' => lt e.1 e'.1)

namespace SortedMap

variable {α β : Type*} {lt : α → α → Prop}

instance : Membership (α × β) (SortedMap lt β) := ⟨fun m e => e ∈ m.entries⟩

instance : EmptyCollection (SortedMap lt β) := ⟨⟨[], .nil⟩⟩

theorem mem_def {e : α × β} {m : SortedMap lt β} : e ∈ m ↔ e ∈ m.entries := Iff.rfl

@[simp] theorem not_mem_empty (e : α × β) : e ∉ (∅ : SortedMap lt β) := List.not_mem_nil

theorem ext_entries {m m' : SortedMap lt β} (h : m.entries = m'.entries) : m = m' := by
  obtain ⟨entries, _⟩ := m
  subst h
  rfl

instance [DecidableEq α] [DecidableEq β] : DecidableEq (SortedMap lt β) := fun m m' =>
  decidable_of_iff (m.entries = m'.entries) ⟨ext_entries, fun h => h ▸ rfl⟩

/-- The key of the first entry. -/
def first (m : SortedMap lt β) : Option α := m.entries.head?.map Prod.fst

theorem first_eq_none {m : SortedMap lt β} : m.first = none ↔ ∀ e, e ∉ m := by
  rw [first, Option.map_eq_none_iff, List.head?_eq_none_iff, List.eq_nil_iff_forall_not_mem]
  rfl

/-- The value stored under a key. -/
def lookup [DecidableEq α] (m : SortedMap lt β) (k : α) : Option β :=
  (m.entries.find? (fun e => decide (e.1 = k))).map Prod.snd

/-- The map without a key. Erasing a key that is not there changes nothing. -/
def erase [DecidableEq α] (m : SortedMap lt β) (k : α) : SortedMap lt β where
  entries := m.entries.filter (fun e => decide (e.1 ≠ k))
  sorted := m.sorted.filter _

/-- Every value is replaced or dropped. -/
def filterMap {γ : Type*} (m : SortedMap lt β) (f : α → β → Option γ) : SortedMap lt γ where
  entries := m.entries.filterMap (fun e => (f e.1 e.2).map (fun c => (e.1, c)))
  sorted := by
    refine m.sorted.filterMap _ (fun e e' hlt b hb b' hb' => ?_)
    obtain ⟨c, _, rfl⟩ := Option.map_eq_some_iff.1 hb
    obtain ⟨c', _, rfl⟩ := Option.map_eq_some_iff.1 hb'
    exact hlt

variable {m m' : SortedMap lt β} {k k' : α} {v v' : β}

@[simp] theorem mem_filterMap {γ : Type*} {f : α → β → Option γ} {e : α × γ} :
    e ∈ m.filterMap f ↔ ∃ v, (e.1, v) ∈ m ∧ f e.1 v = some e.2 := by
  obtain ⟨k, c⟩ := e
  simp only [mem_def, filterMap, List.mem_filterMap, Option.map_eq_some_iff, Prod.mk.injEq]
  constructor
  · rintro ⟨⟨k', v⟩, hmem, c', hf, rfl, rfl⟩
    exact ⟨v, hmem, hf⟩
  · rintro ⟨v, hmem, hf⟩
    exact ⟨(k, v), hmem, c, hf, rfl, rfl⟩

@[simp] theorem mem_erase [DecidableEq α] {e : α × β} : e ∈ m.erase k ↔ e ∈ m ∧ e.1 ≠ k := by
  simp [mem_def, erase]

variable [IsStrictTotalOrder α lt]

theorem nodup (m : SortedMap lt β) : (m.entries.map Prod.fst).Nodup := by
  refine List.pairwise_map.2 (m.sorted.imp ?_)
  intro e e' hlt heq
  rw [heq] at hlt
  exact irrefl_of lt _ hlt

theorem eq_of_mem (h : (k, v) ∈ m) (h' : (k, v') ∈ m) : v = v' :=
  congrArg Prod.snd (List.inj_on_of_nodup_map m.nodup h h' rfl)

theorem ext_mem (h : ∀ e, e ∈ m ↔ e ∈ m') : m = m' := by
  have hperm : m.entries.Perm m'.entries :=
    (List.perm_ext_iff_of_nodup (List.Nodup.of_map _ m.nodup) (List.Nodup.of_map _ m'.nodup)).2 h
  have heq : m.entries = m'.entries :=
    hperm.eq_of_pairwise (fun a b _ _ hab hba => absurd hba (asymm_of lt hab)) m.sorted m'.sorted
  cases m
  cases m'
  cases heq
  rfl

/-! ## The operations that depend on the order -/

variable [DecidableRel lt]

/-- `insert_or_assign`. -/
def insert (m : SortedMap lt β) (k : α) (v : β) : SortedMap lt β where
  entries := m.entries.filter (fun e => lt e.1 k) ++ (k, v) :: m.entries.filter (fun e => lt k e.1)
  sorted := by
    refine List.pairwise_append.2 ⟨m.sorted.filter _, ?_, ?_⟩
    · refine List.pairwise_cons.2 ⟨fun e he => ?_, m.sorted.filter _⟩
      exact of_decide_eq_true (List.mem_filter.1 he).2
    · intro e he e' he'
      have hlt : lt e.1 k := of_decide_eq_true (List.mem_filter.1 he).2
      rcases List.mem_cons.1 he' with rfl | he'
      · exact hlt
      · exact trans_of lt hlt (of_decide_eq_true (List.mem_filter.1 he').2)

/-- `while (!empty() && begin()->first <= k) erase(begin())`. -/
def eraseUpTo (m : SortedMap lt β) (k : α) : SortedMap lt β where
  entries := m.entries.dropWhile (fun e => decide (¬ lt k e.1))
  sorted := m.sorted.sublist (List.dropWhile_sublist _)

@[simp] theorem mem_insert {e : α × β} : e ∈ m.insert k v ↔ e = (k, v) ∨ e ∈ m ∧ e.1 ≠ k := by
  have hne : e.1 ≠ k ↔ lt e.1 k ∨ lt k e.1 := by
    constructor
    · intro hne
      rcases trichotomous_of lt e.1 k with h | h | h
      · exact Or.inl h
      · exact absurd h hne
      · exact Or.inr h
    · rintro (h | h) heq
      · exact irrefl_of lt k (heq ▸ h)
      · exact irrefl_of lt k (heq ▸ h)
  simp only [mem_def, insert, List.mem_append, List.mem_cons, List.mem_filter, decide_eq_true_eq, hne]
  tauto

@[simp] theorem mem_eraseUpTo {e : α × β} : e ∈ m.eraseUpTo k ↔ e ∈ m ∧ lt k e.1 := by
  obtain ⟨entries, sorted⟩ := m
  simp only [mem_def, eraseUpTo]
  induction entries with
  | nil => simp
  | cons e₀ rest ih =>
      rw [List.pairwise_cons] at sorted
      by_cases hlt : lt k e₀.1
      · have hall : ∀ e' ∈ e₀ :: rest, lt k e'.1 :=
          List.forall_mem_cons.2 ⟨hlt, fun e' he' => trans_of lt hlt (sorted.1 e' he')⟩
        rw [List.dropWhile_cons_of_neg (by simpa using hlt)]
        exact ⟨fun h => ⟨h, hall e h⟩, And.left⟩
      · rw [List.dropWhile_cons_of_pos (by simpa using hlt), ih sorted.2, List.mem_cons]
        constructor
        · exact fun h => ⟨Or.inr h.1, h.2⟩
        · rintro ⟨rfl | he, hk⟩
          · exact absurd hk hlt
          · exact ⟨he, hk⟩

/-- An inserted entry is added to the entries of the other keys. -/
theorem entries_insert_perm [DecidableEq α] :
    (m.insert k v).entries.Perm ((k, v) :: (m.erase k).entries) := by
  refine (List.perm_ext_iff_of_nodup (List.Nodup.of_map _ (m.insert k v).nodup) ?_).2 (fun e => ?_)
  · refine List.nodup_cons.2 ⟨fun hin => ?_, List.Nodup.of_map _ (m.erase k).nodup⟩
    exact (mem_erase.1 (mem_def.2 hin)).2 rfl
  · rw [← mem_def, mem_insert, List.mem_cons, ← mem_def, mem_erase]

/-! ## Lookups -/

section

variable [DecidableEq α]

omit [DecidableRel lt] in
@[simp] theorem lookup_eq_some : m.lookup k = some v ↔ (k, v) ∈ m := by
  rw [lookup, Option.map_eq_some_iff]
  constructor
  · rintro ⟨e, hfind, rfl⟩
    obtain rfl : e.1 = k := of_decide_eq_true (List.find?_some hfind :)
    exact List.mem_of_find?_eq_some hfind
  · intro hmem
    cases hfind : m.entries.find? (fun e => decide (e.1 = k)) with
    | none => exact absurd (decide_eq_true rfl) (List.find?_eq_none.1 hfind _ hmem)
    | some e =>
        obtain rfl : e.1 = k := of_decide_eq_true (List.find?_some hfind :)
        exact ⟨_, rfl, eq_of_mem (m := m) (List.mem_of_find?_eq_some hfind) hmem⟩

omit [DecidableRel lt] in
theorem lookup_filterMap {γ : Type*} {f : α → β → Option γ} :
    (m.filterMap f).lookup k = (m.lookup k).bind (f k) := by
  ext c
  simp only [lookup_eq_some, mem_filterMap, Option.bind_eq_some_iff]

omit [DecidableRel lt] in
theorem ext_lookup (h : ∀ k, m.lookup k = m'.lookup k) : m = m' :=
  ext_mem (fun ⟨k, v⟩ => by rw [← lookup_eq_some, h k, lookup_eq_some])

omit [DecidableRel lt] in
theorem erase_of_lookup_none (h : m.lookup k = none) : m.erase k = m := by
  refine ext_mem (fun e => ?_)
  rw [mem_erase]
  refine ⟨And.left, fun he => ⟨he, fun heq => ?_⟩⟩
  have hsome : m.lookup k = some e.2 := lookup_eq_some.2 (heq ▸ he)
  rw [h] at hsome
  cases hsome

omit [DecidableRel lt] in
/-- An entry stands beside the entries of the other keys. -/
theorem entries_perm_of_lookup (h : m.lookup k = some v) :
    m.entries.Perm ((k, v) :: (m.erase k).entries) := by
  refine (List.perm_ext_iff_of_nodup (List.Nodup.of_map _ m.nodup) ?_).2 (fun e => ?_)
  · refine List.nodup_cons.2 ⟨fun hin => ?_, List.Nodup.of_map _ (m.erase k).nodup⟩
    exact (mem_erase.1 (mem_def.2 hin)).2 rfl
  · rw [List.mem_cons, ← mem_def, ← mem_def, mem_erase]
    constructor
    · intro he
      by_cases hkey : e.1 = k
      · subst hkey
        exact Or.inl (Prod.ext rfl (eq_of_mem (m := m) he (lookup_eq_some.1 h)))
      · exact Or.inr ⟨he, hkey⟩
    · rintro (rfl | he)
      · exact lookup_eq_some.1 h
      · exact he.1

theorem lookup_insert : (m.insert k v).lookup k' = if k' = k then some v else m.lookup k' := by
  ext v'
  split <;> rename_i h
  · simp [h, eq_comm (a := v)]
  · simp [h]

omit [DecidableRel lt] in
theorem lookup_erase : (m.erase k).lookup k' = if k' = k then none else m.lookup k' := by
  ext v'
  split <;> rename_i h <;> simp [h]

theorem lookup_eraseUpTo :
    (m.eraseUpTo k).lookup k' = if lt k k' then m.lookup k' else none := by
  ext v'
  split <;> rename_i h <;> simp [h]

end

/-! ## Ranges -/

/-- The entries that `for (auto it = lower_bound(a); it != end() && !(b < it->first); ++it)` visits. -/
def between (m : SortedMap lt β) (a b : α) : List (α × β) :=
  (m.entries.dropWhile (fun e => decide (lt e.1 a))).takeWhile (fun e => decide (¬ lt b e.1))

theorem between_eq_filter (m : SortedMap lt β) (a b : α) :
    m.between a b = m.entries.filter (fun e => decide (¬ lt e.1 a ∧ ¬ lt b e.1)) := by
  rw [between, SortedSlices.takeWhile_dropWhile_eq_filter]
  · exact List.filter_congr (fun e _ => by simp)
  · exact m.sorted.imp (fun hlt => by simpa using fun hlt' => trans_of lt hlt hlt')
  · exact m.sorted.imp (fun hlt => by simpa using fun hlt' hlt'' => hlt' (trans_of lt hlt'' hlt))

/-- Entries of different keys are all kept, whatever order they come in. -/
theorem insertAll_perm [DecidableEq α] {es : List (α × β)} (h : (es.map Prod.fst).Nodup)
    (hnew : ∀ e ∈ es, m.lookup e.1 = none) :
    (es.foldl (fun m e => m.insert e.1 e.2) m).entries.Perm (es ++ m.entries) := by
  induction es generalizing m with
  | nil => exact List.Perm.refl _
  | cons e es ih =>
      rw [List.map_cons, List.nodup_cons] at h
      have hnew' : ∀ e' ∈ es, (m.insert e.1 e.2).lookup e'.1 = none := by
        intro e' he'
        have hne : e'.1 ≠ e.1 := fun heq => h.1 (heq ▸ List.mem_map_of_mem he')
        rw [lookup_insert, if_neg hne]
        exact hnew e' (List.mem_cons_of_mem _ he')
      have hinsert : (m.insert e.1 e.2).entries.Perm (e :: m.entries) := by
        have hperm := entries_insert_perm (m := m) (k := e.1) (v := e.2)
        rwa [erase_of_lookup_none (hnew e List.mem_cons_self)] at hperm
      rw [List.foldl_cons, List.cons_append]
      exact (ih h.2 hnew').trans ((hinsert.append_left es).trans List.perm_middle)

end SortedMap
