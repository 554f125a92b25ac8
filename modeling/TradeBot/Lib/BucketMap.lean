import Mathlib.Order.Lattice
import Mathlib.Data.List.Perm.Basic
import TradeBot.Lib.KeyedPass

set_option autoImplicit false

/-! # Sorted maps of lists

`std::map<K, std::vector<V>>` as a list of buckets in key order. `values` lists every element in the
map's iteration order. The loops over one bucket (`forKey`) and up to the first selected element
(`updateFirst?`) are the map's counterparts of the passes of `KeyedPass`, and each refines `values`
when the pass it runs refines the bucket. -/

open KeyedPass

/-- A map from keys to lists, kept in key order by `BucketMap.push`. -/
abbrev BucketMap (ι α : Type*) := List (ι × List α)

namespace BucketMap

variable {ι α β σ κ : Type*}

/-- All elements, in key order and then list order. -/
def values (m : BucketMap ι α) : List α := m.flatMap Prod.snd

@[simp] theorem values_nil : values ([] : BucketMap ι α) = [] := rfl

@[simp] theorem values_cons (e : ι × List α) (m : BucketMap ι α) :
    values (e :: m) = e.2 ++ values m := rfl

/-! ## Lookup and insertion -/

/-- `m.find(k)`. -/
def find? [DecidableEq ι] (k : ι) : BucketMap ι α → Option (List α)
  | [] => none
  | e :: rest => if e.1 = k then some e.2 else find? k rest

/-- `m[k].push_back(a)`. -/
def push [LinearOrder ι] (k : ι) (a : α) : BucketMap ι α → BucketMap ι α
  | [] => [(k, [a])]
  | e :: rest =>
      if e.1 = k then (k, e.2 ++ [a]) :: rest
      else if k < e.1 then (k, [a]) :: e :: rest
      else e :: push k a rest

theorem values_push [LinearOrder ι] (k : ι) (a : α) (m : BucketMap ι α) :
    (values (push k a m)).Perm (a :: values m) := by
  induction m with
  | nil => simp [push]
  | cons e rest ih =>
      simp only [push]
      split
      · simp only [values_cons, List.append_assoc, List.singleton_append]
        exact List.perm_middle
      · split
        · simp
        · exact (List.Perm.append_left _ ih).trans List.perm_middle

theorem mem_values_push [LinearOrder ι] {k : ι} {a x : α} {m : BucketMap ι α} :
    x ∈ values (push k a m) ↔ x = a ∨ x ∈ values m := by
  rw [(values_push k a m).mem_iff, List.mem_cons]

/-- Keys are strictly increasing, and `keyOf` sends every element to its bucket's key. -/
structure WellKeyed [LinearOrder ι] (keyOf : α → ι) (m : BucketMap ι α) : Prop where
  sorted : m.Pairwise (fun e e' => e.1 < e'.1)
  keyed : ∀ e ∈ m, ∀ a ∈ e.2, keyOf a = e.1

theorem wellKeyed_nil [LinearOrder ι] (keyOf : α → ι) : WellKeyed keyOf ([] : BucketMap ι α) :=
  ⟨.nil, by simp⟩

section WellKeyed

variable [LinearOrder ι] {keyOf : α → ι} {m : BucketMap ι α}

theorem WellKeyed.tail {e : ι × List α} (h : WellKeyed keyOf (e :: m)) : WellKeyed keyOf m :=
  ⟨h.sorted.of_cons, fun e' he' => h.keyed e' (List.mem_cons_of_mem _ he')⟩

/-- Well-keyedness depends on the keys of the elements only. -/
theorem WellKeyed.congr {keyOf' : α → ι} (h : WellKeyed keyOf m)
    (hkey : ∀ a ∈ values m, keyOf' a = keyOf a) : WellKeyed keyOf' m :=
  ⟨h.sorted, fun e he a ha => (hkey a (List.mem_flatMap.2 ⟨e, he, ha⟩)).trans (h.keyed e he a ha)⟩

/-- The elements after the first bucket have other keys. -/
theorem WellKeyed.keyOf_ne_head {e : ι × List α} (h : WellKeyed keyOf (e :: m)) {a : α}
    (ha : a ∈ values m) : keyOf a ≠ e.1 := by
  intro hk
  obtain ⟨e', he', ha'⟩ := List.mem_flatMap.1 ha
  have hlt := (List.pairwise_cons.1 h.sorted).1 e' he'
  rw [← hk, h.keyed e' (List.mem_cons_of_mem _ he') a ha'] at hlt
  exact lt_irrefl _ hlt

/-- In a well-keyed map the elements of key `k` are exactly the bucket found under `k`. -/
theorem WellKeyed.mem_find? (h : WellKeyed keyOf m) {k : ι} {a : α} :
    (∃ l, find? k m = some l ∧ a ∈ l) ↔ a ∈ values m ∧ keyOf a = k := by
  induction m with
  | nil => simp [find?]
  | cons e rest ih =>
      have hhead : ∀ x ∈ e.2, keyOf x = e.1 := h.keyed e (List.mem_cons_self ..)
      have hrest : ∀ x ∈ values rest, keyOf x ≠ e.1 := fun x hx => h.keyOf_ne_head hx
      simp only [find?, values_cons, List.mem_append]
      split
      · next hk =>
          simp only [Option.some.injEq, exists_eq_left']
          refine ⟨fun ha => ⟨Or.inl ha, (hhead a ha).trans hk⟩, ?_⟩
          rintro ⟨ha | ha, hak⟩
          · exact ha
          · exact absurd (hak.trans hk.symm) (hrest a ha)
      · next hk =>
          rw [ih h.tail]
          refine ⟨fun ⟨ha, hak⟩ => ⟨Or.inr ha, hak⟩, ?_⟩
          rintro ⟨ha | ha, hak⟩
          · exact absurd ((hhead a ha).symm.trans hak) hk
          · exact ⟨ha, hak⟩

theorem mem_push_key {k : ι} {a : α} {e : ι × List α} (he : e ∈ push k a m) :
    e.1 = k ∨ ∃ e' ∈ m, e'.1 = e.1 := by
  induction m with
  | nil => simp [push] at he; simp [he]
  | cons e' rest ih =>
      simp only [push] at he
      split at he
      · rcases List.mem_cons.1 he with rfl | he
        · exact Or.inl rfl
        · exact Or.inr ⟨e, List.mem_cons_of_mem _ he, rfl⟩
      · split at he
        · rcases List.mem_cons.1 he with rfl | he
          · exact Or.inl rfl
          · exact Or.inr ⟨e, he, rfl⟩
        · rcases List.mem_cons.1 he with rfl | he
          · exact Or.inr ⟨e, List.mem_cons_self .., rfl⟩
          · exact (ih he).imp id (fun ⟨x, hx, hxe⟩ => ⟨x, List.mem_cons_of_mem _ hx, hxe⟩)

theorem WellKeyed.push (h : WellKeyed keyOf m) {k : ι} {a : α} (ha : keyOf a = k) :
    WellKeyed keyOf (push k a m) := by
  induction m with
  | nil => exact ⟨by simp [BucketMap.push], by simp [BucketMap.push, ha]⟩
  | cons e rest ih =>
      have hlt := (List.pairwise_cons.1 h.sorted).1
      simp only [BucketMap.push]
      split
      · next hk =>
          -- the key has a bucket, at the front
          refine ⟨List.pairwise_cons.2 ⟨fun e' he' => hk ▸ hlt e' he', h.sorted.of_cons⟩, ?_⟩
          rintro e' he' x hx
          rcases List.mem_cons.1 he' with rfl | he'
          · rcases List.mem_append.1 hx with hx | hx
            · exact (h.keyed e (List.mem_cons_self ..) x hx).trans hk
            · rw [List.mem_singleton.1 hx, ha]
          · exact h.keyed e' (List.mem_cons_of_mem _ he') x hx
      · next hk =>
          split
          · next hke =>
              -- a new bucket before all others
              refine ⟨List.pairwise_cons.2 ⟨?_, h.sorted⟩, ?_⟩
              · intro e' he'
                rcases List.mem_cons.1 he' with rfl | he'
                · exact hke
                · exact lt_trans hke (hlt e' he')
              · intro e' he' x hx
                rcases List.mem_cons.1 he' with rfl | he'
                · rw [List.mem_singleton.1 hx, ha]
                · exact h.keyed e' he' x hx
          · next hke =>
              -- the bucket belongs further back
              have hek : e.1 < k := lt_of_le_of_ne (not_lt.1 hke) hk
              refine ⟨List.pairwise_cons.2 ⟨?_, (ih h.tail).sorted⟩, ?_⟩
              · intro e' he'
                rcases mem_push_key he' with hk' | ⟨e'', he'', hk''⟩
                · exact hk' ▸ hek
                · exact hk'' ▸ hlt e'' he''
              · intro e' he' x hx
                rcases List.mem_cons.1 he' with rfl | he'
                · exact h.keyed _ (List.mem_cons_self ..) x hx
                · exact (ih h.tail).keyed e' he' x hx

end WellKeyed

/-! ## Loops over buckets -/

/-- `if (auto it = m.find(k); it != m.end())` followed by a loop `g` over `it->second`. -/
def forKey [DecidableEq ι] (k : ι) (g : σ → List α → σ × List α) :
    σ → BucketMap ι α → σ × BucketMap ι α
  | s, [] => (s, [])
  | s, e :: rest =>
      if e.1 = k then ((g s e.2).1, (e.1, (g s e.2).2) :: rest)
      else ((forKey k g s rest).1, e :: (forKey k g s rest).2)

/-- The nested loop that stops at the first selected element of the map. -/
def updateFirst? (sel : α → Option β) (f : σ → α → β → σ × α) :
    σ → BucketMap ι α → Option (σ × BucketMap ι α)
  | _, [] => none
  | s, e :: rest =>
      match KeyedPass.updateFirst? sel f s e.2 with
      | some r => some (r.1, (e.1, r.2) :: rest)
      | none => (updateFirst? sel f s rest).map (fun r => (r.1, e :: r.2))

/-- The loop over a bucket replaces it in place. -/
theorem forKey_of_find? [DecidableEq ι] {k : ι} {m : BucketMap ι α} {l : List α}
    (h : find? k m = some l) (g : σ → List α → σ × List α) (s : σ) :
    ∃ pre post, values m = pre ++ l ++ post ∧ (forKey k g s m).1 = (g s l).1 ∧
      values (forKey k g s m).2 = pre ++ (g s l).2 ++ post := by
  induction m with
  | nil => simp [find?] at h
  | cons e rest ih =>
      simp only [find?] at h
      by_cases hk : e.1 = k
      · rw [if_pos hk, Option.some.injEq] at h
        exact ⟨[], values rest, by simp [h], by simp [forKey, hk, h], by simp [forKey, hk, h]⟩
      · rw [if_neg hk] at h
        obtain ⟨pre, post, hvalues, hstate, hpost⟩ := ih h
        refine ⟨e.2 ++ pre, post, by simp [hvalues], by simp [forKey, hk, hstate], ?_⟩
        simp [forKey, hk, hpost]

/-- What is found under the key after the loop. -/
theorem find?_forKey [DecidableEq ι] {k : ι} {m : BucketMap ι α} {l : List α}
    (h : find? k m = some l) (g : σ → List α → σ × List α) (s : σ) :
    find? k (forKey k g s m).2 = some (g s l).2 := by
  induction m with
  | nil => simp [find?] at h
  | cons e rest ih =>
      simp only [find?] at h
      by_cases hk : e.1 = k
      · rw [if_pos hk, Option.some.injEq] at h
        simp [forKey, find?, hk, h]
      · rw [if_neg hk] at h
        simp [forKey, find?, hk, ih h]

/-- Without the key there is no loop. -/
theorem forKey_of_find?_none [DecidableEq ι] {k : ι} {m : BucketMap ι α} (h : find? k m = none)
    (g : σ → List α → σ × List α) (s : σ) : forKey k g s m = (s, m) := by
  induction m with
  | nil => rfl
  | cons e rest ih =>
      simp only [find?] at h
      by_cases hk : e.1 = k
      · simp [hk] at h
      · rw [if_neg hk] at h
        simp [forKey, hk, ih h]

/-- What the loop over a bucket keeps of the shared state. -/
theorem forKey_rel [DecidableEq ι] {R : σ → σ → Prop} {g : σ → List α → σ × List α}
    (hrefl : ∀ s, R s s) (h : ∀ s l, R s (g s l).1) (k : ι) (s : σ) (m : BucketMap ι α) :
    R s (forKey k g s m).1 := by
  induction m with
  | nil => exact hrefl s
  | cons e rest ih =>
      simp only [forKey]
      split
      · exact h s e.2
      · exact ih

/-- Drop the elements that fail `p`, keeping every key. -/
def filterValues (p : α → Bool) (m : BucketMap ι α) : BucketMap ι α :=
  m.map (fun e => (e.1, e.2.filter p))

theorem values_filterValues (p : α → Bool) (m : BucketMap ι α) :
    values (filterValues p m) = (values m).filter p := by
  induction m with
  | nil => rfl
  | cons e rest ih => simp [filterValues] at ih ⊢; simp [ih]

/-- The map's nested loop is the list's loop over `values`. -/
theorem values_updateFirst? {sel : α → Option β} {f : σ → α → β → σ × α} (s : σ)
    (m : BucketMap ι α) :
    (updateFirst? sel f s m).map (fun r => (r.1, values r.2))
      = KeyedPass.updateFirst? sel f s (values m) := by
  induction m generalizing s with
  | nil => rfl
  | cons e rest ih =>
      simp only [updateFirst?, values_cons]
      cases hhead : KeyedPass.updateFirst? sel f s e.2 with
      | some r =>
          obtain ⟨pre, a, post, b, he, hpre, hb, rfl⟩ := updateFirst?_eq_some hhead
          rw [he, List.append_assoc, List.cons_append, updateFirst?_append s _ hpre hb]
          simp
      | none =>
          have hnone := updateFirst?_eq_none.1 hhead
          rw [Option.map_map, updateFirst?_append_none s _ hnone, ← ih s, Option.map_map]
          rfl

/-- Apply `f` to every element. -/
def mapValues (f : α → α) (m : BucketMap ι α) : BucketMap ι α := m.map (fun e => (e.1, e.2.map f))

theorem values_mapValues (f : α → α) (m : BucketMap ι α) :
    values (mapValues f m) = (values m).map f := by
  induction m with
  | nil => rfl
  | cons e rest ih => simp [mapValues] at ih ⊢; simp [ih]

section Refines

variable {L : Frame α σ κ} {turn : α × σ → α × σ → Prop}

/-- The loop over one bucket leaves the elements of other keys alone. -/
theorem refines_forKey [LinearOrder ι] {keyOf : α → ι} {k : ι} {g : σ → List α → σ × List α}
    {s : σ} {m : BucketMap ι α} (hm : WellKeyed keyOf m) (hnd : ((values m).map L.key).Nodup)
    (hrest : ∀ a s, keyOf a ≠ k → turn (a, s) (a, s))
    (h : ∀ l, find? k m = some l → (l.map L.key).Nodup →
      Refines L turn s l (g s l).1 (g s l).2) :
    Refines L turn s (values m) (forKey k g s m).1 (values (forKey k g s m).2) := by
  induction m with
  | nil => exact .rest (by simp)
  | cons e rest ih =>
      have hnd' : (e.2.map L.key).Nodup ∧ ((values rest).map L.key).Nodup := by
        simp only [values_cons, List.map_append] at hnd
        exact ⟨hnd.of_append_left, hnd.of_append_right⟩
      simp only [forKey]
      split
      · next hk =>
          have hb := h e.2 (by simp [find?, hk]) hnd'.1
          refine hb.append (.rest (fun a ha => hrest a _ ?_)) hnd
          exact hk ▸ hm.keyOf_ne_head ha
      · next hk =>
          have hr := ih hm.tail hnd'.2 (fun l hl => h l (by simpa [find?, hk] using hl))
          refine (Refines.rest (fun a ha => hrest a _ ?_)).append hr hnd
          rw [hm.keyed e (List.mem_cons_self ..) a ha]
          exact hk

theorem refines_updateFirst? {sel : α → Option β} {f : σ → α → β → σ × α} {s : σ}
    {m : BucketMap ι α} {r : σ × BucketMap ι α} (hr : updateFirst? sel f s m = some r)
    (hs : L.Sound turn) (hrest : ∀ x, turn x x)
    (h : ∀ a ∈ values m, ∀ b, sel a = some b → turn (a, s) ((f s a b).2, (f s a b).1))
    (hnd : ((values m).map L.key).Nodup) :
    Refines L turn s (values m) r.1 (values r.2) := by
  have hv : KeyedPass.updateFirst? sel f s (values m) = some (r.1, values r.2) := by
    rw [← values_updateFirst?, hr]; rfl
  exact KeyedPass.refines_updateFirst? hv hs hrest
    (fun pre a post b hl _ hb => h a (by simp [hl]) b hb) hnd

end Refines

/-! ## Loops keep the keys -/

/-- Bucket by bucket the same key, and no element whose own key is new to its bucket. -/
def SameKeys (keyOf : α → ι) (m m' : BucketMap ι α) : Prop :=
  List.Forall₂ (fun e e' => e'.1 = e.1 ∧ ∀ a' ∈ e'.2, ∃ a ∈ e.2, keyOf a' = keyOf a) m m'

section SameKeys

variable {keyOf : α → ι} {m m' : BucketMap ι α}

theorem SameKeys.refl (m : BucketMap ι α) : SameKeys keyOf m m :=
  List.forall₂_same.2 (fun _ _ => ⟨rfl, fun a ha => ⟨a, ha, rfl⟩⟩)

theorem SameKeys.keys_eq (h : SameKeys keyOf m m') : m'.map Prod.fst = m.map Prod.fst := by
  induction h with
  | nil => rfl
  | cons hd _ ih => simp [hd.1, ih]

theorem WellKeyed.of_sameKeys [LinearOrder ι] (hm : SameKeys keyOf m m')
    (h : WellKeyed keyOf m) : WellKeyed keyOf m' := by
  refine ⟨?_, ?_⟩
  · have hk : (m.map Prod.fst).Pairwise (· < ·) := List.pairwise_map.2 h.sorted
    rw [← hm.keys_eq] at hk
    exact List.pairwise_map.1 hk
  · have keyed := h.keyed
    clear h
    induction hm with
    | nil => simp
    | @cons e e' rest rest' he _ ih =>
        intro x' hx' a' ha'
        rcases List.mem_cons.1 hx' with rfl | hx'
        · obtain ⟨a, ha, hk⟩ := he.2 a' ha'
          rw [hk, he.1, keyed e (List.mem_cons_self ..) a ha]
        · exact ih (fun y hy => keyed y (List.mem_cons_of_mem _ hy)) x' hx' a' ha'

theorem sameKeys_forKey [DecidableEq ι] {k : ι} {g : σ → List α → σ × List α}
    (hg : ∀ s l, ∀ a' ∈ (g s l).2, ∃ a ∈ l, keyOf a' = keyOf a) (s : σ) (m : BucketMap ι α) :
    SameKeys keyOf m (forKey k g s m).2 := by
  induction m with
  | nil => exact .nil
  | cons e rest ih =>
      simp only [forKey]
      split
      · exact .cons ⟨rfl, hg s e.2⟩ (SameKeys.refl rest)
      · exact .cons ⟨rfl, fun a ha => ⟨a, ha, rfl⟩⟩ ih

theorem sameKeys_updateFirst? {sel : α → Option β} {f : σ → α → β → σ × α}
    (hf : ∀ s a b, sel a = some b → keyOf (f s a b).2 = keyOf a) {s : σ} {m : BucketMap ι α}
    {r : σ × BucketMap ι α} (h : updateFirst? sel f s m = some r) : SameKeys keyOf m r.2 := by
  induction m generalizing r with
  | nil => simp [updateFirst?] at h
  | cons e rest ih =>
      simp only [updateFirst?] at h
      split at h
      · next r' hr' =>
          obtain ⟨pre, a, post, b, he, _, hb, rfl⟩ := updateFirst?_eq_some hr'
          simp only [Option.some.injEq] at h
          subst h
          refine .cons ⟨rfl, ?_⟩ (SameKeys.refl rest)
          intro a' ha'
          rw [he]
          rcases List.mem_append.1 ha' with hp | hp
          · exact ⟨a', List.mem_append_left _ hp, rfl⟩
          · rcases List.mem_cons.1 hp with rfl | hp
            · exact ⟨a, by simp, hf s a b hb⟩
            · exact ⟨a', List.mem_append_right _ (List.mem_cons_of_mem _ hp), rfl⟩
      · simp only [Option.map_eq_some_iff] at h
        obtain ⟨r', hr', rfl⟩ := h
        exact .cons ⟨rfl, fun a ha => ⟨a, ha, rfl⟩⟩ (ih hr')

theorem sameKeys_mapValues {f : α → α} (hf : ∀ a, keyOf (f a) = keyOf a) (m : BucketMap ι α) :
    SameKeys keyOf m (mapValues f m) := by
  induction m with
  | nil => exact .nil
  | cons e rest ih =>
      refine .cons ⟨rfl, fun a' ha' => ?_⟩ ih
      obtain ⟨a, ha, rfl⟩ := List.mem_map.1 ha'
      exact ⟨a, ha, hf a⟩

theorem sameKeys_filterValues (p : α → Bool) (m : BucketMap ι α) :
    SameKeys keyOf m (filterValues p m) := by
  induction m with
  | nil => exact .nil
  | cons e rest ih =>
      exact .cons ⟨rfl, fun a ha => ⟨a, List.mem_of_mem_filter ha, rfl⟩⟩ ih

end SameKeys

end BucketMap
