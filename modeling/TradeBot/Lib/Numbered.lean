import Mathlib.Algebra.Order.BigOperators.Group.List
import Mathlib.Data.List.Perm.Subperm
import Mathlib.Data.List.Sigma
import TradeBot.Lib.RingBuffer

set_option autoImplicit false

/-! # Entries of a history with their positions

Equal entries of a history are told apart by their positions. Where some of the entries are picked, at
most once each, their amounts add up to no more than those of all the entries that may be picked.

The amounts may not be negative. Nothing is assumed about which entries are picked or in which order,
so a bound on the entries that may be picked bounds whatever was picked. -/

namespace Numbered

variable {α : Type*} {history : List α} {e : α × ℕ}

theorem fst_mem (h : e ∈ history.zipIdx) : e.1 ∈ history :=
  List.mem_of_getElem? (List.mk_mem_zipIdx_iff_getElem?.1 h)

theorem mem_append (h : e ∈ history.zipIdx) (later : List α) : e ∈ (history ++ later).zipIdx := by
  rw [List.zipIdx_append]
  exact List.mem_append_left _ h

theorem nodup_zipIdx (history : List α) : history.zipIdx.Nodup :=
  List.Nodup.of_map Prod.snd (List.nodup_zipIdx_map_snd history)

theorem map_fst_rtake (history : List α) (n : ℕ) :
    (history.zipIdx.rtake n).map Prod.fst = history.rtake n := by
  rw [List.rtake, List.rtake, List.map_drop, List.zipIdx_map_fst, List.length_zipIdx]

/-- The amounts of entries that are picked at most once each. -/
theorem sum_picked_le {M : Type*} [AddCommMonoid M] [Preorder M] [IsOrderedAddMonoid M] {w : α → M}
    {p : α → Bool} {picked : List (α × ℕ)} (hnodup : picked.Nodup)
    (hmem : ∀ e ∈ picked, e ∈ history.zipIdx) (hp : ∀ e ∈ picked, p e.1 = true)
    (hw : ∀ a ∈ history, 0 ≤ w a) :
    (picked.map (fun e => w e.1)).sum ≤ ((history.filter p).map w).sum := by
  have hsubset : picked ⊆ history.zipIdx.filter (fun e => p e.1) := fun e he =>
    List.mem_filter.2 ⟨hmem e he, hp e he⟩
  obtain ⟨picked', hperm, hsublist⟩ := List.subperm_of_subset hnodup hsubset
  have hall : (history.zipIdx.filter (fun e => p e.1)).map (fun e => w e.1)
      = (history.filter p).map w := by
    have hfilter := List.filter_map (f := Prod.fst) (p := p) (l := history.zipIdx)
    rw [List.zipIdx_map_fst] at hfilter
    rw [hfilter, List.map_map]
    rfl
  rw [← (hperm.map (fun e => w e.1)).sum_eq, ← hall]
  refine (hsublist.map (fun e => w e.1)).sum_le_sum (fun x hx => ?_)
  obtain ⟨e, he, rfl⟩ := List.mem_map.1 hx
  exact hw _ (fst_mem (List.mem_filter.1 he).1)

end Numbered
