import Mathlib.Algebra.Order.BigOperators.Group.List
import TradeBot.MarketData.BookLevels
import TradeBot.Utils.TickBoundaries

set_option autoImplicit false

/-! # The volume within two prices

`OrderBook::volume_at_range` adds up raw sizes in an `int64_t`. The sum is exact as long as it fits, and
an overflow needs more than nine thousand levels, as a raw size is at most `10 ^ 15`
(`volumeAtRange_eq_iff`).

`addRaw` gives up where the source overflows, so a result means that no addition did. Since raw sizes
are not negative, the partial sums grow, and the last one decides (`addRaw_eq`). What is known of the
sizes is an invariant of all calls: each comes from the rounding of a size, which saturates. -/

namespace TradeBot

/-- The sum of two `int64_t`. An overflow is undefined. -/
def addInt64 (a b : ℤ) : Option ℤ :=
  if -2 ^ 63 ≤ a + b ∧ a + b < 2 ^ 63 then some (a + b) else none

namespace OrderBook

/-- One of the two loops. -/
def addRaw (totalRaw : ℤ) (levels : List (ℤ × ℤ)) : Option ℤ :=
  levels.foldlM (fun totalRaw level => addInt64 totalRaw level.2) totalRaw

/-- The bounds may come in any order. There is no result if the sum does not fit into an `int64_t`.
    -/
def volumeAtRange (book : OrderBook) (lo hi : ℚ) : Option ℚ := do
  let (lo, hi) := if hi < lo then (hi, lo) else (lo, hi)
  let loTick := book.inc.tick lo
  let hiTick := book.inc.tick hi
  let totalRaw ← addRaw 0 (book.bids.between hiTick loTick)
  let totalRaw ← addRaw totalRaw (book.asks.between loTick hiTick)
  return totalRaw * book.inc.size

/-! ## The levels in the range -/

/-- The tick lies between those of two prices, given in either order. -/
def InRange (inc : Increments) (lo hi : ℚ) (tick : ℤ) : Prop :=
  min (inc.tick lo) (inc.tick hi) ≤ tick ∧ tick ≤ max (inc.tick lo) (inc.tick hi)

instance (inc : Increments) (lo hi : ℚ) (tick : ℤ) : Decidable (InRange inc lo hi tick) :=
  inferInstanceAs (Decidable (_ ∧ _))

/-- The bids and asks in the range. -/
def levelsInRange (book : OrderBook) (lo hi : ℚ) : List (ℤ × ℤ) :=
  (book.bids.entries ++ book.asks.entries).filter (fun e => decide (InRange book.inc lo hi e.1))

/-- The exact sum of the raw sizes in the range. -/
def rawInRange (book : OrderBook) (lo hi : ℚ) : ℤ := ((book.levelsInRange lo hi).map Prod.snd).sum

/-! ## Raw sizes of a reachable book -/

/-- What `SizeFix` admits. -/
def IsRaw (raw : ℤ) : Prop := 0 ≤ raw ∧ raw ≤ 10 ^ 15

theorem isRaw_raw (inc : Increments) (size : ℚ) : IsRaw (inc.raw size) := by
  unfold Increments.raw sizeFix clampFixed
  split_ifs
  · exact ⟨le_rfl, by norm_num⟩
  · exact ⟨le_max_left _ _, max_le (by norm_num) (min_le_right _ _)⟩

/-- Every level is of a raw size that `SizeFix` admits. -/
def RawSizes (book : OrderBook) : Prop := ∀ e ∈ book.bids.entries ++ book.asks.entries, IsRaw e.2

variable {book : OrderBook}

theorem rawSizes_iff_lookup :
    book.RawSizes ↔
      ∀ t raw, book.bids.lookup t = some raw ∨ book.asks.lookup t = some raw → IsRaw raw := by
  constructor
  · rintro h t raw (hlookup | hlookup)
    · exact h _ (List.mem_append_left _ (SortedMap.lookup_eq_some.1 hlookup))
    · exact h _ (List.mem_append_right _ (SortedMap.lookup_eq_some.1 hlookup))
  · intro h e he
    rcases List.mem_append.1 he with he | he
    · exact h e.1 e.2 (Or.inl (SortedMap.lookup_eq_some.2 he))
    · exact h e.1 e.2 (Or.inr (SortedMap.lookup_eq_some.2 he))

/-- A change leaves a raw size that it brings. -/
theorem isRaw_of_word {inc : Increments} {t raw : ℤ} {c : PriceLevel}
    (h : inc.bidWord t c = some (some raw) ∨ inc.askWord t c = some (some raw)) : IsRaw raw := by
  have hraw : raw = inc.raw c.size := by
    unfold Increments.bidWord Increments.askWord at h
    grind
  exact hraw ▸ isRaw_raw inc c.size

theorem RawSizes.applyChange (h : book.RawSizes) (c : PriceLevel) :
    (book.applyChange c).RawSizes := by
  rw [rawSizes_iff_lookup] at h ⊢
  intro t raw
  rw [applyChange_bids, applyChange_asks]
  cases book.sided c with
  | none => exact h t raw
  | some c' =>
      have hnew : book.inc.bidWord t c' = some (some raw) ∨ book.inc.askWord t c' = some (some raw) →
          IsRaw raw := isRaw_of_word
      have hold := h t raw
      simp only [Option.bind_some]
      rintro (hlookup | hlookup)
      · cases hword : book.inc.bidWord t c' with
        | none => exact hold (Or.inl (by simpa [hword] using hlookup))
        | some word => exact hnew (Or.inl (by simpa [hword] using hlookup))
      · cases hword : book.inc.askWord t c' with
        | none => exact hold (Or.inr (by simpa [hword] using hlookup))
        | some word => exact hnew (Or.inr (by simpa [hword] using hlookup))

theorem RawSizes.applyChanges (h : book.RawSizes) (changes : List PriceLevel) :
    (book.applyChanges changes).RawSizes :=
  Runs.invariant RawSizes (fun _ c h => h.applyChange c) changes h

theorem isRaw_of_last {inc : Increments} {side : Side} {t raw : ℤ} {changes : List PriceLevel}
    (h : LastWrite.last (ownWord inc side t) changes = some (some raw)) : IsRaw raw := by
  obtain ⟨c, -, -, -, -, rfl⟩ := inserted_of_last h
  exact isRaw_raw inc c.size

theorem RawSizes.applySplit (h : book.RawSizes) (changes : List PriceLevel) :
    (book.applySplit changes).RawSizes := by
  have hold := rawSizes_iff_lookup.1 (h.applyChanges (unlabelled changes))
  rw [rawSizes_iff_lookup]
  intro t raw
  rw [applySplit_bids, applySplit_asks, splitBid, splitAsk]
  rintro (hlookup | hlookup)
  · split_ifs at hlookup with hsell
    · cases hlookup
    · cases hword : LastWrite.last (ownWord book.inc .buy t) changes with
      | none => exact hold t raw (Or.inl (by simpa [hword] using hlookup))
      | some word =>
          rw [hword] at hlookup
          exact isRaw_of_last (hword.trans (congrArg some hlookup))
  · split_ifs at hlookup with hbuy
    · cases hlookup
    · cases hword : LastWrite.last (ownWord book.inc .sell t) changes with
      | none => exact hold t raw (Or.inr (by simpa [hword] using hlookup))
      | some word =>
          rw [hword] at hlookup
          exact isRaw_of_last (hword.trans (congrArg some hlookup))

theorem rawSizes_applySnapshot (book : OrderBook) (snap : OrderBookSnapshot) :
    (book.applySnapshot snap).RawSizes := by
  intro e he
  have hlevel {levels : List PriceLevel} (h : e ∈ snapshotLevels book.inc levels) : IsRaw e.2 := by
    obtain ⟨l, -, -, rfl⟩ := mem_snapshotLevels.1 h
    exact isRaw_raw book.inc l.size
  rcases List.mem_append.1 he with he | he
  · exact (mem_of_mem_insertAll he).elim (fun h => absurd h (SortedMap.not_mem_empty e)) hlevel
  · exact (mem_of_mem_insertAll he).elim (fun h => absurd h (SortedMap.not_mem_empty e)) hlevel

theorem RawSizes.step (h : book.RawSizes) (op : BookOp) : (book.step op).RawSizes := by
  have hsynced : book.markSynced.RawSizes := h
  obtain ⟨snap, rfl, heq⟩ | ⟨changes, -, heq⟩ | ⟨changes, -, -, heq⟩ := book.step_cases op
  · exact rawSizes_applySnapshot book snap
  · rw [heq, RawSizes, finishUpdate_bids, finishUpdate_asks]
    exact hsynced.applyChanges changes
  · rw [heq, RawSizes, finishUpdate_bids, finishUpdate_asks]
    exact hsynced.applySplit changes

theorem rawSizes_run (inc : Increments) (ops : List BookOp) :
    (({ inc := inc } : OrderBook).run ops).RawSizes :=
  Runs.invariant RawSizes (fun _ op h => h.step op) ops (fun _ he => absurd he List.not_mem_nil)

/-! ## The sum -/

/-- Raw sizes are added exactly until the sum no longer fits. -/
theorem addRaw_eq {levels : List (ℤ × ℤ)} (hnonneg : ∀ e ∈ levels, 0 ≤ e.2) {totalRaw : ℤ}
    (htotal : 0 ≤ totalRaw) (hfits : totalRaw < 2 ^ 63) :
    addRaw totalRaw levels =
      if totalRaw + (levels.map Prod.snd).sum < 2 ^ 63 then
        some (totalRaw + (levels.map Prod.snd).sum)
      else none := by
  induction levels generalizing totalRaw with
  | nil =>
      rw [List.map_nil, List.sum_nil, add_zero, if_pos hfits]
      rfl
  | cons e levels ih =>
      rw [List.forall_mem_cons] at hnonneg
      have hsum : 0 ≤ (levels.map Prod.snd).sum :=
        List.sum_nonneg (List.forall_mem_map.2 hnonneg.2)
      have he := hnonneg.1
      rw [addRaw, List.foldlM_cons, List.map_cons, List.sum_cons, ← add_assoc]
      by_cases hnext : totalRaw + e.2 < 2 ^ 63
      · rw [addInt64, if_pos ⟨by omega, hnext⟩, ← ih hnonneg.2 (by omega) hnext]
        rfl
      · rw [addInt64, if_neg (fun h => hnext h.2), if_neg (by omega)]
        rfl

/-- Both bounds round monotonically, so swapped prices give swapped ticks. -/
theorem tick_mono (inc : Increments) {x y : ℚ} (h : x ≤ y) : inc.tick x ≤ inc.tick y := by
  rw [Increments.tick, Increments.tick, ← priceTickOf_eq, ← priceTickOf_eq, priceTickOf, priceTickOf]
  split_ifs with hx hy hy
  · exact le_rfl
  · exact clampFixed_nonneg _
  · exact absurd (h.trans hy) hx
  · have hround := stdRound_mono ((div_le_div_iff_of_pos_right inc.price_pos).2 h)
    exact max_le_max le_rfl (min_le_min hround le_rfl)

theorem volumeAtRange_eq (h : book.RawSizes) (lo hi : ℚ) :
    book.volumeAtRange lo hi =
      if book.rawInRange lo hi < 2 ^ 63 then some (book.rawInRange lo hi * book.inc.size) else none := by
  -- the bounds may come in either order
  obtain ⟨a, b, hpair, hab, hrange⟩ : ∃ a b, (if hi < lo then (hi, lo) else (lo, hi)) = (a, b) ∧
      book.inc.tick a ≤ book.inc.tick b ∧ ∀ t, InRange book.inc lo hi t ↔
        book.inc.tick a ≤ t ∧ t ≤ book.inc.tick b := by
    by_cases hswap : hi < lo
    · have hle := tick_mono book.inc hswap.le
      exact ⟨hi, lo, if_pos hswap, hle, fun t => by rw [InRange, min_eq_right hle, max_eq_left hle]⟩
    · have hle := tick_mono book.inc (not_lt.1 hswap)
      exact ⟨lo, hi, if_neg hswap, hle, fun t => by rw [InRange, min_eq_left hle, max_eq_right hle]⟩
  have hbids : book.bids.between (book.inc.tick b) (book.inc.tick a)
      = book.bids.entries.filter (fun e => decide (InRange book.inc lo hi e.1)) := by
    rw [SortedMap.between_eq_filter]
    refine List.filter_congr (fun e _ => decide_eq_decide.2 ?_)
    rw [hrange]
    omega
  have hasks : book.asks.between (book.inc.tick a) (book.inc.tick b)
      = book.asks.entries.filter (fun e => decide (InRange book.inc lo hi e.1)) := by
    rw [SortedMap.between_eq_filter]
    refine List.filter_congr (fun e _ => decide_eq_decide.2 ?_)
    rw [hrange]
    omega
  have hnonneg : ∀ e ∈ book.levelsInRange lo hi, 0 ≤ e.2 :=
    fun e he => (h e (List.mem_filter.1 he).1).1
  -- the two sides are added up in one pass
  have htotal : addRaw 0 (book.levelsInRange lo hi) =
      addRaw 0 (book.bids.between (book.inc.tick b) (book.inc.tick a)) >>= fun totalRaw =>
        addRaw totalRaw (book.asks.between (book.inc.tick a) (book.inc.tick b)) := by
    rw [hbids, hasks, levelsInRange, List.filter_append, addRaw, List.foldlM_append]
    rfl
  rw [volumeAtRange, hpair]
  dsimp only
  rw [← bind_assoc, ← htotal, addRaw_eq hnonneg le_rfl (by norm_num), zero_add]
  rw [rawInRange]
  split_ifs <;> rfl

/-- As a raw size is at most `10 ^ 15`, the sum needs at least 9224 levels to overflow. -/
theorem rawInRange_le (h : book.RawSizes) (lo hi : ℚ) :
    book.rawInRange lo hi ≤ (book.levelsInRange lo hi).length * 10 ^ 15 := by
  have hle : ∀ raw ∈ (book.levelsInRange lo hi).map Prod.snd, raw ≤ 10 ^ 15 :=
    List.forall_mem_map.2 (fun e he => (h e (List.mem_filter.1 he).1).2)
  have hsum := List.sum_le_card_nsmul _ _ hle
  rwa [List.length_map, nsmul_eq_mul] at hsum

/-- For any book that calls lead to, the volume is the exact sum if and only if the raw sizes in the
    range add up to what an `int64_t` holds. With at most 9223 levels they do. -/
theorem volumeAtRange_eq_iff (inc : Increments) (ops : List BookOp) (lo hi : ℚ) :
    let book := ({ inc := inc } : OrderBook).run ops
    (book.volumeAtRange lo hi = some (book.rawInRange lo hi * book.inc.size) ↔
        book.rawInRange lo hi ≤ 2 ^ 63 - 1) ∧
      ((book.levelsInRange lo hi).length ≤ 9223 → book.rawInRange lo hi ≤ 2 ^ 63 - 1) := by
  intro book
  have hsizes := rawSizes_run inc ops
  constructor
  · rw [volumeAtRange_eq hsizes]
    split_ifs with hfits
    · exact iff_of_true rfl (Int.le_sub_one_of_lt hfits)
    · exact iff_of_false (fun h => nomatch h) (fun h => hfits (Int.lt_of_le_sub_one h))
  · intro hlevels
    have hle := rawInRange_le hsizes lo hi
    calc book.rawInRange lo hi ≤ (book.levelsInRange lo hi).length * 10 ^ 15 := hle
      _ ≤ 9223 * 10 ^ 15 := by
          have hcount : ((book.levelsInRange lo hi).length : ℤ) ≤ 9223 := by exact_mod_cast hlevels
          omega
      _ ≤ 2 ^ 63 - 1 := by norm_num

/-! ## A book that overflows -/

/-- Asks of the largest raw size at the ticks from 1 on. -/
def deepSnapshot (n : ℕ) : OrderBookSnapshot where
  ticker := "BTC_USDT"
  bids := []
  asks := (List.range n).map (fun i => ⟨((i + 1 : ℕ) : ℤ) * (1 / 100), 10 ^ 12, .sell⟩)

theorem deep_tick {i : ℕ} (h : i < 10 ^ 15) :
    centIncrements.tick (((i + 1 : ℕ) : ℤ) * (1 / 100)) = (i + 1 : ℕ) := by
  have hpos : ¬ (((i + 1 : ℕ) : ℤ) : ℚ) * (1 / 100) ≤ 0 := not_le.2 (by positivity)
  have hdiv : (((i + 1 : ℕ) : ℤ) : ℚ) * (1 / 100) / (1 / 100) = ((i + 1 : ℕ) : ℤ) := by
    field_simp
  show priceTick _ (1 / (1 / 100)) = _
  rw [← priceTickOf_eq, priceTickOf, if_neg hpos, hdiv, stdRound_intCast, clampFixed]
  omega

theorem snapshotLevels_deep {n : ℕ} (h : n ≤ 10 ^ 15) :
    snapshotLevels centIncrements (deepSnapshot n).asks =
      (List.range n).map (fun i => (((i + 1 : ℕ) : ℤ), (10 : ℤ) ^ 15)) := by
  have hraw : centIncrements.raw (10 ^ 12) = 10 ^ 15 := by decide +kernel
  rw [snapshotLevels, deepSnapshot, List.filter_eq_self.2 (List.forall_mem_map.2 (fun i _ => by simp)),
    List.map_map]
  refine List.map_congr_left (fun i hi => ?_)
  rw [Function.comp_apply, hraw, deep_tick ((List.mem_range.1 hi).trans_le h)]

/-- All its levels lie in the range from `0` to `n`. -/
theorem rawInRange_deep {n : ℕ} (h : n ≤ 10 ^ 15) :
    (({ inc := centIncrements } : OrderBook).run [.snapshot (deepSnapshot n)]).rawInRange 0 n
      = n * 10 ^ 15 := by
  have hkeys : (((List.range n).map (fun i => (((i + 1 : ℕ) : ℤ), (10 : ℤ) ^ 15))).map
      Prod.fst).Nodup := by
    rw [List.map_map]
    exact List.nodup_range.map (fun i j hij => by simpa using hij)
  have hasks : (({ inc := centIncrements } : OrderBook).run
      [.snapshot (deepSnapshot n)]).asks.entries.Perm
        ((List.range n).map (fun i => (((i + 1 : ℕ) : ℤ), (10 : ℤ) ^ 15))) := by
    have hperm := SortedMap.insertAll_perm (m := (∅ : AskMap)) hkeys (fun _ _ => rfl)
    rw [← snapshotLevels_deep h] at hperm ⊢
    exact hperm.trans (List.Perm.of_eq (List.append_nil _))
  have hrange : ∀ e ∈ (List.range n).map (fun i => (((i + 1 : ℕ) : ℤ), (10 : ℤ) ^ 15)),
      InRange centIncrements 0 n e.1 := by
    intro e he
    obtain ⟨i, hi, rfl⟩ := List.mem_map.1 he
    have hin : i < n := List.mem_range.1 hi
    have hzero : centIncrements.tick 0 = 0 := priceTick_of_nonpos le_rfl _
    have hle : (((i + 1 : ℕ) : ℤ) : ℚ) * (1 / 100) ≤ n := by
      have hcast : (((i + 1 : ℕ) : ℤ) : ℚ) ≤ n := by exact_mod_cast hin
      have hn : (0 : ℚ) ≤ n := Nat.cast_nonneg n
      linarith
    have hmono := tick_mono centIncrements hle
    rw [deep_tick (hin.trans_le h)] at hmono
    rw [InRange, hzero]
    exact ⟨(min_le_left _ _).trans (by positivity), hmono.trans (le_max_right _ _)⟩
  have hlevels : ((({ inc := centIncrements } : OrderBook).run
      [.snapshot (deepSnapshot n)]).levelsInRange 0 n).Perm
        ((List.range n).map (fun i => (((i + 1 : ℕ) : ℤ), (10 : ℤ) ^ 15))) := by
    refine (hasks.filter _).trans (List.Perm.of_eq (List.filter_eq_self.2 (fun e he => ?_)))
    exact decide_eq_true (hrange e he)
  rw [rawInRange, (hlevels.map Prod.snd).sum_eq, List.map_map]
  simp [Function.comp_def]

/-- 9224 levels of the largest raw size overflow. -/
theorem volumeAtRange_deep :
    let book := ({ inc := centIncrements } : OrderBook).run [.snapshot (deepSnapshot 9224)]
    book.rawInRange 0 (9224 : ℕ) = 9224 * 10 ^ 15 ∧
      book.volumeAtRange 0 (9224 : ℕ) ≠ some (book.rawInRange 0 (9224 : ℕ) * book.inc.size) := by
  have hraw := rawInRange_deep (n := 9224) (by norm_num)
  refine ⟨by rw [hraw]; norm_num, ?_⟩
  rw [volumeAtRange_eq (rawSizes_run _ _), hraw, if_neg (by norm_num)]
  exact fun h => nomatch h

end OrderBook

end TradeBot
