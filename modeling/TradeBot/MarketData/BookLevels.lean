import TradeBot.Lib.LastWrite
import TradeBot.Lib.Runs
import TradeBot.MarketData.OrderBook

set_option autoImplicit false

/-! # What the changes leave at a level

One lookup for every path through the book: what a labelled change, a list of changes in order, and
the batch path leave at one tick of the bids and of the asks. All results about the book rest on
these lookups and not on the code of the paths. -/

namespace TradeBot

/-- What a change on one of the two sides leaves at the bid level `t`: a raw size or nothing, or
    `none` if the change leaves the level alone. -/
def Increments.bidWord (inc : Increments) (t : ℤ) (c : PriceLevel) : Option (Option ℤ) :=
  if c.side = .buy then
    if inc.tick c.price = t then some (if 0 < c.size then some (inc.raw c.size) else none) else none
  else if 0 < c.size ∧ inc.tick c.price ≤ t then some none
  else none

/-- What a change on one of the two sides leaves at the ask level `t`. -/
def Increments.askWord (inc : Increments) (t : ℤ) (c : PriceLevel) : Option (Option ℤ) :=
  if c.side = .buy then if 0 < c.size ∧ t ≤ inc.tick c.price then some none else none
  else if inc.tick c.price = t then some (if 0 < c.size then some (inc.raw c.size) else none)
  else none

namespace OrderBook

variable {book : OrderBook} {inc : Increments} {c : PriceLevel} {t : ℤ}

/-! ## The cached top -/

@[simp] theorem cleanTop_inc (book : OrderBook) : book.cleanTop.inc = book.inc := by
  unfold cleanTop
  split <;> rfl

@[simp] theorem cleanTop_bids (book : OrderBook) : book.cleanTop.bids = book.bids := by
  unfold cleanTop
  split <;> rfl

@[simp] theorem cleanTop_asks (book : OrderBook) : book.cleanTop.asks = book.asks := by
  unfold cleanTop
  split <;> rfl

@[simp] theorem cleanTop_topDirty (book : OrderBook) : book.cleanTop.topDirty = false := by
  unfold cleanTop
  split
  · rfl
  · rename_i h
    simpa using h

/-- The cached top is the first bid and the first ask, unless it is marked as dirty. -/
def Fresh (book : OrderBook) : Prop :=
  book.topDirty = false → book.bestBidTick = book.bids.first ∧ book.bestAskTick = book.asks.first

theorem Fresh.cleanTop (h : book.Fresh) :
    book.cleanTop.bestBidTick = book.bids.first ∧ book.cleanTop.bestAskTick = book.asks.first := by
  unfold OrderBook.cleanTop
  split
  · exact ⟨rfl, rfl⟩
  · rename_i hclean
    exact h (by simpa using hclean)

theorem fresh_cleanTop (h : book.Fresh) : book.cleanTop.Fresh := by
  intro _
  rw [cleanTop_bids, cleanTop_asks]
  exact h.cleanTop

/-! ## One change -/

@[simp] theorem applySided_inc (book : OrderBook) (side : Side) (price size : ℚ) :
    (book.applySided side price size).inc = book.inc := by
  unfold applySided
  dsimp only
  split_ifs <;> rfl

@[simp] theorem applySided_topDirty (book : OrderBook) (side : Side) (price size : ℚ) :
    (book.applySided side price size).topDirty = true := by
  unfold applySided
  dsimp only
  split_ifs <;> rfl

theorem applySided_lookup (book : OrderBook) (side : Side) (price size : ℚ) (t : ℤ) :
    (book.applySided side price size).bids.lookup t =
        (book.inc.bidWord t ⟨price, size, side⟩).getD (book.bids.lookup t) ∧
      (book.applySided side price size).asks.lookup t =
        (book.inc.askWord t ⟨price, size, side⟩).getD (book.asks.lookup t) := by
  unfold applySided Increments.bidWord Increments.askWord
  dsimp only
  by_cases hsize : 0 < size <;> by_cases hside : side = .buy
  · simp only [hsize, hside, if_true, true_and, SortedMap.lookup_insert,
      SortedMap.lookup_eraseUpTo, eq_comm (a := t)]
    constructor
    · split <;> rfl
    · by_cases ht : t ≤ book.inc.tick price
      · simp [ht]
      · simp [ht, not_le.1 ht]
  · simp only [hsize, hside, if_true, if_false, true_and, SortedMap.lookup_insert,
      SortedMap.lookup_eraseUpTo, eq_comm (a := t)]
    constructor
    · by_cases ht : book.inc.tick price ≤ t
      · simp [ht]
      · simp [ht, not_le.1 ht]
    · split <;> rfl
  · simp only [hsize, hside, if_true, if_false, false_and, SortedMap.lookup_erase,
      eq_comm (a := t), Option.getD_none, and_true]
    split <;> rfl
  · simp only [hsize, hside, if_false, false_and, SortedMap.lookup_erase, eq_comm (a := t),
      Option.getD_none, true_and]
    split <;> rfl

/-- The change with the side that `apply_change_` gives it, or `none` if it is dropped. -/
def sided (book : OrderBook) (c : PriceLevel) : Option PriceLevel :=
  if c.side = .none then
    (book.cleanTop.inferSide c.price).map (fun side => { c with side := side })
  else some c

/-- What `apply_change_` does: nothing but clean the cached top, or the change on its side. -/
theorem applyChange_cases (book : OrderBook) (c : PriceLevel) :
    (book.sided c = none ∧ book.applyChange c = book.cleanTop) ∨
      ∃ side, book.sided c = some { c with side := side } ∧
        (book.applyChange c = book.cleanTop.applySided side c.price c.size ∨
          book.applyChange c = book.applySided side c.price c.size) := by
  unfold sided applyChange
  by_cases hside : c.side = .none
  · simp only [hside, if_true]
    cases book.cleanTop.inferSide c.price with
    | none => exact Or.inl ⟨rfl, rfl⟩
    | some side => exact Or.inr ⟨side, rfl, Or.inl rfl⟩
  · simp only [hside, if_false]
    exact Or.inr ⟨c.side, rfl, Or.inr rfl⟩

@[simp] theorem applyChange_inc (book : OrderBook) (c : PriceLevel) :
    (book.applyChange c).inc = book.inc := by
  obtain ⟨-, h⟩ | ⟨side, -, h | h⟩ := book.applyChange_cases c <;> simp [h]

theorem Fresh.applyChange (h : book.Fresh) (c : PriceLevel) : (book.applyChange c).Fresh := by
  obtain ⟨-, heq⟩ | ⟨side, -, heq | heq⟩ := book.applyChange_cases c
  · rw [heq]
    exact fresh_cleanTop h
  · rw [heq]
    intro hclean
    simp at hclean
  · rw [heq]
    intro hclean
    simp at hclean

theorem applyChange_bids (book : OrderBook) (c : PriceLevel) (t : ℤ) :
    (book.applyChange c).bids.lookup t =
      ((book.sided c).bind (book.inc.bidWord t)).getD (book.bids.lookup t) := by
  obtain ⟨hsided, heq⟩ | ⟨side, hsided, heq | heq⟩ := book.applyChange_cases c
  · rw [hsided, heq, cleanTop_bids]
    rfl
  · rw [hsided, heq, (applySided_lookup ..).1, cleanTop_inc, cleanTop_bids]
    rfl
  · rw [hsided, heq, (applySided_lookup ..).1]
    rfl

theorem applyChange_asks (book : OrderBook) (c : PriceLevel) (t : ℤ) :
    (book.applyChange c).asks.lookup t =
      ((book.sided c).bind (book.inc.askWord t)).getD (book.asks.lookup t) := by
  obtain ⟨hsided, heq⟩ | ⟨side, hsided, heq | heq⟩ := book.applyChange_cases c
  · rw [hsided, heq, cleanTop_asks]
    rfl
  · rw [hsided, heq, (applySided_lookup ..).2, cleanTop_inc, cleanTop_asks]
    rfl
  · rw [hsided, heq, (applySided_lookup ..).2]
    rfl

/-! ## Changes in order -/

/-- The changes with the sides that they are given one after the other, without those dropped. -/
def sidedChanges : OrderBook → List PriceLevel → List PriceLevel
  | _, [] => []
  | book, c :: changes => (book.sided c).toList ++ sidedChanges (book.applyChange c) changes

@[simp] theorem applyChanges_inc (book : OrderBook) (changes : List PriceLevel) :
    (book.applyChanges changes).inc = book.inc := by
  induction changes generalizing book with
  | nil => rfl
  | cons c changes ih => exact (ih (book.applyChange c)).trans (book.applyChange_inc c)

theorem Fresh.applyChanges (h : book.Fresh) (changes : List PriceLevel) :
    (book.applyChanges changes).Fresh := by
  induction changes generalizing book with
  | nil => exact h
  | cons c changes ih => exact ih (h.applyChange c)

/-- In order, the last change that concerns a level decides what it holds. -/
theorem applyChanges_bids (book : OrderBook) (changes : List PriceLevel) (t : ℤ) :
    (book.applyChanges changes).bids.lookup t =
      (LastWrite.last (book.inc.bidWord t) (book.sidedChanges changes)).getD
        (book.bids.lookup t) := by
  induction changes generalizing book with
  | nil => rfl
  | cons c changes ih =>
      show ((book.applyChange c).applyChanges changes).bids.lookup t = _
      rw [ih, applyChange_bids, applyChange_inc, sidedChanges, LastWrite.last_append,
        Option.getD_or]
      cases book.sided c with
      | none => rfl
      | some c' => rw [Option.toList_some, LastWrite.last_singleton]; rfl

theorem applyChanges_asks (book : OrderBook) (changes : List PriceLevel) (t : ℤ) :
    (book.applyChanges changes).asks.lookup t =
      (LastWrite.last (book.inc.askWord t) (book.sidedChanges changes)).getD
        (book.asks.lookup t) := by
  induction changes generalizing book with
  | nil => rfl
  | cons c changes ih =>
      show ((book.applyChange c).applyChanges changes).asks.lookup t = _
      rw [ih, applyChange_asks, applyChange_inc, sidedChanges, LastWrite.last_append,
        Option.getD_or]
      cases book.sided c with
      | none => rfl
      | some c' => rw [Option.toList_some, LastWrite.last_singleton]; rfl

/-! ## The batch path -/

section

variable {lt : ℤ → ℤ → Prop} [IsStrictTotalOrder ℤ lt] [DecidableRel lt]

/-- What an element of a work list leaves at the level `t`. -/
def workWord (t : ℤ) (w : ℤ × ℤ) : Option (Option ℤ) :=
  if w.1 = t then some (if 0 < w.2 then some w.2 else none) else none

theorem updateMap_lookup (map : SortedMap lt ℤ) (work : List (ℤ × ℤ)) (t : ℤ) :
    (updateMap map work).lookup t = (LastWrite.last (workWord t) work).getD (map.lookup t) := by
  refine LastWrite.read_foldl (fun map : SortedMap lt ℤ => map.lookup t) (fun map w => ?_) work map
  unfold workWord
  by_cases hpos : 0 < w.2
  · simp only [hpos, if_true, SortedMap.lookup_insert, eq_comm (a := t)]
    split <;> rfl
  · simp only [hpos, if_false, SortedMap.lookup_erase, eq_comm (a := t)]
    split <;> rfl

/-- What comes before the foremost tick inserted comes before every tick inserted. -/
theorem forall_foremost (work : List (ℤ × ℤ)) (t : ℤ) :
    (∀ m ∈ foremost lt work, lt t m) ↔ ∀ w ∈ work, 0 < w.2 → lt t w.1 := by
  suffices h : ∀ best : Option ℤ,
      (∀ m ∈ work.foldl (fun best w => if 0 < w.2 ∧ ∀ b ∈ best, lt w.1 b then some w.1 else best)
        best, lt t m) ↔ (∀ b ∈ best, lt t b) ∧ ∀ w ∈ work, 0 < w.2 → lt t w.1 by
    simpa [foremost] using h none
  induction work with
  | nil => simp
  | cons w work ih =>
      intro best
      rw [List.foldl_cons, ih, List.forall_mem_cons, ← and_assoc]
      refine and_congr_left' ?_
      by_cases hnew : 0 < w.2 ∧ ∀ b ∈ best, lt w.1 b
      · rw [if_pos hnew]
        simp only [Option.mem_some_iff, forall_eq', hnew.1, forall_const]
        exact ⟨fun h => ⟨fun b hb => trans_of lt h (hnew.2 b hb), h⟩, And.right⟩
      · rw [if_neg hnew]
        refine ⟨fun h => ⟨h, fun hpos => ?_⟩, And.left⟩
        -- a best tick that does not come after `w` is at `w` or before it
        have hexists : ∃ b ∈ best, ¬ lt w.1 b := by
          by_contra hno
          push Not at hno
          exact hnew ⟨hpos, hno⟩
        obtain ⟨b, hb, hle⟩ := hexists
        rcases trichotomous_of lt w.1 b with hlt | heq | hgt
        · exact absurd hlt hle
        · exact heq ▸ h b hb
        · exact trans_of lt (h b hb) hgt

theorem lookup_cleaned (map : SortedMap lt ℤ) (m : Option ℤ) (t : ℤ) :
    ((m.map map.eraseUpTo).getD map).lookup t =
      if ∀ k ∈ m, lt k t then map.lookup t else none := by
  cases m with
  | none => simp
  | some k => simp [SortedMap.lookup_eraseUpTo]

end

/-- Is the level `t` at or above a sell level that the batch inserts? -/
def SellAtOrBelow (inc : Increments) (t : ℤ) (changes : List PriceLevel) : Prop :=
  ∃ c ∈ changes, c.side = .sell ∧ 0 < inc.raw c.size ∧ inc.tick c.price ≤ t

/-- Is the level `t` at or below a buy level that the batch inserts? -/
def BuyAtOrAbove (inc : Increments) (t : ℤ) (changes : List PriceLevel) : Prop :=
  ∃ c ∈ changes, c.side = .buy ∧ 0 < inc.raw c.size ∧ t ≤ inc.tick c.price

instance (inc : Increments) (t : ℤ) (changes : List PriceLevel) :
    Decidable (SellAtOrBelow inc t changes) := inferInstanceAs (Decidable (∃ c ∈ changes, _))

instance (inc : Increments) (t : ℤ) (changes : List PriceLevel) :
    Decidable (BuyAtOrAbove inc t changes) := inferInstanceAs (Decidable (∃ c ∈ changes, _))

/-- What a change of `side` leaves at the level `t` of its own side, if a size that rounds to nothing
    counts as none. -/
def ownWord (inc : Increments) (side : Side) (t : ℤ) (c : PriceLevel) : Option (Option ℤ) :=
  if c.side = side ∧ inc.tick c.price = t then
    some (if 0 < inc.raw c.size then some (inc.raw c.size) else none)
  else none

/-- What the labelled changes of a batch leave at the bid level `t`: nothing if they insert a sell
    level at or below it, otherwise what the last buy at the level leaves. -/
def splitBid (inc : Increments) (t : ℤ) (changes : List PriceLevel) : Option (Option ℤ) :=
  if SellAtOrBelow inc t changes then some none else LastWrite.last (ownWord inc .buy t) changes

/-- What the labelled changes of a batch leave at the ask level `t`. -/
def splitAsk (inc : Increments) (t : ℤ) (changes : List PriceLevel) : Option (Option ℤ) :=
  if BuyAtOrAbove inc t changes then some none else LastWrite.last (ownWord inc .sell t) changes

theorem last_work (inc : Increments) (side : Side) (t : ℤ) (changes : List PriceLevel) :
    LastWrite.last (workWord t) (work inc side changes) =
      LastWrite.last (ownWord inc side t) changes := by
  rw [work, LastWrite.last_map, LastWrite.last_filter]
  refine LastWrite.last_congr (fun c _ => ?_)
  by_cases hside : c.side = side <;> simp [workWord, ownWord, hside]

theorem forall_work {inc : Increments} {side : Side} {changes : List PriceLevel}
    {p : ℤ × ℤ → Prop} :
    (∀ w ∈ work inc side changes, p w) ↔
      ∀ c ∈ changes, c.side = side → p (inc.tick c.price, inc.raw c.size) := by
  simp only [work, List.forall_mem_map, List.mem_filter, decide_eq_true_eq, and_imp]

/-- What a labelled change of a batch leaves at a level of its side, it has inserted. -/
theorem inserted_of_last {inc : Increments} {side : Side} {t s : ℤ} {changes : List PriceLevel}
    (h : LastWrite.last (ownWord inc side t) changes = some (some s)) :
    ∃ c ∈ changes, c.side = side ∧ 0 < inc.raw c.size ∧ inc.tick c.price = t ∧
      inc.raw c.size = s := by
  obtain ⟨c, hc, hword⟩ := LastWrite.exists_of_last h
  unfold ownWord at hword
  split_ifs at hword with hown hpos
  · cases hword
    exact ⟨c, hc, hown.1, hpos, hown.2, rfl⟩
  · cases hword

@[simp] theorem applySplit_inc (book : OrderBook) (changes : List PriceLevel) :
    (book.applySplit changes).inc = book.inc :=
  applyChanges_inc ..

theorem applySplit_bids (book : OrderBook) (changes : List PriceLevel) (t : ℤ) :
    (book.applySplit changes).bids.lookup t =
      (splitBid book.inc t changes).getD
        ((book.applyChanges (unlabelled changes)).bids.lookup t) := by
  have hcrossed : (∀ m ∈ foremost (· < ·) (work book.inc .sell changes), t < m) ↔
      ¬ SellAtOrBelow book.inc t changes := by
    rw [forall_foremost, forall_work]
    simp only [SellAtOrBelow, not_exists, not_and, not_le]
  simp only [applySplit, applyChanges_inc, lookup_cleaned, gt_iff_lt, hcrossed, updateMap_lookup,
    last_work, splitBid]
  by_cases h : SellAtOrBelow book.inc t changes <;> simp [h]

theorem applySplit_asks (book : OrderBook) (changes : List PriceLevel) (t : ℤ) :
    (book.applySplit changes).asks.lookup t =
      (splitAsk book.inc t changes).getD
        ((book.applyChanges (unlabelled changes)).asks.lookup t) := by
  have hcrossed : (∀ m ∈ foremost (· > ·) (work book.inc .buy changes), m < t) ↔
      ¬ BuyAtOrAbove book.inc t changes := by
    have h := @forall_foremost (· > ·) _ _ (work book.inc .buy changes) t
    rw [forall_work] at h
    simp only [gt_iff_lt] at h
    simp only [gt_iff_lt, h, BuyAtOrAbove, not_exists, not_and, not_le]
  simp only [applySplit, applyChanges_inc, lookup_cleaned, hcrossed, updateMap_lookup,
    last_work, splitAsk]
  by_cases h : BuyAtOrAbove book.inc t changes <;> simp [h]

/-! ## Calls -/

/-- The cached top is that of the maps. -/
structure Cached (book : OrderBook) : Prop where
  clean : book.topDirty = false
  bid : book.bestBidTick = book.bids.first
  ask : book.bestAskTick = book.asks.first

theorem Cached.fresh (h : book.Cached) : book.Fresh := fun _ => ⟨h.bid, h.ask⟩

theorem applySplit_fresh (book : OrderBook) (changes : List PriceLevel) :
    (book.applySplit changes).Fresh := by
  intro hclean
  exact absurd hclean (by simp [applySplit])

theorem Fresh.finishUpdate (h : book.Fresh) : book.finishUpdate.Cached where
  clean := book.cleanTop_topDirty
  bid := h.cleanTop.1.trans (congrArg SortedMap.first book.cleanTop_bids.symm)
  ask := h.cleanTop.2.trans (congrArg SortedMap.first book.cleanTop_asks.symm)

@[simp] theorem finishUpdate_inc (book : OrderBook) : book.finishUpdate.inc = book.inc :=
  book.cleanTop_inc

@[simp] theorem finishUpdate_bids (book : OrderBook) : book.finishUpdate.bids = book.bids :=
  book.cleanTop_bids

@[simp] theorem finishUpdate_asks (book : OrderBook) : book.finishUpdate.asks = book.asks :=
  book.cleanTop_asks

/-- What an update does, on either path, up to its end. -/
theorem step_cases (book : OrderBook) (op : BookOp) :
    (∃ snap, op = .snapshot snap ∧ book.step op = book.applySnapshot snap) ∨
      (∃ changes, (op = .batch changes ∨ ∃ upd, op = .update upd ∧ upd.changes = changes) ∧
        book.step op = (book.markSynced.applyChanges changes).finishUpdate) ∨
      ∃ changes, op = .batch changes ∧ 64 ≤ changes.length ∧
        book.step op = (book.markSynced.applySplit changes).finishUpdate := by
  cases op with
  | snapshot snap => exact Or.inl ⟨snap, rfl, rfl⟩
  | update upd => exact Or.inr (Or.inl ⟨upd.changes, Or.inr ⟨upd, rfl, rfl⟩, rfl⟩)
  | batch changes =>
      by_cases hlong : 64 ≤ changes.length
      · exact Or.inr (Or.inr ⟨changes, rfl, hlong, if_pos hlong⟩)
      · exact Or.inr (Or.inl ⟨changes, Or.inl rfl, if_neg hlong⟩)

@[simp] theorem step_inc (book : OrderBook) (op : BookOp) : (book.step op).inc = book.inc := by
  obtain ⟨snap, -, h⟩ | ⟨changes, -, h⟩ | ⟨changes, -, -, h⟩ := book.step_cases op
  · rw [h]
    rfl
  · rw [h, finishUpdate_inc, applyChanges_inc]
    rfl
  · rw [h, finishUpdate_inc, applySplit_inc]
    rfl

@[simp] theorem applyUpdate_inc (book : OrderBook) (upd : OrderBookUpdate) :
    (book.applyUpdate upd).inc = book.inc := book.step_inc (.update upd)

theorem Cached.step (h : book.Cached) (op : BookOp) : (book.step op).Cached := by
  have hfresh : book.markSynced.Fresh := h.fresh
  obtain ⟨snap, -, heq⟩ | ⟨changes, -, heq⟩ | ⟨changes, -, -, heq⟩ := book.step_cases op
  · rw [heq]
    exact ⟨rfl, rfl, rfl⟩
  · rw [heq]
    exact (hfresh.applyChanges changes).finishUpdate
  · rw [heq]
    exact (applySplit_fresh _ changes).finishUpdate

theorem Cached.run (h : book.Cached) (ops : List BookOp) : (book.run ops).Cached :=
  Runs.invariant Cached (fun _ op h => h.step op) ops h

theorem cached_empty (inc : Increments) : ({ inc := inc } : OrderBook).Cached := ⟨rfl, rfl, rfl⟩

theorem mem_snapshotLevels {levels : List PriceLevel} {e : ℤ × ℤ} :
    e ∈ snapshotLevels inc levels ↔
      ∃ l ∈ levels, 0 < l.size ∧ (inc.tick l.price, inc.raw l.size) = e := by
  simp [snapshotLevels, and_assoc]

/-- A snapshot's side holds levels of the snapshot only. -/
theorem mem_of_mem_insertAll {lt : ℤ → ℤ → Prop} [IsStrictTotalOrder ℤ lt] [DecidableRel lt]
    {levels : List (ℤ × ℤ)} {map : SortedMap lt ℤ} {e : ℤ × ℤ}
    (h : e ∈ levels.foldl (fun map l => map.insert l.1 l.2) map) : e ∈ map ∨ e ∈ levels := by
  induction levels generalizing map with
  | nil => exact Or.inl h
  | cons l levels ih =>
      rcases ih h with h | h
      · rcases SortedMap.mem_insert.1 h with rfl | ⟨h, -⟩
        · exact Or.inr (List.mem_cons_self ..)
        · exact Or.inl h
      · exact Or.inr (List.mem_cons_of_mem _ h)

end OrderBook

end TradeBot
