import TradeBot.MarketData.UncrossedBook

set_option autoImplicit false

/-! # The batch path against the plain one

Below 64 changes both calls run the same code. From 64 on the batch path applies the unlabelled
changes first, then the buys, then the sells, takes a size that rounds to nothing as a removal, and
lets an insertion clear the other side whatever comes after it in the list. So another change may have
the last word on a level than in order. -/

namespace TradeBot

namespace OrderBook

variable {book : OrderBook} {changes : List PriceLevel}

/-- The same levels and the same cached top. -/
structure SameBook (book book' : OrderBook) : Prop where
  bids : book.bids = book'.bids
  asks : book.asks = book'.asks
  bestBid : book.bestBidTick = book'.bestBidTick
  bestAsk : book.bestAskTick = book'.bestAskTick

theorem sameBook_of_cached {book' : OrderBook} (h : book.Cached) (h' : book'.Cached)
    (hbids : book.bids = book'.bids) (hasks : book.asks = book'.asks) : book.SameBook book' where
  bids := hbids
  asks := hasks
  bestBid := by rw [h.bid, h'.bid, hbids]
  bestAsk := by rw [h.ask, h'.ask, hasks]

/-- The last word on the bid level `t` if the changes are applied in order. -/
def bidInOrder (book : OrderBook) (changes : List PriceLevel) (t : ℤ) : Option (Option ℤ) :=
  LastWrite.last (book.inc.bidWord t) (book.sidedChanges changes)

/-- The last word on the ask level `t` if the changes are applied in order. -/
def askInOrder (book : OrderBook) (changes : List PriceLevel) (t : ℤ) : Option (Option ℤ) :=
  LastWrite.last (book.inc.askWord t) (book.sidedChanges changes)

/-- On every level the labelled changes, in the order of precedence of a batch, or else the
    unlabelled ones, leave what the change leaves that has the last word in order. -/
def SameLastWord (book : OrderBook) (changes : List PriceLevel) : Prop :=
  ∀ t,
    ((splitBid book.inc t changes).or (book.bidInOrder (unlabelled changes) t)).getD
        (book.bids.lookup t) = (book.bidInOrder changes t).getD (book.bids.lookup t) ∧
      ((splitAsk book.inc t changes).or (book.askInOrder (unlabelled changes) t)).getD
        (book.asks.lookup t) = (book.askInOrder changes t).getD (book.asks.lookup t)

theorem applySplit_eq_iff (book : OrderBook) (changes : List PriceLevel) :
    ((book.applySplit changes).bids = (book.applyChanges changes).bids ∧
        (book.applySplit changes).asks = (book.applyChanges changes).asks) ↔
      book.SameLastWord changes := by
  have hlookup : ∀ t,
      ((book.applySplit changes).bids.lookup t = (book.applyChanges changes).bids.lookup t ∧
          (book.applySplit changes).asks.lookup t = (book.applyChanges changes).asks.lookup t) ↔
        ((splitBid book.inc t changes).or (book.bidInOrder (unlabelled changes) t)).getD
            (book.bids.lookup t) = (book.bidInOrder changes t).getD (book.bids.lookup t) ∧
          ((splitAsk book.inc t changes).or (book.askInOrder (unlabelled changes) t)).getD
            (book.asks.lookup t) = (book.askInOrder changes t).getD (book.asks.lookup t) := by
    intro t
    rw [applySplit_bids, applySplit_asks, applyChanges_bids, applyChanges_bids, applyChanges_asks,
      applyChanges_asks, Option.getD_or, Option.getD_or]
    rfl
  simp only [SameLastWord, ← hlookup]
  constructor
  · rintro ⟨hbids, hasks⟩ t
    rw [hbids, hasks]
    exact ⟨rfl, rfl⟩
  · intro h
    exact ⟨SortedMap.ext_lookup (fun t => (h t).1), SortedMap.ext_lookup (fun t => (h t).2)⟩

/-! ## Batches without surprises -/

theorem sidedChanges_of_labelled (h : ∀ c ∈ changes, c.side ≠ .none) :
    book.sidedChanges changes = changes := by
  induction changes generalizing book with
  | nil => rfl
  | cons c changes ih =>
      rw [List.forall_mem_cons] at h
      rw [sidedChanges, ih h.2, sided, if_neg h.1]
      rfl

/-- Labelled changes whose sizes do not round to nothing, and whose insertions do not cross one
    another. -/
structure Tame (inc : Increments) (changes : List PriceLevel) : Prop where
  labelled : ∀ c ∈ changes, c.side ≠ .none
  sizes : ∀ c ∈ changes, 0 < c.size → 0 < inc.raw c.size
  uncrossed : ∀ b ∈ changes, ∀ a ∈ changes, b.side = .buy → a.side = .sell → 0 < b.size →
    0 < a.size → inc.tick b.price < inc.tick a.price

theorem Tame.sell {inc : Increments} (h : Tame inc changes) {c : PriceLevel} (hc : c ∈ changes)
    (hside : c.side ≠ .buy) : c.side = .sell := by
  have hlabelled := h.labelled c hc
  cases hcside : c.side with
  | none => exact absurd hcside hlabelled
  | buy => exact absurd hcside hside
  | sell => rfl

theorem pos_iff_raw_pos {inc : Increments} (h : Tame inc changes) {c : PriceLevel}
    (hc : c ∈ changes) : 0 < c.size ↔ 0 < inc.raw c.size :=
  ⟨h.sizes c hc, pos_of_sizeFix_pos⟩

theorem Tame.bid {inc : Increments} (h : Tame inc changes) (t : ℤ) (old : Option ℤ) :
    (splitBid inc t changes).getD old = (LastWrite.last (inc.bidWord t) changes).getD old := by
  by_cases hcrossed : SellAtOrBelow inc t changes
  · rw [splitBid, if_pos hcrossed]
    obtain ⟨a, ha, haside, hapos, hatick⟩ := hcrossed
    -- no buy of the batch is inserted at the level, so the last word on it clears it
    have hword : inc.bidWord t a = some none := by
      simp [Increments.bidWord, haside, pos_of_sizeFix_pos hapos, hatick]
    have hclears : LastWrite.last (inc.bidWord t) changes = some none := by
      refine LastWrite.last_of_forall ha hword (fun b hb word hbword => ?_)
      unfold Increments.bidWord at hbword
      split_ifs at hbword with hside htick hpos hclear
      · have hlt := h.uncrossed b hb a ha hside haside hpos (pos_of_sizeFix_pos hapos)
        omega
      · exact (Option.some.inj hbword).symm
      · exact (Option.some.inj hbword).symm
    rw [hclears]
  · rw [splitBid, if_neg hcrossed]
    refine congrArg (Option.getD · old) (LastWrite.last_congr (fun c hc => ?_))
    unfold ownWord Increments.bidWord
    by_cases hside : c.side = .buy
    · simp only [hside, true_and, if_true, pos_iff_raw_pos h hc]
    · have hno : ¬ (0 < c.size ∧ inc.tick c.price ≤ t) := fun hclear =>
        hcrossed ⟨c, hc, h.sell hc hside, h.sizes c hc hclear.1, hclear.2⟩
      simp only [hside, false_and, if_false, hno]

theorem Tame.ask {inc : Increments} (h : Tame inc changes) (t : ℤ) (old : Option ℤ) :
    (splitAsk inc t changes).getD old = (LastWrite.last (inc.askWord t) changes).getD old := by
  by_cases hcrossed : BuyAtOrAbove inc t changes
  · rw [splitAsk, if_pos hcrossed]
    obtain ⟨b, hb, hbside, hbpos, hbtick⟩ := hcrossed
    have hword : inc.askWord t b = some none := by
      simp [Increments.askWord, hbside, pos_of_sizeFix_pos hbpos, hbtick]
    have hclears : LastWrite.last (inc.askWord t) changes = some none := by
      refine LastWrite.last_of_forall hb hword (fun a ha word haword => ?_)
      unfold Increments.askWord at haword
      split_ifs at haword with hside hclear htick hpos
      · exact (Option.some.inj haword).symm
      · have hlt := h.uncrossed b hb a ha hbside (h.sell ha hside) (pos_of_sizeFix_pos hbpos) hpos
        omega
      · exact (Option.some.inj haword).symm
    rw [hclears]
  · rw [splitAsk, if_neg hcrossed]
    refine congrArg (Option.getD · old) (LastWrite.last_congr (fun c hc => ?_))
    unfold ownWord Increments.askWord
    by_cases hside : c.side = .buy
    · have hno : ¬ (0 < c.size ∧ t ≤ inc.tick c.price) := fun hclear =>
        hcrossed ⟨c, hc, hside, h.sizes c hc hclear.1, hclear.2⟩
      simp [hside, hno]
    · simp only [h.sell hc hside, true_and, pos_iff_raw_pos h hc]
      simp

/-- A tame batch leaves what the plain update leaves. -/
theorem Tame.sameLastWord (h : Tame book.inc changes) : book.SameLastWord changes := by
  have hnone : unlabelled changes = [] := by
    rw [unlabelled, List.filter_eq_nil_iff]
    intro c hc
    simpa using h.labelled c hc
  intro t
  rw [bidInOrder, bidInOrder, askInOrder, askInOrder, sidedChanges_of_labelled h.labelled, hnone]
  simp only [sidedChanges, LastWrite.last_nil, Option.or_none]
  exact ⟨h.bid t _, h.ask t _⟩

/-! ## Both calls -/

/-- In every reachable state the batch leaves the book that the update leaves, exactly if it is
    shorter than 64 changes or on every level the same change has the last word, or one that leaves
    the same. -/
theorem applyUpdateBatch_iff (inc : Increments) (ops : List BookOp) (upd : OrderBookUpdate) :
    ((({ inc := inc } : OrderBook).run ops).applyUpdateBatch upd.changes).SameBook
        ((({ inc := inc } : OrderBook).run ops).applyUpdate upd) ↔
      upd.changes.length < 64 ∨
        (({ inc := inc } : OrderBook).run ops).markSynced.SameLastWord upd.changes := by
  have hcached := (cached_empty inc).run ops
  generalize ({ inc := inc } : OrderBook).run ops = book at hcached ⊢
  have hfresh : book.markSynced.Fresh := hcached.fresh
  by_cases hlong : 64 ≤ upd.changes.length
  · rw [applyUpdateBatch, if_pos hlong, applyUpdate, ← applySplit_eq_iff]
    have hnot : ¬ upd.changes.length < 64 := not_lt.2 hlong
    simp only [hnot, false_or]
    constructor
    · intro hsame
      have hbids := hsame.bids
      have hasks := hsame.asks
      rw [finishUpdate_bids, finishUpdate_bids] at hbids
      rw [finishUpdate_asks, finishUpdate_asks] at hasks
      exact ⟨hbids, hasks⟩
    · rintro ⟨hbids, hasks⟩
      refine sameBook_of_cached (applySplit_fresh _ _).finishUpdate
        (hfresh.applyChanges upd.changes).finishUpdate ?_ ?_
      · rw [finishUpdate_bids, finishUpdate_bids, hbids]
      · rw [finishUpdate_asks, finishUpdate_asks, hasks]
  · rw [applyUpdateBatch, if_neg hlong, applyUpdate]
    exact iff_of_true ⟨rfl, rfl, rfl, rfl⟩ (Or.inl (not_le.1 hlong))

/-- A buy, a sell that crosses it, and 62 removals: in order the sell stays, in a batch neither. -/
theorem applyUpdateBatch_crossing :
    ¬ ∀ (inc : Increments) (ops : List BookOp) (upd : OrderBookUpdate),
        ((({ inc := inc } : OrderBook).run ops).applyUpdateBatch upd.changes).SameBook
          ((({ inc := inc } : OrderBook).run ops).applyUpdate upd) := by
  intro hall
  have hasks := congrArg SortedMap.entries (hall centIncrements []
    ⟨"BTC_USDT", ⟨101, 1, .buy⟩ :: ⟨100, 1, .sell⟩ :: List.replicate 62 ⟨50, 0, .buy⟩, 0⟩).asks
  revert hasks
  decide +kernel

end OrderBook

end TradeBot
