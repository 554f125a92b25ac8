import TradeBot.MarketData.BookLevels

set_option autoImplicit false

/-! # The book is never crossed

Every bid stays below every ask, on each path, as long as no snapshot is crossed itself. In order,
each insertion clears the other side as far as it crosses it. A batch clears at its end whatever its
insertions cross, whether that was there before or came with the batch.

On the way through a call the book may be crossed: in a batch the other side is cleared after all
insertions. The invariant is one of the states between calls, together with the cached top, which is
then that of the maps. -/

namespace TradeBot

/-- Every bid that a book stores of the snapshot is below every ask that it stores. -/
def OrderBookSnapshot.Uncrossed (inc : Increments) (snap : OrderBookSnapshot) : Prop :=
  ∀ b ∈ snap.bids, ∀ a ∈ snap.asks, 0 < b.size → 0 < a.size → inc.tick b.price < inc.tick a.price

/-- A snapshot whose own sides do not cross. Updates may bring anything. -/
def BookOp.Uncrossed (inc : Increments) : BookOp → Prop
  | .snapshot snap => snap.Uncrossed inc
  | _ => True

namespace OrderBook

/-- Every bid is below every ask. -/
def Uncrossed (book : OrderBook) : Prop := ∀ b ∈ book.bids, ∀ a ∈ book.asks, b.1 < a.1

variable {book : OrderBook} {inc : Increments}

theorem uncrossed_iff_lookup :
    book.Uncrossed ↔ ∀ t t' s s', book.bids.lookup t = some s → book.asks.lookup t' = some s' →
      t < t' := by
  simp only [SortedMap.lookup_eq_some]
  exact ⟨fun h t t' s s' hb ha => h _ hb _ ha, fun h b hb a ha => h b.1 a.1 b.2 a.2 hb ha⟩

/-- One change leaves no bid at or above an ask. -/
theorem Uncrossed.applyChange (h : book.Uncrossed) (c : PriceLevel) :
    (book.applyChange c).Uncrossed := by
  rw [uncrossed_iff_lookup] at h ⊢
  intro t t' s s'
  rw [applyChange_bids, applyChange_asks]
  cases book.sided c with
  | none => exact h t t' s s'
  | some c' =>
      simp only [Option.bind_some, Increments.bidWord, Increments.askWord]
      have hold := h t t' s s'
      by_cases hside : c'.side = .buy <;> grind

theorem Uncrossed.applyChanges (h : book.Uncrossed) (changes : List PriceLevel) :
    (book.applyChanges changes).Uncrossed :=
  Runs.invariant Uncrossed (fun _ c h => h.applyChange c) changes h

theorem Uncrossed.applySplit (h : book.Uncrossed) (changes : List PriceLevel) :
    (book.applySplit changes).Uncrossed := by
  have hold := uncrossed_iff_lookup.1 (h.applyChanges (unlabelled changes))
  rw [uncrossed_iff_lookup]
  intro t t' s s' hbid hask
  rw [applySplit_bids, splitBid] at hbid
  rw [applySplit_asks, splitAsk] at hask
  by_cases hsell : SellAtOrBelow book.inc t changes
  · simp [hsell] at hbid
  by_cases hbuy : BuyAtOrAbove book.inc t' changes
  · simp [hbuy] at hask
  rw [if_neg hsell] at hbid
  rw [if_neg hbuy] at hask
  -- each of the two levels was inserted by the batch, or was there before
  cases hnewBid : LastWrite.last (ownWord book.inc .buy t) changes with
  | some word =>
      rw [hnewBid] at hbid
      obtain rfl : word = some s := hbid
      obtain ⟨c, hc, hside, hpos, htick, -⟩ := inserted_of_last hnewBid
      by_contra hle
      exact hbuy ⟨c, hc, hside, hpos, htick ▸ not_lt.1 hle⟩
  | none =>
      rw [hnewBid] at hbid
      cases hnewAsk : LastWrite.last (ownWord book.inc .sell t') changes with
      | some word =>
          rw [hnewAsk] at hask
          obtain rfl : word = some s' := hask
          obtain ⟨c, hc, hside, hpos, htick, -⟩ := inserted_of_last hnewAsk
          by_contra hle
          exact hsell ⟨c, hc, hside, hpos, htick ▸ not_lt.1 hle⟩
      | none =>
          rw [hnewAsk] at hask
          exact hold t t' s s' hbid hask

theorem uncrossed_applySnapshot {snap : OrderBookSnapshot} (h : snap.Uncrossed book.inc) :
    (book.applySnapshot snap).Uncrossed := by
  intro b hb a ha
  rcases mem_of_mem_insertAll hb with hb | hb
  · exact absurd hb (SortedMap.not_mem_empty b)
  · rcases mem_of_mem_insertAll ha with ha | ha
    · exact absurd ha (SortedMap.not_mem_empty a)
    · obtain ⟨lb, hlb, hbpos, rfl⟩ := mem_snapshotLevels.1 hb
      obtain ⟨la, hla, hapos, rfl⟩ := mem_snapshotLevels.1 ha
      exact h lb hlb la hla hbpos hapos

theorem Uncrossed.step (h : book.Uncrossed) {op : BookOp} (hop : op.Uncrossed book.inc) :
    (book.step op).Uncrossed := by
  have hsynced : book.markSynced.Uncrossed := h
  obtain ⟨snap, rfl, heq⟩ | ⟨changes, -, heq⟩ | ⟨changes, -, -, heq⟩ := book.step_cases op
  · rw [heq]
    exact uncrossed_applySnapshot hop
  · rw [heq, Uncrossed, finishUpdate_bids, finishUpdate_asks]
    exact hsynced.applyChanges changes
  · rw [heq, Uncrossed, finishUpdate_bids, finishUpdate_asks]
    exact hsynced.applySplit changes

theorem uncrossed_empty (inc : Increments) : ({ inc := inc } : OrderBook).Uncrossed :=
  fun b hb => absurd hb (SortedMap.not_mem_empty b)

theorem Cached.bestBid_eq (h : book.Cached) :
    book.bestBid = book.bids.first.map book.inc.toPrice := by
  rw [bestBid, h.bid]

theorem Cached.bestAsk_eq (h : book.Cached) :
    book.bestAsk = book.asks.first.map book.inc.toPrice := by
  rw [bestAsk, h.ask]

/-- After any calls with uncrossed snapshots no bid reaches an ask, and `best_bid` and `best_ask` are
    the first bid and the first ask, which are missing exactly on an empty side. -/
theorem run_uncrossed (inc : Increments) (ops : List BookOp) (h : ∀ op ∈ ops, op.Uncrossed inc) :
    let book := ({ inc := inc } : OrderBook).run ops
    book.Uncrossed ∧
      book.bestBid = book.bids.first.map book.inc.toPrice ∧
      book.bestAsk = book.asks.first.map book.inc.toPrice ∧
      (book.bestBid = none ↔ ∀ e, e ∉ book.bids) ∧ (book.bestAsk = none ↔ ∀ e, e ∉ book.asks) := by
  have hcached := (cached_empty inc).run ops
  have halong : Runs.Along step (fun _ op => op.Uncrossed inc) { inc := inc } ops :=
    Runs.along_of_mem (fun op hop _ => h op hop)
  have hinv := halong.invariant (fun book => book.Uncrossed ∧ book.inc = inc)
    (fun book op hbook hop => ⟨hbook.1.step (hbook.2.symm ▸ hop), (book.step_inc op).trans hbook.2⟩)
    ⟨uncrossed_empty inc, rfl⟩
  refine ⟨hinv.1, hcached.bestBid_eq, hcached.bestAsk_eq, ?_, ?_⟩
  · rw [hcached.bestBid_eq, Option.map_eq_none_iff, SortedMap.first_eq_none]
  · rw [hcached.bestAsk_eq, Option.map_eq_none_iff, SortedMap.first_eq_none]

/-- A snapshot, and a batch whose first buy crosses the snapshot's ask and a sell of the batch. -/
theorem run_uncrossed_crossingBatch :
    let book := ({ inc := centIncrements } : OrderBook).run
      [.snapshot tightSnapshot,
        .batch (⟨203 / 2, 1, .buy⟩ :: ⟨100, 1, .sell⟩ :: List.replicate 62 ⟨90, 1, .buy⟩)]
    book.Uncrossed ∧
      book.bestBid = book.bids.first.map book.inc.toPrice ∧
      book.bestAsk = book.asks.first.map book.inc.toPrice ∧
      (book.bestBid = none ↔ ∀ e, e ∉ book.bids) ∧ (book.bestAsk = none ↔ ∀ e, e ∉ book.asks) := by
  refine run_uncrossed centIncrements _ (fun op hop => ?_)
  rcases List.mem_cons.1 hop with rfl | hop
  · unfold BookOp.Uncrossed OrderBookSnapshot.Uncrossed
    decide +kernel
  · rw [List.mem_singleton.1 hop]
    trivial

end OrderBook

end TradeBot
