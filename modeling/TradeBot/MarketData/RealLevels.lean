import TradeBot.MarketData.UncrossedBook

set_option autoImplicit false

/-! # Stored levels that are no levels

A level is real if it has a positive tick and a positive raw size. In order, `apply_change_` looks at
the sign of the size as it was sent and at nothing else, so a price that is missing is stored at tick
`0`, where a sell clears every bid, and a size below half a unit is stored as `0`. The batch path
looks at the rounded size, but not at the tick.

The two paths have conditions of their own, each of which is exact for its call. A run is free of
levels that are none if and only if every call of it meets the condition of its path; the second
result, about changes at tick `0`, holds along the same runs. -/

namespace TradeBot

/-- A price with a tick, and a size with a unit. -/
def PriceLevel.Real (inc : Increments) (c : PriceLevel) : Prop :=
  0 < inc.tick c.price ∧ 0 < inc.raw c.size

/-- The change removes a level, or its level is real. -/
def PriceLevel.Harmless (inc : Increments) (c : PriceLevel) : Prop := 0 < c.size → c.Real inc

namespace OrderBook

variable {book : OrderBook} {inc : Increments} {c : PriceLevel}

/-- Every stored level is real. -/
structure RealLevels (book : OrderBook) : Prop where
  bids : ∀ e ∈ book.bids, 0 < e.1 ∧ 0 < e.2
  asks : ∀ e ∈ book.asks, 0 < e.1 ∧ 0 < e.2

theorem realLevels_iff_lookup :
    book.RealLevels ↔ ∀ t s, (book.bids.lookup t = some s ∨ book.asks.lookup t = some s) →
      0 < t ∧ 0 < s := by
  simp only [SortedMap.lookup_eq_some]
  constructor
  · rintro h t s (hbid | hask)
    · exact h.bids _ hbid
    · exact h.asks _ hask
  · exact fun h => ⟨fun e he => h _ _ (Or.inl he), fun e he => h _ _ (Or.inr he)⟩

/-! ## In order -/

/-- One change keeps the levels real exactly if it is dropped, or it removes a level or has a real
    one. -/
theorem realLevels_applyChange_iff (h : book.RealLevels) (c : PriceLevel) :
    (book.applyChange c).RealLevels ↔ ∀ c' ∈ book.sided c, c'.Harmless book.inc := by
  rw [realLevels_iff_lookup] at h ⊢
  simp only [applyChange_bids, applyChange_asks]
  cases book.sided c with
  | none => simpa using h
  | some c' =>
      simp only [Option.bind_some, Option.mem_some_iff, forall_eq']
      constructor
      · intro hreal hpos
        refine hreal (book.inc.tick c'.price) (book.inc.raw c'.size) ?_
        by_cases hside : c'.side = .buy
        · exact Or.inl (by simp [Increments.bidWord, hside, hpos])
        · exact Or.inr (by simp [Increments.askWord, hside, hpos])
      · intro hharmless t s hs
        have hold := h t s
        unfold PriceLevel.Harmless PriceLevel.Real at hharmless
        unfold Increments.bidWord Increments.askWord at hs
        by_cases hside : c'.side = .buy <;> grind

/-- A change at tick `0` that removes a level leaves all other ticks alone. -/
theorem applyChange_lookup_ne (hprice : c.price ≤ 0) (hharmless : ∀ c' ∈ book.sided c,
    c'.Harmless book.inc) {t : ℤ} (ht : t ≠ 0) :
    (book.applyChange c).bids.lookup t = book.bids.lookup t ∧
      (book.applyChange c).asks.lookup t = book.asks.lookup t := by
  rw [applyChange_bids, applyChange_asks]
  obtain ⟨hsided, -⟩ | ⟨side, hsided, -⟩ := book.applyChange_cases c
  · rw [hsided]
    exact ⟨rfl, rfl⟩
  · have htick : book.inc.tick c.price = 0 := priceTick_of_nonpos hprice _
    have hsize : ¬ 0 < c.size := by
      intro hpos
      have hreal := hharmless _ hsided hpos
      rw [PriceLevel.Real, htick] at hreal
      exact absurd hreal.1 (lt_irrefl 0)
    rw [hsided]
    simp [Increments.bidWord, Increments.askWord, htick, hsize, ht.symm]

/-- No change of the list whose price is not positive removes or alters a level at another tick. -/
def PlainLocal (book : OrderBook) (changes : List PriceLevel) : Prop :=
  ∀ pre c post, changes = pre ++ c :: post → c.price ≤ 0 → ∀ t ≠ 0,
    (book.applyChanges (pre ++ [c])).bids.lookup t = (book.applyChanges pre).bids.lookup t ∧
      (book.applyChanges (pre ++ [c])).asks.lookup t = (book.applyChanges pre).asks.lookup t

/-- Every change that is not dropped is harmless. -/
def PlainHarmless (book : OrderBook) (changes : List PriceLevel) : Prop :=
  ∀ c ∈ book.sidedChanges changes, c.Harmless book.inc

theorem applyChanges_append (book : OrderBook) (changes changes' : List PriceLevel) :
    book.applyChanges (changes ++ changes') = (book.applyChanges changes).applyChanges changes' :=
  List.foldl_append

theorem sidedChanges_append (book : OrderBook) (changes changes' : List PriceLevel) :
    book.sidedChanges (changes ++ changes') =
      book.sidedChanges changes ++ (book.applyChanges changes).sidedChanges changes' := by
  induction changes generalizing book with
  | nil => rfl
  | cons c changes ih =>
      rw [List.cons_append, sidedChanges, sidedChanges, ih, List.append_assoc]
      rfl

theorem RealLevels.applyChanges (h : book.RealLevels) {changes : List PriceLevel}
    (hharmless : book.PlainHarmless changes) : (book.applyChanges changes).RealLevels := by
  induction changes generalizing book with
  | nil => exact h
  | cons c changes ih =>
      rw [PlainHarmless, sidedChanges, List.forall_mem_append] at hharmless
      refine ih ((realLevels_applyChange_iff h c).2 ?_) ?_
      · exact fun c' hc' => hharmless.1 c' (Option.mem_toList.2 hc')
      · rw [PlainHarmless, applyChange_inc]
        exact hharmless.2

theorem PlainHarmless.plainLocal {changes : List PriceLevel} (h : book.PlainHarmless changes) :
    book.PlainLocal changes := by
  rintro pre c post rfl hprice t ht
  rw [PlainHarmless, sidedChanges_append, List.forall_mem_append, sidedChanges,
    List.forall_mem_append] at h
  rw [applyChanges_append]
  refine applyChange_lookup_ne hprice (fun c' hc' => ?_) ht
  rw [applyChanges_inc]
  exact h.2.1 c' (Option.mem_toList.2 hc')

/-! ## In a batch -/

/-- Each labelled change of a batch has a size that rounds to nothing, or a real level, and the
    unlabelled ones are harmless in order. -/
structure SplitHarmless (book : OrderBook) (changes : List PriceLevel) : Prop where
  unlabelled : book.PlainHarmless (unlabelled changes)
  labelled : ∀ c ∈ changes, c.side ≠ .none → 0 < book.inc.raw c.size → 0 < book.inc.tick c.price

/-- No change of the batch whose price is not positive removes or alters a level at another tick: an
    unlabelled one when it is applied, and a labelled one compared with the batch without it. -/
structure SplitLocal (book : OrderBook) (changes : List PriceLevel) : Prop where
  unlabelled : book.PlainLocal (unlabelled changes)
  labelled : ∀ pre c post, changes = pre ++ c :: post → c.side ≠ .none → c.price ≤ 0 → ∀ t ≠ 0,
    (book.applySplit changes).bids.lookup t = (book.applySplit (pre ++ post)).bids.lookup t ∧
      (book.applySplit changes).asks.lookup t = (book.applySplit (pre ++ post)).asks.lookup t

theorem RealLevels.applySplit (h : book.RealLevels) {changes : List PriceLevel}
    (hharmless : book.SplitHarmless changes) : (book.applySplit changes).RealLevels := by
  have hold := realLevels_iff_lookup.1 (h.applyChanges hharmless.unlabelled)
  have hnew : ∀ side, side ≠ .none → ∀ t s,
      LastWrite.last (ownWord book.inc side t) changes = some (some s) → 0 < t ∧ 0 < s := by
    intro side hside t s hlast
    obtain ⟨c, hc, hcside, hpos, rfl, rfl⟩ := inserted_of_last hlast
    exact ⟨hharmless.labelled c hc (hcside ▸ hside) hpos, hpos⟩
  rw [realLevels_iff_lookup]
  intro t s hs
  rw [applySplit_bids, applySplit_asks, splitBid, splitAsk] at hs
  rcases hs with hbid | hask
  · by_cases hcrossed : SellAtOrBelow book.inc t changes
    · simp [hcrossed] at hbid
    rw [if_neg hcrossed] at hbid
    cases hlast : LastWrite.last (ownWord book.inc .buy t) changes with
    | none => exact hold t s (Or.inl (by rwa [hlast] at hbid))
    | some word => exact hnew .buy (by decide) t s (by rw [hlast] at hbid ⊢; exact congrArg _ hbid)
  · by_cases hcrossed : BuyAtOrAbove book.inc t changes
    · simp [hcrossed] at hask
    rw [if_neg hcrossed] at hask
    cases hlast : LastWrite.last (ownWord book.inc .sell t) changes with
    | none => exact hold t s (Or.inr (by rwa [hlast] at hask))
    | some word => exact hnew .sell (by decide) t s (by rw [hlast] at hask ⊢; exact congrArg _ hask)

theorem unlabelled_append_labelled (pre post : List PriceLevel) (hside : c.side ≠ .none) :
    unlabelled (pre ++ c :: post) = unlabelled (pre ++ post) := by
  simp [unlabelled, hside]

/-- A labelled change of a size that rounds to nothing leaves all ticks but its own alone. -/
theorem split_removal (pre post : List PriceLevel) {t : ℤ} (hraw : inc.raw c.size = 0)
    (ht : inc.tick c.price ≠ t) :
    splitBid inc t (pre ++ c :: post) = splitBid inc t (pre ++ post) ∧
      splitAsk inc t (pre ++ c :: post) = splitAsk inc t (pre ++ post) := by
  have hword : ∀ side, ownWord inc side t c = none := fun side => if_neg (fun h => ht h.2)
  simp [splitBid, splitAsk, SellAtOrBelow, BuyAtOrAbove, hraw, LastWrite.last_append,
    LastWrite.last_cons, hword, or_and_right, exists_or]

theorem SplitHarmless.splitLocal {changes : List PriceLevel} (h : book.SplitHarmless changes) :
    book.SplitLocal changes where
  unlabelled := h.unlabelled.plainLocal
  labelled := by
    rintro pre c post rfl hside hprice t ht
    have htick : book.inc.tick c.price = 0 := priceTick_of_nonpos hprice _
    have hraw : book.inc.raw c.size = 0 := by
      by_contra hne
      have hpos : 0 < book.inc.raw c.size := lt_of_le_of_ne (sizeFix_nonneg ..) (Ne.symm hne)
      have hreal := h.labelled c (by simp) hside hpos
      rw [htick] at hreal
      exact absurd hreal (lt_irrefl 0)
    obtain ⟨hbid, hask⟩ := split_removal pre post hraw (htick.trans_ne ht.symm)
    rw [applySplit_bids, applySplit_bids, applySplit_asks, applySplit_asks, hbid, hask,
      unlabelled_append_labelled pre post hside]
    exact ⟨rfl, rfl⟩

/-! ## Runs -/

/-- Every level that a call stores is real. -/
def HarmlessOp (book : OrderBook) : BookOp → Prop
  | .snapshot snap => ∀ l ∈ snap.bids ++ snap.asks, l.Harmless book.inc
  | .update upd => book.markSynced.PlainHarmless upd.changes
  | .batch changes =>
      if 64 ≤ changes.length then book.markSynced.SplitHarmless changes
      else book.markSynced.PlainHarmless changes

/-- No change of the call whose price is not positive removes or alters a level at another tick. -/
def LocalOp (book : OrderBook) : BookOp → Prop
  | .snapshot _ => True
  | .update upd => book.markSynced.PlainLocal upd.changes
  | .batch changes =>
      if 64 ≤ changes.length then book.markSynced.SplitLocal changes
      else book.markSynced.PlainLocal changes

theorem realLevels_applySnapshot {snap : OrderBookSnapshot}
    (h : ∀ l ∈ snap.bids ++ snap.asks, l.Harmless book.inc) :
    (book.applySnapshot snap).RealLevels := by
  have hside : ∀ levels : List PriceLevel, (∀ l ∈ levels, l.Harmless book.inc) →
      ∀ e ∈ snapshotLevels book.inc levels, 0 < e.1 ∧ 0 < e.2 := by
    intro levels hlevels e he
    obtain ⟨l, hl, hpos, rfl⟩ := mem_snapshotLevels.1 he
    exact hlevels l hl hpos
  rw [List.forall_mem_append] at h
  constructor
  · intro e he
    rcases mem_of_mem_insertAll he with he | he
    · exact absurd he (SortedMap.not_mem_empty e)
    · exact hside _ h.1 e he
  · intro e he
    rcases mem_of_mem_insertAll he with he | he
    · exact absurd he (SortedMap.not_mem_empty e)
    · exact hside _ h.2 e he

theorem RealLevels.finishUpdate (h : book.RealLevels) : book.finishUpdate.RealLevels := by
  constructor
  · rw [finishUpdate_bids]
    exact h.bids
  · rw [finishUpdate_asks]
    exact h.asks

theorem RealLevels.step (h : book.RealLevels) {op : BookOp} (hop : book.HarmlessOp op) :
    (book.step op).RealLevels := by
  have hsynced : book.markSynced.RealLevels := ⟨h.bids, h.asks⟩
  cases op with
  | snapshot snap => exact realLevels_applySnapshot hop
  | update upd => exact (hsynced.applyChanges hop).finishUpdate
  | batch changes =>
      simp only [HarmlessOp] at hop
      simp only [OrderBook.step, applyUpdateBatch]
      split_ifs at hop ⊢
      · exact (hsynced.applySplit hop).finishUpdate
      · exact (hsynced.applyChanges hop).finishUpdate

theorem HarmlessOp.localOp {op : BookOp} (hop : book.HarmlessOp op) : book.LocalOp op := by
  cases op with
  | snapshot snap => trivial
  | update upd => exact PlainHarmless.plainLocal hop
  | batch changes =>
      simp only [HarmlessOp] at hop
      simp only [LocalOp]
      split_ifs at hop ⊢
      · exact hop.splitLocal
      · exact hop.plainLocal

theorem realLevels_empty (inc : Increments) : ({ inc := inc } : OrderBook).RealLevels where
  bids := fun e he => absurd he (SortedMap.not_mem_empty e)
  asks := fun e he => absurd he (SortedMap.not_mem_empty e)

/-- In a run whose calls store real levels only, every state has real levels only, and no change
    whose price is not positive touches another tick. -/
theorem run_realLevels (inc : Increments) (ops : List BookOp) (op : BookOp)
    (h : Runs.Along step HarmlessOp { inc := inc } (ops ++ [op])) :
    (({ inc := inc } : OrderBook).run (ops ++ [op])).RealLevels ∧
      (({ inc := inc } : OrderBook).run ops).LocalOp op := by
  refine ⟨h.invariant RealLevels (fun _ _ hreal hop => hreal.step hop) (realLevels_empty inc), ?_⟩
  exact (Runs.along_append.1 h).2.1.localOp

/-- After a snapshot, a removal whose price is missing. -/
theorem run_realLevels_removal :
    (({ inc := centIncrements } : OrderBook).run
        [.snapshot tightSnapshot, .update ⟨"BTC_USDT", [⟨0, 0, .sell⟩], 0⟩]).RealLevels ∧
      (({ inc := centIncrements } : OrderBook).run [.snapshot tightSnapshot]).LocalOp
        (.update ⟨"BTC_USDT", [⟨0, 0, .sell⟩], 0⟩) := by
  refine run_realLevels centIncrements [.snapshot tightSnapshot] _ ⟨?_, ?_, trivial⟩
  · show ∀ l ∈ tightSnapshot.bids ++ tightSnapshot.asks, 0 < l.size →
      0 < centIncrements.tick l.price ∧ 0 < centIncrements.raw l.size
    decide +kernel
  · intro c hc hpos
    obtain rfl : c = ⟨0, 0, .sell⟩ := by simpa [sidedChanges, sided] using hc
    exact absurd hpos (lt_irrefl 0)

/-- A sell without a price clears the bids and stays in the book as an ask at tick `0`. -/
theorem missingPrice_stored :
    ¬ ∀ (inc : Increments) (ops : List BookOp) (op : BookOp),
        (({ inc := inc } : OrderBook).run (ops ++ [op])).RealLevels ∧
          (({ inc := inc } : OrderBook).run ops).LocalOp op := by
  intro hall
  have hreal := (hall centIncrements [.snapshot tightSnapshot]
    (.update ⟨"BTC_USDT", [⟨0, 1, .sell⟩], 0⟩)).1
  have hmem : ((0, 1000) : ℤ × ℤ) ∈ (({ inc := centIncrements } : OrderBook).run
      [.snapshot tightSnapshot, .update ⟨"BTC_USDT", [⟨0, 1, .sell⟩], 0⟩]).asks.entries := by
    decide +kernel
  exact absurd (hreal.asks _ hmem).1 (lt_irrefl 0)

end OrderBook

end TradeBot
