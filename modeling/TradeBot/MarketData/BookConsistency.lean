import TradeBot.Lib.LockStep
import TradeBot.MarketData.OrderBook

set_option autoImplicit false

/-! # The comparison of a book with a snapshot

`OrderBook::is_consistent` walks a side of the snapshot and the same side of the book in lock step, so
that a level that one of them lacks shifts the rest. `isConsistent_iff` relates its count to the levels
that really differ. -/

namespace TradeBot

namespace OrderBook

/-- The comparison of one level, at the book's iterator. -/
def differsAt (inc : Increments) (sl : PriceLevel) (it : List (ℤ × ℤ)) : Bool :=
  match it with
  | [] => true
  | level :: _ => decide (level.1 ≠ inc.tick sl.price ∨ level.2 ≠ inc.raw sl.size)

/-- `check_side`: `diffs` at its end. It returns early once there are too many. -/
def checkSide (inc : Increments) (maxDiff : ℤ) : List PriceLevel → List (ℤ × ℤ) → ℤ → ℤ
  | [], _, diffs => diffs
  | sl :: snapLevels, it, diffs =>
      let diffs := if differsAt inc sl it then diffs + 1 else diffs
      if maxDiff < diffs then diffs else checkSide inc maxDiff snapLevels it.tail diffs

/-- The bids are walked first, and the asks only if the bids have not exceeded the bound. -/
def isConsistent (book : OrderBook) (snap : OrderBookSnapshot) (maxDiff : ℤ) : Bool :=
  let diffs := checkSide book.inc maxDiff snap.bids book.bids.entries 0
  if maxDiff < diffs then false
  else decide (checkSide book.inc maxDiff snap.asks book.asks.entries diffs ≤ maxDiff)

/-! ## What there is to compare -/

/-- A snapshot's side as ticks and raw sizes. -/
def rounded (inc : Increments) (levels : List PriceLevel) : List (ℤ × ℤ) :=
  levels.map (fun sl => (inc.tick sl.price, inc.raw sl.size))

/-- The best levels of a side of the book, as many as the snapshot has. -/
def top (entries : List (ℤ × ℤ)) (levels : List PriceLevel) : List (ℤ × ℤ) :=
  entries.take levels.length

/-- Levels in only one of the snapshot and the top of the book, or of another size. -/
def differing (book : OrderBook) (snap : OrderBookSnapshot) : ℕ :=
  (LockStep.difference (rounded book.inc snap.bids) (top book.bids.entries snap.bids)).card +
    (LockStep.difference (rounded book.inc snap.asks) (top book.asks.entries snap.asks)).card

/-- Levels of the top of the book at ticks that the snapshot lacks. -/
def unlisted (book : OrderBook) (snap : OrderBookSnapshot) : ℕ :=
  (LockStep.extra (rounded book.inc snap.bids) (top book.bids.entries snap.bids)).card +
    (LockStep.extra (rounded book.inc snap.asks) (top book.asks.entries snap.asks)).card

/-- Levels that the snapshot and the top of the book agree on, at different ranks. -/
def shifted (book : OrderBook) (snap : OrderBookSnapshot) : ℕ :=
  LockStep.displaced (rounded book.inc snap.bids) (top book.bids.entries snap.bids) +
    LockStep.displaced (rounded book.inc snap.asks) (top book.asks.entries snap.asks)

/-! ## The walk -/

variable {inc : Increments} {maxDiff : ℤ}

theorem rounded_cons (sl : PriceLevel) (levels : List PriceLevel) :
    rounded inc (sl :: levels) = (inc.tick sl.price, inc.raw sl.size) :: rounded inc levels := rfl

theorem differsAt_iff (sl : PriceLevel) (it : List (ℤ × ℤ)) :
    differsAt inc sl it = true ↔ ¬ it.head? = some (inc.tick sl.price, inc.raw sl.size) := by
  cases it with
  | nil => simp [differsAt]
  | cons level it =>
      simp only [differsAt, decide_eq_true_eq, List.head?_cons, Option.some.injEq, Prod.ext_iff]
      tauto

/-- Up to the bound the walk counts every mismatch, and its early return is beyond the bound. -/
theorem checkSide_le_iff (snapLevels : List PriceLevel) (it : List (ℤ × ℤ)) (diffs : ℤ) :
    (checkSide inc maxDiff snapLevels it diffs ≤ maxDiff ↔
        diffs + LockStep.mismatches (rounded inc snapLevels) it ≤ maxDiff) ∧
      (checkSide inc maxDiff snapLevels it diffs ≤ maxDiff →
        checkSide inc maxDiff snapLevels it diffs
          = diffs + LockStep.mismatches (rounded inc snapLevels) it) := by
  induction snapLevels generalizing it diffs with
  | nil => simp [checkSide, rounded, LockStep.mismatches]
  | cons sl snapLevels ih =>
      have hstep : (if differsAt inc sl it then diffs + 1 else diffs)
          + LockStep.mismatches (rounded inc snapLevels) it.tail
          = diffs + LockStep.mismatches (rounded inc (sl :: snapLevels)) it := by
        rw [rounded_cons, LockStep.mismatches]
        by_cases hhead : it.head? = some (inc.tick sl.price, inc.raw sl.size)
        · have hsame : ¬ differsAt inc sl it = true := fun h => (differsAt_iff sl it).1 h hhead
          rw [if_neg hsame, if_pos hhead, Nat.zero_add]
        · rw [if_pos ((differsAt_iff sl it).2 hhead), if_neg hhead]
          push_cast
          exact add_assoc _ _ _
      rw [checkSide]
      generalize (if differsAt inc sl it then diffs + 1 else diffs) = next at hstep ⊢
      obtain ⟨hiff, heq⟩ := ih it.tail next
      rw [hstep] at hiff heq
      split_ifs with hfull
      · refine ⟨iff_of_false (not_le.2 hfull) (fun h => ?_), fun h => absurd h (not_le.2 hfull)⟩
        omega
      · exact ⟨hiff, heq⟩

/-- Only the top of the book is looked at. -/
theorem mismatches_top (levels : List PriceLevel) (entries : List (ℤ × ℤ)) :
    LockStep.mismatches (rounded inc levels) entries
      = LockStep.mismatches (rounded inc levels) (top entries levels) := by
  induction levels generalizing entries with
  | nil => rfl
  | cons sl levels ih =>
      rw [rounded_cons, LockStep.mismatches, LockStep.mismatches]
      cases entries with
      | nil => rfl
      | cons e entries => exact congrArg _ (ih entries)

theorem isConsistent_eq (book : OrderBook) (snap : OrderBookSnapshot) (maxDiff : ℤ) :
    book.isConsistent snap maxDiff = true ↔
      ((LockStep.mismatches (rounded book.inc snap.bids) (top book.bids.entries snap.bids) +
        LockStep.mismatches (rounded book.inc snap.asks) (top book.asks.entries snap.asks) : ℕ) : ℤ)
        ≤ maxDiff := by
  have hbids := @checkSide_le_iff book.inc maxDiff snap.bids book.bids.entries 0
  rw [mismatches_top, zero_add] at hbids
  rw [isConsistent]
  split_ifs with hfull
  · refine iff_of_false id (fun h => ?_)
    have hmismatches := hbids.1.not.1 (not_le.2 hfull)
    omega
  · rw [hbids.2 (not_lt.1 hfull), decide_eq_true_iff, (checkSide_le_iff ..).1,
      mismatches_top snap.asks, Nat.cast_add]

/-- A snapshot passes if and only if the levels that differ and the shifted ones are at most `maxDiff`
    more than the levels that the snapshot lacks. -/
theorem isConsistent_iff (book : OrderBook) (snap : OrderBookSnapshot) (maxDiff : ℤ)
    (hbids : ((rounded book.inc snap.bids).map Prod.fst).Nodup)
    (hasks : ((rounded book.inc snap.asks).map Prod.fst).Nodup) :
    book.isConsistent snap maxDiff = true ↔
      (book.differing snap + book.shifted snap : ℤ) ≤ maxDiff + book.unlisted snap := by
  have htop {lt : ℤ → ℤ → Prop} [IsStrictTotalOrder ℤ lt] (map : SortedMap lt ℤ)
      (levels : List PriceLevel) : ((top map.entries levels).map Prod.fst).Nodup :=
    map.nodup.sublist ((List.take_sublist _ _).map _)
  have hbid := LockStep.mismatches_add_extra hbids (htop book.bids snap.bids)
  have hask := LockStep.mismatches_add_extra hasks (htop book.asks snap.asks)
  rw [isConsistent_eq, differing, shifted, unlisted]
  omega

/-! ## One new level -/

/-- Bids of size 1. -/
def bidsAt (prices : List ℚ) : OrderBookSnapshot where
  ticker := "BTC_USDT"
  bids := prices.map (fun price => ⟨price, 1, .buy⟩)
  asks := []

/-- A new best bid and a lost last one. -/
theorem isConsistent_iff_newBid :
    let book := ({ inc := centIncrements } : OrderBook).run [.snapshot (bidsAt [98, 97, 96, 95])]
    let snap := bidsAt [99, 98, 97, 96]
    book.isConsistent snap 4 = true ↔
      (book.differing snap + book.shifted snap : ℤ) ≤ 4 + book.unlisted snap :=
  isConsistent_iff _ _ 4 (by decide +kernel) (by decide +kernel)

/-- Two levels differ, and a bound of three rejects the snapshot. -/
theorem isConsistent_newBid :
    let book := ({ inc := centIncrements } : OrderBook).run [.snapshot (bidsAt [98, 97, 96, 95])]
    let snap := bidsAt [99, 98, 97, 96]
    ((rounded book.inc snap.bids).map Prod.fst).Pairwise (· > ·) ∧ book.differing snap = 2 ∧
      ¬ (book.isConsistent snap 3 = true ↔ (book.differing snap : ℤ) ≤ 3) := by
  decide +kernel

end OrderBook

end TradeBot
