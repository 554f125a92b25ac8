import Mathlib.Data.List.Induction
import Mathlib.Tactic.Linarith
import TradeBot.Executor.PaperConservation

set_option autoImplicit false

/-! # The prices of paper fills

A limit entry fills at the side of the book it trades against, which respects the limit; the slippage
that is then applied may move the average price beyond it. An exit fills at the side of the book the
position can be closed against, except at TP1: there the price is that of the other side.

Part 1 of a tick opens positions, one entry after the other, so every position it opens has one round
of the loop as its origin (`exists_fills`). Part 2 closes them: a rule decides that a position is
closed and at what price, and the record is made from these two (`Closes.exit`). The prices before
slippage are sides of the book; slippage is the last step of both parts. -/

namespace TradeBot

/-- The price is not beyond the limit of the plan. -/
def TradePlan.RespectsLimit (plan : TradePlan) (price : ℚ) : Prop :=
  if plan.side = .buy then price ≤ plan.entryPrice else plan.entryPrice ≤ price

/-- The side of the book that the entry trades against. -/
def TradePlan.entrySide (plan : TradePlan) (bid ask : ℚ) : ℚ :=
  if plan.side = .buy then ask else bid

instance (plan : TradePlan) (price : ℚ) : Decidable (plan.RespectsLimit price) :=
  inferInstanceAs
    (Decidable (if plan.side = .buy then price ≤ plan.entryPrice else plan.entryPrice ≤ price))

deriving instance DecidableEq for PaperPosition

namespace PaperExecutor

variable {ex : PaperExecutor} {books : OrderBooks} {ticker : Ticker} {now : TimePoint}

/-! ## Entries -/

/-- An entry price after slippage. -/
def slippedEntry (ex : PaperExecutor) (side : Side) (price : ℚ) : ℚ :=
  price + if side = .buy then ex.slip price else -ex.slip price

/-- In the loop over the pending entries, the plan fills and opens the position. -/
def Fills (ex : PaperExecutor) (books : OrderBooks) (ticker : Ticker) (now : TimePoint)
    (plan : StrategyPlan) (pos : PaperPosition) : Prop :=
  ∃ before after, ex.pendingEntries = before ++ plan :: after ∧
    (before.foldl (tickEntry books ticker now)
      { ex with pendingEntries := [] }).positions.lookup plan.ticker = none ∧
    (tickEntry books ticker now (before.foldl (tickEntry books ticker now)
      { ex with pendingEntries := [] }) plan).positions.lookup plan.ticker = some pos

/-- What one round of the loop does to the positions: nothing, or it opens one. -/
theorem tickEntry_cases (plan : StrategyPlan) :
    (tickEntry books ticker now ex plan).positions = ex.positions ∨
      ∃ bid ask price, books.quote plan.ticker = some (bid, ask) ∧
        entryFill? plan.toTradePlan bid ask = some price ∧
        ex.positions.lookup plan.ticker = none ∧
        tickEntry books ticker now ex plan = ex.openPosition plan.ticker
          (adjusted plan.toTradePlan (ex.slippedEntry plan.side price)) plan.sizeCoin
          (ex.slippedEntry plan.side price) now := by
  unfold tickEntry
  split
  · exact Or.inl rfl
  split
  · exact Or.inl rfl
  split
  · exact Or.inl rfl
  next bid ask hquote =>
    split
    · exact Or.inl rfl
    split
    · exact Or.inl rfl
    next price hfill =>
      dsimp only
      split
      · exact Or.inl rfl
      · next hnone =>
          rw [Bool.not_eq_true, Option.isSome_eq_false_iff, Option.isNone_iff_eq_none] at hnone
          exact Or.inr ⟨bid, ask, price, hquote, hfill, hnone, rfl⟩

variable (books ticker now) in
/-- A round leaves the slippage and the closed trades alone. -/
theorem tickEntry_frame (ex : PaperExecutor) (plan : StrategyPlan) :
    (tickEntry books ticker now ex plan).slippageBps = ex.slippageBps ∧
      (tickEntry books ticker now ex plan).closedTrades = ex.closedTrades := by
  unfold tickEntry
  split
  · exact ⟨rfl, rfl⟩
  split
  · exact ⟨rfl, rfl⟩
  split
  · exact ⟨rfl, rfl⟩
  split
  · exact ⟨rfl, rfl⟩
  split
  · exact ⟨rfl, rfl⟩
  dsimp only
  split
  · exact ⟨rfl, rfl⟩
  · exact ⟨rfl, rfl⟩

variable (books ticker now) in
theorem foldl_tickEntry_frame (entries : List StrategyPlan) (ex : PaperExecutor) :
    (entries.foldl (tickEntry books ticker now) ex).slippageBps = ex.slippageBps ∧
      (entries.foldl (tickEntry books ticker now) ex).closedTrades = ex.closedTrades := by
  induction entries generalizing ex with
  | nil => exact ⟨rfl, rfl⟩
  | cons plan entries ih =>
      obtain ⟨hslip, hclosed⟩ := tickEntry_frame books ticker now ex plan
      exact ⟨(ih _).1.trans hslip, (ih _).2.trans hclosed⟩

theorem openPosition_lookup (ex : PaperExecutor) (ticker ticker' : Ticker) (plan : TradePlan)
    (size avgPrice : ℚ) (openedAt : TimePoint) :
    (ex.openPosition ticker plan size avgPrice openedAt).positions.lookup ticker'
      = if ticker' = ticker then
          some { plan := plan, executedSize := size, avgPrice := avgPrice, openedAt := openedAt,
                 fill := ex.fills.length }
        else ex.positions.lookup ticker' :=
  SortedMap.lookup_insert

/-- A round keeps the positions there are. -/
theorem tickEntry_keeps {plan : StrategyPlan} {ticker' : Ticker} {pos : PaperPosition}
    (h : ex.positions.lookup ticker' = some pos) :
    (tickEntry books ticker now ex plan).positions.lookup ticker' = some pos := by
  rcases tickEntry_cases plan with hsame | ⟨bid, ask, price, -, -, hnone, hopen⟩
  · rw [hsame]
    exact h
  · have hne : ticker' ≠ plan.ticker := fun heq => by simp [← heq, h] at hnone
    rw [hopen, openPosition_lookup, if_neg hne]
    exact h

/-- Every position that part 1 of `tick` opens is the fill of a plan. -/
theorem exists_fills {ticker' : Ticker} {pos : PaperPosition}
    (hnone : ex.positions.lookup ticker' = none)
    (hpos : (ex.tickEntries books ticker now).positions.lookup ticker' = some pos) :
    ∃ plan, plan.ticker = ticker' ∧ ex.Fills books ticker now plan pos := by
  have hfold : ∀ entries : List StrategyPlan,
      (entries.foldl (tickEntry books ticker now)
        { ex with pendingEntries := [] }).positions.lookup ticker' = some pos →
      ∃ before plan after, entries = before ++ plan :: after ∧ plan.ticker = ticker' ∧
        (before.foldl (tickEntry books ticker now)
          { ex with pendingEntries := [] }).positions.lookup ticker' = none ∧
        (tickEntry books ticker now (before.foldl (tickEntry books ticker now)
          { ex with pendingEntries := [] }) plan).positions.lookup ticker' = some pos := by
    intro entries
    induction entries using List.reverseRecOn with
    | nil => exact fun h => absurd (hnone.symm.trans h) (by simp)
    | append_singleton entries last ih =>
        intro h
        rw [List.foldl_concat] at h
        cases hbefore : (entries.foldl (tickEntry books ticker now)
            { ex with pendingEntries := [] }).positions.lookup ticker' with
        | none =>
            refine ⟨entries, last, [], rfl, ?_, hbefore, h⟩
            -- a round opens no position for another ticker
            rcases tickEntry_cases last with hsame | ⟨bid, ask, price, -, -, -, hopen⟩
            · rw [hsame, hbefore] at h
              exact absurd h (by simp)
            · by_contra hne
              rw [hopen, openPosition_lookup, if_neg (Ne.symm hne), hbefore] at h
              exact absurd h (by simp)
        | some pos' =>
            rw [tickEntry_keeps hbefore] at h
            obtain ⟨before, plan, after, hsplit, hplan⟩ := ih (h ▸ hbefore)
            exact ⟨before, plan, after ++ [last], by simp [hsplit], hplan⟩
  obtain ⟨before, plan, after, hsplit, hticker, hplan⟩ := hfold _ hpos
  exact ⟨plan, hticker, before, after, hsplit, hticker ▸ hplan⟩

/-- A limit entry fills at its side of the book, within the limit. -/
theorem entryFill?_limit {plan : TradePlan} {bid ask price : ℚ} (hlimit : plan.entryType ≠ .market)
    (h : entryFill? plan bid ask = some price) :
    price = plan.entrySide bid ask ∧ plan.RespectsLimit price := by
  rw [entryFill?, if_neg hlimit] at h
  rw [TradePlan.RespectsLimit, TradePlan.entrySide]
  by_cases hbuy : plan.side = .buy ∧ ask ≤ plan.entryPrice
  · rw [if_pos hbuy, min_eq_right hbuy.2, Option.some.injEq] at h
    rw [if_pos hbuy.1, if_pos hbuy.1, ← h]
    exact ⟨rfl, hbuy.2⟩
  rw [if_neg hbuy] at h
  by_cases hsell : plan.side = .sell ∧ plan.entryPrice ≤ bid
  · have hside : plan.side ≠ .buy := by simp [hsell.1]
    rw [if_pos hsell, max_eq_right hsell.2, Option.some.injEq] at h
    rw [if_neg hside, if_neg hside, ← h]
    exact ⟨rfl, hsell.2⟩
  · rw [if_neg hsell] at h
    exact absurd h (by simp)

/-- Before slippage, a limit entry fills within its limit, at the best price of the other side of the
    market; the average price is that price after slippage. -/
theorem limit_fill {plan : StrategyPlan} {pos : PaperPosition}
    (hlimit : plan.entryType ≠ .market) (h : ex.Fills books ticker now plan pos) :
    ∃ bid ask, books.quote plan.ticker = some (bid, ask) ∧
      plan.RespectsLimit (plan.entrySide bid ask) ∧
      pos.avgPrice = ex.slippedEntry plan.side (plan.entrySide bid ask) := by
  obtain ⟨before, after, -, hnone, hpos⟩ := h
  obtain ⟨hslip, -⟩ := foldl_tickEntry_frame books ticker now before
    { ex with pendingEntries := [] }
  rcases tickEntry_cases plan with hsame | ⟨bid, ask, price, hquote, hfill, -, hopen⟩
  · rw [hsame, hnone] at hpos
    exact absurd hpos (by simp)
  · obtain ⟨rfl, hrespects⟩ := entryFill?_limit hlimit hfill
    rw [hopen, openPosition_lookup, if_pos rfl, Option.some.injEq] at hpos
    refine ⟨bid, ask, hquote, hrespects, ?_⟩
    rw [← hpos, slippedEntry, slippedEntry, slip, slip, hslip]

/-- Buy 1 BTC_USDT at 101 or better, with a stop at 90 and a target of 103. -/
def limitPlan : StrategyPlan :=
  { marketPlan with entryType := .limit, entryPrice := 101, tp1Price := 103 }

/-- The executor with the plan pending. -/
def limitPending : PaperExecutor := run {} [.submit limitPlan]

/-- The position that fills it at an ask of 101. -/
def limitPosition : PaperPosition where
  plan := adjusted limitPlan.toTradePlan (1010101 / 10000)
  executedSize := 1
  avgPrice := 1010101 / 10000
  openedAt := 0
  fill := 0

theorem limitPlan_fills : limitPending.Fills sampleBooks "BTC_USDT" 0 limitPlan limitPosition :=
  ⟨[], [], rfl, rfl, by decide +kernel⟩

theorem limit_fill_at_ask :
    ∃ bid ask, sampleBooks.quote limitPlan.ticker = some (bid, ask) ∧
      limitPlan.RespectsLimit (limitPlan.entrySide bid ask) ∧
      limitPosition.avgPrice
        = limitPending.slippedEntry limitPlan.side (limitPlan.entrySide bid ask) :=
  limit_fill (by decide) limitPlan_fills

/-- With the default slippage of 1 bps, a buy at 101 fills at 101.0101. -/
theorem limit_exceeded :
    ¬ ∀ (ex : PaperExecutor) (books : OrderBooks) (ticker : Ticker) (now : TimePoint)
        (plan : StrategyPlan) (pos : PaperPosition), 0 ≤ ex.slippageBps → plan.entryType = .limit →
        ex.Fills books ticker now plan pos → plan.RespectsLimit pos.avgPrice := by
  intro hall
  have hrespects := hall limitPending sampleBooks "BTC_USDT" 0 limitPlan limitPosition
    (by decide +kernel) rfl limitPlan_fills
  revert hrespects
  decide +kernel

/-! ## Exits -/

/-- Part 2 of `tick` closes the position, or part of it, and records the closed trade. -/
def Closes (ex : PaperExecutor) (books : OrderBooks) (ticker : Ticker) (now : TimePoint)
    (pos : PaperPosition) (ct : ClosedTrade) : Prop :=
  (ex.tickEntries books ticker now).positions.lookup ticker = some pos ∧
    (ex.tickTicker books ticker now).closedTrades = ex.closedTrades ++ [ct]

end PaperExecutor

namespace PaperPosition

variable (pos : PaperPosition) (bid ask : ℚ)

/-- The price is not better than the side of the book the position can be closed against. -/
def NotBetter (price : ℚ) : Prop :=
  if pos.plan.side = .buy then price ≤ bid else ask ≤ price

instance (price : ℚ) : Decidable (pos.NotBetter bid ask price) :=
  inferInstanceAs (Decidable (if pos.plan.side = .buy then price ≤ bid else ask ≤ price))

/-- The stop is reached. -/
def StopHit : Prop :=
  if pos.plan.side = .buy then bid ≤ pos.plan.stopPrice else pos.plan.stopPrice ≤ ask

instance : Decidable (pos.StopHit bid ask) :=
  inferInstanceAs
    (Decidable (if pos.plan.side = .buy then bid ≤ pos.plan.stopPrice else pos.plan.stopPrice ≤ ask))

/-- There is a TP1, and it is reached. -/
def TargetHit : Prop :=
  0 < pos.plan.tp1Price ∧
    if pos.plan.side = .buy then pos.plan.tp1Price ≤ ask else bid ≤ pos.plan.tp1Price

instance : Decidable (pos.TargetHit bid ask) :=
  inferInstanceAs (Decidable (0 < pos.plan.tp1Price ∧
    if pos.plan.side = .buy then pos.plan.tp1Price ≤ ask else bid ≤ pos.plan.tp1Price))

/-- The side of the book that it cannot be closed against. -/
def otherSide : ℚ := if pos.plan.side = .buy then ask else bid

/-- The gap protection of the stop fills at the executable side. -/
theorem stopLoss?_eq :
    pos.stopLoss? bid ask
      = if pos.StopHit bid ask then some (pos.executable bid ask, "Stop Loss") else none := by
  by_cases hbuy : pos.plan.side = .buy
  · simp only [stopLoss?, StopHit, executable, if_pos hbuy]
    by_cases hhit : bid ≤ pos.plan.stopPrice
    · rw [if_pos hhit, if_pos hhit, min_eq_right hhit]
    · rw [if_neg hhit, if_neg hhit]
  · simp only [stopLoss?, StopHit, executable, if_neg hbuy]
    by_cases hhit : pos.plan.stopPrice ≤ ask
    · rw [if_pos hhit, if_pos hhit, max_eq_right hhit]
    · rw [if_neg hhit, if_neg hhit]

/-- That of the target fills at the other side. -/
theorem takeProfit?_eq :
    pos.takeProfit? bid ask
      = if pos.TargetHit bid ask then some (pos.otherSide bid ask, "Take Profit") else none := by
  by_cases hset : 0 < pos.plan.tp1Price
  · by_cases hbuy : pos.plan.side = .buy
    · simp only [takeProfit?, TargetHit, otherSide, if_pos hset, if_pos hbuy]
      by_cases hhit : pos.plan.tp1Price ≤ ask
      · rw [if_pos hhit, if_pos ⟨hset, hhit⟩, max_eq_right hhit]
      · rw [if_neg hhit, if_neg (fun h => hhit h.2)]
    · simp only [takeProfit?, TargetHit, otherSide, if_pos hset, if_neg hbuy]
      by_cases hhit : bid ≤ pos.plan.tp1Price
      · rw [if_pos hhit, if_pos ⟨hset, hhit⟩, min_eq_right hhit]
      · rw [if_neg hhit, if_neg (fun h => hhit h.2)]
  · rw [takeProfit?, if_neg hset, if_neg (fun h => hset h.1)]

variable {pos bid ask} {now : TimePoint} {price : ℚ} {reason : String}

theorem noProgress?_price (h : pos.noProgress? bid ask now = some (price, reason)) :
    price = pos.executable bid ask := by
  unfold noProgress? at h
  dsimp only at h
  split at h
  · exact (Prod.mk.inj (Option.some.inj h)).1.symm
  · exact absurd h (by simp)

theorem followThrough?_price (h : pos.followThrough? bid ask now = some (price, reason)) :
    price = pos.executable bid ask := by
  unfold followThrough? at h
  split at h
  · exact (Prod.mk.inj (Option.some.inj h)).1.symm
  · exact absurd h (by simp)

/-- An exit is at the executable side, or at TP1 at the other one. -/
theorem exit?_price (h : pos.exit? bid ask now = some (price, reason)) :
    price = if ¬ pos.StopHit bid ask ∧ pos.TargetHit bid ask then pos.otherSide bid ask
      else pos.executable bid ask := by
  rw [exit?, stopLoss?_eq, takeProfit?_eq] at h
  by_cases hstop : pos.StopHit bid ask
  · rw [if_pos hstop, Option.some_or, Option.some_or, Option.some.injEq] at h
    rw [if_neg (fun hand => hand.1 hstop)]
    exact (Prod.mk.inj h).1.symm
  rw [if_neg hstop, Option.none_or] at h
  by_cases htarget : pos.TargetHit bid ask
  · rw [if_pos htarget, Option.some_or, Option.some.injEq] at h
    rw [if_pos ⟨hstop, htarget⟩]
    exact (Prod.mk.inj h).1.symm
  rw [if_neg htarget, Option.none_or, Option.or_eq_some_iff] at h
  rw [if_neg (fun hand => htarget hand.2)]
  rcases h with h | ⟨-, h⟩
  · exact noProgress?_price h
  · exact followThrough?_price h

end PaperPosition

namespace PaperExecutor

variable {ex : PaperExecutor} {books : OrderBooks} {ticker : Ticker} {now : TimePoint}

/-- The exit is not at TP1, or the slippage makes up for the spread. -/
def ExitsAtSide (ex : PaperExecutor) (pos : PaperPosition) (bid ask : ℚ) : Prop :=
  pos.StopHit bid ask ∨ ¬ pos.TargetHit bid ask ∨
    if pos.plan.side = .buy then ask - ex.slip ask ≤ bid else ask ≤ bid + ex.slip bid

theorem tickEntries_frame (ex : PaperExecutor) (books : OrderBooks) (ticker : Ticker)
    (now : TimePoint) :
    (ex.tickEntries books ticker now).slippageBps = ex.slippageBps ∧
      (ex.tickEntries books ticker now).closedTrades = ex.closedTrades :=
  foldl_tickEntry_frame books ticker now ex.pendingEntries { ex with pendingEntries := [] }

theorem exitPosition_closedTrades (ex : PaperExecutor) (ticker : Ticker) (pos : PaperPosition)
    (price : ℚ) (reason : String) :
    ∃ size, (ex.exitPosition ticker pos price reason).closedTrades
      = ex.closedTrades ++ [pos.closed (ex.slippedExit pos.plan.side price) size reason] := by
  unfold exitPosition
  dsimp only
  split
  · exact ⟨_, rfl⟩
  · exact ⟨_, rfl⟩

/-- The rule and the book behind a closed trade. -/
theorem Closes.exit {pos : PaperPosition} {ct : ClosedTrade} (h : ex.Closes books ticker now pos ct) :
    ∃ bid ask price reason, books.quote pos.plan.ticker = some (bid, ask) ∧ 0 < bid ∧ 0 < ask ∧
      pos.exit? bid ask now = some (price, reason) ∧
      ct.exitPrice = ex.slippedExit pos.plan.side price := by
  obtain ⟨hpos, hclosed⟩ := h
  obtain ⟨hslip, hentries⟩ := tickEntries_frame ex books ticker now
  rw [tickTicker, ← hentries] at hclosed
  unfold tickExits at hclosed
  rw [hpos] at hclosed
  dsimp only at hclosed
  split at hclosed
  · simp at hclosed
  next bid ask hquote =>
    split at hclosed
    · next hbook =>
        split at hclosed
        · simp at hclosed
        next price reason hexit =>
          obtain ⟨size, hrecord⟩ := exitPosition_closedTrades (ex.tickEntries books ticker now)
            ticker pos price reason
          rw [hrecord, List.append_cancel_left_eq, List.singleton_inj] at hclosed
          refine ⟨bid, ask, price, reason, hquote, hbook.1, hbook.2, hexit, ?_⟩
          rw [← hclosed, PaperPosition.closed, slippedExit, slippedExit, slip, slip, hslip]
    · simp at hclosed

/-- An exit is not better than the side of the book it can be executed at, except at a TP1 that the
    slippage does not bring back to that side. -/
theorem exit_at_side {pos : PaperPosition} {ct : ClosedTrade} {bid ask : ℚ}
    (hslip : 0 ≤ ex.slippageBps) (h : ex.Closes books ticker now pos ct)
    (hquote : books.quote pos.plan.ticker = some (bid, ask)) :
    pos.NotBetter bid ask ct.exitPrice ↔ ex.ExitsAtSide pos bid ask := by
  obtain ⟨bid', ask', price, reason, hquote', hbid, hask, hexit, hprice⟩ := h.exit
  obtain ⟨rfl, rfl⟩ := Prod.mk.inj (Option.some.inj (hquote.symm.trans hquote'))
  have hbidSlip : 0 ≤ ex.slip bid := mul_nonneg hbid.le (div_nonneg hslip (by norm_num))
  have haskSlip : 0 ≤ ex.slip ask := mul_nonneg hask.le (div_nonneg hslip (by norm_num))
  rw [hprice, PaperPosition.exit?_price hexit]
  by_cases hother : ¬ pos.StopHit bid ask ∧ pos.TargetHit bid ask
  · have hside : ex.ExitsAtSide pos bid ask
        ↔ if pos.plan.side = .buy then ask - ex.slip ask ≤ bid else ask ≤ bid + ex.slip bid := by
      rw [ExitsAtSide, or_iff_right hother.1, or_iff_right (not_not.2 hother.2)]
    rw [if_pos hother, hside, PaperPosition.NotBetter, slippedExit, PaperPosition.otherSide]
    by_cases hbuy : pos.plan.side = .buy
    · simp only [if_pos hbuy, sub_eq_add_neg]
    · simp only [if_neg hbuy]
  · have hside : ex.ExitsAtSide pos bid ask := by
      rw [ExitsAtSide]
      tauto
    rw [if_neg hother, PaperPosition.NotBetter, slippedExit, PaperPosition.executable]
    refine iff_of_true ?_ hside
    by_cases hbuy : pos.plan.side = .buy
    · simp only [if_pos hbuy]
      linarith
    · simp only [if_neg hbuy]
      linarith

/-- Every ticker has a book with these best prices. -/
def booksAt (bid ask : ℚ) : OrderBooks :=
  fun _ => some (({ inc := centIncrements } : OrderBook).applySnapshot
    { tightSnapshot with bids := [⟨bid, 1, .buy⟩], asks := [⟨ask, 1, .sell⟩] })

/-- The executor once `limitPlan` is filled. -/
def limitOpen : PaperExecutor := limitPending.tickTicker sampleBooks "BTC_USDT" 0

/-- The closed trade of the position at 88 to 90. -/
def stopTrade : ClosedTrade := limitPosition.closed (879912 / 10000) 1 "Stop Loss"

theorem limitOpen_stops : limitOpen.Closes (booksAt 88 90) "BTC_USDT" 0 limitPosition stopTrade :=
  ⟨by decide +kernel, by decide +kernel⟩

/-- It is stopped out at the bid. -/
theorem stopped_at_bid : limitPosition.NotBetter 88 90 stopTrade.exitPrice :=
  (exit_at_side (by decide +kernel) limitOpen_stops (by decide +kernel)).2
    (Or.inl (by decide +kernel))

/-- At 102 to 104, with a target of 103.0101, the long position is closed at the ask. -/
theorem target_at_ask :
    ¬ ∀ (ex : PaperExecutor) (books : OrderBooks) (ticker : Ticker) (now : TimePoint)
        (pos : PaperPosition) (ct : ClosedTrade) (bid ask : ℚ), 0 ≤ ex.slippageBps →
        ex.Closes books ticker now pos ct → books.quote pos.plan.ticker = some (bid, ask) →
        pos.NotBetter bid ask ct.exitPrice := by
  intro hall
  have hbetter := hall limitOpen (booksAt 102 104) "BTC_USDT" 0 limitPosition
    (limitPosition.closed (1039896 / 10000) 1 "Take Profit") 102 104 (by decide +kernel)
    ⟨by decide +kernel, by decide +kernel⟩ (by decide +kernel)
  revert hbetter
  decide +kernel

end PaperExecutor

end TradeBot
