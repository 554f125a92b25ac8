import TradeBot.Executor.PaperExecutor
import TradeBot.Lib.Lots
import TradeBot.Lib.Runs

set_option autoImplicit false

/-! # Conservation of paper positions

Every fill of the paper executor is a lot: what is still open of it and the sizes of the closed trades
recorded for it make up its size. Two operations break this: `cancel_all` erases an open position
without recording it, and `inject_recovered_trades` overwrites one. Plans and recovered trades of no
size give positions of no size.

The sizes are counted in the library's lots (`Lots.Conserved`): opening a position adds a lot,
closing or reducing it moves size from the lot to the records. `Inv` adds to this what keeps the lots
apart, and that sizes are positive. Each operation is a few of these moves; the condition of the run
excludes the two that lose a lot. -/

namespace TradeBot

namespace PaperExecutor

/-- The fill of an entry of the positions, with the size still open. -/
def lot (e : Ticker × PaperPosition) : ℕ × ℚ := (e.2.fill, e.2.executedSize)

/-- Positions by fill, with their sizes. -/
def lots (positions : PaperPositions) : List (ℕ × ℚ) :=
  positions.entries.map lot

/-- The open positions by fill, with their sizes. -/
def openLots (ex : PaperExecutor) : List (ℕ × ℚ) := lots ex.positions

/-- The closed trades by fill, with their sizes. -/
def closedLots (ex : PaperExecutor) : List (ℕ × ℚ) :=
  ex.recorded.map (fun r => (r.1, r.2.sizeFilled))

/-- Each ticker has at most one position, positions have a positive size, and of every fill the size
    still open and the sizes recorded as closed make up the size filled. What was recorded is what
    `pop_closed_trades` has returned and will return. -/
structure Conserving (ex : PaperExecutor) : Prop where
  single : ∀ ticker pos pos', (ticker, pos) ∈ ex.positions → (ticker, pos') ∈ ex.positions → pos = pos'
  positive : ∀ ticker pos, (ticker, pos) ∈ ex.positions → 0 < pos.executedSize
  balance : ∀ fill size, (fill, size) ∈ ex.fills →
    Lots.total fill ex.openLots + Lots.total fill ex.closedLots = size
  returned : ex.recorded.map Prod.snd = ex.popped ++ ex.closedTrades

/-! ## The invariant -/

/-- The books are in order. -/
structure Inv (ex : PaperExecutor) : Prop where
  conserved : Lots.Conserved ex.fills ex.openLots ex.closedLots
  positive : ∀ ticker pos, (ticker, pos) ∈ ex.positions → 0 < pos.executedSize
  pending : ∀ plan ∈ ex.pendingEntries, 0 < plan.sizeCoin
  numbered : ∀ fill ∈ ex.fills.map Prod.fst, fill < ex.fills.length
  returned : ex.recorded.map Prod.snd = ex.popped ++ ex.closedTrades

variable {ex : PaperExecutor} {ticker : Ticker} {pos : PaperPosition}

theorem Inv.conserving (h : Inv ex) : Conserving ex where
  single := fun _ _ _ hpos hpos' => SortedMap.eq_of_mem hpos hpos'
  positive := h.positive
  balance := fun _ _ hfill => h.conserved.balance _ hfill
  returned := h.returned

theorem inv_init (slippageBps : ℚ) : Inv { slippageBps := slippageBps } where
  conserved := Lots.conserved_nil
  positive := fun _ _ h => absurd h (SortedMap.not_mem_empty _)
  pending := by simp
  numbered := by simp
  returned := rfl

/-- Entries may be dropped, and entries of positive size added. -/
theorem Inv.withPending (h : Inv ex) {entries : List StrategyPlan}
    (hpos : ∀ plan ∈ entries, 0 < plan.sizeCoin) : Inv { ex with pendingEntries := entries } :=
  { h with pending := hpos }

theorem Inv.submit (h : Inv ex) {plan : StrategyPlan} (hpos : 0 < plan.sizeCoin) :
    Inv (ex.submit plan) := by
  refine h.withPending (fun p hp => ?_)
  rcases List.mem_append.1 hp with hp | hp
  · exact h.pending p hp
  · rw [List.mem_singleton.1 hp]
    exact hpos

theorem Inv.popClosedTrades (h : Inv ex) : Inv ex.popClosedTrades :=
  { h with returned := by simpa [PaperExecutor.popClosedTrades] using h.returned }

theorem lots_insert_perm (m : PaperPositions) (ticker : Ticker)
    (pos : PaperPosition) :
    (lots (m.insert ticker pos)).Perm ((pos.fill, pos.executedSize) :: lots (m.erase ticker)) :=
  SortedMap.entries_insert_perm.map lot

theorem lots_perm_of_lookup {m : PaperPositions}
    (h : m.lookup ticker = some pos) :
    (lots m).Perm ((pos.fill, pos.executedSize) :: lots (m.erase ticker)) :=
  (SortedMap.entries_perm_of_lookup h).map lot

/-- A position is opened for a ticker that has none. -/
theorem Inv.openPosition (h : Inv ex) {plan : TradePlan} {size avgPrice : ℚ} {openedAt : TimePoint}
    (hnone : ex.positions.lookup ticker = none) (hsize : 0 < size) :
    Inv (ex.openPosition ticker plan size avgPrice openedAt) where
  conserved := by
    have hnew : ex.fills.length ∉ ex.fills.map Prod.fst :=
      fun hin => absurd (h.numbered _ hin) (lt_irrefl _)
    refine (h.conserved.open (a := size) hnew).perm ?_
    have hperm := lots_insert_perm ex.positions ticker
      ⟨plan, size, avgPrice, openedAt, ex.fills.length⟩
    rw [SortedMap.erase_of_lookup_none hnone] at hperm
    exact hperm
  positive := by
    intro ticker' pos' hpos'
    rcases SortedMap.mem_insert.1 hpos' with heq | ⟨hold, _⟩
    · rw [(Prod.mk.inj heq).2]
      exact hsize
    · exact h.positive ticker' pos' hold
  pending := h.pending
  numbered := by
    intro fill hfill
    simp only [PaperExecutor.openPosition, List.map_append, List.map_singleton, List.length_append,
      List.length_singleton] at hfill ⊢
    rcases List.mem_append.1 hfill with hfill | hfill
    · have := h.numbered fill hfill
      omega
    · rw [List.mem_singleton.1 hfill]
      omega
  returned := h.returned

theorem returned_record (h : Inv ex) (fill : ℕ) (ct : ClosedTrade) :
    (ex.record fill ct).recorded.map Prod.snd
      = (ex.record fill ct).popped ++ (ex.record fill ct).closedTrades := by
  simp [record, h.returned]

/-- A whole position is closed and recorded. -/
theorem Inv.closePosition (h : Inv ex) (hpos : ex.positions.lookup ticker = some pos) (exitPrice : ℚ)
    (reason : String) :
    Inv ((ex.record pos.fill (pos.closed exitPrice pos.executedSize reason)).erasePosition ticker) where
  conserved := by
    have hclose := (h.conserved.perm (lots_perm_of_lookup hpos).symm).close
    simpa [openLots, closedLots, erasePosition, record, PaperPosition.closed] using hclose
  positive := fun ticker' pos' hpos' => h.positive ticker' pos' (SortedMap.mem_erase.1 hpos').1
  pending := h.pending
  numbered := h.numbered
  returned := returned_record h ..

/-- Part of a position is closed and recorded. -/
theorem Inv.reducePosition (h : Inv ex) (hpos : ex.positions.lookup ticker = some pos)
    {exitSize : ℚ} (hsize : exitSize < pos.executedSize) (exitPrice : ℚ) (reason : String) :
    Inv { ex.record pos.fill (pos.closed exitPrice exitSize reason) with
      positions := ex.positions.insert ticker (pos.afterTp1 exitSize) } where
  conserved := by
    have htake := (h.conserved.perm (lots_perm_of_lookup hpos).symm).take (b := exitSize)
    have hreduce := htake.perm (lots_insert_perm ex.positions ticker (pos.afterTp1 exitSize))
    simpa [openLots, closedLots, record, PaperPosition.closed] using hreduce
  positive := by
    intro ticker' pos' hpos'
    rcases SortedMap.mem_insert.1 hpos' with heq | ⟨hold, _⟩
    · rw [(Prod.mk.inj heq).2]
      exact sub_pos.2 hsize
    · exact h.positive ticker' pos' hold
  pending := h.pending
  numbered := h.numbered
  returned := returned_record h ..

/-! ## The operations keep it -/

theorem Inv.closeTrade (h : Inv ex) (books : OrderBooks) (ticker : Ticker) (reason : String) :
    Inv (ex.closeTrade books ticker reason) := by
  unfold PaperExecutor.closeTrade
  cases hpos : ex.positions.lookup ticker with
  | none => exact h
  | some pos => exact h.closePosition hpos ..

theorem Inv.exitPosition (h : Inv ex) (hpos : ex.positions.lookup ticker = some pos) (price : ℚ)
    (reason : String) : Inv (ex.exitPosition ticker pos price reason) := by
  unfold PaperExecutor.exitPosition
  by_cases hpartial : pos.isTp1Partial reason = true
  · have hratio : pos.plan.tp1SizeRatio < 1 := by
      simp only [PaperPosition.isTp1Partial, Bool.and_eq_true, decide_eq_true_eq] at hpartial
      exact hpartial.2
    have hsize : 0 < pos.executedSize := h.positive ticker pos (SortedMap.lookup_eq_some.1 hpos)
    rw [if_pos hpartial]
    exact h.reducePosition hpos (mul_lt_of_lt_one_right hsize hratio) ..
  · rw [if_neg hpartial]
    exact h.closePosition hpos ..

theorem Inv.tickExits (h : Inv ex) (books : OrderBooks) (ticker : Ticker) (now : TimePoint) :
    Inv (ex.tickExits books ticker now) := by
  unfold PaperExecutor.tickExits
  cases hpos : ex.positions.lookup ticker with
  | none => exact h
  | some pos =>
      dsimp only
      split
      · exact h
      split
      · split
        · exact h
        · exact h.exitPosition hpos ..
      · exact h

theorem Inv.tickEntry (h : Inv ex) (books : OrderBooks) (ticker : Ticker) (now : TimePoint)
    {plan : StrategyPlan} (hsize : 0 < plan.sizeCoin) : Inv (tickEntry books ticker now ex plan) := by
  unfold PaperExecutor.tickEntry
  split
  · exact h.submit hsize
  split
  · exact h
  split
  · exact h.submit hsize
  split
  · exact h.submit hsize
  split
  · exact h.submit hsize
  dsimp only
  split
  · exact h
  · next hnone =>
      rw [Bool.not_eq_true, Option.isSome_eq_false_iff, Option.isNone_iff_eq_none] at hnone
      exact h.openPosition hnone hsize

theorem Inv.tickEntries (h : Inv ex) (books : OrderBooks) (ticker : Ticker) (now : TimePoint) :
    Inv (ex.tickEntries books ticker now) := by
  have hfold : ∀ (entries : List StrategyPlan) (ex : PaperExecutor), Inv ex →
      (∀ plan ∈ entries, 0 < plan.sizeCoin) →
      Inv (entries.foldl (PaperExecutor.tickEntry books ticker now) ex) := by
    intro entries
    induction entries with
    | nil => exact fun _ h _ => h
    | cons plan entries ih =>
        intro ex h hsize
        exact ih _ (h.tickEntry books ticker now (hsize plan (List.mem_cons_self ..)))
          (fun p hp => hsize p (List.mem_cons_of_mem _ hp))
  exact hfold _ _ (h.withPending (by simp)) h.pending

theorem Inv.tickTicker (h : Inv ex) (books : OrderBooks) (ticker : Ticker) (now : TimePoint) :
    Inv (ex.tickTicker books ticker now) :=
  (h.tickEntries books ticker now).tickExits books ticker now

theorem Inv.tick (h : Inv ex) (books : OrderBooks) (now : TimePoint) : Inv (ex.tick books now) :=
  Runs.invariant Inv (fun _ ticker h => h.tickTicker books ticker now) _ h

theorem Inv.cancelAll (h : Inv ex) (hnone : ex.positions.lookup ticker = none) :
    Inv (ex.cancelAll ticker) := by
  unfold PaperExecutor.cancelAll
  rw [SortedMap.erase_of_lookup_none hnone]
  exact h.withPending (fun plan hplan => h.pending plan (List.mem_of_mem_filter hplan))

/-- The recovered trades have a positive size, and their tickers are without a position and
    different. -/
structure Injectable (ex : PaperExecutor) (trades : List ActiveTrade) : Prop where
  sizes : ∀ t ∈ trades.filter recovers, 0 < t.executedSize
  free : ∀ t ∈ trades.filter recovers, ex.positions.lookup t.plan.ticker = none
  distinct : ((trades.filter recovers).map (fun t => t.plan.ticker)).Nodup

theorem Inv.injectRecoveredTrades (h : Inv ex) {trades : List ActiveTrade}
    (hinj : Injectable ex trades) : Inv (ex.injectRecoveredTrades trades) := by
  unfold PaperExecutor.injectRecoveredTrades
  induction trades generalizing ex with
  | nil => exact h
  | cons t trades ih =>
      rw [List.foldl_cons]
      by_cases hrec : recovers t = true
      · have hfilter : (t :: trades).filter recovers = t :: trades.filter recovers :=
          List.filter_cons_of_pos hrec
        obtain ⟨hsizes, hfree, hdistinct⟩ := hinj
        rw [hfilter] at hsizes hfree hdistinct
        rw [List.map_cons, List.nodup_cons] at hdistinct
        rw [if_pos hrec]
        refine ih (h.openPosition (hfree t (List.mem_cons_self ..))
          (hsizes t (List.mem_cons_self ..))) ⟨fun t' ht' => ?_, fun t' ht' => ?_, hdistinct.2⟩
        · exact hsizes t' (List.mem_cons_of_mem _ ht')
        · have hne : t'.plan.ticker ≠ t.plan.ticker := by
            intro heq
            exact hdistinct.1 (heq ▸ List.mem_map_of_mem ht')
          rw [PaperExecutor.openPosition, SortedMap.lookup_insert, if_neg hne]
          exact hfree t' (List.mem_cons_of_mem _ ht')
      · have hfilter : (t :: trades).filter recovers = trades.filter recovers :=
          List.filter_cons_of_neg hrec
        rw [if_neg hrec]
        exact ih h ⟨hfilter ▸ hinj.sizes, hfilter ▸ hinj.free, hfilter ▸ hinj.distinct⟩

/-- The operations that keep the balance: plans have a size, `cancel_all` finds no position, and
    recovered trades are injected where there is none. -/
def Admissible (ex : PaperExecutor) : Op → Prop
  | .submit plan => 0 < plan.sizeCoin
  | .cancelAll ticker => ex.positions.lookup ticker = none
  | .injectRecoveredTrades trades => Injectable ex trades
  | _ => True

theorem Inv.step (h : Inv ex) {op : Op} (hop : Admissible ex op) : Inv (ex.step op) := by
  cases op with
  | submit plan => exact h.submit hop
  | tick books now => exact h.tick books now
  | tickTicker books ticker now => exact h.tickTicker books ticker now
  | onTrade books ticker trade => exact h.tickTicker books ticker trade.timestamp
  | onOrderbookSnapshot books snap => exact h.tickTicker books snap.ticker snap.ts
  | onOrderbookUpdate books upd => exact h.tickTicker books upd.ticker upd.ts
  | closeTrade books ticker reason => exact h.closeTrade books ticker reason
  | cancelAll ticker => exact h.cancelAll hop
  | injectRecoveredTrades trades => exact h.injectRecoveredTrades hop
  | popClosedTrades => exact h.popClosedTrades

/-- **Paper positions are conserved** in every run whose operations are admissible. -/
theorem run_conserving (slippageBps : ℚ) (ops : List Op)
    (h : Runs.Along step Admissible { slippageBps := slippageBps } ops) :
    Conserving (run { slippageBps := slippageBps } ops) :=
  (h.invariant Inv (fun _ _ hinv hop => hinv.step hop) (inv_init slippageBps)).conserving

/-! ## A position closed, and one that is lost -/

/-- Every ticker has a book with a bid at 99 and an ask at 101. -/
def sampleBooks : OrderBooks :=
  fun _ => some (({ inc := centIncrements } : OrderBook).applySnapshot tightSnapshot)

/-- Buy 1 BTC_USDT at market with a stop at 90. -/
def marketPlan : StrategyPlan where
  ticker := "BTC_USDT"
  side := .buy
  entryType := .market
  entryPrice := 100
  stopPrice := 90
  sizeCoin := 1
  validUntil := 10 * nsPerSec

theorem run_conserving_closed :
    (run { slippageBps := 1 } [.submit marketPlan, .tickTicker sampleBooks "BTC_USDT" 0,
        .closeTrade sampleBooks "BTC_USDT" "Manual", .popClosedTrades]).popped.length = 1 ∧
      Conserving (run { slippageBps := 1 } [.submit marketPlan, .tickTicker sampleBooks "BTC_USDT" 0,
        .closeTrade sampleBooks "BTC_USDT" "Manual", .popClosedTrades]) := by
  refine ⟨by decide +kernel, run_conserving 1 _ ⟨?_, trivial, trivial, trivial, trivial⟩⟩
  exact (by decide : (0 : ℚ) < 1)

/-- `cancel_all` erases the position filled before, and records nothing. -/
theorem cancelAll_loses_position :
    ¬ ∀ ops, Conserving (run { slippageBps := 1 } ops) := by
  intro hall
  have hbalance := (hall [.submit marketPlan, .tickTicker sampleBooks "BTC_USDT" 0,
    .cancelAll "BTC_USDT"]).balance 0 1 (by decide +kernel)
  exact absurd hbalance (by decide +kernel)

end PaperExecutor

end TradeBot
