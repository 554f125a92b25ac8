import Mathlib.Tactic.Ring
import TradeBot.Domain.Signals
import TradeBot.Utils.Numeric

set_option autoImplicit false

/-! # FeatureExtractor

The price changes of `features/FeatureExtractor.{hpp,cpp}`: a ring of mid prices, and how far the
current mid has moved away from the oldest one in a window. What the frame takes from the order book,
the trade stream and the leader tracker is handed in; the volatility and the latency histograms are
left out. -/

namespace TradeBot

/-- `MidSample`. Its logarithm, which only the volatility reads, is left out. -/
structure MidSample where
  t : TimePoint
  mid : ℚ
  mid_pos : 0 < mid

/-- The extractor of one ticker. Its ring keeps a reserve of samples, one for each frame. -/
structure FeatureExtractor where
  ticker : Ticker
  reserveHistory : ℕ := 600
  /-- The ring of mid prices, newest first. -/
  midHistory : List MidSample := []

/-- The move from `ref` to `mid` in basis points. -/
def basisPoints (ref mid : ℚ) : ℚ := (mid - ref) / ref * kBpsBase

namespace FeatureExtractor

variable (ex : FeatureExtractor) (now : TimePoint)

/-- "Maintain mid history before computing dynamics". -/
def record (mid : ℚ) : FeatureExtractor :=
  if h : 0 < mid then
    { ex with
      midHistory := (⟨now, mid, h⟩ :: ex.midHistory).take (max 1 ex.reserveHistory) }
  else ex

/-- The oldest sample of the last `window` seconds. The scan leaves out the newest sample, and stops
    at the first one that is more than a minute old. -/
def windowSample? (window : ℤ) : Option MidSample :=
  ((ex.midHistory.tail.takeWhile (fun s => decide (now - 60 * nsPerSec ≤ s.t))).filter
    (fun s => decide (now - window * nsPerSec ≤ s.t))).getLast?

/-- `mid5 > 0 ? mid5 : oldest_mid`, for any of the windows. -/
def referenceMid (window : ℤ) : ℚ :=
  (((ex.windowSample? now window).or ex.midHistory.getLast?).map MidSample.mid).getD 0

/-- A change in percent. It is zero where there is nothing to compare with. -/
def calcPct (current ref : ℚ) : ℚ := if 0 < ref then (current - ref) / ref * 100 else 0

/-- With fewer than two samples nothing has changed yet. -/
def priceChange (mid : ℚ) (window : ℤ) : ℚ :=
  if 2 ≤ ex.midHistory.length then calcPct mid (ex.referenceMid now window) else 0

/-- `extract`; `sources` holds what the sources of the extractor contribute to the frame. -/
def extract (sources : FeatureFrame) : FeatureExtractor × FeatureFrame :=
  let ex := ex.record now sources.mid
  (ex,
    { sources with
      ticker := ex.ticker
      timestamp := now
      priceChange1s := ex.priceChange now sources.mid 1
      priceChange2s := ex.priceChange now sources.mid 2
      priceChange5s := ex.priceChange now sources.mid 5
      priceChange30s := ex.priceChange now sources.mid 30
      leaderChange1s := 0
      leaderChange5s := 0
      valid := decide (0 < sources.mid) })

/-- The move over a window that the frame reports, in basis points. -/
def windowMoveBps (mid : ℚ) (window : ℤ) : ℚ :=
  if 2 ≤ ex.midHistory.length then basisPoints (ex.referenceMid now window) mid else 0

theorem referenceMid_pos {ex : FeatureExtractor} (window : ℤ) (h : ex.midHistory ≠ []) :
    0 < ex.referenceMid now window := by
  obtain ⟨s, hs⟩ : ∃ s, (ex.windowSample? now window).or ex.midHistory.getLast? = some s := by
    cases hwindow : ex.windowSample? now window with
    | none => exact ⟨_, List.getLast?_eq_some_getLast h⟩
    | some s => exact ⟨s, rfl⟩
  rw [referenceMid, hs]
  exact s.mid_pos

/-- The changes are stored in percent. -/
theorem priceChange_eq (mid : ℚ) (window : ℤ) :
    ex.priceChange now mid window = ex.windowMoveBps now mid window / 100 := by
  unfold priceChange windowMoveBps
  by_cases hlen : 2 ≤ ex.midHistory.length
  · have hne : ex.midHistory ≠ [] := List.ne_nil_of_length_pos (by omega)
    rw [if_pos hlen, if_pos hlen, calcPct, if_pos (referenceMid_pos now window hne), basisPoints,
      kBpsBase]
    ring
  · rw [if_neg hlen, if_neg hlen, zero_div]

end FeatureExtractor

end TradeBot
