import Mathlib.Algebra.BigOperators.Group.List.Basic
import TradeBot.Domain.Types
import TradeBot.Lib.RingBuffer

set_option autoImplicit false

/-! # TradeStream

`marketdata/TradeStream.{hpp,cpp}`: a ticker's recent trades in a ring of `kMaxTrades` slots, and the
volumes of the last second, five and thirty seconds, kept up to date trade by trade. The statistics of
the sizes, the T-digest and the Hawkes intensities, which do not touch the ring, are left out.

A window is a tail in the ring and the volumes of the trades from the tail on, which are added and
taken off one by one. Its head is that of the ring, so a window has no count of its own: whether it
is empty is read off the two positions. -/

namespace TradeBot

/-- The slots of the ring. -/
def kMaxTrades : ℕ := 65536

/-- `tail_1s_` and the two accumulators of its window, and the same for the other windows. -/
structure VolumeWindow where
  tail : ℕ := 0
  buyVol : ℚ := 0
  sellVol : ℚ := 0

namespace VolumeWindow

/-- Add `sign` times the trade's size to the accumulator of its side. -/
def add (sign : ℚ) (t : Trade) (w : VolumeWindow) : VolumeWindow :=
  match t.side with
  | .buy => { w with buyVol := w.buyVol + sign * t.size }
  | .sell => { w with sellVol := w.sellVol + sign * t.size }
  | .none => w

/-- Take the trade at the tail off the window. -/
def drop (t : Trade) (w : VolumeWindow) : VolumeWindow :=
  { w.add (-1) t with tail := (w.tail + 1) % kMaxTrades }

/-- `sub_if_evicted`: the tail still points at the slot that was overwritten. -/
def subIfEvicted (oldHead : ℕ) (evicted : Trade) (w : VolumeWindow) : VolumeWindow :=
  if w.tail = oldHead then w.drop evicted else w

/-- Is the trade older than the window? -/
def expired (length now : TimePoint) (t : Trade) : Bool := decide (length < now - t.timestamp)

/-- The loop of `evict`. The first argument counts the steps from the tail to the head. -/
def evict (length now : TimePoint) (trades : ℕ → Trade) : ℕ → VolumeWindow → VolumeWindow
  | 0, w => w
  | n + 1, w =>
      if expired length now (trades w.tail) then
        evict length now trades n (w.drop (trades w.tail))
      else w

end VolumeWindow

/-- The windows of the volumes. -/
inductive WindowLength
  | w1s
  | w5s
  | w30s
  deriving DecidableEq

/-- The length of a window in nanoseconds. -/
def WindowLength.duration : WindowLength → TimePoint
  | .w1s => 1 * nsPerSec
  | .w5s => 5 * nsPerSec
  | .w30s => 30 * nsPerSec

/-- The ring with its next slot, and a window for each length. A slot that was never written holds an
    empty trade. -/
structure TradeStream where
  trades : ℕ → Trade := fun _ => ⟨0, 0, .none, 0⟩
  head : ℕ := 0
  count : ℕ := 0
  windows : WindowLength → VolumeWindow := fun _ => {}

namespace TradeStream

/-- A trade takes the slot of the oldest one, which leaves the windows that still held it. -/
def onTrade (ts : TradeStream) (trade : Trade) : TradeStream :=
  let full := kMaxTrades ≤ ts.count
  let evicted := ts.trades ts.head
  { trades := Function.update ts.trades ts.head trade
    head := (ts.head + 1) % kMaxTrades
    count := if full then ts.count else ts.count + 1
    windows := fun len =>
      let w := (ts.windows len).add 1 trade
      if full then w.subIfEvicted ts.head evicted else w }

/-- `update`, that is `evict_expired_trades_`. -/
def update (ts : TradeStream) (now : TimePoint) : TradeStream :=
  { ts with
    windows := fun len =>
      let w := ts.windows len
      w.evict len.duration now ts.trades (RingBuffer.distance kMaxTrades ts.head w.tail) }

end TradeStream

/-- A call of the stream. -/
inductive StreamOp
  | onTrade (trade : Trade)
  | update (now : TimePoint)

namespace TradeStream

/-- The stream after a call. -/
def step (ts : TradeStream) : StreamOp → TradeStream
  | .onTrade trade => ts.onTrade trade
  | .update now => ts.update now

/-- The stream after some calls. -/
def run (ts : TradeStream) (ops : List StreamOp) : TradeStream := ops.foldl step ts

/-- The volumes after three trades, ten, three and half a second ago. -/
example :
    let ts := ({} : TradeStream).run
      [.onTrade ⟨100, 4, .buy, 0⟩, .onTrade ⟨100, 2, .sell, 7 * nsPerSec⟩,
        .onTrade ⟨100, 1, .buy, 9500000000⟩, .update (10 * nsPerSec)]
    ((ts.windows .w1s).buyVol, (ts.windows .w5s).buyVol, (ts.windows .w30s).buyVol) = (1, 1, 5) ∧
      ((ts.windows .w1s).sellVol, (ts.windows .w5s).sellVol, (ts.windows .w30s).sellVol) =
        (0, 2, 2) := by decide +kernel

end TradeStream

end TradeBot
