import Mathlib.Data.List.Induction
import Mathlib.Algebra.BigOperators.Group.List.Basic
import TradeBot.Lib.Runs
import TradeBot.MarketData.TradeStream

set_option autoImplicit false

/-! # The rolling volumes

What the windows are for: each holds the trades that are young enough, the newest `kMaxTrades` at most,
and loses them at the tail. `TradeLog` is that, with lists in place of positions. The ring follows it
until a position becomes ambiguous: with the ring full, a tail at the head may mean a window that holds
every trade, which an update takes for an empty one, or an empty window, of which the next trade takes
the one that was overwritten off. -/

namespace TradeBot

/-- The newest `kMaxTrades` trades. -/
def newest (trades : List Trade) : List Trade := trades.rtake kMaxTrades

/-- The volume of one side. -/
def volume (side : Side) (trades : List Trade) : ℚ :=
  ((trades.filter (fun t => decide (t.side = side))).map Trade.size).sum

/-- The trades seen, and those that each window has not lost. -/
structure TradeLog where
  seen : List Trade := []
  queue : WindowLength → List Trade := fun _ => []

namespace TradeLog

/-- A trade joins every queue, and an update drops what has expired. -/
def step (log : TradeLog) : StreamOp → TradeLog
  | .onTrade t =>
      { seen := log.seen ++ [t], queue := fun len => newest (log.queue len ++ [t]) }
  | .update now =>
      { log with
        queue := fun len => (log.queue len).dropWhile (VolumeWindow.expired len.duration now) }

/-- The log after some calls. -/
def run (log : TradeLog) (ops : List StreamOp) : TradeLog := ops.foldl step log

@[simp] theorem step_update_seen (log : TradeLog) (now : TimePoint) :
    (log.step (.update now)).seen = log.seen := rfl

/-- No trade comes to an empty window once the ring is full; and no update finds the oldest trade of a
    window that fills the ring too old, or a trade too old behind one that is not. -/
def Safe (log : TradeLog) : StreamOp → Prop
  | .onTrade _ => kMaxTrades ≤ log.seen.length → ∀ len, log.queue len ≠ []
  | .update now => ∀ len,
      ((log.queue len).length = kMaxTrades →
        ∀ t ∈ (log.queue len).head?, VolumeWindow.expired len.duration now t = false) ∧
      ∀ t ∈ (log.queue len).dropWhile (VolumeWindow.expired len.duration now),
        VolumeWindow.expired len.duration now t = false

end TradeLog

theorem kMaxTrades_pos : 0 < kMaxTrades := by decide

/-! ## Windows that hold a list of trades -/

namespace VolumeWindow

/-- The window's volumes are those of the trades. -/
structure Sums (w : VolumeWindow) (trades : List Trade) : Prop where
  buy : w.buyVol = volume .buy trades
  sell : w.sellVol = volume .sell trades

variable {w : VolumeWindow} {trades : List Trade} {t : Trade} {slots : ℕ → Trade}
  {history queue : List Trade}

theorem volume_append (side : Side) (trades trades' : List Trade) :
    volume side (trades ++ trades') = volume side trades + volume side trades' := by
  simp [volume]

theorem volume_singleton (side : Side) (t : Trade) :
    volume side [t] = if t.side = side then t.size else 0 := by
  by_cases h : t.side = side <;> simp [volume, h]

theorem Sums.add (h : w.Sums trades) (t : Trade) : (w.add 1 t).Sums (trades ++ [t]) := by
  obtain ⟨hbuy, hsell⟩ := h
  cases hside : t.side <;> constructor <;>
    simp [VolumeWindow.add, hside, volume_append, volume_singleton, hbuy, hsell]

theorem Sums.drop (h : w.Sums (t :: trades)) : (w.drop t).Sums trades := by
  obtain ⟨hbuy, hsell⟩ := h
  rw [← List.singleton_append, volume_append, volume_singleton] at hbuy hsell
  cases hside : t.side <;> constructor <;>
    simp [VolumeWindow.drop, VolumeWindow.add, hside] at hbuy hsell ⊢ <;> linarith

@[simp] theorem add_tail (sign : ℚ) (t : Trade) (w : VolumeWindow) : (w.add sign t).tail = w.tail := by
  unfold add
  split <;> rfl

/-- The window's tail and volumes are those of the queue. -/
structure Shows (history : List Trade) (w : VolumeWindow) (queue : List Trade) : Prop where
  isWindow : RingBuffer.IsWindow kMaxTrades history w.tail queue
  sums : w.Sums queue

theorem Shows.drop (h : Shows history w (t :: queue)) : Shows history (w.drop t) queue where
  isWindow := h.isWindow.pop
  sums := h.sums.drop

theorem Shows.push (h : Shows history w queue) (hroom : queue.length < kMaxTrades) (t : Trade) :
    Shows (history ++ [t]) (w.add 1 t) (newest (queue ++ [t])) := by
  have hnewest : newest (queue ++ [t]) = queue ++ [t] :=
    RingBuffer.rtake_of_length_le (by rwa [List.length_append, List.length_singleton])
  rw [hnewest]
  refine ⟨?_, h.sums.add t⟩
  rw [add_tail]
  exact h.isWindow.push hroom t

/-- A trade that comes to a window as long as the ring replaces the oldest one. -/
theorem Shows.overwrite {x : Trade} (h : Shows history w (x :: queue))
    (hlen : (x :: queue).length = kMaxTrades) (t : Trade) :
    Shows (history ++ [t]) ((w.add 1 t).drop x) (newest (x :: queue ++ [t])) := by
  have hnewest : newest (x :: queue ++ [t]) = queue ++ [t] := by
    rw [newest, List.rtake, List.length_append, hlen, List.length_singleton,
      Nat.add_sub_cancel_left, List.cons_append, List.drop_one, List.tail_cons]
  have hroom : queue.length < kMaxTrades := hlen ▸ Nat.lt_succ_self _
  have hadd : (w.add 1 t).Sums (x :: (queue ++ [t])) := h.sums.add t
  rw [hnewest]
  refine ⟨?_, hadd.drop⟩
  show RingBuffer.IsWindow kMaxTrades _ (((w.add 1 t).tail + 1) % kMaxTrades) _
  rw [add_tail]
  exact h.isWindow.pop.push hroom t

/-- The slot that a full ring overwrites holds the oldest trade of a window that fills the ring. -/
theorem Shows.subIfEvicted (h : Shows history w queue)
    (hslots : RingBuffer.Holds kMaxTrades slots history) (hne : queue ≠ []) (t : Trade) :
    Shows (history ++ [t])
      ((w.add 1 t).subIfEvicted (history.length % kMaxTrades) (slots (history.length % kMaxTrades)))
      (newest (queue ++ [t])) := by
  have hhead := h.isWindow.tail_eq_head_iff
  rw [VolumeWindow.subIfEvicted, add_tail]
  cases queue with
  | nil => exact absurd rfl hne
  | cons x queue =>
      by_cases hlen : (x :: queue).length = kMaxTrades
      · have htail := hhead.2 (Or.inr hlen)
        rw [if_pos htail, ← htail, h.isWindow.slot hslots]
        exact h.overwrite hlen t
      · have htail : ¬ w.tail = history.length % kMaxTrades := by
          rw [hhead]
          rintro (hzero | hall)
          · exact absurd hzero (Nat.succ_ne_zero _)
          · exact hlen hall
        rw [if_neg htail]
        exact h.push (lt_of_le_of_ne h.isWindow.length_le hlen) t

/-- The loop takes the expired trades off the tail. -/
theorem Shows.evict_length (h : Shows history w queue)
    (hslots : RingBuffer.Holds kMaxTrades slots history) (len now : TimePoint) :
    Shows history (w.evict len now slots queue.length) (queue.dropWhile (expired len now)) := by
  induction queue generalizing w with
  | nil => exact h
  | cons t queue ih =>
      rw [List.length_cons, evict, h.isWindow.slot hslots]
      cases hexp : expired len now t with
      | true =>
          rw [List.dropWhile_cons_of_pos hexp]
          exact ih h.drop
      | false =>
          rw [List.dropWhile_cons_of_neg (by simp [hexp])]
          exact h

theorem Shows.evict (h : Shows history w queue) (hslots : RingBuffer.Holds kMaxTrades slots history)
    {len now : TimePoint}
    (hfull : queue.length = kMaxTrades → ∀ t ∈ queue.head?, expired len now t = false) :
    Shows history
      (w.evict len now slots
        (RingBuffer.distance kMaxTrades (history.length % kMaxTrades) w.tail))
      (queue.dropWhile (expired len now)) := by
  rw [h.isWindow.distance_eq kMaxTrades_pos]
  split
  · rename_i hlen
    have hkeep : queue.dropWhile (expired len now) = queue := by
      cases queue with
      | nil => rfl
      | cons t queue =>
          exact List.dropWhile_cons_of_neg (by simp [hfull hlen t rfl])
    rw [hkeep]
    exact h
  · exact h.evict_length hslots len now

end VolumeWindow

/-! ## The ring follows the log -/

namespace TradeStream

/-- The ring holds the newest trades of the log, and its windows are those of the log. -/
structure Follows (ts : TradeStream) (log : TradeLog) : Prop where
  slots : RingBuffer.Holds kMaxTrades ts.trades log.seen
  head : ts.head = log.seen.length % kMaxTrades
  count : ts.count = min log.seen.length kMaxTrades
  shows : ∀ len, (ts.windows len).Shows log.seen (log.queue len)

theorem follows_init : ({} : TradeStream).Follows {} where
  slots := RingBuffer.holds_nil
  head := (Nat.zero_mod _).symm
  count := rfl
  shows := fun _ => ⟨RingBuffer.isWindow_nil, ⟨rfl, rfl⟩⟩

variable {ts : TradeStream} {log : TradeLog}

theorem Follows.onTrade (h : ts.Follows log) {t : Trade}
    (hsafe : kMaxTrades ≤ log.seen.length → ∀ len, log.queue len ≠ []) :
    (ts.onTrade t).Follows (log.step (.onTrade t)) := by
  have hfull : kMaxTrades ≤ ts.count ↔ kMaxTrades ≤ log.seen.length := by
    rw [h.count]
    omega
  refine ⟨?_, ?_, ?_, fun len => ?_⟩
  · show RingBuffer.Holds kMaxTrades (Function.update ts.trades ts.head t) (log.seen ++ [t])
    rw [h.head]
    exact h.slots.push t
  · show (ts.head + 1) % kMaxTrades = (log.seen ++ [t]).length % kMaxTrades
    rw [h.head, Nat.mod_add_mod, List.length_append, List.length_singleton]
  · show (if kMaxTrades ≤ ts.count then ts.count else ts.count + 1) =
      min (log.seen ++ [t]).length kMaxTrades
    rw [List.length_append, List.length_singleton, h.count]
    split <;> omega
  · have hshows := h.shows len
    simp only [TradeStream.onTrade, TradeLog.step]
    by_cases hring : kMaxTrades ≤ log.seen.length
    · rw [if_pos (hfull.2 hring), h.head]
      exact hshows.subIfEvicted h.slots (hsafe hring len) t
    · rw [if_neg (fun hcount => hring (hfull.1 hcount))]
      exact hshows.push (hshows.isWindow.length_le_history.trans_lt (not_le.1 hring)) t

theorem ring_of_windows (ts : TradeStream) (windows : WindowLength → VolumeWindow) :
    let ts' := { ts with windows := windows }
    ts'.trades = ts.trades ∧ ts'.head = ts.head ∧ ts'.count = ts.count := ⟨rfl, rfl, rfl⟩

/-- An update leaves the ring alone. -/
theorem update_ring (ts : TradeStream) (now : TimePoint) :
    (ts.update now).trades = ts.trades ∧ (ts.update now).head = ts.head ∧
      (ts.update now).count = ts.count :=
  -- not by `rfl`, which would compare the windows as well
  ring_of_windows ts _

theorem Follows.update (h : ts.Follows log) {now : TimePoint} (hsafe : log.Safe (.update now)) :
    (ts.update now).Follows (log.step (.update now)) := by
  obtain ⟨hslots, hhead, hcount⟩ := ts.update_ring now
  constructor
  case slots =>
    rw [hslots, TradeLog.step_update_seen]
    exact h.slots
  case head =>
    rw [hhead, TradeLog.step_update_seen]
    exact h.head
  case count =>
    rw [hcount, TradeLog.step_update_seen]
    exact h.count
  case shows =>
    intro len
    have hevict := (h.shows len).evict h.slots (hsafe len).1
    rw [← h.head] at hevict
    exact hevict

theorem Follows.step (h : ts.Follows log) {op : StreamOp} (hsafe : log.Safe op) :
    (ts.step op).Follows (log.step op) := by
  cases op with
  | onTrade t => exact h.onTrade hsafe
  | update now => exact h.update hsafe

theorem Follows.run (h : ts.Follows log) {ops : List StreamOp}
    (hsafe : Runs.Along TradeLog.step TradeLog.Safe log ops) :
    (ts.run ops).Follows (log.run ops) := by
  induction ops generalizing ts log with
  | nil => exact h
  | cons op ops ih => exact ih (h.step hsafe.1) hsafe.2

end TradeStream

/-! ## What the log holds -/

/-- The trades of a list of calls. -/
def StreamOp.trade? : StreamOp → Option Trade
  | .onTrade t => some t
  | .update _ => none

/-- The trades among the calls. -/
def tradesOf (ops : List StreamOp) : List Trade := ops.filterMap StreamOp.trade?

/-- The times of the updates. -/
def StreamOp.now? : StreamOp → Option TimePoint
  | .onTrade _ => none
  | .update now => some now

/-- The time of a call's trade, or of an update. -/
def StreamOp.time : StreamOp → TimePoint
  | .onTrade t => t.timestamp
  | .update now => now

/-- The times of the updates among the calls. -/
def updateTimes (ops : List StreamOp) : List TimePoint := ops.filterMap StreamOp.now?

/-- The volume of a side among the newest `kMaxTrades` trades that are not too old at `now`. -/
def volumeWithin (side : Side) (len : WindowLength) (now : TimePoint) (trades : List Trade) : ℚ :=
  volume side ((newest trades).filter (fun t => decide (now - t.timestamp ≤ len.duration)))

namespace TradeLog

/-- Of the newest trades, a window has lost those that are too old for every update still to come. -/
def Lost (log : TradeLog) (future : List TimePoint) : Prop :=
  ∀ len, ∃ lost, newest log.seen = lost ++ log.queue len ∧
    ∀ t ∈ lost, ∀ now ∈ future, VolumeWindow.expired len.duration now t = true

variable {log : TradeLog} {future : List TimePoint}

theorem Lost.onTrade (h : log.Lost future) (t : Trade) : (log.step (.onTrade t)).Lost future := by
  intro len
  obtain ⟨lost, hnewest, hlost⟩ := h len
  obtain ⟨n, hn⟩ := RingBuffer.rtake_append lost (log.queue len ++ [t]) kMaxTrades
  refine ⟨lost.drop n, ?_, fun t' ht' => hlost t' (List.mem_of_mem_drop ht')⟩
  have hconcat : newest (log.seen ++ [t]) = newest (newest log.seen ++ [t]) :=
    RingBuffer.rtake_concat ..
  simp only [TradeLog.step]
  rw [hconcat, hnewest, List.append_assoc]
  exact hn

theorem expired_mono {len now now' : TimePoint} {t : Trade} (hle : now ≤ now')
    (h : VolumeWindow.expired len now t = true) : VolumeWindow.expired len now' t = true := by
  unfold VolumeWindow.expired at h ⊢
  rw [decide_eq_true_eq] at h ⊢
  exact h.trans_le (sub_le_sub_right hle _)

theorem Lost.update {now : TimePoint} (h : log.Lost (now :: future))
    (hlater : ∀ now' ∈ future, now ≤ now') : (log.step (.update now)).Lost future := by
  intro len
  obtain ⟨lost, hnewest, hlost⟩ := h len
  refine ⟨lost ++ (log.queue len).takeWhile (VolumeWindow.expired len.duration now), ?_, ?_⟩
  · show newest log.seen = _ ++ (log.queue len).dropWhile _
    rw [List.append_assoc, List.takeWhile_append_dropWhile, hnewest]
  · intro t ht now' hnow'
    rcases List.mem_append.1 ht with ht | ht
    · exact hlost t ht now' (List.mem_cons_of_mem _ hnow')
    · exact expired_mono (hlater now' hnow') (List.mem_takeWhile_imp ht)

theorem lost_run {ops : List StreamOp} {more : List TimePoint}
    (hmono : (updateTimes ops ++ more).Pairwise (· ≤ ·)) (h : log.Lost (updateTimes ops ++ more)) :
    (log.run ops).Lost more := by
  induction ops generalizing log with
  | nil => exact h
  | cons op ops ih =>
      cases op with
      | onTrade t => exact ih hmono (h.onTrade t)
      | update now =>
          have hcons : ((now :: updateTimes ops) ++ more).Pairwise (· ≤ ·) := hmono
          rw [List.cons_append, List.pairwise_cons] at hcons
          exact ih hcons.2 (Lost.update h hcons.1)

theorem run_seen (log : TradeLog) (ops : List StreamOp) :
    (log.run ops).seen = log.seen ++ tradesOf ops := by
  induction ops generalizing log with
  | nil => exact (List.append_nil _).symm
  | cons op ops ih =>
      show ((log.step op).run ops).seen = _
      rw [ih]
      cases op with
      | onTrade t => exact List.append_assoc ..
      | update now => rfl

theorem lost_init (future : List TimePoint) : ({} : TradeLog).Lost future :=
  fun _ => ⟨[], rfl, by simp⟩

/-- What `dropWhile` leaves is all that fails `p`, if nothing behind it passes `p`. -/
theorem filter_not_eq_dropWhile {α : Type} {p : α → Bool} {l l' : List α}
    (hlost : ∀ x ∈ l, p x = true) (hkept : ∀ x ∈ l'.dropWhile p, p x = false) :
    (l ++ l').filter (fun x => !p x) = l'.dropWhile p := by
  have hgone {l : List α} (hl : ∀ x ∈ l, p x = true) : l.filter (fun x => !p x) = [] := by
    rw [List.filter_eq_nil_iff]
    intro x hx
    simp [hl x hx]
  have hrest : (l'.dropWhile p).filter (fun x => !p x) = l'.dropWhile p := by
    rw [List.filter_eq_self]
    intro x hx
    simp [hkept x hx]
  rw [List.filter_append, hgone hlost, List.nil_append]
  conv_lhs => rw [← List.takeWhile_append_dropWhile (p := p) (l := l')]
  rw [List.filter_append, hgone (fun x hx => List.mem_takeWhile_imp hx), List.nil_append, hrest]

/-- After a safe update a window holds exactly the trades that are not too old. -/
theorem queue_eq_filter {now : TimePoint} (h : log.Lost [now]) (hsafe : log.Safe (.update now))
    (len : WindowLength) :
    (log.step (.update now)).queue len =
      (newest log.seen).filter (fun t => decide (now - t.timestamp ≤ len.duration)) := by
  obtain ⟨lost, hnewest, hlost⟩ := h len
  have hyoung : (fun t : Trade => decide (now - t.timestamp ≤ len.duration)) =
      fun t => !VolumeWindow.expired len.duration now t := by
    funext t
    rw [VolumeWindow.expired, ← decide_not, decide_eq_decide, not_lt]
  show (log.queue len).dropWhile (VolumeWindow.expired len.duration now) = _
  rw [hnewest, hyoung,
    filter_not_eq_dropWhile (fun t ht => hlost t ht now (List.mem_singleton_self _)) (hsafe len).2]

end TradeLog

/-! ## The volumes -/

namespace TradeStream

/-- After safe calls whose updates come in order of time, the last one an update, each volume is that
    of the trades of its side that are young enough among the newest `kMaxTrades`. -/
theorem run_volumes (ops : List StreamOp) (now : TimePoint)
    (hmono : (updateTimes (ops ++ [.update now])).Pairwise (· ≤ ·))
    (hsafe : Runs.Along TradeLog.step TradeLog.Safe {} (ops ++ [.update now]))
    (len : WindowLength) :
    ((({} : TradeStream).run (ops ++ [.update now])).windows len).buyVol =
        volumeWithin .buy len now (tradesOf ops) ∧
      ((({} : TradeStream).run (ops ++ [.update now])).windows len).sellVol =
        volumeWithin .sell len now (tradesOf ops) := by
  have hfollows := follows_init.run hsafe
  have hlog : TradeLog.run {} (ops ++ [.update now]) = (TradeLog.run {} ops).step (.update now) :=
    List.foldl_append
  have htimes : updateTimes (ops ++ [.update now]) = updateTimes ops ++ [now] :=
    List.filterMap_append
  rw [htimes] at hmono
  have hlost := TradeLog.lost_run hmono (TradeLog.lost_init _)
  have hqueue := TradeLog.queue_eq_filter hlost (Runs.along_append.1 hsafe).2.1 len
  rw [TradeLog.run_seen] at hqueue
  have hsums := (hfollows.shows len).sums
  rw [hlog, hqueue] at hsums
  exact ⟨hsums.buy, hsums.sell⟩

/-- Three trades, ten, three and half a second before the update. -/
theorem run_volumes_threeTrades :
    let ops : List StreamOp := [.onTrade ⟨100, 4, .buy, 0⟩, .onTrade ⟨100, 2, .sell, 7 * nsPerSec⟩,
      .onTrade ⟨100, 1, .buy, 9500000000⟩]
    ((({} : TradeStream).run (ops ++ [.update (10 * nsPerSec)])).windows .w30s).buyVol =
        volumeWithin .buy .w30s (10 * nsPerSec) (tradesOf ops) ∧
      ((({} : TradeStream).run (ops ++ [.update (10 * nsPerSec)])).windows .w30s).sellVol =
        volumeWithin .sell .w30s (10 * nsPerSec) (tradesOf ops) := by
  intro ops
  have hsafe : Runs.Along TradeLog.step TradeLog.Safe {} (ops ++ [.update (10 * nsPerSec)]) := by
    refine ⟨fun hfull => ?_, fun hfull => ?_, fun hfull => ?_, fun len => ?_, trivial⟩
    · exact absurd hfull (by decide)
    · exact absurd hfull (by decide +kernel)
    · exact absurd hfull (by decide +kernel)
    · cases len <;> decide +kernel
  exact run_volumes ops _ (by decide +kernel) hsafe .w30s

/-! ## A ring full of old trades -/

/-- Trades that fit into the ring stay there, and in each window. -/
theorem follows_onTrades {trades : List Trade} (h : trades.length ≤ kMaxTrades) :
    (({} : TradeStream).run (trades.map .onTrade)).Follows
      { seen := trades, queue := fun _ => trades } := by
  induction trades using List.reverseRecOn with
  | nil => exact follows_init
  | append_singleton trades t ih =>
      have hlen : (trades ++ [t]).length = trades.length + 1 := List.length_append
      rw [hlen] at h
      have hroom : ¬ kMaxTrades ≤ trades.length := not_le.2 h
      have hstep := (ih (Nat.le_of_succ_le h)).onTrade (t := t) (fun hfull => absurd hfull hroom)
      have hqueue : newest (trades ++ [t]) = trades ++ [t] :=
        RingBuffer.rtake_of_length_le (hlen.trans_le h)
      simp only [TradeLog.step, hqueue] at hstep
      rw [List.map_append, run, List.foldl_append]
      exact hstep

/-- An update takes a window that fills the ring for an empty one. -/
theorem update_of_full {ts : TradeStream} {log : TradeLog} (h : ts.Follows log) {len : WindowLength}
    (hfull : (log.queue len).length = kMaxTrades) (now : TimePoint) :
    (ts.update now).windows len = ts.windows len := by
  have hdistance := (h.shows len).isWindow.distance_eq kMaxTrades_pos
  rw [← h.head, if_pos hfull] at hdistance
  simp only [update, hdistance]
  rfl

theorem volume_replicate_buy (n : ℕ) (t : Trade) (h : t.side = .buy) :
    volume .buy (List.replicate n t) = n * t.size := by
  rw [volume, List.filter_eq_self.2, List.map_replicate, List.sum_replicate, nsmul_eq_mul]
  intro t' ht'
  rw [List.eq_of_mem_replicate ht', decide_eq_true h]

/-- `kMaxTrades` trades at once, and 31 seconds later none of them is gone. -/
theorem oldTrades_counted :
    ¬ ∀ (ops : List StreamOp) (now : TimePoint),
        ((ops ++ [StreamOp.update now]).map StreamOp.time).Pairwise (· ≤ ·) → ∀ len : WindowLength,
          ((({} : TradeStream).run (ops ++ [.update now])).windows len).buyVol =
              volumeWithin .buy len now (tradesOf ops) ∧
            ((({} : TradeStream).run (ops ++ [.update now])).windows len).sellVol =
              volumeWithin .sell len now (tradesOf ops) := by
  intro hall
  obtain ⟨n, hn⟩ : ∃ n, n = kMaxTrades := ⟨_, rfl⟩
  let t : Trade := ⟨100, 1, .buy, 0⟩
  have hlen : (List.replicate n t).length = kMaxTrades := List.length_replicate.trans hn
  have hfollows := follows_onTrades hlen.le
  have htimes : (((List.replicate n t).map StreamOp.onTrade ++
      [StreamOp.update (31 * nsPerSec)]).map StreamOp.time).Pairwise (· ≤ ·) := by
    rw [List.map_append, List.map_replicate, List.map_replicate, List.pairwise_append]
    refine ⟨List.pairwise_replicate.2 (Or.inr le_rfl), List.pairwise_singleton _ _, ?_⟩
    intro a ha b hb
    rw [List.eq_of_mem_replicate ha, List.mem_singleton.1 hb]
    decide
  have hbuy := (hall _ _ htimes .w30s).1
  -- the code still counts every trade
  have hcode : ((({} : TradeStream).run ((List.replicate n t).map StreamOp.onTrade ++
      [StreamOp.update (31 * nsPerSec)])).windows .w30s).buyVol = n * t.size := by
    rw [run, List.foldl_append]
    show (((({} : TradeStream).run ((List.replicate n t).map .onTrade)).update
      (31 * nsPerSec)).windows .w30s).buyVol = _
    rw [update_of_full hfollows hlen, (hfollows.shows .w30s).sums.buy]
    exact volume_replicate_buy n t rfl
  -- no trade is young enough
  have hspec : volumeWithin .buy .w30s (31 * nsPerSec)
      (tradesOf ((List.replicate n t).map StreamOp.onTrade)) = 0 := by
    have htrades : tradesOf ((List.replicate n t).map StreamOp.onTrade) = List.replicate n t := by
      rw [tradesOf, List.filterMap_map]
      exact List.filterMap_some
    rw [volumeWithin, htrades, newest, RingBuffer.rtake_of_length_le hlen.le, List.filter_eq_nil_iff.2]
    · rfl
    · intro t' ht'
      rw [List.eq_of_mem_replicate ht']
      decide
  rw [hcode, hspec, hn] at hbuy
  revert hbuy
  decide +kernel

end TradeStream

end TradeBot
