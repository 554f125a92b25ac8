import Mathlib.Algebra.Order.BigOperators.Group.List
import TradeBot.Domain.Types
import TradeBot.Lib.Cusum
import TradeBot.Lib.RingBuffer
import TradeBot.Lib.Runs

set_option autoImplicit false

/-! # The drift of the local clock

`control/ClockDriftMonitor.cpp` asks time servers for the time, with the client of
`control/SntpClient.cpp`, averages how far the local clock is ahead, and calls the kill switch once if
the average gets too large. The slots of the average are zero at the start.

The window is an array with an index, and what counts are its values: the newest samples, with zeros
for those that have not come yet (`Tracks`). The monitor keeps one flag, that the switch was called,
and clears it when the average is small again. Both are functions of the samples so far, which gives
what a poll does next (`kills_once_per_episode`).

On top of that stand two statements about clocks. An answer that took little time determines the
offset (`query_mem`), so an average of truthful answers is near the true drift: a small drift raises
no alarm (`no_false_alarm`), a large one always does (`drift_noticed`). Seconds since 1900 are read
as of the era that the source assumes, and the statements cover both sides of its end in 2036. -/

namespace TradeBot

open Runs

/-! ## The client -/

/-- An answer that was received: the local times of sending and receiving, and the transmit timestamp. -/
structure SntpExchange where
  t1 : ℤ
  t4 : ℤ
  secondsHost : ℕ
  fraction : ℕ

namespace SntpExchange

variable (e : SntpExchange)

/-- Seconds since 1900. The first bit is not set in the era after 2036. -/
def seconds1900 : ℕ := if e.secondsHost.testBit 31 then e.secondsHost else e.secondsHost + 2 ^ 32

/-- The time that an answer carries, in nanoseconds since 1970. -/
def serverTime : ℤ :=
  ((e.seconds1900 : ℤ) - 2208988800) * nsPerSec + (e.fraction * 10 ^ 9 / 2 ^ 32 : ℕ)

/-- `SntpClient::query`, with half of the round trip added. -/
def query : ℤ := e.serverTime + (e.t4 - e.t1).tdiv 2

end SntpExchange

/-! ## The monitor -/

/-- `ClockDriftMonitor::Config`. -/
structure ClockConfig where
  sources : List String := ["pool.ntp.org", "time.google.com"]
  warnDriftMs : ℤ := 200
  maxClockDriftMs : ℤ := 500
  movingAvgWindow : ℕ := 2

/-- The monitor, with the calls that it has made. -/
structure ClockDriftMonitor where
  cfg : ClockConfig
  window : List ℤ
  windowIdx : ℕ := 0
  driftMs : ℤ := 0
  killTriggered : Bool := false
  /-- A callback is set. -/
  killCb : Bool := false
  /-- The calls of the callback, with the drift that they report. -/
  kills : List ℤ := []

namespace ClockDriftMonitor

/-- The constructor. -/
def init (cfg : ClockConfig) : ClockDriftMonitor where
  cfg := cfg
  window := List.replicate cfg.movingAvgWindow 0

variable (m : ClockDriftMonitor)

/-- `update_average_`. -/
def updateAverage (sample : ℤ) : ClockDriftMonitor :=
  if m.window = [] then { m with driftMs := sample }
  else
    let window := m.window.set m.windowIdx sample
    { m with
      window := window
      windowIdx := (m.windowIdx + 1) % window.length
      driftMs := window.sum.tdiv window.length }

/-- `evaluate_thresholds_locked_`. -/
def evaluateThresholds : ClockDriftMonitor :=
  if m.cfg.maxClockDriftMs ≤ |m.driftMs| then
    if m.killTriggered = false ∧ m.killCb then
      { m with killTriggered := true, kills := m.kills ++ [m.driftMs] }
    else m
  else if m.cfg.warnDriftMs ≤ |m.driftMs| then m
  else { m with killTriggered := false }

/-- What the sources answer to a poll, and the local time afterwards. -/
structure Poll where
  answers : String → Option SntpExchange
  now : ℤ

/-- The answer that counts: that of the first source that gives one. -/
def Poll.answer? (cfg : ClockConfig) (poll : Poll) : Option SntpExchange :=
  cfg.sources.findSome? poll.answers

/-- How far the local clock is ahead, in whole milliseconds. -/
def sampleMs (e : SntpExchange) (now : ℤ) : ℤ := (now - e.query).tdiv 1000000

/-- `tick_once`. -/
def tickOnce (poll : Poll) : ClockDriftMonitor :=
  match poll.answer? m.cfg with
  | none => m
  | some e => (m.updateAverage (sampleMs e poll.now)).evaluateThresholds

/-- The answers that the polls get, with the local time afterwards. -/
def answered (cfg : ClockConfig) (polls : List Poll) : List (SntpExchange × ℤ) :=
  polls.filterMap fun poll => (poll.answer? cfg).map fun e => (e, poll.now)

/-- The samples of the answered polls. -/
def samples (cfg : ClockConfig) (polls : List Poll) : List ℤ :=
  (answered cfg polls).map fun a => sampleMs a.1 a.2

/-! ## The average -/

/-- The mean of the newest samples; those that are missing count as zero. -/
def smoothed (n : ℕ) (samples : List ℤ) : ℤ :=
  if n = 0 then samples.getLastD 0 else (samples.rtake n).sum.tdiv n

/-- The average after each of the samples. -/
def drifts (n : ℕ) (samples : List ℤ) : List ℤ :=
  (List.range samples.length).map fun k => smoothed n (samples.take (k + 1))

theorem drifts_concat (n : ℕ) (samples : List ℤ) (x : ℤ) :
    drifts n (samples ++ [x]) = drifts n samples ++ [smoothed n (samples ++ [x])] := by
  have hold : ∀ k ∈ List.range samples.length,
      smoothed n ((samples ++ [x]).take (k + 1)) = smoothed n (samples.take (k + 1)) := by
    intro k hk
    rw [List.take_append_of_le_length (List.mem_range.1 hk)]
  rw [drifts, List.length_append, List.length_singleton, List.range_succ, List.map_append,
    List.map_congr_left hold, List.map_singleton, List.take_of_length_le (by simp)]
  rfl

/-- The ring holds the newest samples, behind the zeros of the start. -/
structure Averages (n : ℕ) (samples : List ℤ) (m : ClockDriftMonitor) : Prop where
  length_eq : m.window.length = n
  idx_lt : 0 < n → m.windowIdx < n
  rotate_eq : m.window.rotate m.windowIdx = (List.replicate n 0 ++ samples).rtake n
  drift_eq : m.driftMs = smoothed n samples

theorem averages_init (cfg : ClockConfig) (killCb : Bool) :
    Averages cfg.movingAvgWindow [] { init cfg with killCb := killCb } where
  length_eq := List.length_replicate
  idx_lt := id
  rotate_eq := by
    rw [List.append_nil, RingBuffer.rtake_of_length_le (List.length_replicate).le]
    exact List.rotate_zero _
  drift_eq := by
    unfold smoothed
    split
    · rfl
    · rw [List.rtake_nil, List.sum_nil, Int.zero_tdiv]
      rfl

variable {m} {n : ℕ} {xs : List ℤ}

theorem Averages.updateAverage (h : Averages n xs m) (x : ℤ) :
    Averages n (xs ++ [x]) (m.updateAverage x) := by
  unfold ClockDriftMonitor.updateAverage
  by_cases hn : n = 0
  · have hempty : m.window = [] := List.eq_nil_of_length_eq_zero (h.length_eq.trans hn)
    rw [if_pos hempty]
    subst hn
    exact ⟨h.length_eq, h.idx_lt, by simp [hempty, List.rtake], by simp [smoothed]⟩
  · have hpos : 0 < n := Nat.pos_of_ne_zero hn
    have hne : m.window ≠ [] := List.ne_nil_of_length_pos (h.length_eq ▸ hpos)
    have hidx : m.windowIdx < m.window.length := h.length_eq ▸ h.idx_lt hpos
    have hrotate : (m.window.set m.windowIdx x).rotate ((m.windowIdx + 1) % n)
        = (List.replicate n 0 ++ (xs ++ [x])).rtake n := by
      rw [← h.length_eq, RingBuffer.rotate_set hidx, h.rotate_eq, h.length_eq, ← List.append_assoc,
        RingBuffer.rtake_concat_of_length_le hpos (by simp)]
    have hsum : (m.window.set m.windowIdx x).sum = ((xs ++ [x]).rtake n).sum := by
      have hzeros (l : List ℤ) : ((List.replicate n 0 ++ l).rtake n).sum = (l.rtake n).sum := by
        obtain ⟨k, hk⟩ := RingBuffer.rtake_append (List.replicate n (0 : ℤ)) l n
        rw [hk, List.sum_append, List.drop_replicate, List.sum_replicate, nsmul_zero, zero_add]
      rw [← hzeros, ← hrotate]
      exact (List.rotate_perm _ _).sum_eq.symm
    have hlength : (m.window.set m.windowIdx x).length = n := List.length_set.trans h.length_eq
    rw [if_neg hne]
    refine ⟨hlength, fun _ => ?_, ?_, ?_⟩
    · dsimp only
      rw [hlength]
      exact Nat.mod_lt _ hpos
    · dsimp only
      rw [hlength]
      exact hrotate
    · dsimp only
      rw [hlength, hsum, smoothed, if_neg hn]

/-! ## The calls of the kill switch -/

section

variable {cfg : ClockConfig} {killCb : Bool} {polls : List Poll}

/-- An average that calls for the kill switch, and one that ends the episode. -/
def exceeds (cfg : ClockConfig) (killCb : Bool) (drift : ℤ) : Bool :=
  decide (cfg.maxClockDriftMs ≤ |drift|) && killCb

/-- The drift is below both thresholds. -/
def recovers (cfg : ClockConfig) (drift : ℤ) : Bool :=
  decide (|drift| < cfg.maxClockDriftMs ∧ |drift| < cfg.warnDriftMs)

theorem not_recovers_of_exceeds {drift : ℤ} (h : exceeds cfg killCb drift = true) :
    recovers cfg drift = false := by
  have hmax : cfg.maxClockDriftMs ≤ |drift| := of_decide_eq_true (Bool.and_eq_true_iff.1 h).1
  simp [recovers, hmax]

theorem evaluateThresholds_eq :
    m.evaluateThresholds
      = { m with
          killTriggered := exceeds m.cfg m.killCb m.driftMs ||
            m.killTriggered && !recovers m.cfg m.driftMs
          kills := m.kills ++
            if exceeds m.cfg m.killCb m.driftMs && !m.killTriggered then [m.driftMs] else [] } := by
  obtain ⟨cfg, window, idx, drift, triggered, cb, kills⟩ := m
  unfold evaluateThresholds exceeds recovers
  dsimp only
  by_cases hmax : cfg.maxClockDriftMs ≤ |drift|
  · have hnot : ¬ |drift| < cfg.maxClockDriftMs := not_lt.2 hmax
    cases triggered <;> cases cb <;> simp [hmax, hnot]
  · have hlt : |drift| < cfg.maxClockDriftMs := not_le.1 hmax
    by_cases hwarn : cfg.warnDriftMs ≤ |drift|
    · have hnot : ¬ |drift| < cfg.warnDriftMs := not_lt.2 hwarn
      simp [hmax, hwarn, hnot]
    · simp [hmax, hwarn, hlt, not_le.1 hwarn]

/-- What the monitor knows of the samples so far. -/
structure Tracks (cfg : ClockConfig) (killCb : Bool) (xs : List ℤ) (m : ClockDriftMonitor) :
    Prop where
  cfg_eq : m.cfg = cfg
  killCb_eq : m.killCb = killCb
  averages : Averages cfg.movingAvgWindow xs m
  raised : Episodes.Raised (recovers cfg) (exceeds cfg killCb) (drifts cfg.movingAvgWindow xs)
    m.killTriggered
  called : m.killTriggered = true → m.kills ≠ []

/-- A monitor before its first poll. -/
def start (cfg : ClockConfig) (killCb : Bool) : ClockDriftMonitor := { init cfg with killCb := killCb }

theorem tracks_start : Tracks cfg killCb [] (start cfg killCb) where
  cfg_eq := rfl
  killCb_eq := rfl
  averages := averages_init cfg killCb
  raised := Episodes.raised_nil
  called := nofun

theorem updateAverage_same (x : ℤ) :
    (m.updateAverage x).cfg = m.cfg ∧ (m.updateAverage x).killCb = m.killCb ∧
      (m.updateAverage x).killTriggered = m.killTriggered ∧ (m.updateAverage x).kills = m.kills := by
  unfold updateAverage
  split <;> exact ⟨rfl, rfl, rfl, rfl⟩

/-- One sample: the kill switch is called if the average calls for it and nothing has in the episode. -/
theorem Tracks.sample (h : Tracks cfg killCb xs m) (x : ℤ) :
    let drift := smoothed cfg.movingAvgWindow (xs ++ [x])
    let m' := (m.updateAverage x).evaluateThresholds
    Tracks cfg killCb (xs ++ [x]) m' ∧
      m'.kills = m.kills ++
        if exceeds cfg killCb drift ∧ ∀ d ∈ Episodes.episode (recovers cfg)
            (drifts cfg.movingAvgWindow xs), exceeds cfg killCb d = false then [drift] else [] := by
  intro drift m'
  obtain ⟨hcfg, hcb, htriggered, hkills⟩ := updateAverage_same (m := m) x
  have haverages := h.averages.updateAverage x
  have hdrift : (m.updateAverage x).driftMs = drift := haverages.drift_eq
  have hm' : m' = _ := evaluateThresholds_eq
  rw [hcfg, h.cfg_eq, hcb, h.killCb_eq, htriggered, hkills, hdrift] at hm'
  have hquiet : m.killTriggered = false ↔ ∀ d ∈ Episodes.episode (recovers cfg)
      (drifts cfg.movingAvgWindow xs), exceeds cfg killCb d = false := by
    rw [← Bool.not_eq_true, show m.killTriggered = true ↔ _ from h.raised]
    simp
  constructor
  · rw [hm']
    refine ⟨rfl, rfl, ⟨haverages.length_eq, haverages.idx_lt, haverages.rotate_eq, rfl⟩, ?_, ?_⟩
    · rw [drifts_concat]
      exact h.raised.step not_recovers_of_exceeds
    · dsimp only
      have hcalled := h.called
      cases htriggered : m.killTriggered with
      | true => simp [hcalled htriggered]
      | false => cases exceeds cfg killCb drift <;> simp
  · rw [hm']
    refine congrArg (m.kills ++ ·) (if_congr ?_ rfl rfl)
    rw [Bool.and_eq_true, Bool.not_eq_true', hquiet]

theorem answered_concat (poll : Poll) :
    answered cfg (polls ++ [poll])
      = answered cfg polls ++ ((poll.answer? cfg).map fun e => (e, poll.now)).toList := by
  rw [answered, List.filterMap_append]
  cases hanswer : poll.answer? cfg <;> simp [answered, hanswer]

theorem samples_concat (poll : Poll) :
    samples cfg (polls ++ [poll])
      = samples cfg polls ++ ((poll.answer? cfg).map fun e => sampleMs e poll.now).toList := by
  rw [samples, answered_concat, List.map_append]
  cases poll.answer? cfg <;> rfl

theorem Tracks.poll (h : Tracks cfg killCb (samples cfg polls) m) (poll : Poll) :
    Tracks cfg killCb (samples cfg (polls ++ [poll])) (m.tickOnce poll) := by
  rw [samples_concat, tickOnce, h.cfg_eq]
  cases poll.answer? cfg with
  | none => simpa using h
  | some e => exact (h.sample _).1

theorem tracks_run (cfg : ClockConfig) (killCb : Bool) (polls : List Poll) :
    Tracks cfg killCb (samples cfg polls) (polls.foldl tickOnce (start cfg killCb)) := by
  induction polls using List.reverseRecOn with
  | nil => exact tracks_start
  | append_singleton polls poll ih =>
      rw [List.foldl_append]
      exact ih.poll poll

end

/-- **A poll calls the kill switch if and only if the average of the newest samples is too large, a
    callback is set, and it was not called since the average was last below both thresholds.** -/
theorem kills_once_per_episode (cfg : ClockConfig) (killCb : Bool) (polls : List Poll) (poll : Poll) :
    let m := polls.foldl tickOnce (start cfg killCb)
    let before := samples cfg polls
    (m.tickOnce poll).kills = m.kills ++
      match poll.answer? cfg with
      | none => []
      | some e =>
          let drift := smoothed cfg.movingAvgWindow (before ++ [sampleMs e poll.now])
          if exceeds cfg killCb drift ∧ ∀ d ∈ Episodes.episode (recovers cfg)
              (drifts cfg.movingAvgWindow before), exceeds cfg killCb d = false then [drift] else [] := by
  intro m before
  have htracks : Tracks cfg killCb before m := tracks_run cfg killCb polls
  rw [tickOnce, htracks.cfg_eq]
  cases poll.answer? cfg with
  | none => exact (List.append_nil _).symm
  | some e => exact (htracks.sample _).2

end ClockDriftMonitor

/-! ## How accurate a sample is -/

/-- An answer of a server whose clock showed `t` when it sent it, with the local clock ahead by
    `offset`; the way of the answer and its handling take at most the tolerance. -/
structure SntpExchange.Truthful (e : SntpExchange) (now t : ℤ) (offset tolerance : ℤ) : Prop where
  era : (2 ^ 31 : ℤ) ≤ t / nsPerSec + 2208988800 ∧
    t / nsPerSec + 2208988800 < (2 ^ 32 + 2 ^ 31 : ℤ)
  seconds_eq : (e.secondsHost : ℤ) = (t / nsPerSec + 2208988800) % (2 ^ 32 : ℤ)
  fraction_eq : (e.fraction : ℤ) = t % nsPerSec * (2 ^ 32 : ℤ) / nsPerSec
  sent_le : e.t1 ≤ t + offset
  le_received : t + offset ≤ e.t4
  received_le : e.t4 ≤ now
  tolerance_le : (now - e.t4) + (e.t4 - e.t1 + 1) / 2 + 1 ≤ tolerance

namespace SntpExchange

variable {e : SntpExchange} {now t : ℤ} {offset tolerance : ℤ}

theorem seconds1900_eq (h : e.Truthful now t offset tolerance) :
    (e.seconds1900 : ℤ) = t / nsPerSec + 2208988800 := by
  obtain ⟨hlow, hhigh⟩ := h.era
  have hseconds := h.seconds_eq
  generalize t / nsPerSec + 2208988800 = s at *
  have hlt : e.secondsHost < 2 ^ 32 := by omega
  have hbit : e.secondsHost.testBit 31 = decide (2 ^ 31 ≤ e.secondsHost) := by
    rw [Nat.testBit_eq_decide_div_mod_eq]
    exact decide_eq_decide.2 (by omega)
  rw [seconds1900, hbit]
  by_cases hfirst : 2 ^ 31 ≤ e.secondsHost
  · rw [if_pos (decide_eq_true hfirst)]
    omega
  · rw [if_neg (by simpa using hfirst)]
    push_cast
    omega

theorem serverTime_mem (h : e.Truthful now t offset tolerance) :
    t - 1 ≤ e.serverTime ∧ e.serverTime ≤ t := by
  have hfraction := h.fraction_eq
  rw [serverTime, seconds1900_eq h]
  unfold nsPerSec at *
  push_cast
  constructor <;> omega

theorem Truthful.tolerance_nonneg (h : e.Truthful now t offset tolerance) : 0 ≤ tolerance := by
  obtain ⟨_, _, _, hsent, hle, hnow, htolerance⟩ := h
  omega

/-- The local clock is found to be ahead by the offset, up to the tolerance. -/
theorem query_mem (h : e.Truthful now t offset tolerance) :
    offset - tolerance ≤ now - e.query ∧ now - e.query ≤ offset + tolerance := by
  obtain ⟨hlow, hhigh⟩ := serverTime_mem h
  obtain ⟨_, _, _, hsent, hle, hnow, htolerance⟩ := h
  rw [query, Int.tdiv_eq_ediv_of_nonneg (by omega)]
  constructor <;> omega

end SntpExchange

/-! ## Alarms and the true drift -/

theorem tdiv_lt_of_lt_mul {a b c : ℤ} (hb : 0 < b) (hc : 0 < c) (h : a < b * c) : a.tdiv c < b := by
  rcases le_or_gt 0 a with ha | ha
  · rw [Int.tdiv_eq_ediv_of_nonneg ha]
    exact Int.ediv_lt_of_lt_mul hc h
  · have hneg : 0 ≤ (-a).tdiv c := Int.tdiv_nonneg (by omega) hc.le
    rw [Int.neg_tdiv] at hneg
    omega

namespace ClockDriftMonitor

variable {n : ℕ} {xs : List ℤ} {b : ℤ}

theorem smoothed_neg : smoothed n (xs.map fun x => -x) = -smoothed n xs := by
  unfold smoothed
  split
  · cases xs using List.reverseRecOn with
    | nil => rfl
    | append_singleton xs x => simp
  · have hsum (l : List ℤ) : (l.map fun x => -x).sum = -l.sum := by
      induction l with
      | nil => rfl
      | cons x l ih => rw [List.map_cons, List.sum_cons, List.sum_cons, ih, neg_add]
    rw [RingBuffer.map_rtake, hsum, Int.neg_tdiv]

theorem smoothed_lt (hb : 0 < b) (h : ∀ x ∈ xs, x < b) : smoothed n xs < b := by
  unfold smoothed
  split
  · cases xs using List.reverseRecOn with
    | nil => exact hb
    | append_singleton xs x => simpa using h x (by simp)
  · rename_i hn
    have hpos : (0 : ℤ) < n := by omega
    have hsum : (xs.rtake n).sum ≤ (xs.rtake n).length • (b - 1) :=
      List.sum_le_card_nsmul _ _ fun x hx => Int.le_sub_one_of_lt (h x (List.mem_of_mem_drop hx))
    have hlength : ((xs.rtake n).length : ℤ) ≤ n := by
      rw [List.rtake, List.length_drop]
      omega
    refine tdiv_lt_of_lt_mul hb hpos ?_
    rw [nsmul_eq_mul] at hsum
    nlinarith

theorem abs_smoothed_lt (hb : 0 < b) (h : ∀ x ∈ xs, |x| < b) : |smoothed n xs| < b := by
  rw [abs_lt, neg_lt, ← smoothed_neg]
  refine ⟨smoothed_lt hb fun x hx => ?_, smoothed_lt hb fun x hx => (abs_lt.1 (h x hx)).2⟩
  obtain ⟨y, hy, rfl⟩ := List.mem_map.1 hx
  exact neg_lt.1 (abs_lt.1 (h y hy)).1

theorem le_smoothed (hn : 0 < n) (hlength : n ≤ xs.length) (h : ∀ x ∈ xs.rtake n, b ≤ x) :
    b ≤ smoothed n xs := by
  have hlen : (xs.rtake n).length = n := by
    rw [List.rtake, List.length_drop]
    omega
  have hsum : (xs.rtake n).length • b ≤ (xs.rtake n).sum := List.card_nsmul_le_sum _ _ h
  rw [hlen, nsmul_eq_mul, mul_comm] at hsum
  rw [smoothed, if_neg hn.ne']
  exact Int.le_tdiv_of_mul_le (by exact_mod_cast hn) hsum

section

variable {e : SntpExchange} {now t offset tolerance : ℤ}

theorem abs_sampleMs_lt (h : e.Truthful now t offset tolerance)
    (hoffset : |offset| + tolerance < b * 1000000) : |sampleMs e now| < b := by
  obtain ⟨hlow, hhigh⟩ := SntpExchange.query_mem h
  obtain ⟨hleft, hright⟩ := abs_le.1 (le_refl |offset|)
  have htolerance := h.tolerance_nonneg
  have hnonneg := abs_nonneg offset
  have hb : 0 < b := by omega
  rw [sampleMs, abs_lt, neg_lt, ← Int.neg_tdiv]
  constructor <;> refine tdiv_lt_of_lt_mul hb (by norm_num) (by omega)

theorem le_mul_sampleMs (h : e.Truthful now t offset tolerance) {side : ℤ}
    (hside : side = 1 ∨ side = -1) (hoffset : b * 1000000 + tolerance ≤ side * offset) :
    b ≤ side * sampleMs e now := by
  obtain ⟨hlow, hhigh⟩ := SntpExchange.query_mem h
  unfold sampleMs
  rcases hside with rfl | rfl
  · rw [one_mul]
    exact Int.le_tdiv_of_mul_le (by norm_num) (by omega)
  · rw [neg_one_mul, ← Int.neg_tdiv]
    exact Int.le_tdiv_of_mul_le (by norm_num) (by omega)

end

theorem le_abs_smoothed (hn : 0 < n) (hlength : n ≤ xs.length) {side : ℤ}
    (hside : side = 1 ∨ side = -1) (h : ∀ x ∈ xs.rtake n, b ≤ side * x) : b ≤ |smoothed n xs| := by
  rcases hside with rfl | rfl
  · exact (le_smoothed hn hlength fun x hx => by simpa using h x hx).trans (le_abs_self _)
  · rw [← abs_neg, ← smoothed_neg]
    refine (le_smoothed hn (by simpa using hlength) fun x hx => ?_).trans (le_abs_self _)
    rw [RingBuffer.map_rtake] at hx
    obtain ⟨y, hy, rfl⟩ := List.mem_map.1 hx
    simpa using h y hy

variable {cfg : ClockConfig} {killCb : Bool} {polls : List Poll} {tolerance : ℤ}

/-- **No alarm is false: while the true drift stays below the limit, by more than the tolerance of the
    answers, the kill switch is not called.** -/
theorem no_false_alarm
    (h : ∀ a ∈ answered cfg polls, ∃ t offset, a.1.Truthful a.2 t offset tolerance ∧
      |offset| + tolerance < cfg.maxClockDriftMs * 1000000) :
    (polls.foldl tickOnce (start cfg killCb)).kills = [] := by
  induction polls using List.reverseRecOn with
  | nil => rfl
  | append_singleton polls poll ih =>
      have htracks := tracks_run cfg killCb polls
      rw [answered_concat] at h
      have hkills := ih fun a ha => h a (List.mem_append_left _ ha)
      rw [List.foldl_append, List.foldl_cons, List.foldl_nil, tickOnce, htracks.cfg_eq]
      cases hanswer : poll.answer? cfg with
      | none => exact hkills
      | some e =>
          dsimp only
          rw [(htracks.sample _).2, hkills, List.nil_append, if_neg]
          rintro ⟨hexceeds, -⟩
          have hmax : cfg.maxClockDriftMs ≤ _ := of_decide_eq_true (Bool.and_eq_true_iff.1 hexceeds).1
          have hlt (a) (ha : a ∈ answered cfg polls ++ [(e, poll.now)]) :
              |sampleMs a.1 a.2| < cfg.maxClockDriftMs := by
            rw [hanswer] at h
            obtain ⟨t, offset, htruthful, hoffset⟩ := h a ha
            exact abs_sampleMs_lt htruthful hoffset
          have hpos : 0 < cfg.maxClockDriftMs :=
            (abs_nonneg _).trans_lt (hlt (e, poll.now) (by simp))
          refine hmax.not_gt (abs_smoothed_lt hpos fun x hx => ?_)
          rcases List.mem_append.1 hx with hx | hx
          · obtain ⟨a, ha, rfl⟩ := List.mem_map.1 hx
            exact hlt a (List.mem_append_left _ ha)
          · rw [List.mem_singleton.1 hx]
            exact hlt (e, poll.now) (by simp)

/-- A poll at the second `10 ^ 9` that is answered at once, with the local clock ahead by `offset`. -/
def atOnce (offset : ℤ) : Poll where
  answers _ := some
    { t1 := 10 ^ 18 + offset, t4 := 10 ^ 18 + offset, secondsHost := 3208988800, fraction := 0 }
  now := 10 ^ 18 + offset

theorem truthful_atOnce (offset : ℤ) :
    ∀ a ∈ answered {} [atOnce offset, atOnce offset], a.1.Truthful a.2 (10 ^ 18) offset 1 := by
  intro a ha
  obtain rfl : a = _ := by simpa [answered, atOnce, Poll.answer?] using ha
  constructor <;> simp [nsPerSec]

theorem no_false_alarm_tenth :
    ([atOnce 100000000, atOnce 100000000].foldl tickOnce (start {} true)).kills = [] :=
  no_false_alarm fun a ha => ⟨10 ^ 18, 100000000, truthful_atOnce 100000000 a ha, by decide⟩

/-- **No drift goes unnoticed: once the newest answers fill the window and all of them are from clocks
    that the local one is off by the limit and the tolerance, to the same side, the kill switch was
    called.** -/
theorem drift_noticed (hcb : killCb = true) (hn : 0 < cfg.movingAvgWindow)
    (hlength : cfg.movingAvgWindow ≤ (answered cfg polls).length) {side : ℤ}
    (hside : side = 1 ∨ side = -1)
    (h : ∀ a ∈ (answered cfg polls).rtake cfg.movingAvgWindow, ∃ t offset,
      a.1.Truthful a.2 t offset tolerance ∧
        cfg.maxClockDriftMs * 1000000 + tolerance ≤ side * offset) :
    let m := polls.foldl tickOnce (start cfg killCb)
    m.killTriggered = true ∧ m.kills ≠ [] := by
  intro m
  have htracks := tracks_run cfg killCb polls
  set xs := samples cfg polls
  have hxs : xs.length = (answered cfg polls).length := List.length_map _
  have hrtake : xs.rtake cfg.movingAvgWindow
      = ((answered cfg polls).rtake cfg.movingAvgWindow).map fun a => sampleMs a.1 a.2 :=
    RingBuffer.map_rtake _ _ _
  have hexceeds : exceeds cfg killCb (smoothed cfg.movingAvgWindow xs) = true := by
    refine Bool.and_eq_true_iff.2 ⟨decide_eq_true ?_, hcb⟩
    refine le_abs_smoothed hn (hxs ▸ hlength) hside fun x hx => ?_
    rw [hrtake] at hx
    obtain ⟨a, ha, rfl⟩ := List.mem_map.1 hx
    obtain ⟨t, offset, htruthful, hoffset⟩ := h a ha
    exact le_mul_sampleMs htruthful hside hoffset
  have hne : xs ≠ [] := List.ne_nil_of_length_pos (by omega)
  obtain ⟨ys, x, hlast⟩ := List.eq_nil_or_concat xs |>.resolve_left hne
  have hraised := htracks.raised
  rw [hlast, List.concat_eq_append, drifts_concat] at hraised
  rw [hlast, List.concat_eq_append] at hexceeds
  have htriggered := hraised.of_last not_recovers_of_exceeds hexceeds
  exact ⟨htriggered, htracks.called htriggered⟩

theorem drift_noticed_second_poll :
    let m := [atOnce 700000000, atOnce 700000000].foldl tickOnce (start {} true)
    m.killTriggered = true ∧ m.kills ≠ [] :=
  drift_noticed rfl (by decide) (by decide) (.inl rfl) fun a ha =>
    ⟨10 ^ 18, 700000000, truthful_atOnce 700000000 a (List.mem_of_mem_drop ha), by decide⟩

end ClockDriftMonitor

end TradeBot
