import TradeBot.Lib.FirstMaximum
import TradeBot.MarketData.KalmanLagEstimator
import TradeBot.Utils.Welford

set_option autoImplicit false

/-! # LeaderTracker

`marketdata/LeaderTracker.cpp`: correlation and lag of a follower and its leader. The lag is observed as
the shift of the two windows with the greatest correlation. What the tracker answers is within its bounds
after any samples (`updates_within`).

The windows and the accumulator see the same samples, the windows only the last ones. Every answer is
that of one of the parts: the correlation comes from the accumulator, lag and confidence from the
filter. So each bound is a bound of the part, and `updates` has only to show that the parts are
reached by their own calls. -/

namespace TradeBot

/-- The length of the windows and of the shifts, the time between two samples, and the alarm for a
    correlation that is lost. -/
structure LeaderTrackerConfig (K : Type*) where
  xcorrWindow : ℕ := 100
  xcorrMaxLagSteps : ℕ := 10
  dtSec : K
  cusumWarmup : ℕ := 30
  cusumBaseline : K
  cusumDrift : K
  cusumThreshold : K
  kalman : KalmanConfig K

/-- The two windows are filled and emptied together. -/
structure LeaderTracker (K : Type*) [Field K] where
  cfg : LeaderTrackerConfig K
  corr : WelfordCorrelation K := {}
  wLeader : List K := []
  wFollower : List K := []
  kalman : KalmanLagEstimator K
  n : ℕ := 0
  cusumMinus : K := 0
  cusumAlarm : Bool := false
  paired : wLeader.length = wFollower.length

namespace LeaderTracker

variable {K : Type*} [Field K]

/-- A tracker without samples. -/
def create (cfg : LeaderTrackerConfig K) : LeaderTracker K where
  cfg := cfg
  kalman := .create cfg.kalman
  paired := rfl

/-- The lag is the one of the filter. -/
def lagMs (st : LeaderTracker K) : K := st.kalman.lagMs

/-- The alarm is taken back from outside. -/
def resetCusum (st : LeaderTracker K) : LeaderTracker K :=
  { st with cusumMinus := 0, cusumAlarm := false }

/-- The windows with one more pair. -/
def push (st : LeaderTracker K) (leaderPrice followerPrice : K) : LeaderTracker K :=
  let full := st.wLeader.length = st.cfg.xcorrWindow
  { st with
    corr := st.corr.update (leaderPrice, followerPrice)
    n := st.n + 1
    wLeader := (if full then st.wLeader.drop 1 else st.wLeader) ++ [leaderPrice]
    wFollower := (if full then st.wFollower.drop 1 else st.wFollower) ++ [followerPrice]
    paired := by
      have hpaired := st.paired
      split <;> simp [hpaired] }

/-! ## The observation of the lag -/

/-- The samples of a window without their mean. -/
def centred (v : List K) : List K := v.map (· - Moments.mean v)

/-- `sxy`, `sxx` and `syy` of one shift. -/
def crossSums (ps : List (K × K)) : K × K × K :=
  ps.foldl (fun (sxy, sxx, syy) (dx, dy) => (sxy + dx * dy, sxx + dx * dx, syy + dy * dy)) (0, 0, 0)

/-- What the inner loop reads at a shift. For a negative shift only the bound of the loop moves. -/
def readPairs (dl df : List K) (shift : ℤ) : List (K × K) :=
  let lo := (max 0 shift).toNat
  let hi := df.length - (max 0 (-shift)).toNat
  (List.range' lo (hi - lo)).map fun i => (dl.getD (i - (max 0 shift).toNat) 0, df.getD i 0)

/-- From `-maxLag` up to `maxLag`. -/
def shifts (maxLag : ℕ) : List ℤ := (List.range (2 * maxLag + 1)).map fun n : ℕ => (n : ℤ) - maxLag

variable [LinearOrder K]

/-- `r` of one shift, where the shift is not passed over. -/
def shiftCorrelation (R : SquareRoot K) (dl df : List K) (shift : ℤ) : Option K :=
  let lo := (max 0 shift).toNat
  let hi := df.length - (max 0 (-shift)).toNat
  if hi ≤ lo + 4 then none
  else
    let (sxy, sxx, syy) := crossSums (readPairs dl df shift)
    if sxx ≤ 1 / ((10 ^ 18 : ℕ) : K) ∨ syy ≤ 1 / ((10 ^ 18 : ℕ) : K) then none
    else some (sxy / R.sqrt (sxx * syy))

/-- The shift of the greatest correlation, in milliseconds. The search starts below all correlations.
    -/
def recomputeLagObservation (R : SquareRoot K) (st : LeaderTracker K) : K :=
  let dl := centred st.wLeader
  let df := centred st.wFollower
  let best := (shifts st.cfg.xcorrMaxLagSteps).foldl
    (FirstMaximum.step (shiftCorrelation R dl df)) (-((2 : ℕ) : K), 0)
  (best.2 : K) * st.cfg.dtSec * ((1000 : ℕ) : K)

/-! ## Updates -/

/-- The filter takes an observation once the windows hold enough samples for the largest shift. -/
def observe (R : SquareRoot K) (st : LeaderTracker K) : LeaderTracker K :=
  if 2 * st.cfg.xcorrMaxLagSteps + 4 ≤ st.wLeader.length then
    { st with kalman := st.kalman.update st.cfg.dtSec (st.recomputeLagObservation R) }
  else st

/-- The correlation of all samples, not only of those in the windows. -/
def correlation (R : SquareRoot K) (st : LeaderTracker K) : K := st.corr.correlation R

/-- The confidence is the one of the filter. -/
def confidence (st : LeaderTracker K) : K := st.kalman.confidence

/-- The sum of what the correlation falls short of its baseline, and the alarm it raises. -/
def monitor (R : SquareRoot K) (st : LeaderTracker K) : LeaderTracker K :=
  if st.cfg.cusumWarmup < st.n then
    let c := st.correlation R
    let cusum := max 0 (st.cusumMinus + (st.cfg.cusumBaseline - c - st.cfg.cusumDrift))
    if st.cfg.cusumThreshold < cusum then { st with cusumMinus := 0, cusumAlarm := true }
    else if st.cfg.cusumBaseline ≤ c ∧ cusum = 0 then
      { st with cusumMinus := cusum, cusumAlarm := false }
    else { st with cusumMinus := cusum }
  else st

/-- A sample of both prices. -/
def update (R : SquareRoot K) (st : LeaderTracker K) (leaderPrice followerPrice : K) :
    LeaderTracker K :=
  ((st.push leaderPrice followerPrice).observe R).monitor R

/-! ## Runs of updates -/

/-- The tracker after some samples. -/
def updates (R : SquareRoot K) (cfg : LeaderTrackerConfig K) (samples : List (K × K)) : LeaderTracker K :=
  samples.foldl (fun st p => st.update R p.1 p.2) (create cfg)

theorem monitor_keeps (R : SquareRoot K) (st : LeaderTracker K) :
    (st.monitor R).corr = st.corr ∧ (st.monitor R).kalman = st.kalman := by
  unfold monitor
  split
  · dsimp only
    split
    · exact ⟨rfl, rfl⟩
    · split <;> exact ⟨rfl, rfl⟩
  · exact ⟨rfl, rfl⟩

theorem observe_corr (R : SquareRoot K) (st : LeaderTracker K) : (st.observe R).corr = st.corr := by
  unfold observe
  split <;> rfl

theorem observe_kalman (R : SquareRoot K) (st : LeaderTracker K) :
    (st.observe R).kalman = st.kalman ∨
      ∃ call, (st.observe R).kalman = st.kalman.step call := by
  unfold observe
  split
  · exact .inr ⟨.update st.cfg.dtSec (st.recomputeLagObservation R), rfl⟩
  · exact .inl rfl

/-- The correlation is the one of all samples. -/
theorem updates_corr (R : SquareRoot K) (cfg : LeaderTrackerConfig K) (samples : List (K × K)) :
    (updates R cfg samples).corr = WelfordCorrelation.updates samples := by
  induction samples using List.reverseRecOn with
  | nil => rfl
  | append_singleton samples p ih =>
      rw [updates, List.foldl_concat, ← updates, WelfordCorrelation.updates, List.foldl_concat,
        ← WelfordCorrelation.updates, ← ih, update, (monitor_keeps R _).1, observe_corr]
      rfl

/-- The filter has taken some observations, whatever the windows showed. -/
theorem updates_kalman (R : SquareRoot K) (cfg : LeaderTrackerConfig K) (samples : List (K × K)) :
    ∃ calls : List (KalmanCall K),
      (updates R cfg samples).kalman = calls.foldl KalmanLagEstimator.step (.create cfg.kalman) := by
  induction samples using List.reverseRecOn with
  | nil => exact ⟨[], rfl⟩
  | append_singleton samples p ih =>
      obtain ⟨calls, hcalls⟩ := ih
      rw [updates, List.foldl_concat, ← updates, update, (monitor_keeps R _).2]
      rcases observe_kalman R ((updates R cfg samples).push p.1 p.2) with heq | ⟨call, heq⟩
      · exact ⟨calls, heq.trans hcalls⟩
      · refine ⟨calls ++ [call], heq.trans ?_⟩
        rw [List.foldl_concat, ← hcalls]
        rfl

variable [IsStrictOrderedRing K]

theorem updates_within (R : SquareRoot K) (cfg : LeaderTrackerConfig K) (hcfg : cfg.kalman.Noisy)
    (hscale : 0 < cfg.kalman.confidenceScale) (samples : List (K × K)) :
    (-1 ≤ (updates R cfg samples).correlation R ∧ (updates R cfg samples).correlation R ≤ 1) ∧
      0 < (updates R cfg samples).confidence ∧ (updates R cfg samples).confidence < 1 := by
  constructor
  · rw [correlation, updates_corr, WelfordCorrelation.updates_eq_batch]
    exact WelfordCorrelation.batch_correlation_mem R samples
  · obtain ⟨calls, hcalls⟩ := updates_kalman R cfg samples
    rw [confidence, hcalls]
    refine KalmanLagEstimator.confidence_mem (KalmanLagEstimator.isCovariance_foldl hcfg calls) ?_
    rwa [KalmanLagEstimator.foldl_step_cfg]

end LeaderTracker

end TradeBot
