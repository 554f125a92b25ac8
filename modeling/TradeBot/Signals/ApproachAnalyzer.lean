import Mathlib.Data.Fin.VecNotation
import TradeBot.Lib.ForwardAlgorithm
import TradeBot.Signals.LevelDetector
import TradeBot.Utils.ZigZag

set_option autoImplicit false

/-! # How a level is approached

`ApproachHmm` of `numeric/Hmm.hpp` runs the forward algorithm on logarithms and subtracts the greatest
of them after each step. `signals/ApproachAnalyzer.cpp` asks it for the kind of an approach, from one
observation of the recent prices. The parameters are rational; their logarithms are real numbers.

The arithmetic is exact: `predict_eq` is about the exponentials of real numbers, of which none is
zero. In doubles the first observation may be so unlikely in every state that all of them are. -/

namespace TradeBot

open ForwardAlgorithm

/-- `kSqrt2Pi`. -/
def kSqrt2Pi : ℚ := 25066282746310002 / 10000000000000000

namespace ApproachHmm

/-- `Params::Emission`, over speed, pullbacks and distance. -/
structure Emission where
  means : Fin 3 → ℚ
  stds : Fin 3 → ℚ

/-- The parameters of a model with three states and three observed quantities. -/
structure Params where
  startProbs : Fin 3 → ℚ
  transMatrix : Fin 3 → Fin 3 → ℚ
  emissions : Fin 3 → Emission

end ApproachHmm

/-- The hidden states are impulse, slow and consolidation. -/
structure ApproachHmm where
  params : ApproachHmm.Params

namespace ApproachHmm

variable (hmm : ApproachHmm)

/-! ## The model -/

/-- Kept away from zero, so that it has a logarithm. -/
def startProb (s : Fin 3) : ℚ := max (hmm.params.startProbs s) (1 / 10000000000)

/-- Kept away from zero, so that it has a logarithm. -/
def transProb (s j : Fin 3) : ℚ := max (hmm.params.transMatrix s j) (1 / 10000000000)

/-- A standard deviation, kept away from zero. -/
def sigma (s i : Fin 3) : ℚ := max ((hmm.params.emissions s).stds i) (1 / 1000000000)

/-- `1.0 / (sigma * kSqrt2Pi)`. -/
def invNorm (s i : Fin 3) : ℚ := 1 / (hmm.sigma s i * kSqrt2Pi)

/-- `inv_var_`. -/
def invVar (s i : Fin 3) : ℚ := 1 / (2 * hmm.sigma s i * hmm.sigma s i)

/-- `log_start_probs_`. -/
noncomputable def logStartProb (s : Fin 3) : ℝ := Real.log (hmm.startProb s)

/-- `log_trans_matrix_`. -/
noncomputable def logTransMatrix (s j : Fin 3) : ℝ := Real.log (hmm.transProb s j)

/-- `log_inv_norm_`. -/
noncomputable def logInvNorm (s i : Fin 3) : ℝ := Real.log (hmm.invNorm s i)

/-- `diff * diff * inv_var_`. -/
def deviation (obs : Fin 3 → ℚ) (s i : Fin 3) : ℚ :=
  let diff := obs i - (hmm.params.emissions s).means i
  diff * diff * hmm.invVar s i

/-- `log_emission_prob_`. -/
noncomputable def logEmissionProb (s : Fin 3) (obs : Fin 3 → ℚ) : ℝ :=
  ∑ i, (hmm.logInvNorm s i - (hmm.deviation obs s i : ℚ))

/-- The loop that finds `max_a`, from `-1e100` on. -/
noncomputable def maxTerm (a : Fin 3 → ℝ) (j : Fin 3) : ℝ :=
  (List.finRange 3).foldl (fun m i => max m (a i + hmm.logTransMatrix i j)) ((-10 ^ 100 : ℚ) : ℝ)

/-- The logarithms after the first observation, which are not shifted. -/
noncomputable def initial (obs : Fin 3 → ℚ) (s : Fin 3) : ℝ :=
  hmm.logStartProb s + hmm.logEmissionProb s obs

/-- `next_log_alpha`. -/
noncomputable def nextLogAlpha (a : Fin 3 → ℝ) (obs : Fin 3 → ℚ) (j : Fin 3) : ℝ :=
  hmm.maxTerm a j + Real.log (∑ i, Real.exp (a i + hmm.logTransMatrix i j - hmm.maxTerm a j))
    + hmm.logEmissionProb j obs

/-- The body of the loop over the observations. -/
noncomputable def step (a : Fin 3 → ℝ) (obs : Fin 3 → ℚ) (s : Fin 3) : ℝ :=
  hmm.nextLogAlpha a obs s - Finset.univ.sup' Finset.univ_nonempty (hmm.nextLogAlpha a obs)

/-- The probability of each state after the observations. In the source the exponentials of the first
    observation may all underflow, and the result is zero then; those of real numbers are positive.
    -/
noncomputable def predict (observations : List (Fin 3 → ℚ)) (s : Fin 3) : ℝ :=
  match observations with
  | [] => (hmm.params.startProbs s : ℚ)
  | obs :: rest =>
      let logAlpha := rest.foldl hmm.step (hmm.initial obs)
      let sumExp := ∑ i, Real.exp (logAlpha i)
      if 0 < sumExp then Real.exp (logAlpha s) / sumExp else Real.exp (logAlpha s)

/-! ## The chain -/

/-- The density of an observation in a state. -/
noncomputable def density (obs : Fin 3 → ℚ) (s : Fin 3) : ℝ :=
  ∏ i, (hmm.invNorm s i : ℚ) * Real.exp (-(hmm.deviation obs s i : ℚ))

/-- The chain of hidden states, with the least probabilities that the code allows. -/
noncomputable def chain : Chain (Fin 3) ℝ where
  start s := (hmm.startProb s : ℚ)
  trans i j := (hmm.transProb i j : ℚ)

theorem start_pos (s : Fin 3) : 0 < hmm.chain.start s :=
  Rat.cast_pos.2 (lt_max_of_lt_right (by norm_num))

theorem trans_pos (i j : Fin 3) : 0 < hmm.chain.trans i j :=
  Rat.cast_pos.2 (lt_max_of_lt_right (by norm_num))

theorem invNorm_pos (s i : Fin 3) : 0 < (hmm.invNorm s i : ℝ) := by
  have hsigma : 0 < hmm.sigma s i := lt_max_of_lt_right (by norm_num)
  exact Rat.cast_pos.2 (one_div_pos.2 (mul_pos hsigma (by norm_num [kSqrt2Pi])))

theorem density_pos (obs : Fin 3 → ℚ) (s : Fin 3) : 0 < hmm.density obs s :=
  Finset.prod_pos fun i _ => mul_pos (hmm.invNorm_pos s i) (Real.exp_pos _)

theorem logEmissionProb_eq (s : Fin 3) (obs : Fin 3 → ℚ) :
    hmm.logEmissionProb s obs = Real.log (hmm.density obs s) := by
  have hterm (i : Fin 3) : (hmm.invNorm s i : ℝ) * Real.exp (-(hmm.deviation obs s i : ℚ)) ≠ 0 :=
    mul_ne_zero (hmm.invNorm_pos s i).ne' (Real.exp_ne_zero _)
  rw [logEmissionProb, density, Real.log_prod fun i _ => hterm i]
  refine Finset.sum_congr rfl fun i _ => ?_
  rw [Real.log_mul (hmm.invNorm_pos s i).ne' (Real.exp_ne_zero _), Real.log_exp, logInvNorm,
    ← sub_eq_add_neg]

/-! ## The logarithms and the chain -/

section

variable {hmm} {a α : Fin 3 → ℝ} {obs : Fin 3 → ℚ}

theorem initial_isLog : IsLog (hmm.initial obs) (hmm.chain.first (hmm.density obs)) := by
  refine ⟨0, fun s => ?_⟩
  rw [initial, logEmissionProb_eq, Chain.first, add_zero,
    Real.log_mul (hmm.start_pos s).ne' (hmm.density_pos obs s).ne']
  rfl

theorem step_isLog (h : IsLog a α) (hα : ∀ s, 0 < α s) :
    IsLog (hmm.step a obs) (hmm.chain.next α (hmm.density obs)) := by
  have hnext : IsLog (hmm.nextLogAlpha a obs) (hmm.chain.next α (hmm.density obs)) := by
    have hlog := h.next hα hmm.trans_pos (hmm.density_pos obs) (hmm.maxTerm a)
    simp only [← logEmissionProb_eq] at hlog
    exact hlog
  exact hnext.sub _

theorem foldl_isLog (h : IsLog a α) (hα : ∀ s, 0 < α s) (rest : List (Fin 3 → ℚ)) :
    IsLog (rest.foldl hmm.step a) (rest.foldl (fun α o => hmm.chain.next α (hmm.density o)) α) ∧
      ∀ s, 0 < rest.foldl (fun α o => hmm.chain.next α (hmm.density o)) α s := by
  induction rest generalizing a α with
  | nil => exact ⟨h, hα⟩
  | cons o rest ih =>
      exact ih (step_isLog h hα) fun s => Chain.next_pos hmm.trans_pos hα (hmm.density_pos o) s

end

/-- The weights of the states after the observations, without logarithms. -/
noncomputable def weights (obs : Fin 3 → ℚ) (rest : List (Fin 3 → ℚ)) : Fin 3 → ℝ :=
  rest.foldl (fun α o => hmm.chain.next α (hmm.density o)) (hmm.chain.first (hmm.density obs))

theorem predict_eq_share (obs : Fin 3 → ℚ) (rest : List (Fin 3 → ℚ)) (s : Fin 3) :
    hmm.predict (obs :: rest) s = hmm.weights obs rest s / ∑ i, hmm.weights obs rest i := by
  have hfirst (s : Fin 3) : 0 < hmm.chain.first (hmm.density obs) s :=
    mul_pos (hmm.start_pos s) (hmm.density_pos obs s)
  obtain ⟨hlog, hpos⟩ := foldl_isLog initial_isLog hfirst rest
  have hsum : 0 < ∑ i, Real.exp (rest.foldl hmm.step (hmm.initial obs) i) :=
    Finset.sum_pos (fun i _ => Real.exp_pos _) Finset.univ_nonempty
  rw [predict, if_pos hsum, hlog.share hpos]
  rfl

/-- The weight of a path of hidden states with the observations on the way. -/
noncomputable def pathWeight (obs : Fin 3 → ℚ) (rest : List (Fin 3 → ℚ)) {n : ℕ}
    (path : Fin (n + 1) → Fin 3) : ℝ :=
  hmm.chain.weight (fun t => hmm.density ((obs :: rest).getD t obs)) path

/-- The weight of a state with a single observation. -/
noncomputable def joint (obs : Fin 3 → ℚ) (s : Fin 3) : ℝ := hmm.startProb s * hmm.density obs s

theorem predict_singleton (obs : Fin 3 → ℚ) (s : Fin 3) :
    hmm.predict [obs] s = hmm.joint obs s / ∑ i, hmm.joint obs i :=
  hmm.predict_eq_share obs [] s

end ApproachHmm

/-! ## The analyzer -/

/-- `get_default_params`. -/
def getDefaultParams : ApproachHmm.Params where
  startProbs := ![33 / 100, 33 / 100, 34 / 100]
  transMatrix :=
    ![![95 / 100, 25 / 1000, 3 / 100], ![25 / 1000, 95 / 100, 25 / 1000],
      ![3 / 100, 25 / 1000, 95 / 100]]
  emissions :=
    ![⟨![3, 1 / 10, 100], ![2, 1 / 2, 50]⟩, ⟨![1 / 2, 3, 50], ![3 / 10, 1, 20]⟩,
      ⟨![0, 5, 5], ![1 / 10, 2, 5]⟩]

/-- `ApproachAnalyzer::Config`. -/
structure ApproachConfig where
  window : ℤ := 30 * nsPerSec
  pullbackMinBps : ℚ := 5
  hmmUseDefaultParams : Bool := true
  hmmParams : ApproachHmm.Params

/-- The mid prices of a ticker, with their times. -/
structure ApproachAnalyzer where
  ticker : Ticker
  cfg : ApproachConfig
  history : CircularBuffer (TimePoint × ℚ) 512 := ∅

/-- `ApproachAnalyzer::Analysis`. -/
structure FullApproachAnalysis extends ApproachAnalysis where
  impulseProb : ℝ
  slowProb : ℝ
  consolidationProb : ℝ
  pullbacks : ℕ

/-- The kind of the state of the greatest weight; a tie counts as consolidation. -/
noncomputable def likeliest (w : Fin 3 → ℝ) : ApproachType :=
  if w 1 < w 0 ∧ w 2 < w 0 then .impulse
  else if w 0 < w 1 ∧ w 2 < w 1 then .slow
  else .consolidation

theorem likeliest_div (w : Fin 3 → ℝ) {c : ℝ} (hc : 0 < c) : likeliest (fun s => w s / c) = likeliest w := by
  simp only [likeliest, div_lt_div_iff_of_pos_right hc]

namespace ApproachAnalyzer

variable (a : ApproachAnalyzer) (now : TimePoint)

/-- The model with the default parameters or those of the configuration. -/
def hmm : ApproachHmm :=
  ⟨if a.cfg.hmmUseDefaultParams then getDefaultParams else a.cfg.hmmParams⟩

/-- A frame without a valid mid leaves no sample. -/
def onFrame (frame : FeatureFrame) : ApproachAnalyzer :=
  if frame.ticker ≠ a.ticker then a
  else if frame.valid = false then a
  else { a with history := a.history.pushBack (frame.timestamp, frame.mid) }

/-- The entries of the window. -/
def recent (samples : List (TimePoint × ℚ)) : List (TimePoint × ℚ) :=
  samples.filter fun sample => decide (now - a.cfg.window ≤ sample.1)

/-- `first_ts`: an entry at time zero is passed over. -/
def firstTs (samples : List (TimePoint × ℚ)) : TimePoint :=
  samples.foldl (fun first sample => if first = 0 then sample.1 else first) 0

/-- The price moves from the first to the last of the prices, with what else describes the way. -/
def pullbacks (prices : List ℚ) : ℕ :=
  let fromAbove := decide (prices.getLastD 0 < prices.headD 0)
  (ZigZag.calculate a.cfg.pullbackMinBps prices).countP fun p => if fromAbove then p.isHigh else !p.isHigh

/-- How far the price has moved over the samples. -/
def distBps (prices : List ℚ) : ℚ :=
  |prices.getLastD 0 - prices.headD 0| / prices.headD 0 * kBpsBase

/-- Basis points per second. -/
def speed (samples : List (TimePoint × ℚ)) : ℚ :=
  let duration : ℚ := (now - firstTs samples) / nsPerSec
  distBps (samples.map Prod.snd) / max (1 / 10) duration

/-- The one observation that the model is asked about. -/
def observation (samples : List (TimePoint × ℚ)) : Fin 3 → ℚ :=
  let prices := samples.map Prod.snd
  ![speed now samples, a.pullbacks prices, distBps prices]

/-- With less than ten samples nothing is said of the approach. -/
noncomputable def analyze : FullApproachAnalysis :=
  let samples := a.recent now a.history.entries
  if samples.length < 10 then
    { type := .unknown, speedBpsSec := 0, impulseProb := 0, slowProb := 0, consolidationProb := 0
      pullbacks := 0 }
  else
    let probs := a.hmm.predict [a.observation now samples]
    { type := likeliest probs
      speedBpsSec := speed now samples
      impulseProb := probs 0
      slowProb := probs 1
      consolidationProb := probs 2
      pullbacks := a.pullbacks (samples.map Prod.snd) }

/-! ### After any frames -/

/-- What a frame leaves in the history. -/
def sample? (ticker : Ticker) (frame : FeatureFrame) : Option (TimePoint × ℚ) :=
  if frame.ticker = ticker ∧ frame.valid then some (frame.timestamp, frame.mid) else none

theorem onFrame_eq (frame : FeatureFrame) :
    a.onFrame frame
      = { a with history := (sample? a.ticker frame).elim a.history a.history.pushBack } := by
  unfold onFrame sample?
  by_cases hticker : frame.ticker = a.ticker
  · cases frame.valid <;> simp [hticker]
  · simp [hticker]

/-- The analyzer keeps the newest samples. -/
theorem run_eq (ticker : Ticker) (cfg : ApproachConfig) (frames : List FeatureFrame) :
    let a := frames.foldl onFrame { ticker := ticker, cfg := cfg }
    a.ticker = ticker ∧ a.cfg = cfg ∧ a.history.entries = (frames.filterMap (sample? ticker)).rtake 512 := by
  induction frames using List.reverseRecOn with
  | nil => exact ⟨rfl, rfl, (List.rtake_nil ..).symm⟩
  | append_singleton frames frame ih =>
      rw [List.foldl_append, List.foldl_cons, List.foldl_nil, List.filterMap_append]
      generalize frames.foldl onFrame _ = a at ih ⊢
      obtain ⟨rfl, rfl, hentries⟩ := ih
      rw [onFrame_eq]
      refine ⟨rfl, rfl, ?_⟩
      cases hsample : sample? a.ticker frame with
      | none => simpa [hsample] using hentries
      | some sample =>
          rw [List.filterMap_cons_some hsample]
          exact CircularBuffer.entries_pushBack hentries sample

end ApproachAnalyzer

end TradeBot
