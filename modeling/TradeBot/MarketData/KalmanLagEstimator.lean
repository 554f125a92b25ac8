import TradeBot.Lib.Histories
import TradeBot.Lib.PositiveDefinite

set_option autoImplicit false

/-! # KalmanLagEstimator

`marketdata/KalmanLagEstimator.cpp`: a filter for the lag of a follower behind its leader and for the
drift of that lag. Its covariance stays positive definite through every exit of `update`
(`covariance_along_calls`). The state is clamped at the last exit only: an observation that is skipped
leaves the prediction as it is, within the limits or not (`limits_iff_skipped_within`).

The numbers are those of an ordered field, so the arithmetic is exact and every number is finite. An
observation that is no number, which passes both tests of the source, and variances so large that
their product overflows are not covered.

`update_cases` lists the exits of `update`. The results about runs are invariants over them: the
covariance for all exits, the limits for those calls that do not stop at the prediction. -/

namespace TradeBot

/-- The first guess of lag and drift with its variances, the noise added with time and by an
    observation, and what `confidence` is measured by. -/
structure KalmanConfig (K : Type*) where
  initialLagMs : K
  initialDriftMsPerSec : K
  initialVarLag : K
  initialVarDrift : K
  qLag : K
  qDrift : K
  rObs : K
  confidenceScale : K
  outlierCutoffMs : K

/-- The state `x` and its covariance `p`, both entry by entry, as the source keeps them. -/
structure KalmanLagEstimator (K : Type*) where
  cfg : KalmanConfig K
  x0 : K
  x1 : K
  p00 : K
  p01 : K
  p10 : K
  p11 : K

/-- A call of the estimator. -/
inductive KalmanCall (K : Type*)
  | update (dt z : K)
  | reset

section Model

variable {K : Type*} [Field K]

/-- The defaults of the header. -/
def KalmanConfig.default : KalmanConfig K where
  initialLagMs := 0
  initialDriftMsPerSec := 0
  initialVarLag := ((1000000 : ℕ) : K)
  initialVarDrift := ((1000 : ℕ) : K)
  qLag := 1
  qDrift := 1 / ((100 : ℕ) : K)
  rObs := ((2500 : ℕ) : K)
  confidenceScale := ((2500 : ℕ) : K)
  outlierCutoffMs := ((5000 : ℕ) : K)

namespace KalmanLagEstimator

/-- The state before any observation. -/
def create (cfg : KalmanConfig K) : KalmanLagEstimator K where
  cfg := cfg
  x0 := cfg.initialLagMs
  x1 := cfg.initialDriftMsPerSec
  p00 := cfg.initialVarLag
  p01 := 0
  p10 := 0
  p11 := cfg.initialVarDrift

/-- The observations are forgotten. -/
def reset (st : KalmanLagEstimator K) : KalmanLagEstimator K := create st.cfg

/-- The lag moves by the drift, and the covariance grows by the process noise. -/
def predict (st : KalmanLagEstimator K) (dt : K) : KalmanLagEstimator K :=
  let fp00 := st.p00 + dt * st.p10
  let fp01 := st.p01 + dt * st.p11
  let fp10 := st.p10
  let fp11 := st.p11
  { st with
    x0 := st.x0 + dt * st.x1
    p00 := fp00 + dt * fp01 + st.cfg.qLag * dt
    p01 := fp01
    p10 := fp10 + dt * fp11
    p11 := fp11 + st.cfg.qDrift * dt }

/-- `s` of `update`, in the predicted state. -/
def innovationVariance (st : KalmanLagEstimator K) : K := st.p00 + st.cfg.rObs

/-- The lag in milliseconds. -/
def lagMs (st : KalmanLagEstimator K) : K := st.x0

/-- By how many milliseconds the lag changes in a second. -/
def driftMsPerS (st : KalmanLagEstimator K) : K := st.x1

/-- The variance of the lag. -/
def varianceLag (st : KalmanLagEstimator K) : K := st.p00

variable [LinearOrder K]

/-- The exits of `update` after the prediction: a singular innovation and an outlier. -/
def Skips (st : KalmanLagEstimator K) (z : K) : Prop :=
  st.innovationVariance < 1 / ((1000000000 : ℕ) : K) ∨ st.cfg.outlierCutoffMs < |z - st.x0|

instance (st : KalmanLagEstimator K) (z : K) : Decidable (st.Skips z) :=
  inferInstanceAs (Decidable (_ ∨ _))

omit [Field K] in
/-- `std::clamp`. -/
def clamp (x lo hi : K) : K := if x < lo then lo else if hi < x then hi else x

omit [Field K] in
theorem clamp_mem {x lo hi : K} (h : lo ≤ hi) : lo ≤ clamp x lo hi ∧ clamp x lo hi ≤ hi := by
  unfold clamp
  split
  · exact ⟨le_refl lo, h⟩
  · rename_i hlo
    split
    · exact ⟨h, le_refl hi⟩
    · rename_i hhi
      exact ⟨not_lt.1 hlo, not_lt.1 hhi⟩

/-- The observation is worked in with the gain `k`. The covariance has the Joseph form, and the state
    is clamped. -/
def correct (st : KalmanLagEstimator K) (z : K) : KalmanLagEstimator K :=
  let yInno := z - st.x0
  let s := st.innovationVariance
  let k0 := st.p00 / s
  let k1 := st.p10 / s
  let r := st.cfg.rObs
  let new00 := (1 - k0) * (1 - k0) * st.p00 + k0 * k0 * r
  let new01 := -(1 - k0) * k1 * st.p00 + (1 - k0) * st.p01 + k0 * k1 * r
  let new10 := (1 - k0) * (-k1 * st.p00 + st.p10) + k0 * k1 * r
  let new11 := k1 * k1 * st.p00 - k1 * st.p10 - k1 * st.p01 + st.p11 + k1 * k1 * r
  { st with
    x0 := clamp (st.x0 + k0 * yInno) (-((1000 : ℕ) : K)) ((10000 : ℕ) : K)
    x1 := clamp (st.x1 + k1 * yInno) (-((100 : ℕ) : K)) ((100 : ℕ) : K)
    p00 := max (1 / ((1000000000 : ℕ) : K)) new00
    p01 := 1 / ((2 : ℕ) : K) * (new01 + new10)
    p10 := 1 / ((2 : ℕ) : K) * (new01 + new10)
    p11 := max (1 / ((1000000000 : ℕ) : K)) new11 }

/-- Time has passed, and the lag was observed to be `z`. A pause of more than an hour starts anew. In
    the source the last test also skips what is not a number; here every number is one, and none
    overflows. -/
def update (st : KalmanLagEstimator K) (dt z : K) : KalmanLagEstimator K :=
  if dt ≤ 0 ∨ ((3600 : ℕ) : K) < dt then if ((3600 : ℕ) : K) < dt then st.reset else st
  else
    let predicted := st.predict dt
    if predicted.Skips z then predicted else predicted.correct z

/-- Near one while the lag is well known. The config may turn it off. -/
def confidence (st : KalmanLagEstimator K) : K :=
  if st.cfg.confidenceScale ≤ 0 then 0 else 1 / (1 + st.p00 / st.cfg.confidenceScale)

/-- The state after a call. -/
def step (st : KalmanLagEstimator K) : KalmanCall K → KalmanLagEstimator K
  | .update dt z => st.update dt z
  | .reset => st.reset

/-! ## What an update does -/

/-- An update predicts when its interval is one of these. -/
def Predicts (dt : K) : Prop := 0 < dt ∧ dt ≤ ((3600 : ℕ) : K)

theorem update_cases (st : KalmanLagEstimator K) (dt z : K) :
    (¬Predicts dt ∧ (st.update dt z = st.reset ∨ st.update dt z = st)) ∨
    (Predicts dt ∧ (st.predict dt).Skips z ∧ st.update dt z = st.predict dt) ∨
    (Predicts dt ∧ ¬(st.predict dt).Skips z ∧ st.update dt z = (st.predict dt).correct z) := by
  unfold update
  by_cases hdt : dt ≤ 0 ∨ ((3600 : ℕ) : K) < dt
  · rw [if_pos hdt]
    refine .inl ⟨fun hpred => ?_, ?_⟩
    · rcases hdt with hle | hgt
      · exact absurd hpred.1 (not_lt.2 hle)
      · exact absurd hgt (not_lt.2 hpred.2)
    · split
      · exact .inl rfl
      · exact .inr rfl
  · rw [if_neg hdt]
    obtain ⟨hpos, hle⟩ := not_or.1 hdt
    have hpred : Predicts dt := ⟨not_le.1 hpos, not_lt.1 hle⟩
    by_cases hskip : (st.predict dt).Skips z
    · exact .inr (.inl ⟨hpred, hskip, if_pos hskip⟩)
    · exact .inr (.inr ⟨hpred, hskip, if_neg hskip⟩)

theorem step_cfg (st : KalmanLagEstimator K) (call : KalmanCall K) : (st.step call).cfg = st.cfg := by
  cases call with
  | reset => rfl
  | update dt z =>
      show (st.update dt z).cfg = st.cfg
      rcases st.update_cases dt z with ⟨-, heq | heq⟩ | ⟨-, -, heq⟩ | ⟨-, -, heq⟩ <;> rw [heq] <;> rfl

theorem foldl_step_cfg (calls : List (KalmanCall K)) (st : KalmanLagEstimator K) :
    (calls.foldl step st).cfg = st.cfg :=
  Runs.invariant (fun s : KalmanLagEstimator K => s.cfg = st.cfg)
    (fun s call h => (s.step_cfg call).trans h) calls rfl

end KalmanLagEstimator

end Model

/-! ## The covariance -/

section Covariance

variable {K : Type*} [Field K] [LinearOrder K] [IsStrictOrderedRing K]

/-- A config whose variances keep the covariance from degenerating. -/
structure KalmanConfig.Noisy (cfg : KalmanConfig K) : Prop where
  varLag : 0 < cfg.initialVarLag
  varDrift : 0 < cfg.initialVarDrift
  qLag : 0 ≤ cfg.qLag
  qDrift : 0 ≤ cfg.qDrift
  rObs : 0 < cfg.rObs

namespace KalmanLagEstimator

/-- What a covariance has to be. -/
def IsCovariance (st : KalmanLagEstimator K) : Prop := PositiveDefinite st.p00 st.p01 st.p10 st.p11

theorem create_isCovariance {cfg : KalmanConfig K} (hcfg : cfg.Noisy) : (create cfg).IsCovariance :=
  PositiveDefinite.diagonal hcfg.varLag hcfg.varDrift

variable {st : KalmanLagEstimator K}

theorem IsCovariance.predict (h : st.IsCovariance) (hcfg : st.cfg.Noisy) {dt : K} (hdt : 0 < dt) :
    (st.predict dt).IsCovariance :=
  (PositiveDefinite.drift h dt).add_noise (mul_nonneg hcfg.qLag hdt.le) (mul_nonneg hcfg.qDrift hdt.le)

theorem IsCovariance.innovationVariance_pos (h : st.IsCovariance) (hcfg : st.cfg.Noisy) :
    0 < st.innovationVariance :=
  add_pos h.pos hcfg.rObs

/-- The Joseph form is the covariance of the state given the observation. -/
theorem IsCovariance.correct (h : st.IsCovariance) (hcfg : st.cfg.Noisy) (z : K) :
    (st.correct z).IsCovariance := by
  have hs : st.p00 + st.cfg.rObs ≠ 0 := (h.innovationVariance_pos hcfg).ne'
  have hsymm : st.p10 = st.p01 := h.symm.symm
  have h00 : (st.correct z).p00
      = max (1 / ((1000000000 : ℕ) : K)) (st.cfg.rObs * st.p00 / (st.p00 + st.cfg.rObs)) := by
    refine congrArg (max _) ?_
    rw [innovationVariance]
    field_simp
    ring
  have h01 : (st.correct z).p01 = st.cfg.rObs * st.p01 / (st.p00 + st.cfg.rObs) := by
    simp only [KalmanLagEstimator.correct, innovationVariance, hsymm]
    field_simp
    ring
  have h11 : (st.correct z).p11
      = max (1 / ((1000000000 : ℕ) : K)) (st.p11 - st.p01 ^ 2 / (st.p00 + st.cfg.rObs)) := by
    refine congrArg (max _) ?_
    rw [innovationVariance, hsymm]
    field_simp
    ring
  have h10 : (st.correct z).p10 = st.cfg.rObs * st.p10 / (st.p00 + st.cfg.rObs) := by
    rw [hsymm]
    exact h01
  unfold IsCovariance
  rw [h00, h01, h10, h11]
  exact (PositiveDefinite.observed h hcfg.rObs).raise (le_max_right _ _) (le_max_right _ _)

theorem IsCovariance.step (h : st.IsCovariance) (hcfg : st.cfg.Noisy) (call : KalmanCall K) :
    (st.step call).IsCovariance := by
  cases call with
  | reset => exact create_isCovariance hcfg
  | update dt z =>
      show (st.update dt z).IsCovariance
      rcases st.update_cases dt z with ⟨-, heq | heq⟩ | ⟨hpred, -, heq⟩ | ⟨hpred, -, heq⟩
      · rw [heq]
        exact create_isCovariance hcfg
      · rw [heq]
        exact h
      · rw [heq]
        exact h.predict hcfg hpred.1
      · rw [heq]
        exact (h.predict hcfg hpred.1).correct hcfg z

theorem isCovariance_foldl {cfg : KalmanConfig K} (hcfg : cfg.Noisy) (calls : List (KalmanCall K)) :
    (calls.foldl step (create cfg)).IsCovariance := by
  have hinv := Runs.invariant (fun s : KalmanLagEstimator K => s.IsCovariance ∧ s.cfg = cfg)
    (fun s call h => ⟨h.1.step (h.2 ▸ hcfg) call, (s.step_cfg call).trans h.2⟩) calls
    ⟨create_isCovariance hcfg, rfl⟩
  exact hinv.1

theorem confidence_mem (h : st.IsCovariance) (hscale : 0 < st.cfg.confidenceScale) :
    0 < st.confidence ∧ st.confidence < 1 := by
  have hratio : 0 < st.p00 / st.cfg.confidenceScale := div_pos h.pos hscale
  rw [confidence, if_neg (not_le.2 hscale)]
  refine ⟨div_pos one_pos (by linarith), ?_⟩
  rw [div_lt_one (by linarith)]
  linarith

theorem covariance_along_calls (cfg : KalmanConfig K) (hcfg : cfg.Noisy) (hscale : 0 < cfg.confidenceScale)
    (calls : List (KalmanCall K)) :
    let st := calls.foldl step (create cfg)
    st.p01 = st.p10 ∧ 0 < st.p00 ∧ 0 < st.p11 ∧ st.p01 ^ 2 ≤ st.p00 * st.p11 ∧
    (∀ a b, 0 ≤ a * (st.p00 * a + st.p01 * b) + b * (st.p10 * a + st.p11 * b)) ∧
    (∀ dt, Predicts dt → 0 < (st.predict dt).innovationVariance) ∧
    0 < st.confidence ∧ st.confidence < 1 := by
  intro st
  have hcov : st.IsCovariance := isCovariance_foldl hcfg calls
  have hst : st.cfg = cfg := foldl_step_cfg calls (create cfg)
  refine ⟨hcov.symm, hcov.pos, hcov.pos_right, hcov.det.le, hcov.form_nonneg, fun dt hdt => ?_, ?_⟩
  · exact (hcov.predict (hst ▸ hcfg) hdt.1).innovationVariance_pos (hst ▸ hcfg)
  · exact confidence_mem hcov (hst ▸ hscale)

theorem covariance_along_calls_default :
    let st := [KalmanCall.update 1 200, .reset, .update 1 100000].foldl step
      (create (KalmanConfig.default : KalmanConfig ℚ))
    st.p01 ^ 2 ≤ st.p00 * st.p11 :=
  (covariance_along_calls KalmanConfig.default
    ⟨by norm_num [KalmanConfig.default], by norm_num [KalmanConfig.default],
      by norm_num [KalmanConfig.default], by norm_num [KalmanConfig.default],
      by norm_num [KalmanConfig.default]⟩ (by norm_num [KalmanConfig.default]) _).2.2.2.1

end KalmanLagEstimator

end Covariance

/-! ## The limits of the state -/

section Limits

variable {K : Type*} [Field K] [LinearOrder K] [IsStrictOrderedRing K]

namespace KalmanLagEstimator

/-- The limits that `correct` clamps to. -/
def WithinLimits (st : KalmanLagEstimator K) : Prop :=
  (-((1000 : ℕ) : K) ≤ st.lagMs ∧ st.lagMs ≤ ((10000 : ℕ) : K)) ∧
    -((100 : ℕ) : K) ≤ st.driftMsPerS ∧ st.driftMsPerS ≤ ((100 : ℕ) : K)

/-- If the observation is skipped, the predicted lag is within the limits. -/
def SkippedWithin (st : KalmanLagEstimator K) : KalmanCall K → Prop
  | .update dt z => Predicts dt → (st.predict dt).Skips z →
      -((1000 : ℕ) : K) ≤ st.lagMs + dt * st.driftMsPerS ∧
        st.lagMs + dt * st.driftMsPerS ≤ ((10000 : ℕ) : K)
  | .reset => True

theorem correct_withinLimits (st : KalmanLagEstimator K) (z : K) : (st.correct z).WithinLimits :=
  ⟨clamp_mem (by norm_num), clamp_mem (by norm_num)⟩

theorem step_withinLimits_iff {st : KalmanLagEstimator K} (hcfg : (create st.cfg).WithinLimits)
    (h : st.WithinLimits) (call : KalmanCall K) :
    (st.step call).WithinLimits ↔ st.SkippedWithin call := by
  cases call with
  | reset => exact iff_of_true hcfg trivial
  | update dt z =>
      show (st.update dt z).WithinLimits ↔ _
      rcases st.update_cases dt z with ⟨hpred, heq | heq⟩ | ⟨hpred, hskip, heq⟩ | ⟨hpred, hskip, heq⟩
      · rw [heq]
        exact iff_of_true hcfg fun hdt => absurd hdt hpred
      · rw [heq]
        exact iff_of_true h fun hdt => absurd hdt hpred
      · rw [heq]
        constructor
        · exact fun hlimits _ _ => hlimits.1
        · exact fun hwithin => ⟨hwithin hpred hskip, h.2⟩
      · rw [heq]
        exact iff_of_true (correct_withinLimits _ z) fun _ hno => absurd hno hskip

theorem limits_iff_skipped_within (cfg : KalmanConfig K) (hcfg : (create cfg).WithinLimits)
    (calls : List (KalmanCall K)) :
    Histories.Throughout (fun pre => (pre.foldl step (create cfg)).WithinLimits) calls ↔
      Runs.Along step SkippedWithin (create cfg) calls := by
  have hiff := Histories.throughout_iff_along (h := calls) (C := SkippedWithin)
    (fun st : KalmanLagEstimator K => st.WithinLimits ∧ st.cfg = cfg) (fun st call hst => by
      rw [st.step_cfg call, and_iff_left hst.2]
      exact step_withinLimits_iff (hst.2.symm ▸ hcfg) hst.1 call) ⟨hcfg, rfl⟩
  rw [← hiff]
  constructor
  · exact fun hall pre hpre => ⟨hall pre hpre, foldl_step_cfg pre (create cfg)⟩
  · exact fun hall pre hpre => (hall pre hpre).1

theorem limits_iff_skipped_within_default :
    Histories.Throughout
        (fun pre => (pre.foldl step (create (KalmanConfig.default : KalmanConfig ℚ))).WithinLimits)
        [.update 1 200, .update 1 100000] ↔
      Runs.Along step SkippedWithin (create KalmanConfig.default)
        [KalmanCall.update (1 : ℚ) 200, .update 1 100000] :=
  limits_iff_skipped_within KalmanConfig.default
    (by norm_num [WithinLimits, create, KalmanConfig.default, lagMs, driftMsPerS]) _

/-- An outlier after an hour with the largest drift: the lag is where the prediction took it. -/
theorem outlier_leaves_limits :
    ¬ ∀ (cfg : KalmanConfig ℚ) (calls : List (KalmanCall ℚ)), (create cfg).WithinLimits →
      (calls.foldl step (create cfg)).WithinLimits := by
  intro hall
  have hlimits := hall { KalmanConfig.default with initialDriftMsPerSec := 100 } [.update 3600 0]
    (by norm_num [WithinLimits, create, KalmanConfig.default, lagMs, driftMsPerS])
  have hfar : ¬ (360000 : ℚ) ≤ 10000 := by norm_num
  have hlag : ([KalmanCall.update (3600 : ℚ) 0].foldl step
      (create ({ KalmanConfig.default with initialDriftMsPerSec := 100 } : KalmanConfig ℚ))).lagMs
        = 360000 := by
    decide +kernel
  rw [WithinLimits, hlag] at hlimits
  exact hfar hlimits.1.2

end KalmanLagEstimator

end Limits

end TradeBot
