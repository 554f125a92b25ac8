import TradeBot.Lib.Moments
import TradeBot.Lib.SquareRoot

set_option autoImplicit false

/-! # Streaming statistics

`numeric/Welford.hpp` and `numeric/WelfordCorrelation.hpp`: mean, variance and correlation of a stream,
one observation at a time, and the statistics of the whole list that they are equal to.

An accumulator after some observations is the one of their list (`batch`), and each update takes the
statistics of a list to those of the list with one more entry, by the formulas of `Lib/Moments`.
Everything is exact here; the bounds then hold because of Cauchy-Schwarz and not because of the
clamps. -/

namespace TradeBot

/-- Number, mean and sum of squared deviations. -/
structure WelfordAccumulator (K : Type*) [Field K] where
  n : ℕ := 0
  mean : K := 0
  m2 : K := 0

/-- The statistics of two columns, and their co-moment. -/
structure WelfordCorrelation (K : Type*) [Field K] where
  n : ℕ := 0
  accX : WelfordAccumulator K := {}
  accY : WelfordAccumulator K := {}
  cXY : K := 0

section Field

variable {K : Type*} [Field K]

namespace WelfordAccumulator

/-- The deviation is taken from the mean before and after. -/
def update (acc : WelfordAccumulator K) (x : K) : WelfordAccumulator K :=
  let n := acc.n + 1
  let delta := x - acc.mean
  let mean := acc.mean + delta / n
  let delta2 := x - mean
  { n := n, mean := mean, m2 := acc.m2 + delta * delta2 }

/-- The accumulator after some observations. -/
def updates (xs : List K) : WelfordAccumulator K := xs.foldl update {}

/-- The variance of a sample; zero for less than two observations. -/
def variance [LinearOrder K] (acc : WelfordAccumulator K) : K :=
  if acc.n < 2 then 0 else max 0 (acc.m2 / (acc.n - 1 : ℕ))

/-- The standard deviation of a sample. -/
def stdev [LinearOrder K] (R : SquareRoot K) (acc : WelfordAccumulator K) : K :=
  if 0 < acc.variance then R.sqrt acc.variance else 0

end WelfordAccumulator

namespace WelfordCorrelation

/-- A pair of observations. -/
def update (w : WelfordCorrelation K) (p : K × K) : WelfordCorrelation K :=
  let dy := p.2 - w.accY.mean
  let accX := w.accX.update p.1
  let accY := w.accY.update p.2
  { n := w.n + 1, accX := accX, accY := accY, cXY := w.cXY + (p.1 - accX.mean) * dy }

/-- The accumulator after some pairs. -/
def updates (ps : List (K × K)) : WelfordCorrelation K := ps.foldl update {}

/-- The correlation; zero where one of the columns does not vary. -/
def correlation [LinearOrder K] (R : SquareRoot K) (w : WelfordCorrelation K) : K :=
  if w.n < 2 then 0
  else
    let varX := w.accX.variance * (w.n - 1 : ℕ)
    let varY := w.accY.variance * (w.n - 1 : ℕ)
    if varX = 0 ∨ varY = 0 then 0 else w.cXY / R.sqrt (varX * varY)

end WelfordCorrelation

end Field

/-! ## The statistics of the list -/

section Batch

variable {K : Type*} [Field K]

/-- What the accumulator should be after a list. -/
def WelfordAccumulator.batch (xs : List K) : WelfordAccumulator K where
  n := xs.length
  mean := Moments.mean xs
  m2 := Moments.squares xs

/-- What it should be after a list of pairs. -/
def WelfordCorrelation.batch (ps : List (K × K)) : WelfordCorrelation K where
  n := ps.length
  accX := .batch (ps.map Prod.fst)
  accY := .batch (ps.map Prod.snd)
  cXY := Moments.coMoment ps

/-- The variance of a list. -/
def sampleVariance (xs : List K) : K := Moments.squares xs / (xs.length - 1 : ℕ)

theorem WelfordCorrelation.batch_perm {ps qs : List (K × K)} (h : ps.Perm qs) : batch ps = batch qs := by
  simp only [batch, WelfordAccumulator.batch, h.length_eq, (h.map Prod.fst).length_eq,
    (h.map Prod.snd).length_eq, Moments.mean_perm (h.map Prod.fst), Moments.mean_perm (h.map Prod.snd),
    Moments.squares_perm (h.map Prod.fst), Moments.squares_perm (h.map Prod.snd),
    Moments.coMoment_perm h]

variable [CharZero K]

theorem WelfordAccumulator.batch_update (xs : List K) (x : K) :
    (batch xs).update x = batch (xs ++ [x]) := by
  have hmean := Moments.mean_concat xs x
  have hsquares := Moments.squares_concat xs x
  simp only [update, batch, hsquares, hmean, List.length_append, List.length_singleton]

theorem WelfordAccumulator.updates_eq_batch (xs : List K) : updates xs = batch xs := by
  induction xs using List.reverseRecOn with
  | nil => simp [updates, batch, Moments.mean_nil, Moments.squares]
  | append_singleton xs x ih =>
      rw [updates, List.foldl_append, ← updates, ih]
      exact batch_update xs x

theorem WelfordCorrelation.batch_update (ps : List (K × K)) (p : K × K) :
    (batch ps).update p = batch (ps ++ [p]) := by
  have hX := WelfordAccumulator.batch_update (ps.map Prod.fst) p.1
  have hY := WelfordAccumulator.batch_update (ps.map Prod.snd) p.2
  have hXY := Moments.coMoment_concat ps p
  simp only [List.map_append, List.map_singleton] at hXY
  simp only [update, batch, hX, hY, hXY, List.map_append, List.map_singleton, List.length_append,
    List.length_singleton]
  rfl

theorem WelfordCorrelation.updates_eq_batch (ps : List (K × K)) : updates ps = batch ps := by
  induction ps using List.reverseRecOn with
  | nil => rw [batch, ← WelfordAccumulator.updates_eq_batch, ← WelfordAccumulator.updates_eq_batch]; rfl
  | append_singleton ps p ih =>
      rw [updates, List.foldl_append, ← updates, ih]
      exact batch_update ps p

end Batch

section Order

variable {K : Type*} [Field K] [LinearOrder K] [IsStrictOrderedRing K]

theorem WelfordAccumulator.batch_variance (xs : List K) : (batch xs).variance = sampleVariance xs := by
  unfold variance sampleVariance
  split
  · rename_i hfew
    have hzero : xs.length - 1 = 0 := by
      have hlength : xs.length < 2 := hfew
      omega
    rw [hzero, Nat.cast_zero, div_zero]
  · exact max_eq_right (div_nonneg (Moments.squares_nonneg xs) (Nat.cast_nonneg _))

theorem WelfordAccumulator.batch_variance_mul (xs : List K) (h : ¬xs.length < 2) :
    (batch xs).variance * (xs.length - 1 : ℕ) = Moments.squares xs := by
  rw [batch_variance, sampleVariance, div_mul_cancel₀ _ (Nat.cast_ne_zero.2 (by omega))]

/-- The correlation is within its bounds because the co-moment is. -/
theorem WelfordCorrelation.batch_correlation_mem (R : SquareRoot K) (ps : List (K × K)) :
    -1 ≤ (batch ps).correlation R ∧ (batch ps).correlation R ≤ 1 := by
  unfold correlation
  split
  · exact ⟨by norm_num, by norm_num⟩
  · rename_i hmany
    have hX := WelfordAccumulator.batch_variance_mul (ps.map Prod.fst) (by rwa [List.length_map])
    have hY := WelfordAccumulator.batch_variance_mul (ps.map Prod.snd) (by rwa [List.length_map])
    rw [List.length_map] at hX hY
    simp only [batch, hX, hY]
    split
    · exact ⟨by norm_num, by norm_num⟩
    · rename_i hvar
      obtain ⟨hX0, hY0⟩ := not_or.1 hvar
      have hXpos := lt_of_le_of_ne (Moments.squares_nonneg (ps.map Prod.fst)) (Ne.symm hX0)
      have hYpos := lt_of_le_of_ne (Moments.squares_nonneg (ps.map Prod.snd)) (Ne.symm hY0)
      exact R.div_sqrt_mem (mul_pos hXpos hYpos) (Moments.coMoment_sq_le ps)

theorem streaming_eq_batch (R : SquareRoot K) (ps : List (K × K)) :
    (∀ xs : List K, (WelfordAccumulator.updates xs).mean = xs.sum / xs.length ∧
      (WelfordAccumulator.updates xs).variance = sampleVariance xs) ∧
    (WelfordCorrelation.updates ps).accX = WelfordAccumulator.updates (ps.map Prod.fst) ∧
    (WelfordCorrelation.updates ps).accY = WelfordAccumulator.updates (ps.map Prod.snd) ∧
    (WelfordCorrelation.updates ps).cXY = Moments.coMoment ps ∧
    (WelfordCorrelation.updates ps).cXY ^ 2
      ≤ Moments.squares (ps.map Prod.fst) * Moments.squares (ps.map Prod.snd) ∧
    -1 ≤ (WelfordCorrelation.updates ps).correlation R ∧
    (WelfordCorrelation.updates ps).correlation R ≤ 1 ∧
    ∀ qs, qs.Perm ps → WelfordCorrelation.updates qs = WelfordCorrelation.updates ps := by
  have hps := WelfordCorrelation.updates_eq_batch ps
  refine ⟨fun xs => ?_, ?_, ?_, ?_, ?_, ?_, ?_, fun qs hperm => ?_⟩
  · rw [WelfordAccumulator.updates_eq_batch, WelfordAccumulator.batch_variance]
    exact ⟨rfl, rfl⟩
  · rw [hps, WelfordAccumulator.updates_eq_batch]
    rfl
  · rw [hps, WelfordAccumulator.updates_eq_batch]
    rfl
  · rw [hps]
    rfl
  · rw [hps]
    exact Moments.coMoment_sq_le ps
  · rw [hps]
    exact (WelfordCorrelation.batch_correlation_mem R ps).1
  · rw [hps]
    exact (WelfordCorrelation.batch_correlation_mem R ps).2
  · rw [hps, WelfordCorrelation.updates_eq_batch, WelfordCorrelation.batch_perm hperm]

theorem streaming_eq_batch_two :
    (WelfordCorrelation.updates [((1 : ℝ), (2 : ℝ)), (3, 5)]).cXY
        = Moments.coMoment [((1 : ℝ), (2 : ℝ)), (3, 5)] ∧
      (WelfordCorrelation.updates [((1 : ℝ), (2 : ℝ)), (3, 5)]).correlation SquareRoot.real ≤ 1 :=
  have h := streaming_eq_batch SquareRoot.real [((1 : ℝ), (2 : ℝ)), (3, 5)]
  ⟨h.2.2.2.1, h.2.2.2.2.2.2.1⟩

end Order

end TradeBot
