import Mathlib.Tactic.LinearCombination
import TradeBot.MarketData.LeaderTracker

set_option autoImplicit false

/-! # The shift of two windows

`recompute_lag_observation_` reads the two windows against each other at shifts in both directions. A
positive shift moves the leader's samples; a negative one only shortens the range and reads the samples
that stand at the same place. So a negative lag is observed when its unshifted correlation happens to be
the first maximum as well (`recompute_eq_iff`).

The correlation of two columns is their co-moment divided by the root of both sums of squares, and
the loop keeps the first shift with the greatest one. So everything is decided by which pairs of
samples a shift reads (`readPairs_of_nonneg`, `readPairs_of_neg`), and the search itself is that of
`Lib/FirstMaximum`. -/

namespace TradeBot.LeaderTracker

open FirstMaximum

variable {K : Type*} [Field K]

/-- The pairs `(dl[i - shift], df[i])` for every `i` for which both exist. -/
def alignedPairs (dl df : List K) (shift : ℤ) : List (K × K) :=
  List.zip (dl.drop (-shift).toNat) (df.drop shift.toNat)

/-- The first of the shifts with the greatest score, 0 if no shift has one. -/
def IsBestShift {K : Type*} [LinearOrder K] (score : ℤ → Option K) (s : Set ℤ) (shift : ℤ) : Prop :=
  (∃ r, IsFirstMaximum score s shift r) ∨ (∀ k ∈ s, score k = none) ∧ shift = 0

/-- The shifts that are tried. -/
def lagRange (maxLag : ℕ) : Set ℤ := Set.Icc (-(maxLag : ℤ)) maxLag

/-! ## What the loop reads -/

variable {dl df : List K} {shift : ℤ}

theorem crossSums_eq (ps : List (K × K)) :
    crossSums ps = ((ps.map fun p => p.1 * p.2).sum, (ps.map fun p => p.1 ^ 2).sum,
      (ps.map fun p => p.2 ^ 2).sum) := by
  induction ps using List.reverseRecOn with
  | nil => rfl
  | append_singleton ps p ih =>
      rw [crossSums, List.foldl_append, ← crossSums, ih]
      simp [pow_two]

theorem readPairs_length (dl df : List K) (shift : ℤ) :
    (readPairs dl df shift).length
      = df.length - (max 0 (-shift)).toNat - (max 0 shift).toNat := by
  simp [readPairs]

theorem readPairs_of_nonneg (hpaired : dl.length = df.length) (h : 0 ≤ shift) :
    readPairs dl df shift = alignedPairs dl df shift := by
  obtain ⟨k, rfl⟩ := Int.eq_ofNat_of_zero_le h
  refine List.ext_getElem (by simp [readPairs, alignedPairs]; omega) fun j hj _ => ?_
  rw [readPairs_length] at hj
  have hdl : j < dl.length := by omega
  have hdf : k + j < df.length := by omega
  simp [readPairs, alignedPairs, hdl, hdf]

theorem readPairs_of_neg (hpaired : dl.length = df.length) (h : shift < 0) :
    readPairs dl df shift = (dl.zip df).take (df.length - (-shift).toNat) := by
  obtain ⟨m, rfl⟩ : ∃ m : ℕ, shift = -m := ⟨(-shift).toNat, by omega⟩
  refine List.ext_getElem (by simp [readPairs]; omega) fun j hj _ => ?_
  rw [readPairs_length] at hj
  have hdl : j < dl.length := by omega
  have hdf : j < df.length := by omega
  simp [readPairs, hdl, hdf]

theorem centred_length (v : List K) : (centred v).length = v.length := List.length_map _

/-! ## The shift of the greatest correlation -/

variable [LinearOrder K]

/-- Correlation of the pairs; none for less than five pairs or where one side does not move. -/
def normalised (R : SquareRoot K) (ps : List (K × K)) : Option K :=
  let sxx := (ps.map fun p : K × K => p.1 ^ 2).sum
  let syy := (ps.map fun p : K × K => p.2 ^ 2).sum
  if ps.length ≤ 4 then none
  else if sxx ≤ 1 / ((10 ^ 18 : ℕ) : K) ∨ syy ≤ 1 / ((10 ^ 18 : ℕ) : K) then none
  else some ((ps.map fun p => p.1 * p.2).sum / R.sqrt (sxx * syy))

/-- The correlation of the samples that a shift really brings together. -/
def alignedCorrelation (R : SquareRoot K) (st : LeaderTracker K) (shift : ℤ) : Option K :=
  normalised R (alignedPairs (centred st.wLeader) (centred st.wFollower) shift)

/-! ## What the loop computes -/

/-- Samples at the same place, without the last `m` places. -/
def unshiftedCorrelation (R : SquareRoot K) (st : LeaderTracker K) (m : ℕ) : Option K :=
  normalised R (((centred st.wLeader).zip (centred st.wFollower)).take (st.wFollower.length - m))

/-- The correlation that the loop finds at a shift. -/
def foundCorrelation (R : SquareRoot K) (st : LeaderTracker K) (shift : ℤ) : Option K :=
  if 0 ≤ shift then st.alignedCorrelation R shift else st.unshiftedCorrelation R (-shift).toNat

variable {R : SquareRoot K} {st : LeaderTracker K}

theorem shiftCorrelation_eq (R : SquareRoot K) (dl df : List K) (shift : ℤ) :
    shiftCorrelation R dl df shift = normalised R (readPairs dl df shift) := by
  have hlength := readPairs_length dl df shift
  unfold shiftCorrelation normalised
  rw [crossSums_eq]
  by_cases hfew : df.length - (max 0 (-shift)).toNat ≤ (max 0 shift).toNat + 4
  · rw [if_pos hfew, if_pos (by omega)]
  · rw [if_neg hfew, if_neg (by omega)]

theorem shiftCorrelation_eq_found (R : SquareRoot K) (st : LeaderTracker K) (shift : ℤ) :
    shiftCorrelation R (centred st.wLeader) (centred st.wFollower) shift
      = st.foundCorrelation R shift := by
  have hpaired : (centred st.wLeader).length = (centred st.wFollower).length := by
    rw [centred_length, centred_length, st.paired]
  rw [shiftCorrelation_eq, foundCorrelation]
  split
  · rename_i h
    rw [readPairs_of_nonneg hpaired h, alignedCorrelation]
  · rename_i h
    rw [readPairs_of_neg hpaired (not_le.1 h), unshiftedCorrelation, centred_length]

theorem mem_lagRange {maxLag : ℕ} {k : ℤ} : k ∈ lagRange maxLag ↔ -(maxLag : ℤ) ≤ k ∧ k ≤ maxLag :=
  Set.mem_Icc

theorem mem_shifts {maxLag : ℕ} {k : ℤ} : k ∈ shifts maxLag ↔ k ∈ lagRange maxLag := by
  rw [shifts, List.mem_map, mem_lagRange]
  constructor
  · rintro ⟨n, hn, rfl⟩
    have hlt : n < 2 * maxLag + 1 := List.mem_range.1 hn
    omega
  · rintro ⟨hlo, hhi⟩
    exact ⟨(k + maxLag).toNat, List.mem_range.2 (by omega), by omega⟩

theorem shifts_pairwise (maxLag : ℕ) : (shifts maxLag).Pairwise (· < ·) :=
  List.pairwise_map.2 (List.pairwise_lt_range.imp fun h => by omega)

variable [IsStrictOrderedRing K]

theorem normalised_mem {ps : List (K × K)} {r : K} (h : r ∈ normalised R ps) : -1 ≤ r ∧ r ≤ 1 := by
  have hsmall : (0 : K) < 1 / ((10 ^ 18 : ℕ) : K) := by positivity
  simp only [normalised] at h
  split at h
  · exact absurd h.symm (Option.some_ne_none r)
  · split at h
    · exact absurd h.symm (Option.some_ne_none r)
    · rename_i hmoves
      obtain ⟨hx, hy⟩ := not_or.1 hmoves
      rw [← Option.some.inj h]
      exact R.div_sqrt_mem (mul_pos (hsmall.trans (not_le.1 hx)) (hsmall.trans (not_le.1 hy)))
        (Moments.sum_mul_sq_le ps)

theorem foundCorrelation_mem {r : K} (h : r ∈ st.foundCorrelation R shift) : -1 ≤ r ∧ r ≤ 1 := by
  unfold foundCorrelation at h
  split at h
  · exact normalised_mem h
  · exact normalised_mem h

theorem search_isBestShift (maxLag : ℕ) {score : ℤ → Option K}
    (hscore : ∀ k, ∀ r ∈ score k, -1 ≤ r ∧ r ≤ 1) :
    IsBestShift score (lagRange maxLag) ((shifts maxLag).foldl (FirstMaximum.step score)
      (-((2 : ℕ) : K), 0)).2 := by
  have hset : {k | k ∈ shifts maxLag} = lagRange maxLag := Set.ext fun _ => mem_shifts
  have hfloor : ∀ k ∈ shifts maxLag, ∀ r ∈ score k, -((2 : ℕ) : K) < r := fun k _ r hr =>
    lt_of_lt_of_le (by norm_num) (hscore k r hr).1
  rcases foldl_step (shifts_pairwise maxLag) (d := (0 : ℤ)) hfloor with ⟨i, r, heq, hmax⟩ | ⟨hnone, heq⟩
  · rw [heq]
    rw [hset] at hmax
    exact .inl ⟨r, hmax⟩
  · rw [heq]
    exact .inr ⟨fun k hk => hnone k (mem_shifts.2 hk), rfl⟩

section

omit [Field K] [IsStrictOrderedRing K]

variable {score score' : ℤ → Option K} {s t : Set ℤ} {i j : ℤ}

theorem IsBestShift.unique (hi : IsBestShift score s i) (hj : IsBestShift score s j) : i = j := by
  rcases hi with ⟨r, hi⟩ | ⟨hnone, rfl⟩
  · rcases hj with ⟨x, hj⟩ | ⟨hnone, rfl⟩
    · exact hi.unique hj
    · exact absurd (hi.score_eq.symm.trans (hnone i hi.mem)) (Option.some_ne_none r)
  · rcases hj with ⟨x, hj⟩ | ⟨-, rfl⟩
    · exact absurd (hj.score_eq.symm.trans (hnone j hj.mem)) (Option.some_ne_none x)
    · rfl

theorem IsBestShift.mem_lagRange {maxLag : ℕ} (h : IsBestShift score (lagRange maxLag) i) :
    i ∈ lagRange maxLag := by
  rcases h with ⟨r, hmax⟩ | ⟨-, rfl⟩
  · exact hmax.mem
  · exact LeaderTracker.mem_lagRange.2 ⟨by omega, by omega⟩

theorem IsBestShift.restrict (h : IsBestShift score s i) (hsub : t ⊆ s) (hi : i ∈ t) :
    IsBestShift score t i := by
  rcases h with ⟨r, hmax⟩ | ⟨hnone, rfl⟩
  · exact .inl ⟨r, hmax.restrict hsub hi⟩
  · exact .inr ⟨fun k hk => hnone k (hsub hk), rfl⟩

theorem IsBestShift.congr (h : IsBestShift score s i) (heq : ∀ k ∈ s, score k = score' k) :
    IsBestShift score' s i := by
  rcases h with ⟨r, hmax⟩ | ⟨hnone, rfl⟩
  · exact .inl ⟨r, hmax.congr heq⟩
  · exact .inr ⟨fun k hk => (heq k hk).symm.trans (hnone k hk), rfl⟩

theorem IsBestShift.of_ne_zero (h : IsBestShift score s i) (hi : i ≠ 0) :
    ∃ r, IsFirstMaximum score s i r := by
  rcases h with hmax | ⟨-, rfl⟩
  · exact hmax
  · exact absurd rfl hi

/-- An earlier score is beaten. -/
theorem IsBestShift.lt_of_lt (h : IsBestShift score s i) (hj : j ∈ s) (hlt : j < i) {x : K}
    (hx : x ∈ score j) : ∃ r, score i = some r ∧ i ∈ s ∧ x < r := by
  rcases h with ⟨r, hmax⟩ | ⟨hnone, rfl⟩
  · exact ⟨r, hmax.score_eq, hmax.mem, hmax.first j hj hlt x hx⟩
  · rw [hnone j hj] at hx
    exact absurd hx.symm (Option.some_ne_none x)

end

/-! ## When the shift found is the right one -/

/-- The first shift with the greatest correlation of aligned samples. -/
def IsLagShift (R : SquareRoot K) (st : LeaderTracker K) : ℤ → Prop :=
  IsBestShift (st.alignedCorrelation R) (lagRange st.cfg.xcorrMaxLagSteps)

/-- At every negative shift both the correlation there and the unshifted one are below a correlation at
a shift that is not negative. -/
def NonNegativeWins (R : SquareRoot K) (st : LeaderTracker K) : Prop :=
  ∀ m : ℕ, 1 ≤ m → m ≤ st.cfg.xcorrMaxLagSteps →
    ∀ x, x ∈ st.unshiftedCorrelation R m ∨ x ∈ st.alignedCorrelation R (-m) →
      ∃ k : ℕ, k ≤ st.cfg.xcorrMaxLagSteps ∧ ∃ r ∈ st.alignedCorrelation R k, x < r

/-- The same negative shift is the first maximum of the aligned correlations, and of the correlations
with the unshifted ones in place of those at negative shifts. -/
def NegativeAgrees (R : SquareRoot K) (st : LeaderTracker K) : Prop :=
  ∃ m : ℕ, 1 ≤ m ∧
    (∃ r, IsFirstMaximum (st.alignedCorrelation R) (lagRange st.cfg.xcorrMaxLagSteps) (-m) r) ∧
    ∃ r, IsFirstMaximum (st.foundCorrelation R) (lagRange st.cfg.xcorrMaxLagSteps) (-m) r

omit [IsStrictOrderedRing K] in
theorem foundCorrelation_of_nonneg (h : 0 ≤ shift) :
    st.foundCorrelation R shift = st.alignedCorrelation R shift := if_pos h

omit [IsStrictOrderedRing K] in
theorem foundCorrelation_neg {m : ℕ} (hm : 1 ≤ m) :
    st.foundCorrelation R (-m) = st.unshiftedCorrelation R m := by
  rw [foundCorrelation, if_neg (by omega), neg_neg, Int.toNat_natCast]

section

omit [IsStrictOrderedRing K]

/-- Where no negative shift reaches the scores of the others, the best shift is not negative. -/
theorem NonNegativeWins.nonneg (h : st.NonNegativeWins R) {score : ℤ → Option K} {i : ℤ}
    (hscore : ∀ k : ℕ, score k = st.alignedCorrelation R k)
    (hneg : ∀ m : ℕ, 1 ≤ m → ∀ x ∈ score (-m),
      x ∈ st.unshiftedCorrelation R m ∨ x ∈ st.alignedCorrelation R (-m))
    (hi : IsBestShift score (lagRange st.cfg.xcorrMaxLagSteps) i) : 0 ≤ i := by
  by_contra hlt
  obtain ⟨m, rfl⟩ : ∃ m : ℕ, i = -m := ⟨(-i).toNat, by omega⟩
  have hm : 1 ≤ m := by omega
  obtain ⟨x, hmax⟩ := hi.of_ne_zero (by omega)
  have hrange := mem_lagRange.1 hmax.mem
  obtain ⟨k, hk, r, hr, hxr⟩ := h m hm (by omega) x (hneg m hm x hmax.score_eq)
  have hle := hmax.le k (mem_lagRange.2 ⟨by omega, by omega⟩) r (by rw [hscore k]; exact hr)
  exact absurd hxr (not_lt.2 hle)

theorem found_eq_aligned_iff {c k : ℤ}
    (hc : IsBestShift (st.foundCorrelation R) (lagRange st.cfg.xcorrMaxLagSteps) c)
    (hk : st.IsLagShift R k) : c = k ↔ st.NonNegativeWins R ∨ st.NegativeAgrees R := by
  constructor
  · rintro rfl
    rcases lt_or_ge c 0 with hneg | hnonneg
    · obtain ⟨m, rfl⟩ : ∃ m : ℕ, c = -m := ⟨(-c).toNat, by omega⟩
      exact .inr ⟨m, by omega, hk.of_ne_zero (by omega), hc.of_ne_zero (by omega)⟩
    · refine .inl fun m hm hmK x hx => ?_
      have hin : -(m : ℤ) ∈ lagRange st.cfg.xcorrMaxLagSteps := mem_lagRange.2 ⟨by omega, by omega⟩
      have hbeaten : ∃ r, st.alignedCorrelation R c = some r ∧ c ∈ lagRange st.cfg.xcorrMaxLagSteps ∧
          x < r := by
        rcases hx with hx | hx
        · rw [← foundCorrelation_of_nonneg hnonneg]
          exact hc.lt_of_lt hin (by omega) (by rwa [foundCorrelation_neg hm])
        · exact hk.lt_of_lt hin (by omega) hx
      obtain ⟨r, hr, hrange, hxr⟩ := hbeaten
      have hcK := (mem_lagRange.1 hrange).2
      exact ⟨c.toNat, by omega, r, by rwa [Int.toNat_of_nonneg hnonneg], hxr⟩
  · rintro (hwins | ⟨m, -, ⟨r, hmax⟩, r', hmax'⟩)
    · have hc0 : 0 ≤ c := hwins.nonneg (fun k => foundCorrelation_of_nonneg (by omega))
        (fun m hm x hx => .inl (by rwa [← foundCorrelation_neg hm])) hc
      have hk0 : 0 ≤ k := hwins.nonneg (fun _ => rfl) (fun m _ x hx => .inr hx) hk
      -- on the shifts that are not negative both searches read the same scores
      have hsub : {i ∈ lagRange st.cfg.xcorrMaxLagSteps | 0 ≤ i} ⊆ lagRange st.cfg.xcorrMaxLagSteps :=
        Set.sep_subset _ _
      have hcT := (hc.restrict hsub ⟨hc.mem_lagRange, hc0⟩).congr
        fun i hi => foundCorrelation_of_nonneg hi.2
      exact hcT.unique (IsBestShift.restrict hk hsub ⟨IsBestShift.mem_lagRange hk, hk0⟩)
    · exact (hc.unique (.inl ⟨r', hmax'⟩)).trans (IsBestShift.unique hk (.inl ⟨r, hmax⟩)).symm

end

/-- The observation is the best shift of the correlations found. -/
theorem recompute_eq_found (R : SquareRoot K) (st : LeaderTracker K) :
    ∃ c : ℤ, IsBestShift (st.foundCorrelation R) (lagRange st.cfg.xcorrMaxLagSteps) c ∧
      st.recomputeLagObservation R = c * st.cfg.dtSec * ((1000 : ℕ) : K) := by
  have hfound : shiftCorrelation R (centred st.wLeader) (centred st.wFollower) = st.foundCorrelation R :=
    funext fun k => shiftCorrelation_eq_found R st k
  refine ⟨_, search_isBestShift _ fun k r hr => foundCorrelation_mem hr, ?_⟩
  rw [recomputeLagObservation, hfound]

theorem exists_isLagShift (R : SquareRoot K) (st : LeaderTracker K) : ∃ k, st.IsLagShift R k :=
  ⟨_, search_isBestShift _ fun _ _ hr => normalised_mem hr⟩

theorem shift_inj {dt : K} (hdt : dt ≠ 0) {c k : ℤ}
    (h : (c : K) * dt * ((1000 : ℕ) : K) = 1000 * dt * k) : c = k := by
  have hmul : (c : K) * (dt * 1000) = k * (dt * 1000) := by linear_combination h
  exact Int.cast_injective (mul_right_cancel₀ (mul_ne_zero hdt (by norm_num)) hmul)

theorem recompute_eq_iff (R : SquareRoot K) (st : LeaderTracker K) :
    (∃ shift, st.IsLagShift R shift ∧
      st.recomputeLagObservation R = 1000 * st.cfg.dtSec * shift) ↔
      st.cfg.dtSec = 0 ∨ st.NonNegativeWins R ∨ st.NegativeAgrees R := by
  obtain ⟨c, hc, hobs⟩ := recompute_eq_found R st
  obtain ⟨k, hk⟩ := exists_isLagShift R st
  have hiff := found_eq_aligned_iff hc hk
  rw [hobs]
  constructor
  · rintro ⟨shift, hshift, heq⟩
    obtain rfl := IsBestShift.unique hshift hk
    by_cases hdt : st.cfg.dtSec = 0
    · exact .inl hdt
    · exact .inr (hiff.1 (shift_inj hdt heq))
  · rintro (hdt | hcond)
    · exact ⟨k, hk, by simp [hdt]⟩
    · refine ⟨k, hk, ?_⟩
      rw [hiff.2 hcond]
      ring

/-- The leader repeats the prices of the follower one sample later. -/
noncomputable def leadingFollower : LeaderTracker ℝ where
  cfg := {
    xcorrWindow := 6
    xcorrMaxLagSteps := 1
    dtSec := (1 / 10 : ℚ)
    cusumBaseline := (7 / 10 : ℚ)
    cusumDrift := (1 / 20 : ℚ)
    cusumThreshold := 1
    kalman := .default }
  wLeader := [9, 12, 9, 11, 8, 11].map fun price : ℕ => (price : ℝ)
  wFollower := [12, 9, 11, 8, 11, 9].map fun price : ℕ => (price : ℝ)
  kalman := .create .default
  paired := rfl

theorem recompute_eq_iff_leadingFollower :
    (∃ shift, leadingFollower.IsLagShift .real shift ∧
      leadingFollower.recomputeLagObservation .real = 1000 * leadingFollower.cfg.dtSec * shift) ↔
      leadingFollower.cfg.dtSec = 0 ∨ leadingFollower.NonNegativeWins .real ∨
        leadingFollower.NegativeAgrees .real :=
  recompute_eq_iff .real leadingFollower

theorem centred_leadingFollower :
    centred leadingFollower.wLeader = [-1, 2, -1, 1, -2, 1] ∧
      centred leadingFollower.wFollower = [2, -1, 1, -2, 1, -1] := by
  norm_num [centred, Moments.mean, leadingFollower]

/-- The aligned correlation at -1 is 1; the unshifted one is negative and the one at 1 positive. -/
theorem negative_lag_missed :
    ¬ ∀ st : LeaderTracker ℝ, 2 * st.cfg.xcorrMaxLagSteps + 4 ≤ st.wLeader.length →
      ∃ shift, st.IsLagShift .real shift ∧
        st.recomputeLagObservation .real = 1000 * st.cfg.dtSec * shift := by
  intro hall
  obtain ⟨hleader, hfollower⟩ := centred_leadingFollower
  obtain ⟨shift, hshift, heq⟩ := hall leadingFollower (by simp [leadingFollower])
  obtain ⟨c, hc, hobs⟩ := recompute_eq_found .real leadingFollower
  have hcs : c = shift := shift_inj (by norm_num [leadingFollower]) (hobs.symm.trans heq)
  -- the best shift is the follower one step ahead, with all pairs aligned
  have haligned : leadingFollower.alignedCorrelation .real (-1) = some 1 := by
    have hroot : SquareRoot.real.sqrt (11 * 11) = 11 := SquareRoot.real.sqrt_mul_self (by norm_num)
    have hpairs : alignedPairs [-1, 2, -1, 1, -2, 1] [2, -1, 1, -2, 1, -1] (-1)
        = [((2 : ℝ), (2 : ℝ)), (-1, -1), (1, 1), (-2, -2), (1, 1)] := rfl
    rw [alignedCorrelation, hleader, hfollower, hpairs]
    norm_num [normalised] at hroot ⊢
    rw [hroot]
    norm_num
  -- the loop reads unshifted pairs instead, and their correlation is negative
  have hunshifted : ∃ x < 0, leadingFollower.foundCorrelation .real (-1) = some x := by
    have hroot : 0 < SquareRoot.real.sqrt (11 * 11) := SquareRoot.real.pos (by norm_num)
    have hlength : leadingFollower.wFollower.length = 6 := rfl
    refine ⟨-9 / SquareRoot.real.sqrt (11 * 11), div_neg_of_neg_of_pos (by norm_num) hroot, ?_⟩
    rw [foundCorrelation, if_neg (by norm_num), unshiftedCorrelation, hleader, hfollower, hlength]
    norm_num [normalised]
  have hone : ∃ x, 0 < x ∧ leadingFollower.foundCorrelation .real 1 = some x := by
    have hroot : 0 < SquareRoot.real.sqrt (11 * 8) := SquareRoot.real.pos (by norm_num)
    refine ⟨8 / SquareRoot.real.sqrt (11 * 8), div_pos (by norm_num) hroot, ?_⟩
    have hpairs : alignedPairs [-1, 2, -1, 1, -2, 1] [2, -1, 1, -2, 1, -1] 1
        = [((-1 : ℝ), (-1 : ℝ)), (2, 1), (-1, -2), (1, 1), (-2, -1)] := rfl
    rw [foundCorrelation, if_pos (by norm_num), alignedCorrelation, hleader, hfollower, hpairs]
    norm_num [normalised]
  have hmax : IsFirstMaximum (leadingFollower.alignedCorrelation .real)
      (lagRange leadingFollower.cfg.xcorrMaxLagSteps) (-1) 1 := by
    refine ⟨mem_lagRange.2 (by decide), haligned, fun j _ x hx => (normalised_mem hx).2, ?_⟩
    exact fun j hj hlt => absurd (mem_lagRange.1 hj).1 (not_le.2 hlt)
  obtain rfl : shift = -1 := IsBestShift.unique hshift (.inl ⟨1, hmax⟩)
  -- so the shift found is another one
  obtain ⟨r, hfound⟩ := hc.of_ne_zero (by omega)
  obtain ⟨x, hx, hxeq⟩ := hunshifted
  obtain ⟨y, hy, hyeq⟩ := hone
  have hle : y ≤ r := hfound.le 1 (mem_lagRange.2 (by decide)) y hyeq
  have hr : x = r := Option.some.inj (hxeq.symm.trans (hcs ▸ hfound.score_eq))
  linarith

end TradeBot.LeaderTracker
