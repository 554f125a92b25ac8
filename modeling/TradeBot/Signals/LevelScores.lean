import TradeBot.Lib.Lanes
import TradeBot.Lib.Runs
import TradeBot.Signals.ApproachAnalyzer
import TradeBot.Signals.LevelStories
import TradeBot.Signals.RecordedExtremes

set_option autoImplicit false

/-! # The scores of levels

`numeric/Kde.hpp` estimates densities from the volumes of a cluster snapshot, in batches of as many
numbers as the processor takes at once. `rebuild_levels_` of `signals/LevelDetector.cpp` scores a level
by the density at its price, the number of its touches and the time since the last one.

The exponential function is a parameter of which only its values at numbers that are not positive
matter: they are positive and at most one. The score is a weighted mean of three shares, and each of
them is bounded by itself: the density by the peak of one kernel, the touches by a cap, the age by
its decay. -/

namespace TradeBot

open Runs

/-! ## Kernel densities -/

/-- What the density is made of in an item of a `ClusterSnapshot`. -/
structure ClusterItem where
  price : ℚ
  askSize : ℚ
  bidSize : ℚ

namespace ClusterItem

/-- The volume of an item of the snapshot. -/
def weight (item : ClusterItem) : ℚ := item.askSize + item.bidSize

end ClusterItem

namespace Kde

/-- `Kde::DataSet`. -/
structure DataSet where
  values : List ℚ
  weights : List ℚ
  totalWeight : ℚ

/-- The Padé approximant of `exp (-a)`, clipped where it grows again. -/
def kernel (a : ℚ) : ℚ :=
  if a < 9 / 2 then (12 - 6 * a + a * a) / (12 + 6 * a + a * a) else 0

/-- What the entry `j` adds to the sum. -/
def DataSet.term (data : DataSet) (q invH : ℚ) (j : ℕ) : ℚ :=
  let diff := (q - data.values.getD j 0) * invH
  data.weights.getD j 0 * kernel (1 / 2 * diff * diff)

/-- A bandwidth that is not positive is replaced by a small one. -/
def positive (bandwidth : ℚ) : ℚ := if bandwidth ≤ 0 then 1 / 1000000 else bandwidth

/-- `Kde::estimate`, with the number of lanes of a batch. -/
def estimate (lanes : ℕ) (data : DataSet) (queryPoints : List ℚ) (bandwidth : ℚ) : List ℚ :=
  if data.values = [] ∨ queryPoints = [] then []
  else if data.totalWeight ≤ 0 then List.replicate queryPoints.length 0
  else
    queryPoints.map fun q =>
      Lanes.sum lanes (data.term q (1 / positive bandwidth)) data.values.length
        / (data.totalWeight * positive bandwidth * kSqrt2Pi)

/-- The data that `rebuild_levels_` makes from a snapshot. -/
def DataSet.ofItems (items : List ClusterItem) : DataSet where
  values := items.map ClusterItem.price
  weights := items.map ClusterItem.weight
  totalWeight := (items.map ClusterItem.weight).sum

/-- `kde_val` at a centroid. -/
def kdeVal (lanes : ℕ) (items : List ClusterItem) (bandwidth centroid : ℚ) : ℚ :=
  if (DataSet.ofItems items).values = [] then 0
  else (estimate lanes (DataSet.ofItems items) [centroid] bandwidth).headD 0

/-- The density at a price: the volumes, by their distance in bandwidths. -/
def density (items : List ClusterItem) (h q : ℚ) : ℚ :=
  (items.map fun item => item.weight * kernel (((q - item.price) / h) ^ 2 / 2)).sum
    / ((items.map ClusterItem.weight).sum * h * kSqrt2Pi)

variable {items : List ClusterItem} {lanes : ℕ} {a h q bandwidth : ℚ}

theorem kernel_mem (ha : 0 ≤ a) : 0 ≤ kernel a ∧ kernel a ≤ 1 := by
  have hden : 0 < 12 + 6 * a + a * a := by positivity
  have hnum : 0 ≤ 12 - 6 * a + a * a := by nlinarith [sq_nonneg (a - 3)]
  unfold kernel
  split_ifs
  · exact ⟨div_nonneg hnum hden.le, (div_le_one hden).2 (by linarith)⟩
  · exact ⟨le_rfl, zero_le_one⟩

theorem positive_pos (bandwidth : ℚ) : 0 < positive bandwidth := by
  unfold positive
  split_ifs with h
  · norm_num
  · exact not_le.1 h

theorem kSqrt2Pi_pos : 0 < kSqrt2Pi := by norm_num [kSqrt2Pi]

/-- The entries of the columns are those of the items. -/
theorem sum_term (items : List ClusterItem) (q invH : ℚ) :
    ∑ j ∈ Finset.range items.length, (DataSet.ofItems items).term q invH j
      = (items.map fun item => item.weight *
          kernel (1 / 2 * ((q - item.price) * invH) * ((q - item.price) * invH))).sum := by
  induction items with
  | nil => rfl
  | cons item items ih =>
      rw [List.length_cons, Finset.sum_range_succ', List.map_cons, List.sum_cons, ← ih, add_comm]
      rfl

theorem lanes_sum_term :
    Lanes.sum lanes ((DataSet.ofItems items).term q (1 / h)) items.length
      = (items.map fun item => item.weight * kernel (((q - item.price) / h) ^ 2 / 2)).sum := by
  rw [Lanes.sum_eq, sum_term]
  refine congrArg List.sum (List.map_congr_left fun item _ => ?_)
  rw [mul_one_div]
  ring_nf

section

variable (hsizes : ∀ item ∈ items, 0 ≤ item.askSize ∧ 0 ≤ item.bidSize)
include hsizes

theorem weight_nonneg {item : ClusterItem} (hmem : item ∈ items) : 0 ≤ item.weight :=
  add_nonneg (hsizes item hmem).1 (hsizes item hmem).2

/-- A density is at most that of all volumes at the price itself. -/
theorem density_mem (hh : 0 < h) :
    0 ≤ density items h q ∧ density items h q ≤ 1 / (h * kSqrt2Pi) := by
  have hkernel (item : ClusterItem) := @kernel_mem (((q - item.price) / h) ^ 2 / 2) (by positivity)
  have htotal : 0 ≤ (items.map ClusterItem.weight).sum :=
    List.sum_nonneg (List.forall_mem_map.2 fun _ hmem => weight_nonneg hsizes hmem)
  have hnum : 0 ≤ (items.map fun item => item.weight * kernel (((q - item.price) / h) ^ 2 / 2)).sum :=
    List.sum_nonneg (List.forall_mem_map.2 fun item hmem =>
      mul_nonneg (weight_nonneg hsizes hmem) (hkernel item).1)
  have hle : (items.map fun item => item.weight * kernel (((q - item.price) / h) ^ 2 / 2)).sum
      ≤ (items.map ClusterItem.weight).sum :=
    List.sum_le_sum fun item hmem =>
      mul_le_of_le_one_right (weight_nonneg hsizes hmem) (hkernel item).2
  have hpeak : 0 < h * kSqrt2Pi := mul_pos hh kSqrt2Pi_pos
  rw [density, mul_assoc]
  refine ⟨div_nonneg hnum (mul_nonneg htotal hpeak.le), ?_⟩
  rcases htotal.eq_or_lt with hzero | hpos
  · rw [← hzero, zero_mul, div_zero]
    positivity
  · rw [← div_div]
    gcongr
    exact (div_le_one hpos).2 hle

theorem kdeVal_nonneg (lanes : ℕ) (bandwidth centroid : ℚ) :
    0 ≤ kdeVal lanes items bandwidth centroid := by
  unfold kdeVal estimate
  split_ifs with hvalues hnone htotal
  · exact le_rfl
  · exact le_rfl
  · exact le_rfl
  · rw [List.map_singleton, List.headD_cons]
    have hlength : (DataSet.ofItems items).values.length = items.length := List.length_map _
    rw [hlength, lanes_sum_term]
    exact (density_mem hsizes (positive_pos bandwidth)).1

end

/-- **The batches agree with the plain sum, for every number of lanes,** and no density exceeds the
    peak of one kernel. -/
theorem estimate_eq (lanes : ℕ) (queryPoints : List ℚ) (bandwidth : ℚ)
    (hsizes : ∀ item ∈ items, 0 ≤ item.askSize ∧ 0 ≤ item.bidSize)
    (hpos : 0 < (items.map ClusterItem.weight).sum) :
    let densities := estimate lanes (DataSet.ofItems items) queryPoints bandwidth
    densities = queryPoints.map (density items (positive bandwidth)) ∧
      ∀ x ∈ densities, 0 ≤ x ∧ x ≤ 1 / (positive bandwidth * kSqrt2Pi) := by
  have heq : estimate lanes (DataSet.ofItems items) queryPoints bandwidth
      = queryPoints.map (density items (positive bandwidth)) := by
    have hvalues : (DataSet.ofItems items).values ≠ [] := by
      rintro hnil
      rw [List.map_eq_nil_iff.1 hnil] at hpos
      exact hpos.false
    have hlength : (DataSet.ofItems items).values.length = items.length := List.length_map _
    have htotal : ¬ (DataSet.ofItems items).totalWeight ≤ 0 := hpos.not_ge
    rcases eq_or_ne queryPoints [] with rfl | hqueries
    · exact if_pos (.inr rfl)
    · rw [estimate, if_neg (by simp [hvalues, hqueries]), if_neg htotal, hlength]
      exact List.map_congr_left fun q _ => by rw [lanes_sum_term]; rfl
  refine ⟨heq, fun x hx => ?_⟩
  rw [heq] at hx
  obtain ⟨q, -, rfl⟩ := List.mem_map.1 hx
  exact density_mem hsizes (positive_pos bandwidth)

theorem estimate_eq_three :
    let items := [⟨100, 1, 0⟩, ⟨101, 2, 1⟩, ⟨105, 0, 4⟩]
    let densities := estimate 2 (DataSet.ofItems items) [100, 103] 1
    densities = [100, 103].map (density items (positive 1)) ∧
      ∀ x ∈ densities, 0 ≤ x ∧ x ≤ 1 / (positive 1 * kSqrt2Pi) :=
  estimate_eq 2 [100, 103] 1 (by decide +kernel) (by decide +kernel)

end Kde

/-! ## The times of the extremes -/

namespace LevelExtremes

variable {cfg : ExtremesConfig} {s : LevelExtremes} {frame : FeatureFrame}

/-- No extreme is newer than all samples of the history. -/
def Dated (s : LevelExtremes) : Prop :=
  ∀ e ∈ s.extremes, ∃ sample ∈ s.midHistory.entries, e.ts ≤ sample.1

theorem Dated.sample (h : s.Dated)
    (htime : ∀ sample ∈ s.midHistory.entries, sample.1 ≤ frame.timestamp) :
    (s.sample frame).Dated := by
  intro e he
  obtain ⟨sample, hsample, hle⟩ := h e he
  refine ⟨(frame.timestamp, frame.mid), ?_, hle.trans (htime sample hsample)⟩
  rw [midHistory_sample, CircularBuffer.entries_pushBack_succ]
  exact List.mem_append_right _ (List.mem_singleton_self _)

theorem Dated.recordAt (h : s.Dated) (hw : ℕ) : (s.recordAt cfg hw).Dated := by
  unfold LevelExtremes.recordAt
  split
  · exact h
  · next e hfound =>
      split_ifs
      · exact h
      · intro e' he'
        rcases CircularBuffer.mem_of_mem_pushBack he' with he' | rfl
        · exact h e' he'
        · obtain ⟨earlier, before, after, later, hsplit, -⟩ :=
            isTurningPoint_of_turningPoint? List.suffix_rfl hfound
          exact ⟨(e'.ts, e'.price), by rw [hsplit]; simp, le_rfl⟩

theorem Dated.updateExtremes (h : s.Dated)
    (htime : ∀ sample ∈ s.midHistory.entries, sample.1 ≤ frame.timestamp) :
    (s.updateExtremes cfg frame).Dated :=
  List.foldlRecOn (motive := Dated) _ _ (h.sample htime) fun _ hs hw _ => hs.recordAt hw

theorem midHistory_updateExtremes :
    (s.updateExtremes cfg frame).midHistory = s.midHistory.pushBack (frame.timestamp, frame.mid) :=
  List.foldlRecOn (motive := fun s' : LevelExtremes =>
    s'.midHistory = s.midHistory.pushBack (frame.timestamp, frame.mid)) _ _ rfl fun s' hs hw _ => by
      rw [← hs, LevelExtremes.recordAt]
      split
      · rfl
      · split_ifs <;> rfl

end LevelExtremes

/-! ## Scores -/

/-- The scores of a level are shares. -/
structure Level.Scored (l : Level) : Prop where
  kdeScore_mem : 0 ≤ l.kdeScore ∧ l.kdeScore ≤ 1
  confidence_mem : 0 ≤ l.confidence ∧ l.confidence ≤ 1

/-- What a step takes from the other components. -/
def LevelOp.inputs : LevelOp → LevelDetector.Inputs
  | .frame _ inputs => inputs
  | .rebuild _ inputs => inputs

namespace LevelDetector

section

variable (d : LevelDetector) (lanes : ℕ) (op : LevelOp)

/-- When a step samples or rebuilds. -/
def time? : LevelOp → Option TimePoint
  | .frame frame _ =>
      if frame.ticker ≠ d.ticker ∨ frame.valid = false then none else some frame.timestamp
  | .rebuild now _ => some now

/-- A step is not older than the samples of the history. -/
def InTime : Prop := ∀ now ∈ d.time? op, 0 ≤ now ∧ ∀ sample ∈ d.midHistory.entries, sample.1 ≤ now

instance : Decidable (d.InTime op) :=
  inferInstanceAs
    (Decidable (∀ now ∈ d.time? op, 0 ≤ now ∧ ∀ sample ∈ d.midHistory.entries, sample.1 ≤ now))

/-- Its densities come from a snapshot with sizes that are not negative. -/
def FromSnapshot : Prop :=
  ∃ items bandwidth, (∀ item ∈ items, 0 ≤ item.askSize ∧ 0 ≤ item.bidSize) ∧
    op.inputs.density = Kde.kdeVal lanes items bandwidth

end

variable {exp : ℚ → ℚ} {priceIncrement : ℚ} {d : LevelDetector} {inputs : Inputs}
  {frame : FeatureFrame} {now : TimePoint} {lanes : ℕ} {op : LevelOp} {maxKde : ℚ} {p : Pending}

theorem FromSnapshot.density_nonneg (h : FromSnapshot lanes op) (q : ℚ) :
    0 ≤ op.inputs.density q := by
  obtain ⟨items, bandwidth, hsizes, heq⟩ := h
  rw [heq]
  exact Kde.kdeVal_nonneg hsizes lanes bandwidth q

theorem le_foldl_max {α : Type*} {f : α → ℚ} {l : List α} {a : α} {start : ℚ} (ha : a ∈ l) :
    f a ≤ l.foldl (fun m a => max m (f a)) start := by
  induction l using List.reverseRecOn with
  | nil => cases ha
  | append_singleton l b ih =>
      rw [List.foldl_append]
      rcases List.mem_append.1 ha with hmem | hlast
      · exact (ih hmem).trans (le_max_left _ _)
      · exact List.mem_singleton.1 hlast ▸ le_max_right _ _

section

variable (hexp : ∀ x ≤ 0, 0 ≤ exp x ∧ exp x ≤ 1)
include hexp

theorem scored_makeLevel (hkde : 0 ≤ p.kdeVal) (hmax : p.kdeVal ≤ maxKde) (hts : p.lastTs ≤ now) :
    (makeLevel exp now maxKde p).Scored := by
  have hscore :
      0 ≤ (makeLevel exp now maxKde p).kdeScore ∧ (makeLevel exp now maxKde p).kdeScore ≤ 1 := by
    simp only [makeLevel]
    split_ifs with hpos
    · exact ⟨div_nonneg hkde hpos.le, (div_le_one hpos).2 hmax⟩
    · exact ⟨le_rfl, zero_le_one⟩
  have htouches : (0 : ℚ) ≤ min 1 ((p.clusterSize : ℚ) / 5) ∧ min 1 ((p.clusterSize : ℚ) / 5) ≤ 1 :=
    ⟨le_min zero_le_one (by positivity), min_le_left _ _⟩
  have hage : (0 : ℚ) ≤ ((now - p.lastTs).tdiv 60000000000 : ℤ) :=
    Int.cast_nonneg (Int.tdiv_nonneg (sub_nonneg.2 hts) (by norm_num))
  have hrecency := hexp (-(((now - p.lastTs).tdiv 60000000000 : ℤ) : ℚ) / 60) (by linarith)
  refine ⟨hscore, ?_⟩
  simp only [makeLevel] at hscore ⊢
  constructor <;> linarith

theorem scored_newLevels (hdensity : ∀ q, 0 ≤ inputs.density q) (hnow : 0 ≤ now)
    (hts : ∀ e ∈ d.extremes, e.ts ≤ now) (eps : ℚ) :
    ∀ l ∈ d.newLevels exp inputs now eps, l.Scored := by
  intro l hl
  obtain ⟨p, hp, rfl⟩ := List.mem_map.1 hl
  obtain ⟨c, -, rfl⟩ := List.mem_map.1 hp
  refine scored_makeLevel hexp (hdensity _) (le_foldl_max hp) ?_
  refine List.foldlRecOn (motive := fun last : TimePoint => last ≤ now) _ _ hnow ?_
  intro last hlast e he
  exact max_le hlast (hts e (List.mem_of_mem_filter he))

end

/-- What holds between two steps. -/
structure Sane (d : LevelDetector) : Prop where
  dated : d.toLevelExtremes.Dated
  scored : ∀ l ∈ d.activeLevels, l.Scored

/-- The confidences of some signals are shares. -/
def Confident (published : List Signal) : Prop :=
  ∀ sig ∈ published, 0 ≤ sig.confidence ∧ sig.confidence ≤ 1

theorem confident_nil : Confident [] := fun _ h => absurd h List.not_mem_nil

theorem confident_turn {l : Level} (h : l.Scored) (state : Option ApproachState) :
    Confident (d.turn inputs frame l state).2 := by
  have hone (kind : SignalKind) (payload : SignalPayload) :
      Confident [d.signal inputs kind frame.timestamp l payload] := fun sig hsig =>
    List.mem_singleton.1 hsig ▸ h.confidence_mem
  unfold turn
  split_ifs
  · cases state with
    | none => exact hone _ _
    | some st => exact confident_nil
  · cases state with
    | none => exact confident_nil
    | some st => exact hone _ _

section

variable (hexp : ∀ x ≤ 0, 0 ≤ exp x ∧ exp x ≤ 1)
include hexp

theorem Sane.rebuildLevels (h : d.Sane) (hdensity : ∀ q, 0 ≤ inputs.density q) (hnow : 0 ≤ now)
    (htime : ∀ sample ∈ d.midHistory.entries, sample.1 ≤ now) :
    (d.rebuildLevels exp inputs now).1.Sane ∧ Confident (d.rebuildLevels exp inputs now).2 := by
  unfold LevelDetector.rebuildLevels
  split
  · exact ⟨h, confident_nil⟩
  · next eps _ =>
      have hts (e : Extreme) (he : e ∈ d.extremes) : e.ts ≤ now := by
        obtain ⟨sample, hsample, hle⟩ := h.dated e he
        exact hle.trans (htime sample hsample)
      have hscored := scored_newLevels (d := d) hexp hdensity hnow hts eps
      refine ⟨⟨h.dated, hscored⟩, fun sig hsig => ?_⟩
      obtain ⟨l, hl, rfl⟩ := List.mem_map.1 hsig
      exact (hscored l (List.mem_of_mem_filter hl)).confidence_mem

theorem Sane.settle (h : d.Sane) (hin : d.InTime op) (hsnapshot : FromSnapshot lanes op) :
    (d.settle exp op).1.Sane ∧ Confident (d.settle exp op).2 := by
  have hdensity := hsnapshot.density_nonneg
  cases op with
  | rebuild now inputs =>
      obtain ⟨hnow, htime⟩ := hin now rfl
      exact h.rebuildLevels hexp hdensity hnow htime
  | frame frame inputs =>
      rw [LevelDetector.settle]
      split_ifs with hignored
      · exact ⟨h, confident_nil⟩
      · obtain ⟨hnow, htime⟩ := hin frame.timestamp (if_neg hignored)
        have hobserved : (d.observe frame).Sane := ⟨h.dated.updateExtremes htime, h.scored⟩
        have hhistory :
            ∀ sample ∈ (d.observe frame).midHistory.entries, sample.1 ≤ frame.timestamp := by
          intro sample hsample
          have hpushed : sample ∈ d.midHistory.pushBack (frame.timestamp, frame.mid) := by
            rw [← LevelExtremes.midHistory_updateExtremes]
            exact hsample
          rcases CircularBuffer.mem_of_mem_pushBack hpushed with hold | rfl
          · exact htime sample hold
          · exact le_rfl
        rw [LevelDetector.refresh]
        split_ifs with hdue
        · obtain ⟨hsane, hconfident⟩ := hobserved.rebuildLevels hexp hdensity hnow hhistory
          exact ⟨⟨hsane.dated, hsane.scored⟩, hconfident⟩
        · exact ⟨hobserved, confident_nil⟩

/-- A step keeps the scores within their range, and publishes no others. -/
theorem Sane.handle (h : d.Sane) (hin : d.InTime op) (hsnapshot : FromSnapshot lanes op) :
    (d.handle exp priceIncrement op).1.Sane ∧ Confident (d.handle exp priceIncrement op).2 := by
  obtain ⟨hsane, hconfident⟩ := h.settle hexp hin hsnapshot
  obtain heq | ⟨frame, inputs, -, -, heq⟩ := handle_eq exp priceIncrement d op
  · rw [heq]
    exact ⟨hsane, hconfident⟩
  · rw [heq]
    refine List.foldlRecOn (motive := fun r : LevelDetector × List Signal => r.1.Sane ∧ Confident r.2)
      _ _ ⟨hsane, hconfident⟩ fun r hr l hl => ⟨⟨hr.1.dated, hr.1.scored⟩, fun sig hsig => ?_⟩
    rcases List.mem_append.1 hsig with hold | hnew
    · exact hr.2 sig hold
    · exact confident_turn (hsane.scored l hl) _ sig hnew

/-- The detector after a step. -/
def after (exp : ℚ → ℚ) (priceIncrement : ℚ) (d : LevelDetector) (op : LevelOp) : LevelDetector :=
  (d.handle exp priceIncrement op).1

/-- **In every run whose steps come in the order of time, all scores are shares**: the density scores
    and the confidences of the levels, and the confidences of all signals about them. -/
theorem scores_are_shares (ticker : Ticker) (cfg : LevelConfig) {ops : List LevelOp}
    (hin : Along (after exp priceIncrement) InTime { ticker := ticker, cfg := cfg } ops)
    (hsnapshot : ∀ op ∈ ops, FromSnapshot lanes op) :
    let d : LevelDetector := ops.foldl (after exp priceIncrement) { ticker := ticker, cfg := cfg }
    (∀ l ∈ d.activeLevels, l.Scored) ∧
      ∀ op : LevelOp, d.InTime op → FromSnapshot lanes op →
        Confident (d.handle exp priceIncrement op).2 := by
  intro d
  have hall := hin.and
    (along_of_mem (C := fun _ op => FromSnapshot lanes op) fun op hop _ => hsnapshot op hop)
  have hsane : d.Sane := hall.invariant Sane (fun d op hd hop => (hd.handle hexp hop.1 hop.2).1)
    ⟨nofun, nofun⟩
  exact ⟨hsane.scored, fun op hop hsnap => (hsane.handle hexp hop hsnap).2⟩

end

/-- Two dips to `100`, with volumes there and at `101`. -/
def scoredDips : List LevelOp :=
  (LevelRun.dips 100 101 101).map fun
    | .frame frame inputs =>
        .frame frame { inputs with density := Kde.kdeVal 4 [⟨100, 3, 1⟩, ⟨101, 0, 2⟩] 1 }
    | op => op

theorem scores_are_shares_dips :
    let d : LevelDetector := scoredDips.foldl (after (fun _ => 1) 1) { ticker := "BTC" }
    (∀ l ∈ d.activeLevels, l.Scored) ∧
      ∀ op : LevelOp, d.InTime op → FromSnapshot 4 op → Confident (d.handle (fun _ => 1) 1 op).2 := by
  refine scores_are_shares (fun _ _ => ⟨zero_le_one, le_rfl⟩) "BTC" {} (by decide +kernel) ?_
  intro op hop
  obtain ⟨op', hop', rfl⟩ := List.mem_map.1 hop
  obtain ⟨sample, -, rfl⟩ := List.mem_map.1 hop'
  exact ⟨[⟨100, 3, 1⟩, ⟨101, 0, 2⟩], 1, by decide +kernel, rfl⟩

end LevelDetector

end TradeBot
