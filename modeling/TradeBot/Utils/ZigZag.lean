import Mathlib.Algebra.Order.Field.Basic
import Mathlib.Algebra.Order.Ring.Unbundled.Rat
import Mathlib.Data.List.Chain
import Mathlib.Tactic.Linarith
import Mathlib.Tactic.NormNum
import Mathlib.Tactic.Positivity
import Mathlib.Tactic.Ring

set_option autoImplicit false

/-! # ZigZag

`numeric/ZigZag.hpp`: the turning points of a list of prices, each far enough from the one before it. A
swing is measured in parts of the price where it begins, so a fall from a high may be smaller than the
rise to it and still lead below the low before: lows are lowest up to a factor only
(`calculate_isZigZag`).

The algorithm keeps the peaks that stand and a candidate for the next one. The invariant over the
scan (`Scanned`) says of the candidate what a peak has to be, as far as the prices seen so far go; it
becomes a peak when a price turns far enough away from it. -/

namespace TradeBot

namespace ZigZag

/-- The kind of turning point that the scan waits for. -/
inductive State
  | findingHigh
  | findingLow
  deriving DecidableEq

/-- A turning point with its place. -/
structure Peak where
  price : ℚ
  index : ℕ
  isHigh : Bool
  deriving DecidableEq

/-- What the loop of `calculate` keeps. -/
structure Scan where
  peaks : List Peak := []
  lastPeakPrice : ℚ
  lastPeakIdx : ℕ := 0
  state : State

variable (minSwingBps : ℚ)

/-- The swing from a price, in basis points of it; `0` from no price. -/
def diffBps (lastPeakPrice cur : ℚ) : ℚ :=
  if 0 < lastPeakPrice then |cur - lastPeakPrice| / lastPeakPrice * 10000 else 0

/-- The body of the loop. -/
def Scan.step (s : Scan) (p : ℚ × ℕ) : Scan :=
  let (cur, i) := p
  match s.state with
  | .findingHigh =>
      if s.lastPeakPrice < cur then { s with lastPeakPrice := cur, lastPeakIdx := i }
      else if minSwingBps ≤ diffBps s.lastPeakPrice cur then
        { peaks := s.peaks ++ [⟨s.lastPeakPrice, s.lastPeakIdx, true⟩]
          lastPeakPrice := cur
          lastPeakIdx := i
          state := .findingLow }
      else s
  | .findingLow =>
      if cur < s.lastPeakPrice then { s with lastPeakPrice := cur, lastPeakIdx := i }
      else if minSwingBps ≤ diffBps s.lastPeakPrice cur then
        { peaks := s.peaks ++ [⟨s.lastPeakPrice, s.lastPeakIdx, false⟩]
          lastPeakPrice := cur
          lastPeakIdx := i
          state := .findingHigh }
      else s

/-- The direction is taken from the first two prices. -/
def start (first second : ℚ) : Scan where
  lastPeakPrice := first
  state := if first ≤ second then .findingHigh else .findingLow

/-- `calculate`: the confirmed peaks; the last candidate is not one of them. -/
def calculate (prices : List ℚ) : List Peak :=
  match prices with
  | first :: second :: rest =>
      (((second :: rest).zipIdx 1).foldl (Scan.step minSwingBps) (start first second)).peaks
  | _ => []

/-! ## What the peaks are -/

/-- `min_swing_bps` as a part of a price. -/
def swing (minSwingBps : ℚ) : ℚ := minSwingBps / 10000

/-- `x` is the price at `i`, from the peak before up to the peak after where there are such. -/
def Between (prices : List ℚ) (prev next : Option Peak) (i : ℕ) (x : ℚ) : Prop :=
  prices[i]? = some x ∧ (∀ a ∈ prev, a.index ≤ i) ∧ ∀ b ∈ next, i ≤ b.index

/-- No price is above a high. A price below a low comes after the rise that confirmed the low, and stays
within the square of the swing. -/
def Extremal (t : ℚ) (prices : List ℚ) (prev next : Option Peak) (p : Peak) : Prop :=
  ∀ i x, Between prices prev next i x →
    if p.isHigh then x ≤ p.price
    else p.price * (1 - t ^ 2) < x ∧
      (x < p.price → ∃ j y, p.index < j ∧ j < i ∧ prices[j]? = some y ∧ p.price * (1 + t) ≤ y)

/-- What the peaks of some prices are. -/
structure IsZigZag (t : ℚ) (prices : List ℚ) (peaks : List Peak) : Prop where
  found : ∀ p ∈ peaks, prices[p.index]? = some p.price
  increasing : peaks.IsChain fun a b => a.index < b.index
  alternates : peaks.IsChain fun a b => a.isHigh ≠ b.isHigh
  swings : peaks.IsChain fun a b => a.price * t ≤ |b.price - a.price|
  extremal : ∀ pre p post, peaks = pre ++ p :: post →
    Extremal t prices pre.getLast? post.head? p

variable {minSwingBps t cur x : ℚ} {seen prices : List ℚ} {prev : Option Peak} {p q : Peak}
  {peaks : List Peak} {s s' : Scan} {i : ℕ}

theorem Between.of_concat (h : Between (seen ++ [cur]) prev none i x) :
    Between seen prev none i x ∨ i = seen.length ∧ x = cur := by
  obtain ⟨hget, hprev, -⟩ := h
  rcases Nat.lt_trichotomy i seen.length with hlt | rfl | hgt
  · rw [List.getElem?_append_left hlt] at hget
    exact .inl ⟨hget, hprev, by simp⟩
  · simp only [List.getElem?_concat_length, Option.some.injEq] at hget
    exact .inr ⟨rfl, hget.symm⟩
  · rw [List.getElem?_eq_none (by rw [List.length_append, List.length_singleton]; omega)] at hget
    exact absurd hget.symm (Option.some_ne_none x)

theorem Between.widen {next : Option Peak} (h : Between prices prev next i x) :
    Between prices prev none i x :=
  ⟨h.1, h.2.1, by simp⟩

theorem getElem?_concat_of_some (h : seen[i]? = some x) : (seen ++ [cur])[i]? = some x := by
  rw [List.getElem?_append_left (List.getElem?_eq_some_iff.1 h).1, h]

/-- What `Extremal` says about the price `x` at `i`. -/
def Respects (t : ℚ) (prices : List ℚ) (p : Peak) (i : ℕ) (x : ℚ) : Prop :=
  if p.isHigh then x ≤ p.price
  else p.price * (1 - t ^ 2) < x ∧
    (x < p.price → ∃ j y, p.index < j ∧ j < i ∧ prices[j]? = some y ∧ p.price * (1 + t) ≤ y)

theorem Respects.concat (h : Respects t seen p i x) : Respects t (seen ++ [cur]) p i x := by
  unfold Respects at h ⊢
  split at h
  · rename_i hhigh
    rwa [if_pos hhigh]
  · rename_i hlow
    rw [if_neg hlow]
    refine ⟨h.1, fun hbelow => ?_⟩
    obtain ⟨j, y, hpj, hji, hy, hrise⟩ := h.2 hbelow
    exact ⟨j, y, hpj, hji, getElem?_concat_of_some hy, hrise⟩

/-- A later price does not matter to a peak with a successor. -/
theorem Extremal.concat_of_next (h : Extremal t seen prev (some q) p) (hq : q.index < seen.length) :
    Extremal t (seen ++ [cur]) prev (some q) p := by
  rintro i x ⟨hget, hprev, hnext⟩
  have hlt : i < seen.length := (hnext q rfl).trans_lt hq
  rw [List.getElem?_append_left hlt] at hget
  have hold : Respects t seen p i x := h i x ⟨hget, hprev, hnext⟩
  exact hold.concat

/-- What a new price has to satisfy for the last peak. -/
def Allows (t : ℚ) (seen : List ℚ) (p : Peak) (cur : ℚ) : Prop :=
  if p.isHigh then cur ≤ p.price
  else p.price * (1 - t ^ 2) < cur ∧
    (cur < p.price → ∃ j y, p.index < j ∧ seen[j]? = some y ∧ p.price * (1 + t) ≤ y)

theorem Allows.respects (h : Allows t seen p cur) : Respects t seen p seen.length cur := by
  unfold Allows at h
  unfold Respects
  split at h
  · rename_i hhigh
    rwa [if_pos hhigh]
  · rename_i hlow
    rw [if_neg hlow]
    refine ⟨h.1, fun hbelow => ?_⟩
    obtain ⟨j, y, hpj, hy, hrise⟩ := h.2 hbelow
    exact ⟨j, y, hpj, (List.getElem?_eq_some_iff.1 hy).1, hy, hrise⟩

theorem Extremal.concat_of_last (h : Extremal t seen prev none p) (hcur : Allows t seen p cur) :
    Extremal t (seen ++ [cur]) prev none p := by
  intro i x hx
  rcases hx.of_concat with hold | ⟨rfl, rfl⟩
  · have hold : Respects t seen p i x := h i x hold
    exact hold.concat
  · exact hcur.respects.concat

theorem Extremal.restrict (h : Extremal t prices prev none p) (next : Option Peak) :
    Extremal t prices prev next p :=
  fun i x hx => h i x hx.widen

theorem isZigZag_nil : IsZigZag t prices [] where
  found := by simp
  increasing := .nil
  alternates := .nil
  swings := .nil
  extremal := by simp

theorem IsZigZag.concat_price (h : IsZigZag t seen peaks)
    (hcur : ∀ p ∈ peaks.getLast?, Allows t seen p cur) : IsZigZag t (seen ++ [cur]) peaks where
  found p hp := getElem?_concat_of_some (h.found p hp)
  increasing := h.increasing
  alternates := h.alternates
  swings := h.swings
  extremal pre p post heq := by
    have hold := h.extremal pre p post heq
    cases post with
    | nil => exact hold.concat_of_last (hcur p (by simp [heq]))
    | cons q post =>
        have hq := h.found q (by simp [heq])
        exact hold.concat_of_next (List.getElem?_eq_some_iff.1 hq).1

theorem IsZigZag.concat_peak (h : IsZigZag t prices peaks) (hq : prices[q.index]? = some q.price)
    (hlater : ∀ a ∈ peaks.getLast?, a.index < q.index)
    (hturned : ∀ a ∈ peaks.getLast?, a.isHigh ≠ q.isHigh ∧ a.price * t ≤ |q.price - a.price|)
    (hext : Extremal t prices peaks.getLast? none q) : IsZigZag t prices (peaks ++ [q]) where
  found p hp := by
    rcases List.mem_append.1 hp with hold | hnew
    · exact h.found p hold
    · obtain rfl := List.mem_singleton.1 hnew
      exact hq
  increasing := List.isChain_append.2 ⟨h.increasing, .singleton q, by simpa using hlater⟩
  alternates :=
    List.isChain_append.2 ⟨h.alternates, .singleton q, by simpa using fun a ha => (hturned a ha).1⟩
  swings :=
    List.isChain_append.2 ⟨h.swings, .singleton q, by simpa using fun a ha => (hturned a ha).2⟩
  extremal pre p post heq := by
    rcases List.eq_nil_or_concat post with rfl | ⟨post, r, rfl⟩
    · obtain ⟨rfl, hlast⟩ := List.append_inj' heq rfl
      obtain rfl := List.singleton_inj.1 hlast
      exact hext
    · rw [List.concat_eq_append] at heq ⊢
      rw [← List.cons_append, ← List.append_assoc] at heq
      obtain ⟨rfl, hlast⟩ := List.append_inj' heq rfl
      obtain rfl := List.singleton_inj.1 hlast
      have hold := h.extremal pre p post rfl
      cases post with
      | nil => exact hold.restrict (some q)
      | cons b post => exact hold

/-! ## The candidate -/

/-- The direction after a confirmed peak. -/
def State.turn : State → State
  | .findingHigh => .findingLow
  | .findingLow => .findingHigh

/-- The peak that the next swing back confirms. -/
def Scan.candidate (s : Scan) : Peak := ⟨s.lastPeakPrice, s.lastPeakIdx, s.state = .findingHigh⟩

/-- `x` does not replace the candidate `last`. -/
def Bounds : State → ℚ → ℚ → Prop
  | .findingHigh, last, x => x ≤ last
  | .findingLow, last, x => last ≤ x

/-- The swing from the candidate `last` to `x` does not confirm it. -/
def Close (t : ℚ) : State → ℚ → ℚ → Prop
  | .findingHigh, last, x => last * (1 - t) < x
  | .findingLow, last, x => x < last * (1 + t)

/-- `last` can follow the peak `a`. -/
def Turned (t : ℚ) : State → Peak → ℚ → Prop
  | .findingHigh, a, last => a.isHigh = false ∧ a.price * (1 + t) ≤ last
  | .findingLow, a, last => a.isHigh = true ∧ last ≤ a.price * (1 - t)

theorem diffBps_lt_iff {last : ℚ} (hlast : 0 < last) :
    diffBps last cur < minSwingBps ↔ |cur - last| < last * swing minSwingBps := by
  rw [diffBps, if_pos hlast, swing, ← mul_div_assoc, lt_div_iff₀ (by norm_num),
    div_mul_eq_mul_div, div_lt_iff₀ hlast, mul_comm minSwingBps]

theorem step_cases (minSwingBps cur : ℚ) (i : ℕ) (hlast : 0 < s.lastPeakPrice) :
    (¬Bounds s.state s.lastPeakPrice cur ∧
      s.step minSwingBps (cur, i) = { s with lastPeakPrice := cur, lastPeakIdx := i }) ∨
    (Bounds s.state s.lastPeakPrice cur ∧ ¬Close (swing minSwingBps) s.state s.lastPeakPrice cur ∧
      s.step minSwingBps (cur, i) = ⟨s.peaks ++ [s.candidate], cur, i, s.state.turn⟩) ∨
    (Bounds s.state s.lastPeakPrice cur ∧ Close (swing minSwingBps) s.state s.lastPeakPrice cur ∧
      s.step minSwingBps (cur, i) = s) := by
  obtain ⟨peaks, last, idx, state⟩ := s
  cases state with
  | findingHigh =>
      simp only [Scan.step, Bounds, Close, not_le, not_lt]
      split
      · rename_i hpass
        exact .inl ⟨hpass, rfl⟩
      · rename_i hpass
        have hle : cur ≤ last := not_lt.1 hpass
        -- how far back the swing is, in terms of the prices
        have hiff : diffBps last cur < minSwingBps ↔ last * (1 - swing minSwingBps) < cur := by
          rw [diffBps_lt_iff hlast, abs_of_nonpos (by linarith)]
          constructor <;> intro h <;> linarith
        split
        · rename_i hswing
          exact .inr (.inl ⟨hle, not_lt.1 fun h => absurd (hiff.2 h) (not_lt.2 hswing), rfl⟩)
        · rename_i hswing
          exact .inr (.inr ⟨hle, hiff.1 (not_le.1 hswing), rfl⟩)
  | findingLow =>
      simp only [Scan.step, Bounds, Close, not_le, not_lt]
      split
      · rename_i hpass
        exact .inl ⟨hpass, rfl⟩
      · rename_i hpass
        have hle : last ≤ cur := not_lt.1 hpass
        have hiff : diffBps last cur < minSwingBps ↔ cur < last * (1 + swing minSwingBps) := by
          rw [diffBps_lt_iff hlast, abs_of_nonneg (by linarith)]
          constructor <;> intro h <;> linarith
        split
        · rename_i hswing
          exact .inr (.inl ⟨hle, not_lt.1 fun h => absurd (hiff.2 h) (not_lt.2 hswing), rfl⟩)
        · rename_i hswing
          exact .inr (.inr ⟨hle, hiff.1 (not_le.1 hswing), rfl⟩)

/-- The candidate is one of the prices seen, far enough from the last peak, and no price since that peak
    replaces it or confirms it. -/
structure Candidate (t : ℚ) (seen : List ℚ) (s : Scan) : Prop where
  found : seen[s.lastPeakIdx]? = some s.lastPeakPrice
  later : ∀ a ∈ s.peaks.getLast?, a.index < s.lastPeakIdx
  turned : ∀ a ∈ s.peaks.getLast?, Turned t s.state a s.lastPeakPrice
  bounds : ∀ i x, Between seen s.peaks.getLast? none i x → Bounds s.state s.lastPeakPrice x
  close : ∀ i x, s.lastPeakIdx ≤ i → seen[i]? = some x → Close t s.state s.lastPeakPrice x

/-- The candidate is far enough beyond the last peak that a price close to it does not touch the peak. -/
theorem Candidate.allows (h : Candidate t seen s) (ht : 0 < t) (hcur : 0 < cur)
    (hclose : Close t s.state s.lastPeakPrice cur) (hseen : ∀ x ∈ seen, 0 < x) (hp : p ∈ s.peaks.getLast?)
    (hfound : seen[p.index]? = some p.price) : Allows t seen p cur := by
  have hturned := h.turned p hp
  have hprice : 0 < p.price := hseen _ (List.mem_of_getElem? hfound)
  unfold Allows
  cases hs : s.state with
  | findingHigh =>
      rw [hs] at hturned hclose
      obtain ⟨hlow, hrise⟩ := hturned
      rw [if_neg (by simp [hlow])]
      refine ⟨?_, fun _ => ⟨s.lastPeakIdx, s.lastPeakPrice, h.later p hp, h.found, hrise⟩⟩
      -- the candidate is a swing above the low, the price less than a swing below the candidate
      rcases le_total t 1 with hle | hgt
      · calc p.price * (1 - t ^ 2) = p.price * (1 + t) * (1 - t) := by ring
          _ ≤ s.lastPeakPrice * (1 - t) := mul_le_mul_of_nonneg_right hrise (by linarith)
          _ < cur := hclose
      · have hsq : 1 - t ^ 2 ≤ 0 := by nlinarith
        exact (mul_nonpos_of_nonneg_of_nonpos hprice.le hsq).trans_lt hcur
  | findingLow =>
      rw [hs] at hturned hclose
      obtain ⟨hhigh, hfall⟩ := hturned
      rw [if_pos hhigh]
      calc cur ≤ s.lastPeakPrice * (1 + t) := hclose.le
        _ ≤ p.price * (1 - t) * (1 + t) := mul_le_mul_of_nonneg_right hfall (by linarith)
        _ = p.price - p.price * t ^ 2 := by ring
        _ ≤ p.price := sub_le_self _ (by positivity)

theorem Turned.alternates {state : State} {last : ℚ} (h : Turned t state p last) :
    p.isHigh ≠ decide (state = .findingHigh) := by
  cases state with
  | findingHigh => simp [h.1]
  | findingLow => simp [h.1]

theorem Turned.swings {state : State} {last : ℚ} (h : Turned t state p last) :
    p.price * t ≤ |last - p.price| := by
  cases state with
  | findingHigh =>
      have hrise := h.2
      exact le_trans (by linarith) (le_abs_self _)
  | findingLow =>
      have hfall := h.2
      exact le_trans (by linarith) (neg_le_abs _)

theorem Scan.candidate_bounds (ht : 0 < t) (hlast : 0 < s.lastPeakPrice)
    (h : Bounds s.state s.lastPeakPrice x) :
    s.candidate.isHigh = true ∧ x ≤ s.candidate.price ∨
    s.candidate.isHigh = false ∧ s.candidate.price * (1 - t ^ 2) < x ∧ s.candidate.price ≤ x := by
  cases hs : s.state with
  | findingHigh =>
      rw [hs] at h
      exact .inl ⟨by simp [Scan.candidate, hs], h⟩
  | findingLow =>
      rw [hs] at h
      refine .inr ⟨by simp [Scan.candidate, hs], lt_of_lt_of_le ?_ h, h⟩
      exact mul_lt_of_lt_one_right hlast (sub_lt_self 1 (by positivity))

theorem Candidate.extremal (h : Candidate t seen s) (ht : 0 < t) (hseen : ∀ x ∈ seen, 0 < x) :
    Extremal t seen s.peaks.getLast? none s.candidate := by
  intro i x hx
  have hlast : 0 < s.lastPeakPrice := hseen _ (List.mem_of_getElem? h.found)
  rcases s.candidate_bounds ht hlast (h.bounds i x hx) with ⟨hhigh, hle⟩ | ⟨hlow, habove, hle⟩
  · rwa [if_pos hhigh]
  · rw [if_neg (by simp [hlow])]
    exact ⟨habove, fun hbelow => absurd hle (not_le.2 hbelow)⟩

/-- A scan that has seen the prices `seen`: what it has confirmed is a zigzag of them, and its candidate is
    the best turning point since. -/
structure Scanned (t : ℚ) (seen : List ℚ) (s : Scan) : Prop where
  zigzag : IsZigZag t seen s.peaks
  candidate : Candidate t seen s

theorem Scanned.allows (h : Scanned t seen s) (ht : 0 < t) (hseen : ∀ x ∈ seen, 0 < x) (hcur : 0 < cur)
    (hclose : Close t s.state s.lastPeakPrice cur) :
    ∀ p ∈ s.peaks.getLast?, Allows t seen p cur :=
  fun _ hp => h.candidate.allows ht hcur hclose hseen hp
    (h.zigzag.found _ (List.mem_of_getLast? hp))

theorem close_of_not_bounds {state : State} {last : ℚ} (ht : 0 < t) (hlast : 0 < last)
    (h : ¬Bounds state last cur) : Close t state last cur := by
  have hswing : 0 < last * t := mul_pos hlast ht
  cases state with
  | findingHigh =>
      have hlt : last < cur := not_le.1 h
      show last * (1 - t) < cur
      linarith
  | findingLow =>
      have hlt : cur < last := not_le.1 h
      show cur < last * (1 + t)
      linarith

theorem bounds_self (state : State) (x : ℚ) : Bounds state x x := by
  cases state with
  | findingHigh => exact le_refl x
  | findingLow => exact le_refl x

/-- Nothing but the new price stands behind it. -/
theorem close_concat {state : State} (ht : 0 < t) (hcur : 0 < cur) (hi : seen.length ≤ i)
    (hx : (seen ++ [cur])[i]? = some x) : Close t state cur x := by
  have hbetween : Between (seen ++ [cur]) none none i x := ⟨hx, by simp, by simp⟩
  rcases hbetween.of_concat with hold | ⟨-, rfl⟩
  · exact absurd (List.getElem?_eq_some_iff.1 hold.1).1 (not_lt.2 hi)
  · have hswing : 0 < x * t := mul_pos hcur ht
    cases state with
    | findingHigh =>
        show x * (1 - t) < x
        linarith
    | findingLow =>
        show x < x * (1 + t)
        linarith

theorem Scanned.advance (h : Scanned t seen s) (ht : 0 < t) (hseen : ∀ x ∈ seen, 0 < x) (hcur : 0 < cur)
    (hpass : ¬Bounds s.state s.lastPeakPrice cur) :
    Scanned t (seen ++ [cur]) { s with lastPeakPrice := cur, lastPeakIdx := seen.length } := by
  obtain ⟨hzig, hcand⟩ := id h
  have hlast : 0 < s.lastPeakPrice := hseen _ (List.mem_of_getElem? hcand.found)
  refine ⟨hzig.concat_price (h.allows ht hseen hcur (close_of_not_bounds ht hlast hpass)), ?_⟩
  refine ⟨by simp, fun a ha => ?_, fun a ha => ?_, fun i x hx => ?_, fun i x hi hx => ?_⟩
  · exact (hcand.later a ha).trans (List.getElem?_eq_some_iff.1 hcand.found).1
  · have hturned := hcand.turned a ha
    cases hs : s.state with
    | findingHigh =>
        rw [hs] at hturned hpass
        exact ⟨hturned.1, hturned.2.trans (not_le.1 hpass).le⟩
    | findingLow =>
        rw [hs] at hturned hpass
        exact ⟨hturned.1, (not_le.1 hpass).le.trans hturned.2⟩
  · rcases hx.of_concat with hold | ⟨-, rfl⟩
    · have hbounds := hcand.bounds i x hold
      show Bounds s.state cur x
      cases hs : s.state with
      | findingHigh =>
          rw [hs] at hbounds hpass
          exact le_trans hbounds (not_le.1 hpass).le
      | findingLow =>
          rw [hs] at hbounds hpass
          exact le_trans (not_le.1 hpass).le hbounds
    · exact bounds_self _ _
  · exact close_concat ht hcur hi hx

theorem Scanned.hold (h : Scanned t seen s) (ht : 0 < t) (hseen : ∀ x ∈ seen, 0 < x) (hcur : 0 < cur)
    (hbounds : Bounds s.state s.lastPeakPrice cur) (hclose : Close t s.state s.lastPeakPrice cur) :
    Scanned t (seen ++ [cur]) s := by
  obtain ⟨hzig, hcand⟩ := id h
  refine ⟨hzig.concat_price (h.allows ht hseen hcur hclose), ?_⟩
  refine ⟨getElem?_concat_of_some hcand.found, hcand.later, hcand.turned, fun i x hx => ?_,
    fun i x hi hx => ?_⟩
  · rcases hx.of_concat with hold | ⟨-, rfl⟩
    · exact hcand.bounds i x hold
    · exact hbounds
  · have hx' : Between (seen ++ [cur]) none none i x := ⟨hx, by simp, by simp⟩
    rcases hx'.of_concat with hold | ⟨-, rfl⟩
    · exact hcand.close i x hi hold.1
    · exact hclose

theorem Scanned.turn (h : Scanned t seen s) (ht : 0 < t) (hseen : ∀ x ∈ seen, 0 < x) (hcur : 0 < cur)
    (hbounds : Bounds s.state s.lastPeakPrice cur)
    (hswing : ¬Close t s.state s.lastPeakPrice cur) :
    Scanned t (seen ++ [cur]) ⟨s.peaks ++ [s.candidate], cur, seen.length, s.state.turn⟩ := by
  obtain ⟨hzig, hcand⟩ := h
  have hlast : 0 < s.lastPeakPrice := hseen _ (List.mem_of_getElem? hcand.found)
  have hpeaks : IsZigZag t seen (s.peaks ++ [s.candidate]) :=
    hzig.concat_peak hcand.found hcand.later
      (fun a ha => ⟨(hcand.turned a ha).alternates, (hcand.turned a ha).swings⟩)
      (hcand.extremal ht hseen)
  constructor
  · refine hpeaks.concat_price fun p hp => ?_
    obtain rfl : s.candidate = p := by simpa using hp
    unfold Allows
    rcases s.candidate_bounds ht hlast hbounds with ⟨hhigh, hle⟩ | ⟨hlow, habove, hle⟩
    · rwa [if_pos hhigh]
    · rw [if_neg (by simp [hlow])]
      exact ⟨habove, fun hbelow => absurd hle (not_le.2 hbelow)⟩
  · refine ⟨by simp, fun a ha => ?_, fun a ha => ?_, fun i x hx => ?_, fun i x hi hx => ?_⟩
    · obtain rfl : s.candidate = a := by simpa using ha
      exact (List.getElem?_eq_some_iff.1 hcand.found).1
    · obtain rfl : s.candidate = a := by simpa using ha
      show Turned t s.state.turn s.candidate cur
      cases hs : s.state with
      | findingHigh =>
          rw [hs] at hswing
          exact ⟨by simp [Scan.candidate, hs], not_lt.1 hswing⟩
      | findingLow =>
          rw [hs] at hswing
          exact ⟨by simp [Scan.candidate, hs], not_lt.1 hswing⟩
    · show Bounds s.state.turn cur x
      -- prices since the candidate were close to it, the one that confirms it is not
      rcases hx.of_concat with ⟨hget, hprev, -⟩ | ⟨-, rfl⟩
      · have hclose := hcand.close i x (hprev s.candidate (by simp)) hget
        cases hs : s.state with
        | findingHigh =>
            rw [hs] at hclose hswing
            exact ((not_lt.1 hswing).trans hclose.le)
        | findingLow =>
            rw [hs] at hclose hswing
            exact (hclose.le.trans (not_lt.1 hswing))
      · exact bounds_self _ _
    · exact close_concat ht hcur hi hx

theorem Scanned.step (h : Scanned (swing minSwingBps) seen s) (hswing : 0 < minSwingBps)
    (hseen : ∀ x ∈ seen, 0 < x) (hcur : 0 < cur) :
    Scanned (swing minSwingBps) (seen ++ [cur]) (s.step minSwingBps (cur, seen.length)) := by
  have ht : 0 < swing minSwingBps := div_pos hswing (by norm_num)
  have hlast : 0 < s.lastPeakPrice := hseen _ (List.mem_of_getElem? h.candidate.found)
  rcases step_cases minSwingBps cur seen.length hlast with
    ⟨hpass, heq⟩ | ⟨hbounds, hfar, heq⟩ | ⟨hbounds, hclose, heq⟩
  · rw [heq]
    exact h.advance ht hseen hcur hpass
  · rw [heq]
    exact h.turn ht hseen hcur hbounds hfar
  · rw [heq]
    exact h.hold ht hseen hcur hbounds hclose

theorem good_start {first second : ℚ} (ht : 0 < t) (hfirst : 0 < first) :
    Scanned t [first] (start first second) where
  zigzag := isZigZag_nil
  candidate := by
    refine ⟨rfl, by simp [start], by simp [start], fun i x hx => ?_, fun i x hi hx => ?_⟩
    · obtain rfl : first = x := by
        obtain ⟨hi, hget⟩ := List.getElem?_eq_some_iff.1 hx.1
        simpa [Nat.lt_one_iff.1 hi] using hget
      exact bounds_self _ _
    · have hconcat : ([] ++ [first])[i]? = some x := hx
      exact close_concat ht hfirst (Nat.zero_le i) hconcat

theorem Scanned.foldl (hswing : 0 < minSwingBps) (rest : List ℚ) {seen : List ℚ} {s : Scan}
    (h : Scanned (swing minSwingBps) seen s) (hpos : ∀ x ∈ seen ++ rest, 0 < x) :
    Scanned (swing minSwingBps) (seen ++ rest)
      ((rest.zipIdx seen.length).foldl (Scan.step minSwingBps) s) := by
  induction rest generalizing seen s with
  | nil => simpa using h
  | cons cur rest ih =>
      have hstep := h.step hswing (fun x hx => hpos x (by simp [hx])) (hpos cur (by simp))
      have hrest := ih hstep (fun x hx => hpos x (by simpa using hx))
      simpa using hrest

theorem calculate_isZigZag (minSwingBps : ℚ) (prices : List ℚ) (hpos : ∀ x ∈ prices, 0 < x)
    (hswing : 0 < minSwingBps) :
    IsZigZag (swing minSwingBps) prices (calculate minSwingBps prices) := by
  match prices, hpos with
  | [], _ => exact isZigZag_nil
  | [_], _ => exact isZigZag_nil
  | first :: second :: rest, hpos =>
      have ht : 0 < swing minSwingBps := div_pos hswing (by norm_num)
      have hstart : Scanned (swing minSwingBps) [first] (start first second) :=
        good_start ht (hpos first (by simp))
      exact (hstart.foldl hswing (second :: rest) (by simpa using hpos)).zigzag

theorem calculate_isZigZag_two_swings :
    IsZigZag (swing 1000) [100, 120, 100] (calculate 1000 [100, 120, 100]) :=
  calculate_isZigZag 1000 [100, 120, 100] (by simp) (by norm_num)

/-- A fall from 110 to 99.5 is below ten percent of 110, so the low at 100 stands. -/
theorem low_not_lowest :
    ¬ ∀ (minSwingBps : ℚ) (prices : List ℚ), (∀ x ∈ prices, 0 < x) → 0 < minSwingBps →
      ∀ pre p post, calculate minSwingBps prices = pre ++ p :: post → p.isHigh = false →
        ∀ i x, Between prices pre.getLast? post.head? i x → p.price ≤ x := by
  intro hall
  have hcalc : calculate 1000 [101, 100, 110, 199 / 2, 120, 100]
      = [] ++ ⟨100, 1, false⟩ :: [⟨120, 4, true⟩] := by decide +kernel
  have hlow := hall 1000 [101, 100, 110, 199 / 2, 120, 100] (by norm_num) (by norm_num) _ _ _ hcalc rfl
    3 (199 / 2) ⟨rfl, by simp, by simp⟩
  norm_num at hlow

end ZigZag

end TradeBot
