import Mathlib.Tactic.Linarith
import TradeBot.Risk.Evaluation

set_option autoImplicit false

/-! # The size of an accepted plan

An accepted plan gets the smaller of two sizes, the one that risks the configured share of the equity
and the largest one of an allowed value, rounded down to whole increments (`adjustedSize_eq`). Only the
first is held against the minimal size, before it is cut to the second, and neither against zero or
against the maximal size (`accepted_tradable_iff`).

The cap is a value in dollars, and is turned into a size by the entry price. Rounding down takes
whole increments with a slack of a billionth, so a size that is a whole number of increments stays
where it is (`floorToIncrement_self`). What an evaluation needs for a division is part of the guards
and of the configuration, so nothing is assumed of the plan. -/

namespace TradeBot

/-! ## Rounding down -/

section

variable {x y inc : ℚ}

/-- A whole number of increments is within the rounded size if the size reaches it, up to the slack. -/
theorem le_floorToIncrement_iff (hinc : 0 < inc) {n : ℤ} :
    n * inc ≤ floorToIncrement x inc ↔ n * inc ≤ x + inc / 1000000000 := by
  have hdiv : x + inc / 1000000000 = (x / inc + 1 / 1000000000) * inc := by field_simp
  rw [floorToIncrement, hdiv, mul_le_mul_iff_left₀ hinc, mul_le_mul_iff_left₀ hinc, Int.cast_le,
    Int.le_floor]

theorem floorToIncrement_le (hinc : 0 < inc) : floorToIncrement x inc ≤ x + inc / 1000000000 :=
  (le_floorToIncrement_iff hinc).1 le_rfl

theorem floorToIncrement_mono (hinc : 0 < inc) (h : x ≤ y) :
    floorToIncrement x inc ≤ floorToIncrement y inc := by
  refine (le_floorToIncrement_iff hinc).2 ?_
  exact (floorToIncrement_le hinc).trans (by linarith)

/-- Rounding down does not move a whole number of increments. -/
theorem floorToIncrement_self (hinc : 0 < inc) (n : ℤ) : floorToIncrement (n * inc) inc = n * inc := by
  refine le_antisymm ?_ ((le_floorToIncrement_iff hinc).2 (by linarith))
  refine mul_le_mul_of_nonneg_right (Int.cast_le.2 ?_) hinc.le
  rw [mul_div_cancel_right₀ _ hinc.ne', Int.floor_intCast_add]
  norm_num

theorem floorToIncrement_idem (hinc : 0 < inc) :
    floorToIncrement (floorToIncrement x inc) inc = floorToIncrement x inc :=
  floorToIncrement_self hinc _

end

/-! ## The size before rounding -/

section

variable (cfg : RiskConfig) (plan : TradePlan) (state : AccountState) (tm : TickerMeta)

/-- The largest size whose value is within the cap. -/
def cappedSize : ℚ := state.equityUsd * cfg.maxPositionValuePct / 100 / plan.entryPrice

/-- What the risk and the value of the position allow. -/
def allowedSize : ℚ := min (sizeCoin cfg plan state) (cappedSize cfg plan state)

/-- The size is rounded: the price increment is positive too, or the cap cuts the size. -/
def RoundsSize : Prop :=
  0 < tm.sizeIncrement ∧
    (0 < tm.priceIncrement ∨ cappedSize cfg plan state < sizeCoin cfg plan state)

instance : Decidable (RoundsSize cfg plan state tm) := inferInstanceAs (Decidable (_ ∧ _))

variable {cfg plan state tm}

/-- The value of a size is beyond the cap exactly if the size is. -/
theorem exceeds_cap_iff (hentry : 0 < plan.entryPrice) {size : ℚ} :
    state.equityUsd * cfg.maxPositionValuePct / 100 < size * plan.entryPrice ↔
      cappedSize cfg plan state < size :=
  (div_lt_iff₀ hentry).symm

theorem adjustedSize_of_sizesRounded (hentry : 0 < plan.entryPrice) (h : tm.sizesRounded) :
    adjustedSize cfg plan state tm
      = floorToIncrement (allowedSize cfg plan state) tm.sizeIncrement := by
  have hinc : 0 < tm.sizeIncrement := h.2
  set raw := sizeCoin cfg plan state
  set cap := cappedSize cfg plan state
  have hnorm : normalizedSize cfg plan state tm = floorToIncrement raw tm.sizeIncrement := if_pos h
  rw [adjustedSize, allowedSize]
  simp only [hnorm, exceeds_cap_iff hentry, if_pos hinc]
  by_cases hcap : cap < floorToIncrement raw tm.sizeIncrement
  · rw [if_pos hcap]
    show floorToIncrement cap tm.sizeIncrement = floorToIncrement (min raw cap) tm.sizeIncrement
    rcases le_total raw cap with hle | hle
    · -- the rounding slack lifts the size beyond the cap, and brings the cap there too
      rw [min_eq_left hle]
      refine le_antisymm ?_ (floorToIncrement_mono hinc hle)
      exact (floorToIncrement_mono hinc hcap.le).trans (floorToIncrement_idem hinc).le
    · rw [min_eq_right hle]
  · rw [if_neg hcap]
    show floorToIncrement raw tm.sizeIncrement = floorToIncrement (min raw cap) tm.sizeIncrement
    rcases le_total raw cap with hle | hle
    · rw [min_eq_left hle]
    · rw [min_eq_right hle]
      refine le_antisymm ?_ (floorToIncrement_mono hinc hle)
      exact (floorToIncrement_idem hinc).ge.trans (floorToIncrement_mono hinc (not_lt.1 hcap))

theorem adjustedSize_of_not_sizesRounded (hentry : 0 < plan.entryPrice) (h : ¬ tm.sizesRounded) :
    adjustedSize cfg plan state tm =
      if 0 < tm.sizeIncrement ∧ cappedSize cfg plan state < sizeCoin cfg plan state then
        floorToIncrement (allowedSize cfg plan state) tm.sizeIncrement
      else allowedSize cfg plan state := by
  have hnorm : normalizedSize cfg plan state tm = sizeCoin cfg plan state := if_neg h
  rw [adjustedSize, allowedSize]
  simp only [hnorm, exceeds_cap_iff hentry]
  by_cases hcap : cappedSize cfg plan state < sizeCoin cfg plan state
  · rw [if_pos hcap, min_eq_right hcap.le]
    simp only [hcap, and_true]
    rfl
  · rw [if_neg hcap, min_eq_left (not_lt.1 hcap), if_neg (fun h => hcap h.2)]

/-- The size of a plan: what is allowed, rounded down if it is rounded at all. -/
theorem adjustedSize_eq (hentry : 0 < plan.entryPrice) :
    adjustedSize cfg plan state tm =
      if RoundsSize cfg plan state tm then
        floorToIncrement (allowedSize cfg plan state) tm.sizeIncrement
      else allowedSize cfg plan state := by
  by_cases h : tm.sizesRounded
  · rw [adjustedSize_of_sizesRounded hentry h, if_pos ⟨h.2, Or.inl h.1⟩]
  · rw [adjustedSize_of_not_sizesRounded hentry h]
    refine if_congr ?_ rfl rfl
    exact ⟨fun hc => ⟨hc.1, Or.inr hc.2⟩,
      fun hc => ⟨hc.1, hc.2.resolve_left (fun hprice => h ⟨hprice, hc.1⟩)⟩⟩

end

/-! ## Tradable sizes -/

/-- An order of this size is one that the ticker takes. -/
structure Tradable (tm : TickerMeta) (size : ℚ) : Prop where
  pos : 0 < size
  whole : 0 < tm.sizeIncrement → ∃ n : ℤ, size = n * tm.sizeIncrement
  min : tm.minSize ≤ size
  max : 0 < tm.maxSize → size ≤ tm.maxSize

/-- `size`, with the slack of a billionth of an increment, reaches one increment and the minimal size in
    whole increments, and does not reach beyond the maximal size in whole increments. -/
structure FitsRounded (tm : TickerMeta) (size : ℚ) : Prop where
  pos : tm.sizeIncrement ≤ size + tm.sizeIncrement / 1000000000
  min : ⌈tm.minSize / tm.sizeIncrement⌉ * tm.sizeIncrement ≤ size + tm.sizeIncrement / 1000000000
  max : 0 < tm.maxSize →
    size + tm.sizeIncrement / 1000000000 < (⌊tm.maxSize / tm.sizeIncrement⌋ + 1) * tm.sizeIncrement

/-- A size rounds down to one that the ticker takes exactly if it fits. -/
theorem tradable_floorToIncrement_iff {tm : TickerMeta} (hinc : 0 < tm.sizeIncrement) {size : ℚ} :
    Tradable tm (floorToIncrement size tm.sizeIncrement) ↔ FitsRounded tm size := by
  obtain ⟨n, hn⟩ : ∃ n : ℤ, floorToIncrement size tm.sizeIncrement = n * tm.sizeIncrement := ⟨_, rfl⟩
  have hle : ∀ k : ℤ, k ≤ n ↔ k * tm.sizeIncrement ≤ size + tm.sizeIncrement / 1000000000 := by
    intro k
    rw [← le_floorToIncrement_iff hinc, hn, mul_le_mul_iff_left₀ hinc, Int.cast_le]
  have hpos : 0 < (n : ℚ) * tm.sizeIncrement ↔ 1 ≤ n := by
    rw [mul_pos_iff_of_pos_right hinc, Int.cast_pos, Int.add_one_le_iff.symm, zero_add]
  have hmin : tm.minSize ≤ n * tm.sizeIncrement ↔ ⌈tm.minSize / tm.sizeIncrement⌉ ≤ n := by
    rw [Int.ceil_le, div_le_iff₀ hinc]
  have hmax : n * tm.sizeIncrement ≤ tm.maxSize ↔
      size + tm.sizeIncrement / 1000000000
        < (⌊tm.maxSize / tm.sizeIncrement⌋ + 1) * tm.sizeIncrement := by
    rw [← le_div_iff₀ hinc, ← Int.le_floor, ← Int.lt_add_one_iff, ← not_le, ← not_le, hle]
    push_cast
    rfl
  rw [hn]
  constructor
  · intro h
    refine ⟨?_, (hle _).1 (hmin.1 h.min), fun hpresent => hmax.1 (h.max hpresent)⟩
    have hone := (hle 1).1 (hpos.1 h.pos)
    rwa [Int.cast_one, one_mul] at hone
  · intro h
    refine ⟨hpos.2 ((hle 1).2 ?_), fun _ => ⟨n, rfl⟩, hmin.2 ((hle _).2 h.min),
      fun hpresent => hmax.2 (h.max hpresent)⟩
    rw [Int.cast_one, one_mul]
    exact h.pos

/-! ## Acceptance -/

namespace RiskManager

variable {rm : RiskManager} {now : TimePoint} {univ : TickerUniverse} {news : NewsCalendar}
  {later : TimePoint} {plan : TradePlan} {state : AccountState}

/-- An accepted plan has passed R1 to R9. -/
theorem rulesToMargin_of_accepted (h : (rm.evaluate now univ news later plan state).2.accepted = true) :
    ∀ rule ∈ rm.rulesToMargin now univ plan state, rule = none := by
  rw [evaluate_accepted_iff, firstRejection_rules, Option.or_eq_none_iff] at h
  exact firstRejection_eq_none.1 h.1

theorem evaluateBooks_size (size risk : ℚ) :
    (rm.evaluateBooks now news later plan state size risk).2.adjustedSizeCoin = size := by
  unfold evaluateBooks
  dsimp only
  split
  · rfl
  · split <;> rfl

/-- An accepted plan has the adjusted size. -/
theorem adjustedSizeCoin_of_accepted
    (h : (rm.evaluate now univ news later plan state).2.accepted = true) :
    (rm.evaluate now univ news later plan state).2.adjustedSizeCoin
      = adjustedSize rm.cfg plan state (univ.metaOrFallback (toInternalTicker plan.ticker)) := by
  have hrules := rulesToMargin_of_accepted h
  simp only [rulesToMargin, List.forall_mem_append, List.forall_mem_cons] at hrules
  obtain ⟨hplan, hmin, hmargin, -⟩ := hrules
  unfold evaluate
  dsimp only
  rw [firstRejection_eq_none.2 hplan, hmin, hmargin]
  exact evaluateBooks_size ..

/-- The guards let only positive numbers through. -/
theorem saneInput_of_sanityRules {cfg : RiskConfig}
    (h : ∀ rule ∈ sanityRules cfg plan state, rule = none) : SaneInput cfg plan state := by
  simp only [sanityRules, List.forall_mem_cons, rejectIf_eq_none, not_le] at h
  exact ⟨h.1, h.2.1, h.2.2.1⟩

theorem saneInput_of_accepted (h : (rm.evaluate now univ news later plan state).2.accepted = true) :
    SaneInput rm.cfg plan state := by
  have hrules := rulesToMargin_of_accepted h
  exact saneInput_of_sanityRules
    (fun rule hrule => hrules rule (by simp [rulesToMargin, planRules, hrule]))

/-- The size of an accepted plan is one that the ticker takes exactly if the allowed size fits after
    rounding, or is such a size itself where it is not rounded. -/
theorem accepted_tradable_iff (rm : RiskManager) (now : TimePoint) (univ : TickerUniverse)
    (news : NewsCalendar) (later : TimePoint) (plan : TradePlan) (state : AccountState)
    (h : (rm.evaluate now univ news later plan state).2.accepted = true) :
    Tradable (univ.metaOrFallback (toInternalTicker plan.ticker))
        (rm.evaluate now univ news later plan state).2.adjustedSizeCoin ↔
      if RoundsSize rm.cfg plan state (univ.metaOrFallback (toInternalTicker plan.ticker)) then
        FitsRounded (univ.metaOrFallback (toInternalTicker plan.ticker))
          (allowedSize rm.cfg plan state)
      else
        Tradable (univ.metaOrFallback (toInternalTicker plan.ticker))
          (allowedSize rm.cfg plan state) := by
  rw [adjustedSizeCoin_of_accepted h, adjustedSize_eq (saneInput_of_accepted h).entryPrice]
  generalize univ.metaOrFallback (toInternalTicker plan.ticker) = tm
  by_cases hrounds : RoundsSize rm.cfg plan state tm
  · rw [if_pos hrounds, if_pos hrounds]
    exact tradable_floorToIncrement_iff hrounds.1
  · rw [if_neg hrounds, if_neg hrounds]

/-- The plan of `scalpCall`, evaluated at the epoch for the account. -/
def scalpDecision (account : AccountState) : RiskDecision :=
  (RiskManager.evaluate {} 0 (boostedUniverse 0) [] 0 scalpPlan account).2

/-- Half a percent of the equity at a stop of ten basis points would be five times the equity: the cap
    of a tenth of it leaves ten coins. -/
theorem accepted_tradable_iff_scalp :
    Tradable ((boostedUniverse 0).metaOrFallback (toInternalTicker scalpPlan.ticker))
      (scalpDecision scalpAccount).adjustedSizeCoin := by
  refine (accepted_tradable_iff {} 0 (boostedUniverse 0) [] 0 scalpPlan scalpAccount
    (by decide +kernel)).2 ?_
  rw [if_pos (by decide +kernel)]
  exact ⟨by decide +kernel, by decide +kernel, by decide +kernel⟩

/-- The ticker is traded in whole coins, at least ten of them. -/
def wholeCoins : TickerUniverse :=
  { boostedUniverse 0 with
    metaCache := AList.insert "BTC_USDT"
      { priceIncrement := 1 / 100, sizeIncrement := 1, minSize := 10 } ∅ }

/-- Of an equity of 500 the plan risks 25 coins, enough for the minimal size; the cap of 50 USD makes
    that half a coin, and the plan is accepted with a size of zero. -/
theorem accepted_not_tradable :
    ¬ ∀ (rm : RiskManager) (now : TimePoint) (univ : TickerUniverse) (news : NewsCalendar)
        (later : TimePoint) (plan : TradePlan) (state : AccountState),
        (rm.evaluate now univ news later plan state).2.accepted = true →
          Tradable (univ.metaOrFallback (toInternalTicker plan.ticker))
            (rm.evaluate now univ news later plan state).2.adjustedSizeCoin := by
  intro hall
  have htradable := hall {} 0 wholeCoins [] 0 scalpPlan
    { scalpAccount with equityUsd := 500 } (by decide +kernel)
  exact absurd htradable.pos (by decide +kernel)

end RiskManager

end TradeBot
