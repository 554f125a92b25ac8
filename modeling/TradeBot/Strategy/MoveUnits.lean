import TradeBot.Control.TickerController
import TradeBot.Features.FeatureExtractor
import TradeBot.Strategy.BounceFromDensity
import TradeBot.Strategy.BreakoutEatThrough
import TradeBot.Strategy.FlushReversal
import TradeBot.Strategy.LeaderLag

set_option autoImplicit false

/-! # The unit of price moves

`FeatureExtractor` stores moves in percent (`priceChange_eq`) and `TickerController` hands the
leader's on as they are. Five gates of the strategies compare them with thresholds in basis points or
percent. BreakoutEatThrough and FlushReversal read percent; both gates of LeaderLag and the one of
BounceFromDensity take the stored number for a fraction, and so see a move a hundred times as large.
`gates_read_moves_iff` says for which moves that makes no difference. -/

namespace TradeBot

/-- The moves behind a frame, in basis points. -/
structure Moves where
  own1s : ℚ
  own5s : ℚ
  leader1s : ℚ
  leader5s : ℚ

/-- The frame shows these moves, in percent. -/
structure Moves.ShownBy (m : Moves) (frame : FeatureFrame) : Prop where
  own1s : frame.priceChange1s = m.own1s / 100
  own5s : frame.priceChange5s = m.own5s / 100
  leader1s : frame.leaderChange1s = m.leader1s / 100
  leader5s : frame.leaderChange5s = m.leader5s / 100

/-- The moves at an extraction of a ticker and the last one of its leader; while the leader has no
    mid nothing is known of it. -/
def observedMoves (own lead : FeatureExtractor) (now nowLead : TimePoint) (mid midLead : ℚ) : Moves :=
  let leaderMove (window : ℤ) : ℚ :=
    if 0 < midLead then (lead.record nowLead midLead).windowMoveBps nowLead midLead window else 0
  { own1s := (own.record now mid).windowMoveBps now mid 1
    own5s := (own.record now mid).windowMoveBps now mid 5
    leader1s := leaderMove 1
    leader5s := leaderMove 5 }

open TickerController in
theorem observedMoves_shown (own lead : FeatureExtractor) (now nowLead : TimePoint)
    (sources sourcesLead : FeatureFrame) :
    (observedMoves own lead now nowLead sources.mid sourcesLead.mid).ShownBy
      (withLeader (lead.extract nowLead sourcesLead).2 (own.extract now sources).2) := by
  have hmid : (lead.extract nowLead sourcesLead).2.mid = sourcesLead.mid := rfl
  unfold withLeader
  rw [hmid]
  by_cases h : 0 < sourcesLead.mid
  · rw [if_pos h]
    refine ⟨(own.record now sources.mid).priceChange_eq .., (own.record now sources.mid).priceChange_eq ..,
      ?_, ?_⟩
    all_goals
      simp only [observedMoves, if_pos h]
      exact (lead.record nowLead sourcesLead.mid).priceChange_eq ..
  · rw [if_neg h]
    refine ⟨(own.record now sources.mid).priceChange_eq .., (own.record now sources.mid).priceChange_eq ..,
      ?_, ?_⟩
    all_goals
      simp only [observedMoves, if_neg h, zero_div]
      rfl

/-! ## The gates -/

/-- The strategy has seen `frame`. -/
def StrategyBase.seeing (s : StrategyBase) (frame : FeatureFrame) : StrategyBase :=
  { s with ctx := s.ctx.updateFrame frame }

/-- `x` in the direction of `side`. -/
def Side.along (side : Side) (x : ℚ) : ℚ := if side = .buy then x else -x

namespace LeaderLag

/-- C4: the ticker has moved by itself. -/
def hasMoved (l : LeaderLag) : Prop :=
  let frame := l.ctx.lastFrame
  let ourChange2s := frame.priceChange1s + (frame.priceChange5s - frame.priceChange1s) * (1 / 4)
  l.threshold l.cfg.tierMaxOurChange2sPct l.cfg.maxOurChange2sPct < |ourChange2s| * 100

theorem not_hasMoved_of_plan? {l : LeaderLag} {now : TimePoint} {plan : StrategyPlan}
    (h : l.plan? now = some plan) : ¬ l.hasMoved := by
  simp only [plan?, Option.bind_eq_bind, Option.bind_eq_some_iff, Option.guard_eq_some'] at h
  obtain ⟨_, _, _, _, _, hmove, _⟩ := h
  exact not_lt.2 hmove

/-- Check 2: the leader has reversed. -/
def leaderReversed (plan : StrategyPlan) (frame : FeatureFrame) : Prop :=
  let reversal := if plan.side = .buy then -frame.leaderChange1s else frame.leaderChange1s
  0 < plan.leaderExitReversalBps ∧ 0 < reversal ∧ plan.leaderExitReversalBps < reversal * kBpsBase

theorem closeRule_eq (frame : FeatureFrame) (plan : StrategyPlan) :
    closeRule frame plan = some "LeaderReversal" ↔
      ¬ (0 < plan.correlationExitThreshold ∧
        frame.leaderCorrelation < plan.correlationExitThreshold) ∧ leaderReversed plan frame := by
  unfold closeRule
  by_cases hbroken : 0 < plan.correlationExitThreshold ∧
      frame.leaderCorrelation < plan.correlationExitThreshold
  · rw [if_pos hbroken]
    exact iff_of_false (by decide) (fun h => h.1 hbroken)
  · rw [if_neg hbroken]
    by_cases hrev : leaderReversed plan frame
    · exact iff_of_true (if_pos hrev) ⟨hbroken, hrev⟩
    · refine iff_of_false (fun h => ?_) (fun h => hrev h.2)
      rcases ite_eq_iff.1 h with ⟨hcond, _⟩ | ⟨_, hnone⟩
      · exact hrev hcond
      · cases hnone

end LeaderLag

namespace BreakoutEatThrough

/-- C4: a correlated leader goes against the breakout. -/
def leaderMisaligned (cfg : Config) (frame : FeatureFrame) (side : Side) : Prop :=
  cfg.minLeaderCorrelation ≤ frame.leaderCorrelation ∧
    (if side = .buy then frame.leaderChange5s else -frame.leaderChange5s) < -cfg.leaderNeutralMaxPct

theorem not_leaderMisaligned_of_isDriven {cfg : Config} {s : StrategyBase} {side : Side}
    (h : isDriven cfg s side = true) : ¬ leaderMisaligned cfg s.ctx.lastFrame side :=
  (of_decide_eq_true h).2.2.2

end BreakoutEatThrough

namespace FlushReversal

/-- C6: the price has turned. -/
def hasReversed (cfg : Config) (s : StrategyBase) (flushedDown : Bool) : Prop :=
  s.threshold cfg.tierMinPriceReversalBps cfg.minPriceReversalBps ≤
    (if flushedDown then s.ctx.lastFrame.priceChange1s else -s.ctx.lastFrame.priceChange1s) * 100

theorem hasReversed_of_plan? {cfg : Config} {now : TimePoint} {s : StrategyBase}
    {plan : StrategyPlan} (h : plan? cfg now s = some plan) :
    ∃ brk, s.ctx.recentSignals .levelBreak = some brk ∧
      hasReversed cfg s (decide (brk.payload.distBps < 0)) := by
  simp only [plan?, Option.bind_eq_bind, Option.bind_eq_some_iff, Option.guard_eq_some'] at h
  obtain ⟨_, _, _, _, brk, hbrk, _, _, _, _, _, _, _, _, _, hrev, _⟩ := h
  exact ⟨brk, hbrk, hrev⟩

end FlushReversal

/-! ## The results -/

section Gates

variable (m : Moves) (l : LeaderLag) (plan : StrategyPlan) (bounce : BounceFromDensity.Config)
  (breakout : BreakoutEatThrough.Config) (flush : FlushReversal.Config) (s : StrategyBase)
  (side : Side) (flushedDown : Bool)

/-- The move over two seconds that LeaderLag interpolates. -/
def Moves.own2s : ℚ := m.own1s + (m.own5s - m.own1s) * (1 / 4)

/-- How far the leader has turned against a trade. -/
def Moves.reversal : ℚ := if plan.side = .buy then -m.leader1s else m.leader1s

/-- LeaderLag after `frame`. -/
def LeaderLag.seeing (frame : FeatureFrame) : LeaderLag :=
  { l with toStrategyBase := l.toStrategyBase.seeing frame }

/-- Every gate decides on the moves: thresholds in basis points are compared with them, thresholds in
    percent with a hundredth of them. -/
structure GatesReadMoves (frame : FeatureFrame) : Prop where
  ownMove : (l.seeing frame).hasMoved ↔
    l.threshold l.cfg.tierMaxOurChange2sPct l.cfg.maxOurChange2sPct < |m.own2s| / 100
  leaderReversal : LeaderLag.leaderReversed plan frame ↔
    0 < plan.leaderExitReversalBps ∧ 0 < m.reversal plan ∧
      plan.leaderExitReversalBps < m.reversal plan
  driver : BounceFromDensity.leaderAgainst bounce (s.seeing frame) side = true ↔
    side.along m.leader1s < 0 ∧
      s.threshold bounce.tierMinDriverReversalBps bounce.minDriverReversalBps
        < |side.along m.leader1s|
  alignment : BreakoutEatThrough.leaderMisaligned breakout frame side ↔
    breakout.minLeaderCorrelation ≤ frame.leaderCorrelation ∧
      side.along m.leader5s / 100 < -breakout.leaderNeutralMaxPct
  reversal : FlushReversal.hasReversed flush (s.seeing frame) flushedDown ↔
    s.threshold flush.tierMinPriceReversalBps flush.minPriceReversalBps
      ≤ if flushedDown then m.own1s else -m.own1s

/-- No move is within a threshold that a hundred times the move is beyond, at the two gates of
    LeaderLag and the one of BounceFromDensity. -/
structure OutsideBands : Prop where
  ownMove : |m.own2s| / 100 ≤ l.threshold l.cfg.tierMaxOurChange2sPct l.cfg.maxOurChange2sPct →
    |m.own2s| ≤ l.threshold l.cfg.tierMaxOurChange2sPct l.cfg.maxOurChange2sPct
  leaderReversal : 0 < plan.leaderExitReversalBps → 0 < m.reversal plan →
    m.reversal plan ≤ plan.leaderExitReversalBps →
      m.reversal plan * 100 ≤ plan.leaderExitReversalBps
  driver : side.along m.leader1s < 0 →
    |side.along m.leader1s| ≤ s.threshold bounce.tierMinDriverReversalBps bounce.minDriverReversalBps →
      |side.along m.leader1s| * 100
        ≤ s.threshold bounce.tierMinDriverReversalBps bounce.minDriverReversalBps

/-- A gate that compares a hundred times a move decides as one that compares the move, unless the
    threshold lies between. -/
theorem lt_hundred_iff (limit : ℚ) {x : ℚ} (hx : 0 ≤ x) :
    (limit < x * 100 ↔ limit < x) ↔ (x ≤ limit → x * 100 ≤ limit) := by
  constructor
  · intro h hle
    exact not_lt.1 (fun hlt => absurd (h.1 hlt) (not_lt.2 hle))
  · intro h
    refine ⟨fun hlt => not_le.1 (fun hle => absurd (h hle) (not_le.2 hlt)), fun hlt => ?_⟩
    linarith

variable {m} {frame : FeatureFrame}

theorem hasMoved_iff (h : m.ShownBy frame) : (l.seeing frame).hasMoved ↔
    l.threshold l.cfg.tierMaxOurChange2sPct l.cfg.maxOurChange2sPct < |m.own2s| := by
  have heq : frame.priceChange1s + (frame.priceChange5s - frame.priceChange1s) * (1 / 4)
      = m.own2s / 100 := by
    rw [h.own1s, h.own5s, Moves.own2s]
    ring
  have habs : |m.own2s / 100| * 100 = |m.own2s| := by
    rw [abs_div, abs_of_pos (by norm_num : (0 : ℚ) < 100)]
    ring
  have hmoved : (l.seeing frame).hasMoved ↔ l.threshold l.cfg.tierMaxOurChange2sPct
      l.cfg.maxOurChange2sPct < |frame.priceChange1s +
        (frame.priceChange5s - frame.priceChange1s) * (1 / 4)| * 100 := Iff.rfl
  rw [hmoved, heq, habs]

theorem leaderReversed_iff (h : m.ShownBy frame) : LeaderLag.leaderReversed plan frame ↔
    0 < plan.leaderExitReversalBps ∧ 0 < m.reversal plan ∧
      plan.leaderExitReversalBps < m.reversal plan * 100 := by
  have heq : (if plan.side = .buy then -frame.leaderChange1s else frame.leaderChange1s)
      = m.reversal plan / 100 := by
    rw [h.leader1s, Moves.reversal]
    split <;> ring
  have hbps : m.reversal plan / 100 * kBpsBase = m.reversal plan * 100 := by
    rw [kBpsBase]
    ring
  unfold LeaderLag.leaderReversed
  dsimp only
  rw [heq, hbps, div_pos_iff_of_pos_right (by norm_num)]

theorem leaderAgainst_iff (h : m.ShownBy frame) :
    BounceFromDensity.leaderAgainst bounce (s.seeing frame) side = true ↔
      side.along m.leader1s < 0 ∧
        s.threshold bounce.tierMinDriverReversalBps bounce.minDriverReversalBps
          < |side.along m.leader1s| * 100 := by
  have heq : (if side = .buy then frame.leaderChange1s else -frame.leaderChange1s)
      = side.along m.leader1s / 100 := by
    rw [h.leader1s, Side.along]
    split <;> ring
  have hbps : |side.along m.leader1s / 100 * kBpsBase| = |side.along m.leader1s| * 100 := by
    rw [kBpsBase, show side.along m.leader1s / 100 * 10000 = side.along m.leader1s * 100 by ring,
      abs_mul, abs_of_pos (by norm_num : (0 : ℚ) < 100)]
  have hagainst : BounceFromDensity.leaderAgainst bounce (s.seeing frame) side = true ↔
      (if side = .buy then frame.leaderChange1s else -frame.leaderChange1s) < 0 ∧
        s.threshold bounce.tierMinDriverReversalBps bounce.minDriverReversalBps
          < |(if side = .buy then frame.leaderChange1s else -frame.leaderChange1s) * kBpsBase| :=
    decide_eq_true_iff
  have hneg : side.along m.leader1s / 100 < 0 ↔ side.along m.leader1s < 0 := by
    rw [div_lt_iff₀ (by norm_num), zero_mul]
  rw [hagainst, heq, hbps, hneg]

theorem leaderMisaligned_iff (h : m.ShownBy frame) :
    BreakoutEatThrough.leaderMisaligned breakout frame side ↔
      breakout.minLeaderCorrelation ≤ frame.leaderCorrelation ∧
        side.along m.leader5s / 100 < -breakout.leaderNeutralMaxPct := by
  have heq : (if side = .buy then frame.leaderChange5s else -frame.leaderChange5s)
      = side.along m.leader5s / 100 := by
    rw [h.leader5s, Side.along]
    split <;> ring
  rw [BreakoutEatThrough.leaderMisaligned, heq]

theorem hasReversed_iff (h : m.ShownBy frame) :
    FlushReversal.hasReversed flush (s.seeing frame) flushedDown ↔
      s.threshold flush.tierMinPriceReversalBps flush.minPriceReversalBps
        ≤ if flushedDown then m.own1s else -m.own1s := by
  have heq : (if flushedDown then frame.priceChange1s else -frame.priceChange1s) * 100
      = if flushedDown then m.own1s else -m.own1s := by
    rw [h.own1s]
    split <;> ring
  have hreversed : FlushReversal.hasReversed flush (s.seeing frame) flushedDown ↔
      s.threshold flush.tierMinPriceReversalBps flush.minPriceReversalBps
        ≤ (if flushedDown then frame.priceChange1s else -frame.priceChange1s) * 100 := Iff.rfl
  rw [hreversed, heq]

/-! The three gates that see a hundred times the move. -/

theorem ownMove_iff (h : m.ShownBy frame) :
    ((l.seeing frame).hasMoved ↔
      l.threshold l.cfg.tierMaxOurChange2sPct l.cfg.maxOurChange2sPct < |m.own2s| / 100) ↔
    (|m.own2s| / 100 ≤ l.threshold l.cfg.tierMaxOurChange2sPct l.cfg.maxOurChange2sPct →
      |m.own2s| ≤ l.threshold l.cfg.tierMaxOurChange2sPct l.cfg.maxOurChange2sPct) := by
  have hiff := lt_hundred_iff (l.threshold l.cfg.tierMaxOurChange2sPct l.cfg.maxOurChange2sPct)
    (div_nonneg (abs_nonneg m.own2s) (by norm_num : (0 : ℚ) ≤ 100))
  rw [div_mul_cancel₀ _ (by norm_num)] at hiff
  rw [hasMoved_iff l h, hiff]

theorem leaderReversal_iff (h : m.ShownBy frame) :
    (LeaderLag.leaderReversed plan frame ↔
      0 < plan.leaderExitReversalBps ∧ 0 < m.reversal plan ∧
        plan.leaderExitReversalBps < m.reversal plan) ↔
    (0 < plan.leaderExitReversalBps → 0 < m.reversal plan →
      m.reversal plan ≤ plan.leaderExitReversalBps →
        m.reversal plan * 100 ≤ plan.leaderExitReversalBps) := by
  rw [leaderReversed_iff plan h, and_congr_right_iff]
  refine forall_congr' (fun _ => ?_)
  rw [and_congr_right_iff]
  exact forall_congr' (fun hpos => lt_hundred_iff _ hpos.le)

theorem driver_iff (h : m.ShownBy frame) :
    (BounceFromDensity.leaderAgainst bounce (s.seeing frame) side = true ↔
      side.along m.leader1s < 0 ∧
        s.threshold bounce.tierMinDriverReversalBps bounce.minDriverReversalBps
          < |side.along m.leader1s|) ↔
    (side.along m.leader1s < 0 →
      |side.along m.leader1s| ≤
          s.threshold bounce.tierMinDriverReversalBps bounce.minDriverReversalBps →
        |side.along m.leader1s| * 100
          ≤ s.threshold bounce.tierMinDriverReversalBps bounce.minDriverReversalBps) := by
  rw [leaderAgainst_iff bounce s side h, and_congr_right_iff]
  exact forall_congr' (fun _ => lt_hundred_iff _ (abs_nonneg _))

end Gates

/-- Whatever mids a ticker and its leader have shown: the five gates of the strategies decide on the
    frame as on the moves behind it, if and only if no move lies between a threshold and a hundredth
    of it. -/
theorem gates_read_moves_iff (own lead : FeatureExtractor) (now nowLead : TimePoint)
    (sources sourcesLead : FeatureFrame) (l : LeaderLag) (plan : StrategyPlan)
    (bounce : BounceFromDensity.Config) (breakout : BreakoutEatThrough.Config)
    (flush : FlushReversal.Config) (s : StrategyBase) (side : Side) (flushedDown : Bool) :
    GatesReadMoves (observedMoves own lead now nowLead sources.mid sourcesLead.mid) l plan bounce
        breakout flush s side flushedDown
        (TickerController.withLeader (lead.extract nowLead sourcesLead).2
          (own.extract now sources).2) ↔
      OutsideBands (observedMoves own lead now nowLead sources.mid sourcesLead.mid) l plan bounce s
        side := by
  have hshown := observedMoves_shown own lead now nowLead sources sourcesLead
  generalize observedMoves own lead now nowLead sources.mid sourcesLead.mid = m at hshown ⊢
  generalize TickerController.withLeader (lead.extract nowLead sourcesLead).2
    (own.extract now sources).2 = frame at hshown ⊢
  have hown := ownMove_iff l hshown
  have hreversal := leaderReversal_iff plan hshown
  have hdriver := driver_iff bounce s side hshown
  constructor
  · exact fun h => ⟨hown.1 h.ownMove, hreversal.1 h.leaderReversal, hdriver.1 h.driver⟩
  · exact fun h => ⟨hown.2 h.ownMove, hreversal.2 h.leaderReversal, hdriver.2 h.driver,
      leaderMisaligned_iff breakout side hshown, hasReversed_iff flush s flushedDown hshown⟩

/-- The leader falls from 20000 to 19999, by half a basis point. -/
def slippingLeader : FeatureExtractor :=
  { ticker := "BTC_USDT", midHistory := [⟨0, 20000, by norm_num⟩] }

/-- BounceFromDensity allows two basis points against a long bounce, and rejects this one. -/
theorem driver_rejects_half_bp :
    ¬ ∀ (own lead : FeatureExtractor) (now nowLead : TimePoint) (sources sourcesLead : FeatureFrame)
        (l : LeaderLag) (plan : StrategyPlan) (bounce : BounceFromDensity.Config)
        (breakout : BreakoutEatThrough.Config) (flush : FlushReversal.Config) (s : StrategyBase)
        (side : Side) (flushedDown : Bool),
      GatesReadMoves (observedMoves own lead now nowLead sources.mid sourcesLead.mid) l plan bounce
        breakout flush s side flushedDown
        (TickerController.withLeader (lead.extract nowLead sourcesLead).2
          (own.extract now sources).2) := by
  intro hall
  have hdriver := (hall { ticker := "ETH_USDT" } slippingLeader nsPerSec nsPerSec { mid := 2000 }
    { mid := 19999 } { ticker := "ETH_USDT" } { ticker := "ETH_USDT" } {} {} {}
    { ticker := "ETH_USDT" } .buy true).driver
  exact absurd (hdriver.1 (by decide +kernel)) (by decide +kernel)

end TradeBot
