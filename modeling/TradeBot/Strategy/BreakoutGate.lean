import Mathlib.Order.Interval.Set.UnorderedInterval
import TradeBot.Strategy.BreakoutEatThrough
import TradeBot.Utils.TickBoundaries

set_option autoImplicit false

/-! # What a breakout plan has passed

A plan of BreakoutEatThrough has come through a dozen checks, with rounding between them. Its reward is
at least its risk, and a support and a burst are behind it. That nothing stands between the entry and the
target has been checked for positive prices only: `obstacleBeforeTarget` takes a price of zero or less
for one that is not there.

`Backed` and `Obstructs` are what the checks are for, in terms of the context and of the returned
plan. Everything that `plan?` computes on the way is gone from them, and the prices are those of the
plan, after rounding. -/

namespace TradeBot

namespace BreakoutEatThrough

/-! ## What the checks are for -/

section

variable (cfg : Config) (now : TimePoint) (s : StrategyBase)

/-- What a plan on the eaten density `eaten` promises about reward, support and burst. -/
structure Backed (eaten : Signal) (plan : StrategyPlan) : Prop where
  side : plan.side = if eaten.payload.side = "Ask" then .buy else .sell
  reward : |plan.entryPrice - plan.stopPrice| ≤ |plan.tp1Price - plan.entryPrice| + 1 / 10 ^ 12
  support : ∃ sig ∈ s.ctx.signalHistory, now - sig.timestamp ≤ seconds 30 ∧
    (sig.kind = .densityDetected ∨ sig.kind = .icebergSuspected) ∧
    plan.side.isText sig.payload.side "Bid" "Ask" ∧
    ((plan.side = .buy ∧ sig.price < eaten.price) ∨ (plan.side = .sell ∧ eaten.price < sig.price)) ∧
    |sig.price - eaten.price| / eaten.price * kBpsBase
      ≤ s.threshold cfg.tierSupportSearchRangeBps cfg.supportSearchRangeBps
  burst : ∃ sig ∈ s.ctx.recentSignals .tapeBurst, now - sig.timestamp ≤ seconds 3 ∧
    plan.side.isText sig.payload.side "Buy" "Sell"

/-- A density of the other side or a level, of the last 30 seconds. -/
def Opposes (side : Side) (sig : Signal) : Prop :=
  now - sig.timestamp ≤ seconds 30 ∧
    (sig.kind = .levelFormed ∨ sig.kind = .densityDetected ∧ side.isText sig.payload.side "Ask" "Bid")

/-- The price of such a signal, or the next level of the frame. -/
def IsObstacle (side : Side) (price : ℚ) : Prop :=
  (∃ sig ∈ s.ctx.signalHistory, Opposes now side sig ∧ sig.price = price) ∨
    (side = .buy ∧ s.ctx.lastFrame.nearestResistance = some price) ∨
    (side = .sell ∧ s.ctx.lastFrame.nearestSupport = some price)

/-- An obstacle strictly between the entry and the first target. -/
def Obstructs (plan : StrategyPlan) (price : ℚ) : Prop :=
  IsObstacle now s plan.side price ∧ price ∈ Set.uIoo plan.entryPrice plan.tp1Price

/-- A price that the trade reaches between its entry and its target. -/
def OnTheWay (side : Side) (entryPrice tp1Price price : ℚ) : Prop :=
  (side = .buy ∧ entryPrice < price ∧ price < tp1Price) ∨
    (side = .sell ∧ price < entryPrice ∧ tp1Price < price)

end

/-! ## The obstacle that is looked at -/

section

variable {cfg : Config} {now : TimePoint} {s : StrategyBase} {side : Side}
  {entryPrice tp1Price price : ℚ}

theorem obstacleBeforeTarget_iff :
    obstacleBeforeTarget entryPrice tp1Price price side = true ↔
      0 < entryPrice ∧ 0 < price ∧ OnTheWay side entryPrice tp1Price price := by
  unfold obstacleBeforeTarget
  by_cases hsentinel : entryPrice ≤ 0 ∨ price ≤ 0
  · rw [if_pos hsentinel]
    exact iff_of_false Bool.false_ne_true (fun h => hsentinel.elim h.1.not_ge h.2.1.not_ge)
  · have hpos := not_or.1 hsentinel
    rw [if_neg hsentinel, and_iff_right (not_le.1 hpos.1), and_iff_right (not_le.1 hpos.2)]
    cases side <;> simp [OnTheWay]

theorem OnTheWay.mem_uIoo (hway : OnTheWay side entryPrice tp1Price price) :
    price ∈ Set.uIoo entryPrice tp1Price := by
  rcases hway with ⟨-, hentry, htp1⟩ | ⟨-, hentry, htp1⟩
  · rw [Set.uIoo_of_le (hentry.trans htp1).le]
    exact ⟨hentry, htp1⟩
  · rw [Set.uIoo_of_ge (htp1.trans hentry).le]
    exact ⟨htp1, hentry⟩

/-- What `obstaclePrice` looks for. -/
theorem opposes_onTheWay_iff (sig : Signal) :
    (decide (now - sig.timestamp ≤ seconds 30) &&
      decide (sig.kind = .densityDetected ∨ sig.kind = .levelFormed) &&
      (decide (side = .buy ∧ entryPrice < sig.price ∧ sig.price < tp1Price ∧
          (sig.kind = .levelFormed ∨ sig.payload.side = "Ask")) ||
        decide (side = .sell ∧ sig.price < entryPrice ∧ tp1Price < sig.price ∧
          (sig.kind = .levelFormed ∨ sig.payload.side = "Bid")))) = true ↔
      Opposes now side sig ∧ OnTheWay side entryPrice tp1Price sig.price := by
  simp only [Bool.and_eq_true, Bool.or_eq_true, decide_eq_true_eq, Opposes, OnTheWay, Side.isText]
  cases hkind : sig.kind <;> cases side <;> simp [and_assoc] <;> tauto

/-- If there is an obstacle on the way, then the price that is looked at is one. -/
theorem obstaclePrice_onTheWay (hobstacle : IsObstacle now s side price)
    (hway : OnTheWay side entryPrice tp1Price price) :
    IsObstacle now s side (obstaclePrice now s entryPrice tp1Price side) ∧
      OnTheWay side entryPrice tp1Price (obstaclePrice now s entryPrice tp1Price side) := by
  unfold obstaclePrice
  generalize hfind : List.find? _ s.ctx.signalHistory = found
  cases found with
  | some sig =>
      -- the oldest signal on the way
      have hfound := List.find?_some hfind
      obtain ⟨hopposes, hon⟩ := (opposes_onTheWay_iff sig).1 hfound
      exact ⟨Or.inl ⟨sig, List.mem_of_find?_eq_some hfind, hopposes, rfl⟩, hon⟩
  | none =>
      -- no signal is on the way, so it is the level of the frame
      rcases hobstacle with ⟨sig, hmem, hopposes, rfl⟩ | ⟨rfl, hlevel⟩ | ⟨rfl, hlevel⟩
      · exact absurd ((opposes_onTheWay_iff sig).2 ⟨hopposes, hway⟩)
          (List.find?_eq_none.1 hfind sig hmem)
      · have hprice : directionalObstaclePrice s.ctx.lastFrame .buy = price := by
          rw [directionalObstaclePrice, hlevel, Option.getD_some]
        exact ⟨Or.inr (Or.inl ⟨rfl, hlevel.trans (congrArg some hprice.symm)⟩), hprice.symm ▸ hway⟩
      · have hprice : directionalObstaclePrice s.ctx.lastFrame .sell = price := by
          rw [directionalObstaclePrice, hlevel, Option.getD_some]
        exact ⟨Or.inr (Or.inr ⟨rfl, hlevel.trans (congrArg some hprice.symm)⟩), hprice.symm ▸ hway⟩

theorem support?_eq_some {eating support : Signal} (h : support? cfg now s eating side = some support) :
    support ∈ s.ctx.signalHistory ∧ now - support.timestamp ≤ seconds 30 ∧
      (support.kind = .densityDetected ∨ support.kind = .icebergSuspected) ∧
      side.isText support.payload.side "Bid" "Ask" ∧
      ((side = .buy ∧ support.price < eating.price) ∨
        (side = .sell ∧ eating.price < support.price)) ∧
      |support.price - eating.price| / eating.price * kBpsBase
        ≤ s.threshold cfg.tierSupportSearchRangeBps cfg.supportSearchRangeBps := by
  have hmem := List.mem_reverse.1 (List.mem_of_find?_eq_some h)
  have hpasses := List.find?_some h
  simp only [withinBps, Bool.and_eq_true, decide_eq_true_eq] at hpasses
  obtain ⟨⟨⟨⟨hfresh, hkind⟩, htext⟩, hbehind⟩, -, hrange⟩ := hpasses
  exact ⟨hmem, hfresh, hkind, htext, hbehind, hrange⟩

end

/-! ## Returned plans -/

section

variable {cfg : Config} {now : TimePoint} {s : StrategyBase} {plan : StrategyPlan}

theorem planOn_passed {eating burst support : Signal} {side : Side}
    (h : planOn cfg now s eating burst support side = some plan) :
    plan.side = side ∧
      |plan.entryPrice - plan.stopPrice| ≤ |plan.tp1Price - plan.entryPrice| + 1 / 10 ^ 12 ∧
      (∃ x, plan.entryPrice = roundToTick x s.priceIncrement) ∧
      plan.tp1Price = roundToTick
        (if side = .buy then plan.entryPrice + cfg.tp1R * |plan.entryPrice - plan.stopPrice|
          else plan.entryPrice - cfg.tp1R * |plan.entryPrice - plan.stopPrice|) s.priceIncrement ∧
      obstacleBeforeTarget plan.entryPrice plan.tp1Price
        (obstaclePrice now s plan.entryPrice plan.tp1Price side) side = false := by
  simp only [planOn, Option.bind_eq_bind, Option.bind_eq_some_iff, Option.guard_eq_some',
    exists_const, Option.pure_def, Option.some.injEq] at h
  obtain ⟨-, hreward, hclear, rfl⟩ := h
  exact ⟨rfl, hreward, ⟨_, rfl⟩, rfl, (Bool.not_eq_true' _).mp hclear⟩

/-- The target of a plan is on the side of its trade, so that the way to it is what lies between. -/
theorem planOn_onTheWay {eating burst support : Signal} {side : Side} {price : ℚ} (hr : 0 < cfg.tp1R)
    (hside : side = .buy ∨ side = .sell)
    (h : planOn cfg now s eating burst support side = some plan)
    (hbetween : price ∈ Set.uIoo plan.entryPrice plan.tp1Price) :
    OnTheWay side plan.entryPrice plan.tp1Price price := by
  obtain ⟨-, -, ⟨x, hentry⟩, htp1, -⟩ := planOn_passed h
  have hrisk := mul_nonneg hr.le (abs_nonneg (plan.entryPrice - plan.stopPrice))
  rcases hside with rfl | rfl
  · have horder : plan.entryPrice ≤ plan.tp1Price := by
      rw [htp1, if_pos rfl, hentry]
      exact roundToTick_le_roundToTick_add _ (hentry ▸ hrisk)
    rw [Set.uIoo_of_le horder] at hbetween
    exact Or.inl ⟨rfl, hbetween⟩
  · have horder : plan.tp1Price ≤ plan.entryPrice := by
      rw [htp1, if_neg (by decide), hentry]
      exact roundToTick_sub_le_roundToTick _ (hentry ▸ hrisk)
    rw [Set.uIoo_of_ge horder] at hbetween
    exact Or.inr ⟨rfl, hbetween.2, hbetween.1⟩

theorem plan?_passed (h : plan? cfg now s = some plan) :
    ∃ eating ∈ s.ctx.recentSignals .densityEating, Backed cfg now s eating plan ∧
      (0 < cfg.tp1R → 0 < plan.entryPrice → (∀ price, Obstructs now s plan price → 0 < price) →
        ∀ price, ¬ Obstructs now s plan price) := by
  simp only [plan?, Option.bind_eq_bind, Option.bind_eq_some_iff, Option.guard_eq_some',
    exists_const] at h
  obtain ⟨-, -, eating, heating, -, burst, hburst, htext, -, -, -, -, -, support, hsupport, -, hplan⟩ := h
  have hside := ite_eq_or_eq (eating.payload.side = "Ask") Side.buy Side.sell
  obtain ⟨hsame, hreward, -, -, hclear⟩ := planOn_passed hplan
  obtain ⟨hrecent, hage⟩ := StrategyContext.recent?_eq_some.1 hburst
  refine ⟨eating, heating, ?_, ?_⟩
  · constructor
    · exact hsame
    · exact hreward
    · rw [hsame]
      exact ⟨support, support?_eq_some hsupport⟩
    · rw [hsame]
      exact ⟨burst, hrecent, hage, htext⟩
  · intro hr hentry hpositive price hprice
    have hway := planOn_onTheWay hr hside hplan hprice.2
    rw [← hsame] at hway hclear
    obtain ⟨hobstacle, hon⟩ := obstaclePrice_onTheWay hprice.1 hway
    have hpos := hpositive _ ⟨hobstacle, hon.mem_uIoo⟩
    have hblocked := obstacleBeforeTarget_iff.2 ⟨hentry, hpos, hon⟩
    rw [hclear] at hblocked
    exact Bool.false_ne_true hblocked

/-- A plan returned for an eaten density is backed, and nothing at a positive price stands between a
    positive entry and the first target. -/
theorem onSignal_passed {signal : Signal} (hr : 0 < cfg.tp1R)
    (h : ((playbook cfg).onSignal signal now s).2 = some plan) :
    Backed cfg now (s.notice signal) signal plan ∧
      (0 < plan.entryPrice → (∀ price, Obstructs now (s.notice signal) plan price → 0 < price) →
        ∀ price, ¬ Obstructs now (s.notice signal) plan price) := by
  obtain ⟨eating, heating, hbacked, hclear⟩ := plan?_passed ((playbook cfg).onSignal_snd h)
  have hlatest := (playbook cfg).recentSignals_of_onSignal h
  cases Option.mem_unique heating hlatest
  exact ⟨hbacked, hclear hr⟩

end

/-! ## A sentinel in place of a price -/

section

variable {cfg : Config}

/-- A state in which everything goes with a breakout: a burst, a support and a level. -/
def driven (side : Side) (inc support level : ℚ) : StrategyBase where
  ticker := "T"
  priceIncrement := inc
  ctx :=
    { lastFrame :=
        { ticker := "T"
          tapeAggression := if side = .buy then 1 else -1
          buyVol5s := 10
          buyVol30s := 6
          sellVol5s := 10
          sellVol30s := 6 }
      recentSignals := fun kind =>
        if kind = .tapeBurst then
          some
            { kind := .tapeBurst
              timestamp := 0
              ticker := "T"
              price := 0
              payload := { side := if side = .buy then "Buy" else "Sell" } }
        else none
      signalHistory :=
        [{ kind := .densityDetected
           timestamp := 0
           ticker := "T"
           price := support
           payload := { side := if side = .buy then "Bid" else "Ask" } },
         { kind := .levelFormed, timestamp := 0, ticker := "T", price := level }] }

/-- A density that is being eaten, with the side it stood on. -/
def eaten (side : Side) (price : ℚ) : Signal where
  kind := .densityEating
  timestamp := 0
  ticker := "T"
  price := price
  payload :=
    { side := if side = .buy then "Ask" else "Bid", originalSize := 10, remainingSize := 4 }

/-- A stop so far behind the support that it is below zero, for a long, or its target is, for a short. -/
def wideStop : Config := { stopBufferBps := 40000 }

/-- Side, entry and target of the plan in such a state. -/
def planned (cfg : Config) (side : Side) (inc price support level : ℚ) : Option (Side × ℚ × ℚ) :=
  ((playbook cfg).onSignal (eaten side price) 0 (driven side inc support level)).2.map
    (fun plan => (plan.side, plan.entryPrice, plan.tp1Price))

theorem exists_of_planned {side side' : Side} {inc price support level entryPrice tp1Price : ℚ}
    (h : planned cfg side inc price support level = some (side', entryPrice, tp1Price)) :
    ∃ plan, ((playbook cfg).onSignal (eaten side price) 0 (driven side inc support level)).2 = some plan ∧
      plan.side = side' ∧ plan.entryPrice = entryPrice ∧ plan.tp1Price = tp1Price := by
  obtain ⟨plan, hplan, heq⟩ := Option.map_eq_some_iff.1 h
  rw [Prod.mk.injEq, Prod.mk.injEq] at heq
  exact ⟨plan, hplan, heq⟩

/-- The level of the state stands against every trade, and nothing else does. -/
theorem isObstacle_driven {side : Side} {inc price support level x : ℚ}
    (hside : side = .buy ∨ side = .sell) :
    IsObstacle 0 ((driven side inc support level).notice (eaten side price)) side x ↔ x = level := by
  have hhistory : ((driven side inc support level).notice (eaten side price)).ctx.signalHistory
      = (driven side inc support level).ctx.signalHistory ++ [eaten side price] := rfl
  have hframe : ((driven side inc support level).notice (eaten side price)).ctx.lastFrame
      = (driven side inc support level).ctx.lastFrame := rfl
  have hfresh : 0 ≤ seconds 30 := by decide
  rw [IsObstacle, hhistory, hframe, eq_comm (a := x)]
  rcases hside with rfl | rfl
  · simp [driven, eaten, Opposes, Side.isText, hfresh]
  · simp [driven, eaten, Opposes, Side.isText, hfresh]

end

/-- A long at 100.02 to 100.29, with a level behind its target. -/
theorem onSignal_passed_driven : ∃ plan,
    ((playbook {}).onSignal (eaten .buy 100) 0 (driven .buy (1 / 100) (9989 / 100) 120)).2 = some plan ∧
      Backed {} 0 ((driven .buy (1 / 100) (9989 / 100) 120).notice (eaten .buy 100)) (eaten .buy 100) plan ∧
      ∀ price, ¬ Obstructs 0 ((driven .buy (1 / 100) (9989 / 100) 120).notice (eaten .buy 100))
        plan price := by
  obtain ⟨plan, hplan, hside, hentry, -⟩ := exists_of_planned
    (by decide +kernel : planned {} .buy (1 / 100) 100 (9989 / 100) 120
      = some (.buy, 5001 / 50, 10029 / 100))
  obtain ⟨hbacked, hclear⟩ := onSignal_passed (by decide +kernel) hplan
  refine ⟨plan, hplan, hbacked, hclear (by rw [hentry]; norm_num) ?_⟩
  intro price hprice
  have hobstacle := hprice.1
  rw [hside, isObstacle_driven (Or.inl rfl)] at hobstacle
  rw [hobstacle]
  norm_num

/-- A long whose entry is rounded to zero passes a level at 1 on its way to 2, and a short at 99.98 one
    at zero on its way below. -/
theorem wideStop_obstructed :
    (0 ≤ wideStop.aggressiveOffsetBps ∧ 0 ≤ wideStop.stopBufferBps ∧ 0 < wideStop.tp1R) ∧
    (∃ plan price, ((playbook wideStop).onSignal (eaten .buy (2 / 5)) 0
        (driven .buy 1 (999 / 2500) 1)).2 = some plan ∧
      Obstructs 0 ((driven .buy 1 (999 / 2500) 1).notice (eaten .buy (2 / 5))) plan price ∧
      0 < price) ∧
    ∃ plan price, ((playbook wideStop).onSignal (eaten .sell 100) 0
        (driven .sell (1 / 100) (1001 / 10) 0)).2 = some plan ∧
      Obstructs 0 ((driven .sell (1 / 100) (1001 / 10) 0).notice (eaten .sell 100)) plan price ∧
      0 < plan.entryPrice := by
  refine ⟨by decide +kernel, ?_, ?_⟩
  · obtain ⟨plan, hplan, hside, hentry, htp1⟩ := exists_of_planned
      (by decide +kernel : planned wideStop .buy 1 (2 / 5) (999 / 2500) 1 = some (.buy, 0, 2))
    refine ⟨plan, 1, hplan, ⟨?_, ?_⟩, one_pos⟩
    · rw [hside, isObstacle_driven (Or.inl rfl)]
    · rw [hentry, htp1, Set.uIoo_of_le (by norm_num)]
      constructor <;> norm_num
  · obtain ⟨plan, hplan, hside, hentry, htp1⟩ := exists_of_planned
      (by decide +kernel : planned wideStop .sell (1 / 100) 100 (1001 / 10) 0
        = some (.sell, 4999 / 50, -2504 / 5))
    refine ⟨plan, 0, hplan, ⟨?_, ?_⟩, ?_⟩
    · rw [hside, isObstacle_driven (Or.inr rfl)]
    · rw [hentry, htp1, Set.uIoo_of_ge (by norm_num)]
      constructor <;> norm_num
    · rw [hentry]
      norm_num

end BreakoutEatThrough

end TradeBot
