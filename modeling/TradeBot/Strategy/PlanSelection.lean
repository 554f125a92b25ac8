import Mathlib.Data.List.Sort
import TradeBot.Strategy.RegimeGate
import TradeBot.Strategy.Registration

set_option autoImplicit false

/-! # The choice among a ticker's plans

A tick should end with one accepted plan per ticker at most, and with no other of its plans pending. It
does when the plans are rejected and accepted in an order that suits the resets the engine makes: by
name, among the strategies of the ticker, and only up to the first accepted plan. -/

namespace TradeBot.StrategyEngine

/-! ## Pending plans -/

section

variable {σ : Type} [IStrategy σ] {eng eng' : StrategyEngine σ}

theorem isNamed_of_evolves (h : Evolves SameIdentity eng eng') (name : String) (a : Address) :
    eng'.isNamed name a = eng.isNamed name a := by
  have ha := h.objects a
  unfold isNamed
  revert ha
  generalize eng.objects a = o
  generalize eng'.objects a = o'
  rintro (⟨hr⟩ | _)
  · rw [Option.any_some, Option.any_some, hr.1]
  · rfl

theorem hasActivePlan_store (a b : Address) (s : σ) (eng : StrategyEngine σ) :
    (eng.store a s).hasActivePlan b
      = if b = a then IStrategy.hasActivePlan s else eng.hasActivePlan b := by
  by_cases h : b = a
  · rw [if_pos h, h, hasActivePlan, store_objects_self, Option.any_some]
  · rw [if_neg h, hasActivePlan, store_objects_of_ne h, ← hasActivePlan]

variable [LawfulStrategy σ]

theorem hasActivePlan_modify_reset (a b : Address) (eng : StrategyEngine σ) :
    (eng.modify a IStrategy.resetActivePlan).hasActivePlan b
      = (eng.hasActivePlan b && !decide (b = a)) := by
  unfold modify
  by_cases hb : b = a
  · subst hb
    cases hs : eng.objects b with
    | none => simp [hasActivePlan, hs]
    | some s => simp [hasActivePlan_store, LawfulStrategy.hasActivePlan_reset]
  · split <;> simp [hasActivePlan_store, hb]

theorem hasActivePlan_modify_accepted (plan : StrategyPlan) (a b : Address)
    (eng : StrategyEngine σ) :
    (eng.modify a (IStrategy.onPlanAccepted plan)).hasActivePlan b = eng.hasActivePlan b := by
  unfold modify
  split
  · next s hs =>
      rw [hasActivePlan_store, LawfulStrategy.hasActivePlan_accepted]
      by_cases hb : b = a
      · rw [if_pos hb, hb, hasActivePlan, hs, Option.any_some]
      · rw [if_neg hb]
  · rfl

/-- The loop that resets strategies resets exactly these. -/
theorem hasActivePlan_resetAll (as : List Address) (b : Address) (eng : StrategyEngine σ) :
    (as.foldl (fun eng a => eng.modify a IStrategy.resetActivePlan) eng).hasActivePlan b
      = (eng.hasActivePlan b && !decide (b ∈ as)) := by
  induction as generalizing eng with
  | nil => simp
  | cons a as ih =>
      rw [List.foldl_cons, ih, hasActivePlan_modify_reset, Bool.and_assoc, ← Bool.not_or,
        ← Bool.decide_or]
      simp only [List.mem_cons]

theorem hasActivePlan_resetPlans (plans : List PlanWithPriority) (b : Address)
    (eng : StrategyEngine σ) :
    (eng.resetPlans plans).hasActivePlan b
      = (eng.hasActivePlan b && !decide (b ∈ plans.map PlanWithPriority.strategy)) := by
  rw [← hasActivePlan_resetAll, List.foldl_map]
  rfl

theorem hasActivePlan_resetStrategyPlan (ticker : Ticker) (name : String) (b : Address)
    (eng : StrategyEngine σ) :
    (eng.resetStrategyPlan ticker name).hasActivePlan b
      = (eng.hasActivePlan b &&
          !decide (b ∈ eng.strategiesOf ticker ∧ eng.isNamed name b = true)) := by
  have h := hasActivePlan_resetAll ((eng.strategiesOf ticker).filter (eng.isNamed name)) b eng
  simp only [List.mem_filter] at h
  exact h

theorem hasActivePlan_notifyPlanAccepted (plan : StrategyPlan) (b : Address)
    (eng : StrategyEngine σ) :
    (eng.notifyPlanAccepted plan).hasActivePlan b = eng.hasActivePlan b :=
  Runs.invariant (fun eng' : StrategyEngine σ => eng'.hasActivePlan b = eng.hasActivePlan b)
    (fun eng' a h => (hasActivePlan_modify_accepted plan a b eng').trans h) _ rfl

end

/-! ## What an offer does -/

section

variable {σ ω : Type} [IStrategy σ] [LawfulStrategy σ]

theorem offer_accepted {gate : Gate ω} {plan accepted : StrategyPlan} {a : Address}
    {st : StrategyEngine σ × ω} (h : (gate plan st.2).2 = some accepted) :
    (offer (some gate) a plan st).2 = (gate plan st.2).1 ∧
      ∀ b, (offer (some gate) a plan st).1.hasActivePlan b = st.1.hasActivePlan b := by
  unfold offer
  simp only [h]
  exact ⟨trivial, fun b => hasActivePlan_notifyPlanAccepted accepted b _⟩

theorem offer_rejected {gate : Gate ω} {plan : StrategyPlan} {a : Address}
    {st : StrategyEngine σ × ω} (h : (gate plan st.2).2 = none) :
    (offer (some gate) a plan st).2 = (gate plan st.2).1 ∧
      ∀ b, (offer (some gate) a plan st).1.hasActivePlan b = (st.1.hasActivePlan b &&
        !decide (b ∈ st.1.strategiesOf plan.ticker ∧
          st.1.isNamed plan.strategyName b = true)) := by
  unfold offer
  simp only [h]
  exact ⟨trivial, fun b => hasActivePlan_resetStrategyPlan plan.ticker plan.strategyName b _⟩

end

/-! ## The plans of one ticker -/

/-- `reset_strategy_plan` finds the strategy of a plan, given the strategies of each ticker. -/
def Found (locals : Ticker → List Address) (pw : PlanWithPriority) : Prop :=
  pw.strategy ∈ locals pw.plan.ticker

instance (locals : Ticker → List Address) (pw : PlanWithPriority) : Decidable (Found locals pw) :=
  inferInstanceAs (Decidable (_ ∈ _))

/-- The strategy of a plan is reset when the plans with these names are rejected. -/
def Released (locals : Ticker → List Address) (names : List String) (pw : PlanWithPriority) : Prop :=
  Found locals pw ∧ pw.plan.strategyName ∈ names

instance (locals : Ticker → List Address) (names : List String) (pw : PlanWithPriority) :
    Decidable (Released locals names pw) :=
  inferInstanceAs (Decidable (_ ∧ _))

/-- How the plans of one ticker should turn out, in the order in which they are tried, when `names`
    were rejected before and `won` says whether a plan was accepted: a rejected plan's strategy is
    found; no plan is accepted after another; and one that is accepted while it is pending, which ends
    the loop, leaves no plan behind that is still pending. -/
def Resolves {ω : Type} (gate : Gate ω) (locals : Ticker → List Address) :
    Bool → List String → List PlanWithPriority → ω → Prop
  | _, _, [], _ => True
  | won, names, pw :: plans, w =>
      match gate pw.plan w with
      | (w, some _) =>
          won = false ∧
            if Released locals names pw then Resolves gate locals true names plans w
            else ∀ q ∈ plans, Released locals names q
      | (w, none) =>
          Found locals pw ∧ Resolves gate locals won (pw.plan.strategyName :: names) plans w

/-- At most one of the offers was accepted, counting one if `won`, and no plan of another strategy is
    pending. -/
structure Settled {σ : Type} [IStrategy σ] (won : Bool) (new : List Offer)
    (plans : List PlanWithPriority) (eng : StrategyEngine σ) : Prop where
  one : (new.filter Offer.accepted).length + won.toNat ≤ 1
  released : ∀ pw ∈ plans, (∀ o ∈ new.filter Offer.accepted, o.strategy ≠ pw.strategy) →
    eng.hasActivePlan pw.strategy = false

section

variable {σ : Type} [IStrategy σ] {won : Bool} {o : Offer} {new : List Offer}
  {pw : PlanWithPriority} {plans : List PlanWithPriority} {eng : StrategyEngine σ}

theorem settled_nil :
    Settled won [] plans eng ↔ ∀ pw ∈ plans, eng.hasActivePlan pw.strategy = false := by
  refine ⟨fun h pw hpw => h.released pw hpw (List.forall_mem_nil _), fun h => ⟨?_, fun pw hpw _ => h pw hpw⟩⟩
  cases won <;> decide

theorem settled_accepted (ho : o.accepted = true) (hpw : o.strategy = pw.strategy)
    (hplans : ∀ q ∈ plans, pw.strategy ≠ q.strategy) :
    Settled won (o :: new) (pw :: plans) eng ↔ won = false ∧ Settled true new plans eng := by
  have hfilter : (o :: new).filter Offer.accepted = o :: new.filter Offer.accepted :=
    List.filter_cons_of_pos ho
  constructor
  · rintro ⟨hone, hreleased⟩
    rw [hfilter, List.length_cons] at hone
    refine ⟨?_, ?_, fun q hq hnot => hreleased q (List.mem_cons_of_mem _ hq) ?_⟩
    · cases won with
      | false => rfl
      | true => simp at hone
    · rw [Bool.toNat_true]
      omega
    · rw [hfilter]
      exact List.forall_mem_cons.2 ⟨hpw ▸ hplans q hq, hnot⟩
  · rintro ⟨rfl, hone, hreleased⟩
    refine ⟨?_, fun q hq hnot => ?_⟩
    · rw [hfilter, List.length_cons]
      exact hone
    · rw [hfilter] at hnot
      obtain ⟨hne, hnot⟩ := List.forall_mem_cons.1 hnot
      rcases List.mem_cons.1 hq with rfl | hq
      · exact absurd hpw hne
      · exact hreleased q hq hnot

theorem settled_rejected (ho : o.accepted = false) (hpw : eng.hasActivePlan pw.strategy = false) :
    Settled won (o :: new) (pw :: plans) eng ↔ Settled won new plans eng := by
  have hfilter : (o :: new).filter Offer.accepted = new.filter Offer.accepted :=
    List.filter_cons_of_neg (by simp [ho])
  constructor
  · rintro ⟨hone, hreleased⟩
    rw [hfilter] at hone hreleased
    exact ⟨hone, fun q hq => hreleased q (List.mem_cons_of_mem _ hq)⟩
  · rintro ⟨hone, hreleased⟩
    refine ⟨hfilter ▸ hone, List.forall_mem_cons.2 ⟨fun _ => hpw, fun q hq hnot => ?_⟩⟩
    rw [hfilter] at hnot
    exact hreleased q hq hnot

end

/-- The plans that are still to be tried for a ticker, after plans with these names were rejected. -/
structure Pending {σ : Type} [IStrategy σ] (locals : Ticker → List Address) (ticker : Ticker)
    (names : List String) (plans : List PlanWithPriority) (eng : StrategyEngine σ) : Prop where
  strategies : ∀ ticker, eng.strategiesOf ticker = locals ticker
  ticker : ∀ pw ∈ plans, pw.plan.ticker = ticker
  named : ∀ pw ∈ plans, ∀ name, eng.isNamed name pw.strategy = decide (pw.plan.strategyName = name)
  active : ∀ pw ∈ plans, eng.hasActivePlan pw.strategy = !decide (Released locals names pw)
  nodup : (plans.map PlanWithPriority.strategy).Nodup

section

variable {σ ω : Type} [IStrategy σ] {gate : Gate ω} {pw : PlanWithPriority}
  {plans : List PlanWithPriority} {st : StrategyEngine σ × ω}

theorem tryPlans_cons_of_active
    (h : (offer (some gate) pw.strategy pw.plan st).1.hasActivePlan pw.strategy = true) :
    tryPlans gate (pw :: plans) st = offer (some gate) pw.strategy pw.plan st :=
  if_pos h

theorem tryPlans_cons_of_inactive
    (h : (offer (some gate) pw.strategy pw.plan st).1.hasActivePlan pw.strategy = false) :
    tryPlans gate (pw :: plans) st = tryPlans gate plans (offer (some gate) pw.strategy pw.plan st) :=
  if_neg (by rw [h]; exact Bool.false_ne_true)

/-- The offer of a plan. -/
def offerOf (gate : Gate ω) (pw : PlanWithPriority) (st : StrategyEngine σ × ω) : Offer :=
  ⟨pw.plan, pw.strategy, st.1.currentRegime pw.plan.ticker, (gate pw.plan st.2).2.isSome⟩

/-- The offers are of the plans. -/
theorem tryPlans_mem (gate : Gate ω) (plans : List PlanWithPriority) (st : StrategyEngine σ × ω) :
    ∃ new, Offers st.1 (tryPlans gate plans st).1 new ∧
      ∀ o ∈ new, ∃ pw ∈ plans, o.plan = pw.plan ∧ o.strategy = pw.strategy := by
  induction plans generalizing st with
  | nil => exact ⟨[], Offers.refl _, List.forall_mem_nil _⟩
  | cons pw plans ih =>
      have hoffer : Offers st.1 (offer (some gate) pw.strategy pw.plan st).1 [offerOf gate pw st] :=
        offers_offer gate pw.strategy pw.plan st
      have hfirst : ∀ o ∈ [offerOf gate pw st],
          ∃ q ∈ pw :: plans, o.plan = q.plan ∧ o.strategy = q.strategy :=
        List.forall_mem_singleton.2 ⟨pw, List.mem_cons_self .., rfl, rfl⟩
      obtain ⟨new, hnew, hmem⟩ := ih (offer (some gate) pw.strategy pw.plan st)
      unfold tryPlans
      dsimp only
      split
      · exact ⟨_, hoffer, hfirst⟩
      · refine ⟨_, hoffer.trans hnew, List.forall_mem_append.2 ⟨hfirst, fun o ho => ?_⟩⟩
        obtain ⟨q, hq, heq⟩ := hmem o ho
        exact ⟨q, List.mem_cons_of_mem _ hq, heq⟩

end

section

variable {σ ω : Type} [IStrategy σ] [LawfulStrategy σ] {locals : Ticker → List Address}
  {ticker : Ticker} {names : List String} {pw : PlanWithPriority} {plans : List PlanWithPriority}
  {gate : Gate ω} {st : StrategyEngine σ × ω}

theorem offer_same (gate : Gate ω) (a : Address) (plan : StrategyPlan) (st : StrategyEngine σ × ω) :
    Evolves SameIdentity st.1 (offer (some gate) a plan st).1 :=
  LawfulStrategy.identity.offer (some gate) a plan st

theorem Pending.accepted {accepted : StrategyPlan} (h : Pending locals ticker names (pw :: plans) st.1)
    (hgate : (gate pw.plan st.2).2 = some accepted) :
    Pending locals ticker names plans (offer (some gate) pw.strategy pw.plan st).1 := by
  have hsame := offer_same gate pw.strategy pw.plan st
  have hactive := (offer_accepted (a := pw.strategy) hgate).2
  refine ⟨fun t => (hsame.strategiesOf t).trans (h.strategies t),
    fun q hq => h.ticker q (List.mem_cons_of_mem _ hq), fun q hq name => ?_, fun q hq => ?_,
    (List.nodup_cons.1 h.nodup).2⟩
  · rw [isNamed_of_evolves hsame]
    exact h.named q (List.mem_cons_of_mem _ hq) name
  · rw [hactive]
    exact h.active q (List.mem_cons_of_mem _ hq)

theorem Pending.active_rejected (h : Pending locals ticker names (pw :: plans) st.1)
    (hgate : (gate pw.plan st.2).2 = none) {q : PlanWithPriority} (hq : q ∈ pw :: plans) :
    (offer (some gate) pw.strategy pw.plan st).1.hasActivePlan q.strategy
      = !decide (Released locals (pw.plan.strategyName :: names) q) := by
  have htick : pw.plan.ticker = q.plan.ticker :=
    (h.ticker pw (List.mem_cons_self ..)).trans (h.ticker q hq).symm
  rw [(offer_rejected (a := pw.strategy) hgate).2, h.active q hq, h.strategies, h.named q hq, htick,
    ← Bool.not_or, ← Bool.decide_or]
  congr 1
  refine decide_eq_decide.2 ?_
  unfold Released Found
  rw [List.mem_cons, decide_eq_true_eq]
  tauto

theorem Pending.rejected (h : Pending locals ticker names (pw :: plans) st.1)
    (hgate : (gate pw.plan st.2).2 = none) :
    Pending locals ticker (pw.plan.strategyName :: names) plans
      (offer (some gate) pw.strategy pw.plan st).1 := by
  have hsame := offer_same gate pw.strategy pw.plan st
  refine ⟨fun t => (hsame.strategiesOf t).trans (h.strategies t),
    fun q hq => h.ticker q (List.mem_cons_of_mem _ hq), fun q hq name => ?_,
    fun q hq => h.active_rejected hgate (List.mem_cons_of_mem _ hq), (List.nodup_cons.1 h.nodup).2⟩
  rw [isNamed_of_evolves hsame]
  exact h.named q (List.mem_cons_of_mem _ hq) name

/-- No offer makes a plan pending, and none resets a strategy that its plan does not name. -/
theorem hasActivePlan_offer (gate : Gate ω) (a b : Address) (plan : StrategyPlan)
    (st : StrategyEngine σ × ω) :
    (offer (some gate) a plan st).1.hasActivePlan b = st.1.hasActivePlan b ∨
      ((offer (some gate) a plan st).1.hasActivePlan b = false ∧
        b ∈ st.1.strategiesOf plan.ticker ∧ st.1.isNamed plan.strategyName b = true) := by
  cases hgate : (gate plan st.2).2 with
  | some accepted => exact Or.inl ((offer_accepted hgate).2 b)
  | none =>
      rw [(offer_rejected hgate).2 b]
      by_cases hfound : b ∈ st.1.strategiesOf plan.ticker ∧ st.1.isNamed plan.strategyName b = true
      · exact Or.inr ⟨by simp [hfound], hfound⟩
      · exact Or.inl (by rw [decide_eq_false hfound, Bool.not_false, Bool.and_true])

theorem tryPlans_inactive {b : Address} (h : st.1.hasActivePlan b = false) :
    (tryPlans gate plans st).1.hasActivePlan b = false := by
  induction plans generalizing st with
  | nil => exact h
  | cons pw plans ih =>
      have hoffer : (offer (some gate) pw.strategy pw.plan st).1.hasActivePlan b = false := by
        rcases hasActivePlan_offer gate pw.strategy b pw.plan st with heq | ⟨heq, -⟩
        · exact heq.trans h
        · exact heq
      unfold tryPlans
      dsimp only
      split
      · exact hoffer
      · exact ih hoffer

/-- A strategy that no plan names keeps its plan. -/
theorem tryPlans_frame {b : Address} (h : ∀ pw ∈ plans,
      ¬(b ∈ st.1.strategiesOf pw.plan.ticker ∧ st.1.isNamed pw.plan.strategyName b = true)) :
    (tryPlans gate plans st).1.hasActivePlan b = st.1.hasActivePlan b := by
  induction plans generalizing st with
  | nil => rfl
  | cons pw plans ih =>
      have hsame := offer_same gate pw.strategy pw.plan st
      have hoffer : (offer (some gate) pw.strategy pw.plan st).1.hasActivePlan b
          = st.1.hasActivePlan b := by
        rcases hasActivePlan_offer gate pw.strategy b pw.plan st with heq | ⟨-, hfound⟩
        · exact heq
        · exact absurd hfound (h pw (List.mem_cons_self ..))
      unfold tryPlans
      dsimp only
      split
      · exact hoffer
      · refine (ih fun q hq => ?_).trans hoffer
        rw [hsame.strategiesOf, isNamed_of_evolves hsame]
        exact h q (List.mem_cons_of_mem _ hq)

theorem resolves_accepted {won : Bool} {w : ω} {accepted : StrategyPlan}
    (h : (gate pw.plan w).2 = some accepted) :
    Resolves gate locals won names (pw :: plans) w ↔
      won = false ∧
        if Released locals names pw then Resolves gate locals true names plans (gate pw.plan w).1
        else ∀ q ∈ plans, Released locals names q := by
  have hpair : gate pw.plan w = ((gate pw.plan w).1, some accepted) := by rw [← h]
  rw [Resolves]
  split
  · next w' p heq => rw [heq]
  · next w' heq => rw [heq] at h; exact absurd h (by simp)

theorem resolves_rejected {won : Bool} {w : ω} (h : (gate pw.plan w).2 = none) :
    Resolves gate locals won names (pw :: plans) w ↔
      Found locals pw ∧
        Resolves gate locals won (pw.plan.strategyName :: names) plans (gate pw.plan w).1 := by
  rw [Resolves]
  split
  · next w' p heq => rw [heq] at h; exact absurd h (by simp)
  · next w' heq => rw [heq]

/-- The plans of a ticker settle exactly if they turn out as they should. -/
theorem tryPlans_settled (gate : Gate ω) (st : StrategyEngine σ × ω)
    (h : Pending locals ticker names plans st.1) (won : Bool) :
    ∃ new, Offers st.1 (tryPlans gate plans st).1 new ∧
      (Settled won new plans (tryPlans gate plans st).1 ↔
        Resolves gate locals won names plans st.2) := by
  induction plans generalizing st names won with
  | nil =>
      refine ⟨[], Offers.refl _, iff_of_true ⟨?_, List.forall_mem_nil _⟩ ?_⟩
      · cases won <;> decide
      · simp [Resolves]
  | cons pw plans ih =>
      have hoffers : Offers st.1 (offer (some gate) pw.strategy pw.plan st).1 [offerOf gate pw st] :=
        offers_offer gate pw.strategy pw.plan st
      have hnotin : ∀ q ∈ plans, pw.strategy ≠ q.strategy := fun q hq heq =>
        (List.nodup_cons.1 h.nodup).1 (heq ▸ List.mem_map_of_mem hq)
      cases hgate : (gate pw.plan st.2).2 with
      | some accepted =>
          obtain ⟨hworld, hactive⟩ := offer_accepted (a := pw.strategy) hgate
          have hpw := (hactive pw.strategy).trans (h.active pw (List.mem_cons_self ..))
          have ho : (offerOf gate pw st).accepted = true := by rw [offerOf, hgate, Option.isSome_some]
          have hnext := h.accepted hgate
          -- accepted: the loop goes on only if the strategy is released by its name
          by_cases hrel : Released locals names pw
          · rw [decide_eq_true hrel, Bool.not_true] at hpw
            obtain ⟨new, hnew, hiff⟩ := ih _ hnext true
            rw [tryPlans_cons_of_inactive hpw, resolves_accepted hgate, if_pos hrel, ← hworld, ← hiff]
            exact ⟨_, hoffers.trans hnew, settled_accepted ho rfl hnotin⟩
          · rw [decide_eq_false hrel, Bool.not_false] at hpw
            rw [tryPlans_cons_of_active hpw, resolves_accepted hgate, if_neg hrel]
            refine ⟨_, hoffers, (settled_accepted ho rfl hnotin).trans ?_⟩
            rw [settled_nil]
            refine and_congr_right fun _ => forall₂_congr fun q hq => ?_
            rw [hnext.active q hq, Bool.not_eq_false', decide_eq_true_eq]
      | none =>
          have hpw := h.active_rejected hgate (List.mem_cons_self ..)
          have ho : (offerOf gate pw st).accepted = false := by rw [offerOf, hgate, Option.isSome_none]
          have hnext := h.rejected hgate
          -- rejected: the loop goes on only if the reset has found the strategy
          by_cases hfound : Found locals pw
          · have hrel : Released locals (pw.plan.strategyName :: names) pw :=
              ⟨hfound, List.mem_cons_self ..⟩
            rw [decide_eq_true hrel, Bool.not_true] at hpw
            obtain ⟨new, hnew, hiff⟩ := ih _ hnext won
            rw [tryPlans_cons_of_inactive hpw, resolves_rejected hgate, and_iff_right hfound,
              ← (offer_rejected (a := pw.strategy) hgate).1, ← hiff]
            exact ⟨_, hoffers.trans hnew, settled_rejected ho (tryPlans_inactive hpw)⟩
          · have hrel : ¬Released locals (pw.plan.strategyName :: names) pw := fun hr => hfound hr.1
            rw [decide_eq_false hrel, Bool.not_false] at hpw
            rw [tryPlans_cons_of_active hpw, resolves_rejected hgate]
            refine ⟨_, hoffers, iff_of_false (fun hset => ?_) (fun hres => hfound hres.1)⟩
            have hpending := hset.released pw (List.mem_cons_self ..) (by simp [ho])
            exact Bool.false_ne_true (hpending.symm.trans hpw)

end

/-! ## The regime -/

theorem suppresses_congr {regime : MarketRegime} {plan plan' : StrategyPlan}
    (h : plan.strategyName = plan'.strategyName) :
    suppresses regime plan = suppresses regime plan' := by
  cases regime <;> simp only [suppresses, h]

/-- If what a filter drops lies behind its result's length, nothing that it keeps does. -/
theorem not_mem_drop_of_mem_filter {α : Type} {p : α → Bool} {l : List α} (hnd : l.Nodup)
    (h : ∀ a ∈ l, p a = false → a ∈ l.drop (l.filter p).length) :
    ∀ a ∈ l.filter p, a ∉ l.drop (l.filter p).length := by
  have hk : (l.filter p).length ≤ l.length := List.length_filter_le p l
  generalize hlen : (l.filter p).length = k at h hk ⊢
  have hfront : (l.take k).filter p = l.take k := by
    refine List.filter_eq_self.2 fun a ha => ?_
    by_contra hp
    exact (List.disjoint_take_drop hnd le_rfl) ha
      (h a (List.mem_of_mem_take ha) (Bool.eq_false_of_not_eq_true hp))
  have hback : (l.drop k).filter p = [] := by
    have hsum : (l.filter p).length = (l.take k).length + ((l.drop k).filter p).length := by
      rw [← hfront, ← List.length_append, ← List.filter_append, List.take_append_drop]
    rw [List.length_take, min_eq_left hk, hlen] at hsum
    exact List.eq_nil_of_length_eq_zero (by omega)
  intro a ha hdrop
  have hmem : a ∈ (l.drop k).filter p := List.mem_filter.2 ⟨hdrop, (List.mem_filter.1 ha).2⟩
  rw [hback] at hmem
  exact absurd hmem List.not_mem_nil

/-- A ticker's plans turn out as they should: those that the regime suppresses are in the tail that
    is reset, and the others resolve. -/
def Resolved {σ ω : Type} [IStrategy σ] (ps : PlanSort) (gate : Gate ω) (st : StrategyEngine σ × ω)
    (group : Ticker × List PlanWithPriority) : Prop :=
  let regime := st.1.currentRegime group.1
  let kept := group.2.filter (fun pw => !suppresses regime pw.plan)
  (∀ pw ∈ group.2, suppresses regime pw.plan = true → pw ∈ group.2.drop kept.length) ∧
    Resolves gate (fun ticker => st.1.strategiesOf ticker) false [] (ps.sort kept) st.2

theorem choose_eq {σ ω : Type} [IStrategy σ] (ps : PlanSort) (gate : Gate ω)
    (st : StrategyEngine σ × ω) (group : Ticker × List PlanWithPriority)
    {kept : List PlanWithPriority}
    (hkept : kept = group.2.filter (fun pw => !suppresses (st.1.currentRegime group.1) pw.plan)) :
    choose ps (some gate) st group =
      tryPlans gate (ps.sort kept) (st.1.resetPlans (group.2.drop kept.length), st.2) := by
  subst hkept
  rfl

section

variable {σ ω : Type} [IStrategy σ] [LawfulStrategy σ] {locals : Ticker → List Address}
  {ticker : Ticker} {plans : List PlanWithPriority} {eng : StrategyEngine σ}

theorem resetPlans_same (plans : List PlanWithPriority) (eng : StrategyEngine σ) :
    Evolves SameIdentity eng (eng.resetPlans plans) := LawfulStrategy.identity.resetPlans plans eng

/-- What is not among the plans that are reset stays pending. -/
theorem Pending.active_resetPlans (h : Pending locals ticker [] plans eng)
    {tail : List PlanWithPriority} (htail : tail ⊆ plans) {pw : PlanWithPriority} (hpw : pw ∈ plans)
    (hout : pw ∉ tail) : (eng.resetPlans tail).hasActivePlan pw.strategy = true := by
  have hout' : pw.strategy ∉ tail.map PlanWithPriority.strategy := by
    intro hmem
    obtain ⟨q, hq, heq⟩ := List.mem_map.1 hmem
    exact hout (List.inj_on_of_nodup_map h.nodup (htail hq) hpw heq ▸ hq)
  rw [hasActivePlan_resetPlans, h.active pw hpw, decide_eq_false hout']
  simp [Released]

theorem Pending.resetPlans (h : Pending locals ticker [] plans eng) {tail kept : List PlanWithPriority}
    (htail : tail ⊆ plans) (hkept : kept ⊆ plans) (hdisj : ∀ pw ∈ kept, pw ∉ tail)
    (hnd : (kept.map PlanWithPriority.strategy).Nodup) :
    Pending locals ticker [] kept (eng.resetPlans tail) := by
  have hsame := resetPlans_same tail eng
  refine ⟨fun t => (hsame.strategiesOf t).trans (h.strategies t), fun q hq => h.ticker q (hkept hq),
    fun q hq name => ?_, fun q hq => ?_, hnd⟩
  · rw [isNamed_of_evolves hsame]
    exact h.named q (hkept hq) name
  · rw [h.active_resetPlans htail (hkept hq) (hdisj q hq)]
    simp [Released]

/-- A suppressed plan that is not in the tail outlasts its ticker's turn. -/
theorem Pending.suppressed_active (h : Pending locals ticker [] plans eng) (gate : Gate ω) (w : ω)
    {regime : MarketRegime} {tail kept : List PlanWithPriority} (htail : tail ⊆ plans)
    (hkept : ∀ q ∈ kept, suppresses regime q.plan = false) {pw : PlanWithPriority} (hpw : pw ∈ plans)
    (hout : pw ∉ tail) (hsup : suppresses regime pw.plan = true) :
    (tryPlans gate kept (eng.resetPlans tail, w)).1.hasActivePlan pw.strategy = true := by
  rw [tryPlans_frame]
  · exact h.active_resetPlans htail hpw hout
  · rintro q hq ⟨-, hname⟩
    rw [isNamed_of_evolves (resetPlans_same tail eng), h.named pw hpw, decide_eq_true_eq] at hname
    have hsup' := (suppresses_congr hname).symm.trans hsup
    exact Bool.false_ne_true ((hkept q hq).symm.trans hsup')

/-- The plans of a ticker settle in its turn exactly if they turn out as they should. -/
theorem choose_settled (ps : PlanSort) (gate : Gate ω) (st : StrategyEngine σ × ω)
    (group : Ticker × List PlanWithPriority)
    (h : Pending (fun ticker => st.1.strategiesOf ticker) group.1 [] group.2 st.1) :
    ∃ new, Offers st.1 (choose ps (some gate) st group).1 new ∧
      (∀ o ∈ new, ∃ pw ∈ group.2, o.plan = pw.plan ∧ o.strategy = pw.strategy) ∧
      (Settled false new group.2 (choose ps (some gate) st group).1 ↔
        Resolved ps gate st group) := by
  generalize hkept : group.2.filter (fun pw => !suppresses (st.1.currentRegime group.1) pw.plan) = kept
  have hin : ∀ {pw}, pw ∈ ps.sort kept ↔
      pw ∈ group.2 ∧ suppresses (st.1.currentRegime group.1) pw.plan = false := by
    intro pw
    rw [(ps.perm kept).mem_iff, ← hkept, List.mem_filter, Bool.not_eq_true']
  have hdrop : group.2.drop kept.length ⊆ group.2 := List.drop_subset _ _
  simp only [choose_eq ps gate st group hkept.symm, Resolved, hkept]
  obtain ⟨new, hnew, hmem⟩ := tryPlans_mem gate (ps.sort kept)
    (st.1.resetPlans (group.2.drop kept.length), st.2)
  refine ⟨new, (offers_resetPlans _ st.1).trans hnew, fun o ho => ?_, ?_⟩
  · obtain ⟨pw, hpw, heq⟩ := hmem o ho
    exact ⟨pw, (hin.1 hpw).1, heq⟩
  -- the suppressed plans are all in the tail that is reset, or one of them stands before it
  by_cases htail : ∀ pw ∈ group.2, suppresses (st.1.currentRegime group.1) pw.plan = true →
      pw ∈ group.2.drop kept.length
  · rw [and_iff_right htail]
    -- what is offered is not in the tail
    have hdisj : ∀ pw ∈ ps.sort kept, pw ∉ group.2.drop kept.length := by
      intro pw hpw
      have hout := not_mem_drop_of_mem_filter (List.Nodup.of_map _ h.nodup)
        (p := fun pw => !suppresses (st.1.currentRegime group.1) pw.plan) (by
          intro q hq hsup
          rw [hkept]
          exact htail q hq (by simpa using hsup))
      rw [hkept] at hout
      exact hout pw ((ps.perm kept).mem_iff.1 hpw)
    have hnd : ((ps.sort kept).map PlanWithPriority.strategy).Nodup := by
      rw [((ps.perm kept).map _).nodup_iff, ← hkept]
      exact h.nodup.sublist (List.filter_sublist.map _)
    have hpending := h.resetPlans hdrop (fun pw hpw => (hin.1 hpw).1) hdisj hnd
    obtain ⟨new', hnew', hiff⟩ := tryPlans_settled gate
      (st.1.resetPlans (group.2.drop kept.length), st.2) hpending false
    have heq : new' = new := List.append_cancel_left (hnew'.offers.symm.trans hnew.offers)
    rw [← hiff, heq]
    refine ⟨fun hset => ⟨hset.one, fun pw hpw => hset.released pw (hin.1 hpw).1⟩, fun hset =>
      ⟨hset.one, fun pw hpw hnot => ?_⟩⟩
    cases hsup : suppresses (st.1.currentRegime group.1) pw.plan with
    | false => exact hset.released pw (hin.2 ⟨hpw, hsup⟩) hnot
    | true =>
        refine tryPlans_inactive ?_
        rw [hasActivePlan_resetPlans, decide_eq_true (List.mem_map_of_mem (htail pw hpw hsup)),
          Bool.not_true, Bool.and_false]
  · refine iff_of_false (fun hset => ?_) (fun hres => htail hres.1)
    push Not at htail
    -- a suppressed plan before the tail is neither offered nor reset, so it stays pending
    obtain ⟨pw, hpw, hsup, hout⟩ := htail
    have hactive := h.suppressed_active gate st.2 hdrop (fun q hq => (hin.1 hq).2) hpw hout hsup
    refine Bool.false_ne_true ((hset.released pw hpw fun o ho heq => ?_).symm.trans hactive)
    obtain ⟨q, hq, -, hstrategy⟩ := hmem o (List.mem_of_mem_filter ho)
    have hqpw : q = pw :=
      List.inj_on_of_nodup_map h.nodup (hin.1 hq).1 hpw (hstrategy.symm.trans heq)
    exact Bool.false_ne_true ((hin.1 hq).2.symm.trans (hqpw ▸ hsup))

end

/-! ## The tick -/

section

variable {σ : Type} [IStrategy σ] {eng : StrategyEngine σ}

/-- The plans of a tick, by ticker, while those of each ticker are waiting for their turn. -/
structure Collected (eng : StrategyEngine σ) (groups : BucketMap Ticker PlanWithPriority) : Prop where
  keyed : BucketMap.WellKeyed (fun pw => pw.plan.ticker) groups
  named : ∀ pw ∈ groups.values, ∀ name,
    eng.isNamed name pw.strategy = decide (pw.plan.strategyName = name)
  active : ∀ pw ∈ groups.values, eng.hasActivePlan pw.strategy = true
  home : ∀ pw ∈ groups.values, ∀ ticker, pw.strategy ∈ eng.strategiesOf ticker →
    ticker = pw.plan.ticker
  nodup : (groups.values.map PlanWithPriority.strategy).Nodup

theorem Collected.evolves {eng' : StrategyEngine σ} {groups : BucketMap Ticker PlanWithPriority}
    (h : Collected eng groups) (he : Evolves SameIdentity eng eng')
    (hactive : ∀ pw ∈ groups.values, eng'.hasActivePlan pw.strategy = true) :
    Collected eng' groups := by
  refine ⟨h.keyed, fun pw hpw name => ?_, hactive, fun pw hpw ticker hmem => ?_, h.nodup⟩
  · rw [isNamed_of_evolves he]
    exact h.named pw hpw name
  · rw [he.strategiesOf] at hmem
    exact h.home pw hpw ticker hmem

theorem Collected.tail {e : Ticker × List PlanWithPriority}
    {groups : BucketMap Ticker PlanWithPriority} (h : Collected eng (e :: groups)) :
    Collected eng groups := by
  have hin : ∀ pw ∈ groups.values, pw ∈ BucketMap.values (e :: groups) :=
    fun pw hpw => List.mem_append_right _ hpw
  refine ⟨h.keyed.tail, fun pw hpw => h.named pw (hin pw hpw), fun pw hpw => h.active pw (hin pw hpw),
    fun pw hpw => h.home pw (hin pw hpw), ?_⟩
  have hnd := h.nodup
  rw [BucketMap.values_cons, List.map_append] at hnd
  exact hnd.of_append_right

theorem Collected.head {e : Ticker × List PlanWithPriority}
    {groups : BucketMap Ticker PlanWithPriority} (h : Collected eng (e :: groups)) :
    Pending (fun ticker => eng.strategiesOf ticker) e.1 [] e.2 eng := by
  have hin : ∀ pw ∈ e.2, pw ∈ BucketMap.values (e :: groups) :=
    fun pw hpw => List.mem_append_left _ hpw
  refine ⟨fun _ => rfl, h.keyed.keyed e (List.mem_cons_self ..), fun pw hpw => h.named pw (hin pw hpw),
    fun pw hpw => ?_, ?_⟩
  · rw [h.active pw (hin pw hpw)]
    simp [Released]
  · have hnd := h.nodup
    rw [BucketMap.values_cons, List.map_append] at hnd
    exact hnd.of_append_left

/-- The plans of the other tickers. -/
theorem Collected.other {e : Ticker × List PlanWithPriority}
    {groups : BucketMap Ticker PlanWithPriority} (h : Collected eng (e :: groups))
    {pw q : PlanWithPriority} (hpw : pw ∈ e.2) (hq : q ∈ groups.values) :
    pw.strategy ≠ q.strategy ∧ pw.plan.ticker ≠ q.plan.ticker := by
  have hnd := h.nodup
  rw [BucketMap.values_cons, List.map_append] at hnd
  refine ⟨fun heq => List.disjoint_of_nodup_append hnd (List.mem_map_of_mem hpw)
    (heq ▸ List.mem_map_of_mem hq), fun heq => h.keyed.keyOf_ne_head hq ?_⟩
  exact heq.symm.trans (h.keyed.keyed e (List.mem_cons_self ..) pw hpw)

end

/-- What the tick's first loop makes of the engine, and the plans it collects. -/
def collected {σ : Type} [IStrategy σ] (now : TimePoint) (eng : StrategyEngine σ) :
    StrategyEngine σ × BucketMap Ticker PlanWithPriority :=
  eng.addresses.foldl (collect now) (eng, [])

/-- Per ticker at most one of the offers was accepted, and no plan of another strategy is pending. -/
structure OneWinner {σ : Type} [IStrategy σ] (new : List Offer)
    (groups : BucketMap Ticker PlanWithPriority) (eng : StrategyEngine σ) : Prop where
  one : ∀ ticker, ((new.filter Offer.accepted).filter
    (fun o => decide (o.plan.ticker = ticker))).length ≤ 1
  released : ∀ pw ∈ groups.values, (∀ o ∈ new.filter Offer.accepted, o.strategy ≠ pw.strategy) →
    eng.hasActivePlan pw.strategy = false

/-- The winners of a list of tickers are the winner of the first and those of the others. -/
theorem oneWinner_cons {σ : Type} [IStrategy σ] {e : Ticker × List PlanWithPriority}
    {groups : BucketMap Ticker PlanWithPriority} {eng eng' : StrategyEngine σ} {first new : List Offer}
    (hother : ∀ pw ∈ e.2, ∀ q ∈ groups.values,
      pw.strategy ≠ q.strategy ∧ pw.plan.ticker ≠ q.plan.ticker)
    (hfirst : ∀ o ∈ first, ∃ pw ∈ e.2, o.plan = pw.plan ∧ o.strategy = pw.strategy)
    (hnew : ∀ o ∈ new, ∃ q ∈ groups.values, o.plan = q.plan ∧ o.strategy = q.strategy)
    (hkeep : ∀ pw ∈ e.2, eng'.hasActivePlan pw.strategy = eng.hasActivePlan pw.strategy)
    (hticker : ∀ pw ∈ e.2, pw.plan.ticker = e.1) :
    OneWinner (first ++ new) (e :: groups) eng' ↔
      Settled false first e.2 eng ∧ OneWinner new groups eng' := by
  -- the tickers do not share a strategy or a ticker, so neither part of the offers concerns the other
  have hstrategy : ∀ pw ∈ e.2, ∀ o ∈ new.filter Offer.accepted, o.strategy ≠ pw.strategy := by
    intro pw hpw o ho heq
    obtain ⟨q, hq, -, hoq⟩ := hnew o (List.mem_of_mem_filter ho)
    exact (hother pw hpw q hq).1 (heq.symm.trans hoq)
  have hstrategy' : ∀ q ∈ groups.values, ∀ o ∈ first.filter Offer.accepted,
      o.strategy ≠ q.strategy := by
    intro q hq o ho heq
    obtain ⟨pw, hpw, -, hopw⟩ := hfirst o (List.mem_of_mem_filter ho)
    exact (hother pw hpw q hq).1 (hopw.symm.trans heq)
  have hmine : (first.filter Offer.accepted).filter (fun o => decide (o.plan.ticker = e.1))
      = first.filter Offer.accepted := by
    refine List.filter_eq_self.2 fun o ho => decide_eq_true ?_
    obtain ⟨pw, hpw, hplan, -⟩ := hfirst o (List.mem_of_mem_filter ho)
    rw [hplan, hticker pw hpw]
  constructor
  · rintro ⟨hone, hreleased⟩
    simp only [List.filter_append, List.length_append, List.forall_mem_append] at hone hreleased
    refine ⟨⟨?_, fun pw hpw hnot => ?_⟩, fun ticker => ?_, fun q hq hnot => ?_⟩
    · have hmyone := hone e.1
      rw [hmine] at hmyone
      exact (Nat.le_add_right _ _).trans hmyone
    · rw [← hkeep pw hpw]
      exact hreleased pw (List.mem_append_left _ hpw) ⟨hnot, hstrategy pw hpw⟩
    · exact (Nat.le_add_left _ _).trans (hone ticker)
    · exact hreleased q (List.mem_append_right _ hq) ⟨hstrategy' q hq, hnot⟩
  · rintro ⟨hset, hone, hreleased⟩
    refine ⟨fun ticker => ?_, fun pw hpw hnot => ?_⟩
    · simp only [List.filter_append, List.length_append]
      -- a ticker with an accepted plan among the first offers has none among the new ones
      by_cases hmeets : ∃ o ∈ first.filter Offer.accepted, o.plan.ticker = ticker
      · obtain ⟨o, ho, rfl⟩ := hmeets
        obtain ⟨pw, hpw, hplan, -⟩ := hfirst o (List.mem_of_mem_filter ho)
        have hnone : (new.filter Offer.accepted).filter
            (fun o' => decide (o'.plan.ticker = o.plan.ticker)) = [] := by
          refine List.filter_eq_nil_iff.2 fun o' ho' heq => ?_
          obtain ⟨q, hq, hplan', -⟩ := hnew o' (List.mem_of_mem_filter ho')
          have hticker' := of_decide_eq_true heq
          rw [hplan, hplan'] at hticker'
          exact (hother pw hpw q hq).2 hticker'.symm
        rw [hnone, List.length_nil]
        exact (List.length_filter_le _ _).trans hset.one
      · have hnone : (first.filter Offer.accepted).filter
            (fun o => decide (o.plan.ticker = ticker)) = [] :=
          List.filter_eq_nil_iff.2 fun o ho heq => hmeets ⟨o, ho, of_decide_eq_true heq⟩
        rw [hnone, List.length_nil, Nat.zero_add]
        exact hone ticker
    · rw [List.filter_append] at hnot
      obtain ⟨hnotFirst, hnotNew⟩ := List.forall_mem_append.1 hnot
      rcases List.mem_append.1 hpw with hpw | hpw
      · rw [hkeep pw hpw]
        exact hset.released pw hpw hnotFirst
      · exact hreleased pw hpw hnotNew

section

variable {σ ω : Type} [IStrategy σ] [LawfulStrategy σ]

/-- A strategy that plans goes in with its plan. -/
theorem collected_call {now : TimePoint} {eng : StrategyEngine σ}
    {groups : BucketMap Ticker PlanWithPriority} {a : Address} {s : σ} {plan : StrategyPlan}
    (h : Collected (eng.store a (IStrategy.tick now s).1) groups) (hreg : Registered eng)
    (hnot : ∀ pw ∈ groups.values, pw.strategy ≠ a) (hs : eng.objects a = some s)
    (hplan : (IStrategy.tick now s).2 = some plan) (priority : ℤ) :
    Collected (eng.store a (IStrategy.tick now s).1) (groups.push plan.ticker ⟨priority, plan, a⟩) := by
  have hname := LawfulStrategy.strategyName_tick now s plan hplan
  refine ⟨h.keyed.push rfl, fun pw hpw name => ?_, fun pw hpw => ?_, fun pw hpw ticker hmem => ?_, ?_⟩
  · rcases BucketMap.mem_values_push.1 hpw with rfl | hpw
    · rw [isNamed, store_objects_self, Option.any_some, hname,
        (LawfulStrategy.identity.tick now s).1]
    · exact h.named pw hpw name
  · rcases BucketMap.mem_values_push.1 hpw with rfl | hpw
    · rw [hasActivePlan_store, if_pos rfl]
      exact LawfulStrategy.hasActivePlan_tick now s plan hplan
    · exact h.active pw hpw
  · rcases BucketMap.mem_values_push.1 hpw with rfl | hpw
    · obtain ⟨hat, hne⟩ := hreg.tickerAt_of_mem hmem
      rw [tickerAt, hs, Option.map_some, Option.getD_some] at hat
      rw [← hat] at hne ⊢
      exact (LawfulStrategy.ticker_tick now s hne plan hplan).symm
    · exact h.home pw hpw ticker hmem
  · rw [((BucketMap.values_push _ _ _).map _).nodup_iff, List.map_cons, List.nodup_cons]
    refine ⟨fun hmem => ?_, h.nodup⟩
    obtain ⟨pw, hpw, heq⟩ := List.mem_map.1 hmem
    exact hnot pw hpw heq

theorem collected_collect (now : TimePoint)
    {st : StrategyEngine σ × BucketMap Ticker PlanWithPriority} {a : Address}
    (h : Collected st.1 st.2) (hreg : Registered st.1) (hnot : ∀ pw ∈ st.2.values, pw.strategy ≠ a) :
    Collected (collect now st a).1 (collect now st a).2 ∧
      ∀ pw ∈ (collect now st a).2.values, pw ∈ st.2.values ∨ pw.strategy = a := by
  unfold collect call
  cases hs : st.1.objects a with
  | none => exact ⟨h, fun pw hpw => Or.inl hpw⟩
  | some s =>
      have hsame : Evolves SameIdentity st.1 (st.1.store a (IStrategy.tick now s).1) :=
        evolves_store LawfulStrategy.identity.refl hs (LawfulStrategy.identity.tick now s)
      have hstored := h.evolves hsame (fun pw hpw => by
        rw [hasActivePlan_store, if_neg (hnot pw hpw)]
        exact h.active pw hpw)
      dsimp only
      rw [store_objects_self]
      cases hplan : (IStrategy.tick now s).2 with
      | none => exact ⟨hstored, fun pw hpw => Or.inl hpw⟩
      | some plan =>
          refine ⟨collected_call hstored hreg hnot hs hplan _, fun pw hpw => ?_⟩
          rcases BucketMap.mem_values_push.1 hpw with rfl | hpw
          · exact Or.inr rfl
          · exact Or.inl hpw

/-- The plans are those of the strategies they come from, which are different ones. -/
theorem collected_spec (now : TimePoint) {eng : StrategyEngine σ} (h : Registered eng) :
    Collected (collected now eng).1 (collected now eng).2 := by
  have hloop : ∀ (as : List Address) (st : StrategyEngine σ × BucketMap Ticker PlanWithPriority),
      as.Nodup → Collected st.1 st.2 → Registered st.1 →
        (∀ pw ∈ st.2.values, pw.strategy ∉ as) →
          Collected (as.foldl (collect now) st).1 (as.foldl (collect now) st).2 := by
    intro as
    induction as with
    | nil => exact fun st _ hst _ _ => hst
    | cons a as ih =>
        intro st hnd hst hreg hnot
        obtain ⟨hna, hnd⟩ := List.nodup_cons.1 hnd
        obtain ⟨hst', hmem⟩ := collected_collect now hst hreg
          (fun pw hpw heq => hnot pw hpw (heq ▸ List.mem_cons_self ..))
        refine ih _ hnd hst' (hreg.evolves (LawfulStrategy.identity.collect now st a)) ?_
        intro pw hpw
        rcases hmem pw hpw with hold | rfl
        · exact fun hin => hnot pw hold (List.mem_cons_of_mem _ hin)
        · exact hna
  exact hloop eng.addresses (eng, []) h.nodup
    ⟨BucketMap.wellKeyed_nil _, List.forall_mem_nil _, List.forall_mem_nil _, List.forall_mem_nil _,
      List.nodup_nil⟩ h (List.forall_mem_nil _)

/-! ## The turns of the tickers -/

theorem choose_same (ps : PlanSort) (gate : Gate ω) (st : StrategyEngine σ × ω)
    (group : Ticker × List PlanWithPriority) :
    Evolves SameIdentity st.1 (choose ps (some gate) st group).1 :=
  LawfulStrategy.identity.choose ps (some gate) st group

/-- A ticker's turn leaves the plans of other strategies pending. -/
theorem choose_frame {ps : PlanSort} {gate : Gate ω} {st : StrategyEngine σ × ω}
    {group : Ticker × List PlanWithPriority} (hticker : ∀ pw ∈ group.2, pw.plan.ticker = group.1)
    {b : Address} (hplans : ∀ pw ∈ group.2, pw.strategy ≠ b) (hlocal : b ∉ st.1.strategiesOf group.1) :
    (choose ps (some gate) st group).1.hasActivePlan b = st.1.hasActivePlan b := by
  rw [choose_eq ps gate st group rfl, tryPlans_frame]
  · rw [hasActivePlan_resetPlans, decide_eq_false, Bool.not_false, Bool.and_true]
    intro hmem
    obtain ⟨pw, hpw, heq⟩ := List.mem_map.1 hmem
    exact hplans pw (List.mem_of_mem_drop hpw) heq
  · rintro pw hpw ⟨hmem, -⟩
    have hin := List.mem_of_mem_filter ((ps.perm _).mem_iff.1 hpw)
    rw [(resetPlans_same _ st.1).strategiesOf, hticker pw hin] at hmem
    exact hlocal hmem

theorem Collected.choose {ps : PlanSort} {gate : Gate ω} {st : StrategyEngine σ × ω}
    {e : Ticker × List PlanWithPriority} {groups : BucketMap Ticker PlanWithPriority}
    (h : Collected st.1 (e :: groups)) : Collected (choose ps (some gate) st e).1 groups := by
  refine h.tail.evolves (choose_same ps gate st e) fun q hq => ?_
  rw [choose_frame h.head.ticker (fun pw hpw => (h.other hpw hq).1)]
  · exact h.tail.active q hq
  · intro hmem
    exact h.keyed.keyOf_ne_head hq (h.tail.home q hq _ hmem).symm

/-- What is settled in its ticker's turn stays as it is in the turns after it. -/
theorem Collected.foldl_choose_frame {ps : PlanSort} {gate : Gate ω}
    {groups : BucketMap Ticker PlanWithPriority} {st : StrategyEngine σ × ω}
    (h : Collected st.1 groups) {b : Address} (hplans : ∀ q ∈ groups.values, q.strategy ≠ b)
    (hlocal : ∀ e ∈ groups, b ∉ st.1.strategiesOf e.1) :
    (groups.foldl (StrategyEngine.choose ps (some gate)) st).1.hasActivePlan b
      = st.1.hasActivePlan b := by
  induction groups generalizing st with
  | nil => rfl
  | cons e groups ih =>
      rw [List.foldl_cons, ih h.choose (fun q hq => hplans q (List.mem_append_right _ hq)),
        choose_frame h.head.ticker (fun q hq => hplans q (List.mem_append_left _ hq))
          (hlocal e (List.mem_cons_self ..))]
      intro e' he'
      rw [(choose_same ps gate st e).strategiesOf]
      exact hlocal e' (List.mem_cons_of_mem _ he')

/-- The tickers' turns end with one winner each exactly if each ticker's plans turn out as they
    should. -/
theorem foldl_choose_oneWinner (ps : PlanSort) (gate : Gate ω) (st : StrategyEngine σ × ω)
    {groups : BucketMap Ticker PlanWithPriority}
    (h : Collected st.1 groups) :
    ∃ new, Offers st.1 (groups.foldl (choose ps (some gate)) st).1 new ∧
      (∀ o ∈ new, ∃ pw ∈ groups.values, o.plan = pw.plan ∧ o.strategy = pw.strategy) ∧
      (OneWinner new groups (groups.foldl (choose ps (some gate)) st).1 ↔
        Runs.Along (choose ps (some gate)) (Resolved ps gate) st groups) := by
  induction groups generalizing st with
  | nil =>
      exact ⟨[], Offers.refl _, List.forall_mem_nil _,
        iff_of_true ⟨fun _ => Nat.zero_le _, List.forall_mem_nil _⟩ trivial⟩
  | cons e groups ih =>
      have hnext : Collected (choose ps (some gate) st e).1 groups := h.choose
      have hother : ∀ pw ∈ e.2, ∀ q ∈ BucketMap.values groups,
          pw.strategy ≠ q.strategy ∧ pw.plan.ticker ≠ q.plan.ticker :=
        fun pw hpw q hq => h.other hpw hq
      obtain ⟨first, hfirst, hfirstMem, hsettled⟩ := choose_settled ps gate st e h.head
      obtain ⟨new, hnew, hnewMem, hiff⟩ := ih _ hnext
      refine ⟨first ++ new, hfirst.trans hnew, List.forall_mem_append.2 ⟨fun o ho => ?_, fun o ho => ?_⟩,
        ?_⟩
      · obtain ⟨pw, hpw, heq⟩ := hfirstMem o ho
        exact ⟨pw, List.mem_append_left _ hpw, heq⟩
      · obtain ⟨q, hq, heq⟩ := hnewMem o ho
        exact ⟨q, List.mem_append_right _ hq, heq⟩
      · rw [List.foldl_cons, Runs.Along, ← hsettled, ← hiff]
        refine oneWinner_cons hother hfirstMem hnewMem (fun pw hpw => ?_) h.head.ticker
        refine hnext.foldl_choose_frame (fun q hq heq => (hother pw hpw q hq).1 heq.symm) ?_
        intro e' he' hmem
        rw [(choose_same ps gate st e).strategiesOf] at hmem
        have hhome := h.home pw (List.mem_append_left _ hpw) _ hmem
        rw [h.head.ticker pw hpw] at hhome
        exact ((List.pairwise_cons.1 h.keyed.sorted).1 e' he').ne hhome.symm

/-- A tick with one winner per ticker is one in which each ticker's plans turn out as they should. -/
theorem tick_oneWinner_iff (ps : PlanSort) (gate : Gate ω) (now : TimePoint) (w : ω)
    (ops : List (Op σ ω)) :
    OneWinner ((tick ps (some gate) now (run w ops)).1.offers.drop (run w ops).1.offers.length)
        (collected now (run w ops).1).2 (tick ps (some gate) now (run w ops)).1 ↔
      Runs.Along (choose ps (some gate)) (Resolved ps gate)
        ((collected now (run w ops).1).1, (run w ops).2) (collected now (run w ops).1).2 := by
  have hcollected := collected_spec now (registered_run w ops)
  have hquiet : Offers (run w ops).1 (collected now (run w ops).1).1 [] :=
    Runs.invariant (fun st => Offers (run w ops).1 st.1 [])
      (fun st a h => h.trans (collect_offers now st a)) _ (Offers.refl _)
  obtain ⟨new, hnew, -, hiff⟩ := foldl_choose_oneWinner ps gate
    ((collected now (run w ops).1).1, (run w ops).2) hcollected
  have hoffers : (tick ps (some gate) now (run w ops)).1.offers.drop (run w ops).1.offers.length
      = new := by
    have h := (hquiet.trans hnew).offers
    exact (congrArg (List.drop _) h).trans List.drop_left
  rw [hoffers]
  exact hiff

end

/-! ## Two strategies of one ticker -/

/-- A sort that leaves plans of one priority in their order. -/
def stableSort : PlanSort where
  sort := List.insertionSort (fun a b => a.priority ≤ b.priority)
  perm := List.perm_insertionSort _
  sorted := by
    have : IsTrans PlanWithPriority (fun a b => a.priority ≤ b.priority) :=
      ⟨fun _ _ _ hab hbc => hab.trans hbc⟩
    have : Std.Total (fun a b : PlanWithPriority => a.priority ≤ b.priority) :=
      ⟨fun a b => le_total a.priority b.priority⟩
    exact List.pairwise_insertionSort _

/-- LeaderLag strategies for BTC_USDT, whose leader has moved in a trend. -/
def leaderMoved (strategies : ℕ) : List (Op AnyStrategy Unit) :=
  let frame : FeatureFrame :=
    { ticker := "BTC_USDT", mid := 100, spreadBps := 1, priceChange30s := 1 }
  let move : Signal :=
    { kind := .leaderMove, timestamp := seconds 100, ticker := "BTC_USDT", price := 100
      payload := { correlation := 9 / 10, lagPct := 1 / 2 } }
  List.replicate strategies
      (.addStrategy (.leaderLag { ticker := "BTC_USDT", priceIncrement := 1 / 100 })) ++
    [.onFrame true (seconds 100) frame, .signal none move (seconds 100)]

theorem tick_oneWinner_iff_single :
    let st := run () (leaderMoved 1)
    let onPlan : Gate Unit := fun plan w => (w, some plan)
    let st' := tick stableSort (some onPlan) (seconds 101) st
    st'.1.offers ≠ [] ∧
      (OneWinner (st'.1.offers.drop st.1.offers.length) (collected (seconds 101) st.1).2 st'.1 ↔
        Runs.Along (choose stableSort (some onPlan)) (Resolved stableSort onPlan)
          ((collected (seconds 101) st.1).1, st.2) (collected (seconds 101) st.1).2) :=
  ⟨by decide +kernel, tick_oneWinner_iff stableSort _ (seconds 101) () (leaderMoved 1)⟩

/-- The second plan is not offered, and stays pending. -/
theorem not_tick_oneWinner :
    let st := run () (leaderMoved 2)
    let st' := tick stableSort (some (fun plan w => (w, some plan))) (seconds 101) st
    ¬OneWinner (st'.1.offers.drop st.1.offers.length) (collected (seconds 101) st.1).2 st'.1 := by
  intro st st' h
  have hpending : ∃ pw ∈ (collected (seconds 101) st.1).2.values,
      (∀ o ∈ (st'.1.offers.drop st.1.offers.length).filter Offer.accepted,
        o.strategy ≠ pw.strategy) ∧ st'.1.hasActivePlan pw.strategy = true := by
    decide +kernel
  obtain ⟨pw, hpw, hnot, hactive⟩ := hpending
  exact Bool.false_ne_true ((h.released pw hpw hnot).symm.trans hactive)

end TradeBot.StrategyEngine
