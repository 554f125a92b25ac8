import TradeBot.Lib.Runs
import TradeBot.Strategy.StrategyEngine

set_option autoImplicit false

/-! # What the engine does to its strategies

The engine changes a strategy by the methods of its interface only. So whatever each method does to a
strategy (`Methods`), each operation of the engine does to all of them (`Evolves`).

The relation is kept abstract: any relation on strategies that is reflexive and transitive and holds
across each method holds between a strategy before and after each operation. Registration, contexts
and trades are followed through the engine in this way, each with a relation of its own. -/

namespace TradeBot.StrategyEngine

/-- The same strategies are registered, and each has become one that `R` relates it to. -/
structure Evolves {σ : Type} (R : σ → σ → Prop) (eng eng' : StrategyEngine σ) : Prop where
  objects : ∀ a, Option.Rel R (eng.objects a) (eng'.objects a)
  tickerStrategies : eng'.tickerStrategies = eng.tickerStrategies
  globalStrategies : eng'.globalStrategies = eng.globalStrategies
  nextAddress : eng'.nextAddress = eng.nextAddress

/-- `R` relates a strategy to what the methods but `on_plan_accepted` make of it, with frames from
    `frames` and signals from `signals`. -/
structure QuietMethods {σ : Type} [IStrategy σ] (frames : FeatureFrame → Prop)
    (signals : Signal → Prop) (R : σ → σ → Prop) : Prop where
  refl : ∀ s, R s s
  trans : ∀ s s' s'', R s s' → R s' s'' → R s s''
  onFrame : ∀ frame s, frames frame → R s (IStrategy.onFrame frame s)
  onSignal : ∀ signal now s, signals signal → R s (IStrategy.onSignal signal now s).1
  tick : ∀ now s, R s (IStrategy.tick now s).1
  resetActivePlan : ∀ s, R s (IStrategy.resetActivePlan s)
  checkCloseConditions : ∀ now frame s, R s (IStrategy.checkCloseConditions now frame s).1

/-- `R` relates a strategy to what the methods make of it. -/
structure Methods {σ : Type} [IStrategy σ] (frames : FeatureFrame → Prop) (signals : Signal → Prop)
    (R : σ → σ → Prop) : Prop extends QuietMethods frames signals R where
  onPlanAccepted : ∀ plan s, R s (IStrategy.onPlanAccepted plan s)

section

variable {σ : Type} {R : σ → σ → Prop} {eng eng' eng'' : StrategyEngine σ}

theorem Evolves.refl (hrefl : ∀ s, R s s) (eng : StrategyEngine σ) : Evolves R eng eng := by
  refine ⟨fun a => ?_, rfl, rfl, rfl⟩
  cases eng.objects a with
  | none => exact .none
  | some s => exact .some (hrefl s)

theorem Evolves.trans (htrans : ∀ s s' s'', R s s' → R s' s'' → R s s'') (h : Evolves R eng eng')
    (h' : Evolves R eng' eng'') : Evolves R eng eng'' := by
  refine ⟨fun a => ?_, h'.tickerStrategies.trans h.tickerStrategies,
    h'.globalStrategies.trans h.globalStrategies, h'.nextAddress.trans h.nextAddress⟩
  have ha := h.objects a
  have ha' := h'.objects a
  revert ha ha'
  generalize eng.objects a = o
  generalize eng'.objects a = o'
  generalize eng''.objects a = o''
  rintro (⟨hr⟩ | _) (⟨hr'⟩ | _)
  · exact .some (htrans _ _ _ hr hr')
  · exact .none

theorem Evolves.mono {R' : σ → σ → Prop} (h : Evolves R eng eng') (himp : ∀ s s', R s s' → R' s s') :
    Evolves R' eng eng' := by
  refine ⟨fun a => ?_, h.tickerStrategies, h.globalStrategies, h.nextAddress⟩
  have ha := h.objects a
  revert ha
  generalize eng.objects a = o
  generalize eng'.objects a = o'
  rintro (⟨hr⟩ | _)
  · exact .some (himp _ _ hr)
  · exact .none

/-- Where a strategy is, there was one before. -/
theorem Evolves.some_right {a : Address} {s' : σ} (h : Evolves R eng eng')
    (hs' : eng'.objects a = some s') : ∃ s, eng.objects a = some s ∧ R s s' := by
  have ha := h.objects a
  rw [hs'] at ha
  generalize eng.objects a = o at ha
  cases ha with
  | some hr => exact ⟨_, rfl, hr⟩

theorem Evolves.strategiesOf (h : Evolves R eng eng') (ticker : Ticker) :
    eng'.strategiesOf ticker = eng.strategiesOf ticker := by
  rw [StrategyEngine.strategiesOf, StrategyEngine.strategiesOf, h.tickerStrategies]

theorem store_objects_self (a : Address) (s : σ) (eng : StrategyEngine σ) :
    (eng.store a s).objects a = some s := Function.update_self ..

theorem store_objects_of_ne {a b : Address} (h : b ≠ a) (s : σ) (eng : StrategyEngine σ) :
    (eng.store a s).objects b = eng.objects b := Function.update_of_ne h ..

theorem evolves_store {a : Address} {s s' : σ} (hrefl : ∀ s, R s s) (hs : eng.objects a = some s)
    (h : R s s') : Evolves R eng (eng.store a s') := by
  refine ⟨fun b => ?_, rfl, rfl, rfl⟩
  by_cases hb : b = a
  · rw [hb, store_objects_self, hs]
    exact .some h
  · rw [store_objects_of_ne hb]
    exact (Evolves.refl hrefl eng).objects b

theorem evolves_modify {f : σ → σ} (hrefl : ∀ s, R s s) (hf : ∀ s, R s (f s)) (a : Address)
    (eng : StrategyEngine σ) : Evolves R eng (eng.modify a f) := by
  unfold modify
  split
  · next s hs => exact evolves_store hrefl hs (hf s)
  · exact Evolves.refl hrefl eng

theorem evolves_call {α : Type} {f : σ → σ × Option α} (hrefl : ∀ s, R s s) (hf : ∀ s, R s (f s).1)
    (a : Address) (eng : StrategyEngine σ) : Evolves R eng (eng.call a f).1 := by
  unfold call
  split
  · next s hs => exact evolves_store hrefl hs (hf s)
  · exact Evolves.refl hrefl eng

/-- The loop that changes the objects at some addresses leaves the others alone. -/
theorem foldl_modify_objects {f : σ → σ} {a : Address} {as : List Address} (ha : a ∉ as)
    (eng : StrategyEngine σ) :
    (as.foldl (fun eng b => eng.modify b f) eng).objects a = eng.objects a := by
  induction as generalizing eng with
  | nil => rfl
  | cons b as ih =>
      obtain ⟨hne, hrest⟩ := not_or.1 (mt List.mem_cons.2 ha)
      rw [List.foldl_cons, ih hrest, modify]
      split
      · exact store_objects_of_ne hne _ eng
      · rfl

/-- A loop whose turns all evolve the engine. -/
theorem evolves_foldl {ι τ : Type} {f : τ → ι → τ} (engine : τ → StrategyEngine σ)
    (hrefl : ∀ s, R s s) (htrans : ∀ s s' s'', R s s' → R s' s'' → R s s'')
    (h : ∀ t i, Evolves R (engine t) (engine (f t i))) (is : List ι) (t : τ) :
    Evolves R (engine t) (engine (is.foldl f t)) :=
  Runs.invariant (fun t' => Evolves R (engine t) (engine t')) (fun _ i ht => ht.trans htrans (h _ i))
    is (Evolves.refl hrefl _)

end

section

variable {σ ω : Type} [IStrategy σ] {frames : FeatureFrame → Prop} {signals : Signal → Prop}
  {R : σ → σ → Prop}

theorem QuietMethods.modifyNamed (hR : QuietMethods frames signals R) {f : σ → σ} (hf : ∀ s, R s (f s))
    (ticker : Ticker) (name : String) (eng : StrategyEngine σ) :
    Evolves R eng (eng.modifyNamed ticker name f) :=
  evolves_foldl id hR.refl hR.trans (fun eng a => evolves_modify hR.refl hf a eng) _ eng

theorem QuietMethods.resetPlans (hR : QuietMethods frames signals R) (plans : List PlanWithPriority)
    (eng : StrategyEngine σ) : Evolves R eng (eng.resetPlans plans) :=
  evolves_foldl id hR.refl hR.trans
    (fun eng (pw : PlanWithPriority) => evolves_modify hR.refl hR.resetActivePlan pw.strategy eng)
    plans eng

theorem Methods.offer (hR : Methods frames signals R) (onPlan : Option (Gate ω)) (a : Address)
    (plan : StrategyPlan) (st : StrategyEngine σ × ω) :
    Evolves R st.1 (offer onPlan a plan st).1 := by
  unfold StrategyEngine.offer
  cases onPlan with
  | none => exact Evolves.refl hR.refl _
  | some gate =>
      dsimp only
      cases (gate plan st.2).2 with
      | none =>
          have h := hR.modifyNamed hR.resetActivePlan plan.ticker plan.strategyName
            { st.1 with offers := st.1.offers ++ [⟨plan, a, st.1.currentRegime plan.ticker, false⟩] }
          exact ⟨h.objects, h.tickerStrategies, h.globalStrategies, h.nextAddress⟩
      | some accepted =>
          have h := hR.modifyNamed (hR.onPlanAccepted accepted) accepted.ticker accepted.strategyName
            { st.1 with offers := st.1.offers ++ [⟨plan, a, st.1.currentRegime plan.ticker, true⟩] }
          exact ⟨h.objects, h.tickerStrategies, h.globalStrategies, h.nextAddress⟩

theorem Methods.deliver (hR : Methods frames signals R) (onPlan : Option (Gate ω)) {signal : Signal}
    (hsignal : signals signal) (now : TimePoint) (st : StrategyEngine σ × ω) (a : Address) :
    Evolves R st.1 (deliver onPlan signal now st a).1 := by
  have hcall := evolves_call hR.refl (fun s => hR.onSignal signal now s hsignal) a st.1
  unfold StrategyEngine.deliver
  dsimp only
  split
  · exact hcall.trans hR.trans (hR.offer onPlan a _ ((st.1.call a _).1, st.2))
  · exact hcall

theorem Methods.onSignal' (hR : Methods frames signals R) (onPlan : Option (Gate ω)) {signal : Signal}
    (hsignal : signals signal) (now : TimePoint) (st : StrategyEngine σ × ω) :
    Evolves R st.1 (StrategyEngine.onSignal onPlan signal now st).1 :=
  evolves_foldl Prod.fst hR.refl hR.trans
    (fun st a => hR.deliver onPlan hsignal now st a) _ st

theorem QuietMethods.checkClose (hR : QuietMethods frames signals R) (now : TimePoint) (frame : FeatureFrame)
    (eng : StrategyEngine σ) (a : Address) : Evolves R eng (eng.checkClose now frame a) := by
  have hcall := evolves_call hR.refl (hR.checkCloseConditions now frame) a eng
  unfold StrategyEngine.checkClose
  dsimp only
  split
  · exact ⟨hcall.objects, hcall.tickerStrategies, hcall.globalStrategies, hcall.nextAddress⟩
  · exact hcall

theorem QuietMethods.onFrame' (hR : QuietMethods frames signals R) (closing : Bool) (now : TimePoint)
    {frame : FeatureFrame} (hframe : frames frame) (eng : StrategyEngine σ) :
    Evolves R eng (eng.onFrame closing now frame) := by
  have hall : Evolves R eng ((eng.strategiesOf frame.ticker ++ eng.globalStrategies).foldl
      (fun eng a => eng.modify a (IStrategy.onFrame frame)) eng) :=
    evolves_foldl id hR.refl hR.trans
      (fun eng a => evolves_modify hR.refl (fun s => hR.onFrame frame s hframe) a eng) _ eng
  unfold StrategyEngine.onFrame
  dsimp only
  generalize (eng.strategiesOf frame.ticker ++ eng.globalStrategies).foldl
    (fun eng a => eng.modify a (IStrategy.onFrame frame)) eng = eng' at hall
  split
  · have hclose : Evolves R eng' ((eng'.strategiesOf frame.ticker).foldl
        (StrategyEngine.checkClose now frame) eng') :=
      evolves_foldl id hR.refl hR.trans (hR.checkClose now frame) _ eng'
    have h := hall.trans hR.trans hclose
    exact ⟨h.objects, h.tickerStrategies, h.globalStrategies, h.nextAddress⟩
  · exact ⟨hall.objects, hall.tickerStrategies, hall.globalStrategies, hall.nextAddress⟩

theorem QuietMethods.collect (hR : QuietMethods frames signals R) (now : TimePoint)
    (st : StrategyEngine σ × BucketMap Ticker PlanWithPriority) (a : Address) :
    Evolves R st.1 (collect now st a).1 := by
  have hcall := evolves_call hR.refl (hR.tick now) a st.1
  unfold StrategyEngine.collect
  dsimp only
  split
  · exact hcall
  · exact hcall

theorem Methods.tryPlans (hR : Methods frames signals R) (gate : Gate ω) (plans : List PlanWithPriority)
    (st : StrategyEngine σ × ω) : Evolves R st.1 (tryPlans gate plans st).1 := by
  induction plans generalizing st with
  | nil => exact Evolves.refl hR.refl _
  | cons pw plans ih =>
      have hoffer := hR.offer (some gate) pw.strategy pw.plan st
      unfold StrategyEngine.tryPlans
      dsimp only
      split
      · exact hoffer
      · exact hoffer.trans hR.trans (ih _)

theorem Methods.choose (hR : Methods frames signals R) (ps : PlanSort) (onPlan : Option (Gate ω))
    (st : StrategyEngine σ × ω) (group : Ticker × List PlanWithPriority) :
    Evolves R st.1 (choose ps onPlan st group).1 := by
  have hreset : Evolves R st.1 (st.1.suppress (st.1.currentRegime group.1) group.2).1 :=
    hR.resetPlans _ _
  unfold StrategyEngine.choose
  cases onPlan with
  | none => exact hreset
  | some gate => exact hreset.trans hR.trans (hR.tryPlans gate _ (_, st.2))

theorem Methods.tick' (hR : Methods frames signals R) (ps : PlanSort) (onPlan : Option (Gate ω))
    (now : TimePoint) (st : StrategyEngine σ × ω) :
    Evolves R st.1 (StrategyEngine.tick ps onPlan now st).1 := by
  have hcollect := evolves_foldl (R := R) Prod.fst hR.refl hR.trans (hR.collect now)
    st.1.addresses (st.1, ([] : BucketMap Ticker PlanWithPriority))
  exact hcollect.trans hR.trans
    (evolves_foldl Prod.fst hR.refl hR.trans (hR.choose ps onPlan) _ (_, st.2))

end

end TradeBot.StrategyEngine
