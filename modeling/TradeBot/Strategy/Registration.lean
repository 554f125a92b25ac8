import Mathlib.Data.List.Flatten
import TradeBot.Strategy.EngineSteps
import TradeBot.Strategy.Strategies

set_option autoImplicit false

/-! # Registration

What the strategies keep to, and the order that the engine's lists of them are in at any time: each
address is in one place, under its strategy's ticker.

`Registered` is an invariant of every run. The lists hold addresses, and a registration makes a new
one, so a strategy cannot get into two lists. The tickers never change, so it stays under its own
(`SameIdentity`). -/

namespace TradeBot

/-- A strategy has become one of the same name and ticker. -/
def SameIdentity {σ : Type} [IStrategy σ] (s s' : σ) : Prop :=
  IStrategy.name s' = IStrategy.name s ∧ IStrategy.ticker s' = IStrategy.ticker s

/-- What a strategy's methods are to each other: its name and its ticker stay what they are, a plan of
    its `tick` is its own and is pending, and only a reset takes it back. -/
class LawfulStrategy (σ : Type) [IStrategy σ] : Prop where
  identity : StrategyEngine.Methods (fun _ => True) (fun _ => True) (SameIdentity (σ := σ))
  hasActivePlan_reset (s : σ) : IStrategy.hasActivePlan (IStrategy.resetActivePlan s) = false
  hasActivePlan_accepted (plan : StrategyPlan) (s : σ) :
    IStrategy.hasActivePlan (IStrategy.onPlanAccepted plan s) = IStrategy.hasActivePlan s
  hasActivePlan_tick (now : TimePoint) (s : σ) :
    ∀ plan ∈ (IStrategy.tick now s).2, IStrategy.hasActivePlan (IStrategy.tick now s).1 = true
  strategyName_tick (now : TimePoint) (s : σ) :
    ∀ plan ∈ (IStrategy.tick now s).2, plan.strategyName = IStrategy.name s
  ticker_tick (now : TimePoint) (s : σ) (h : IStrategy.ticker s ≠ "") :
    ∀ plan ∈ (IStrategy.tick now s).2, plan.ticker = IStrategy.ticker s

namespace AnyStrategy

theorem onFrame_ticker (frame : FeatureFrame) (s : StrategyBase) :
    (s.onFrame frame).ticker = s.ticker := by
  unfold StrategyBase.onFrame
  split <;> rfl

theorem expirePlan_ticker (now : TimePoint) (s : StrategyBase) :
    (s.expirePlan now).ticker = s.ticker := by
  unfold StrategyBase.expirePlan
  split <;> rfl

theorem onPlanAccepted_rest (name : String) (plan : StrategyPlan) (s : StrategyBase) :
    (s.onPlanAccepted name plan).ticker = s.ticker ∧
      (s.onPlanAccepted name plan).activePlan = s.activePlan := by
  unfold StrategyBase.onPlanAccepted
  split <;> exact ⟨rfl, rfl⟩

theorem checkClose_ticker (rule : StrategyPlan → Option String) (s : StrategyBase) :
    (s.checkClose rule).1.ticker = s.ticker := by
  unfold StrategyBase.checkClose
  split
  · rfl
  · split <;> rfl

theorem onSignal_ticker (book : Playbook) (signal : Signal) (now : TimePoint) (s : StrategyBase) :
    (book.onSignal signal now s).1.ticker = s.ticker := by
  unfold Playbook.onSignal
  split
  · rfl
  split
  · rfl
  split <;> rfl

/-- LeaderLag's tick: the ticker stays, and a plan is its pending one. -/
theorem tick_plan (now : TimePoint) (l : LeaderLag) :
    (l.tick now).1.ticker = l.ticker ∧ ∀ plan ∈ (l.tick now).2,
      (l.tick now).1.activePlan = some plan ∧ plan.strategyName = "LeaderLag" ∧
        plan.ticker = l.ticker := by
  unfold LeaderLag.tick
  dsimp only
  split
  · exact ⟨rfl, by simp⟩
  split
  · next plan hplan =>
      refine ⟨rfl, ?_⟩
      rintro _ ⟨⟩
      refine ⟨rfl, ?_⟩
      revert hplan plan
      refine StrategyBase.forall_mem_bind fun move _ => ?_
      refine StrategyBase.forall_mem_bind fun _ _ => ?_
      refine StrategyBase.forall_mem_bind fun _ _ => ?_
      refine StrategyBase.forall_mem_bind fun _ _ => ?_
      refine StrategyBase.forall_mem_bind fun _ _ => ?_
      refine StrategyBase.forall_mem_bind fun _ _ => ?_
      rintro _ ⟨⟩
      exact ⟨rfl, rfl⟩
  · exact ⟨rfl, by simp⟩

theorem mapBase_name (f : StrategyBase → StrategyBase) (s : AnyStrategy) :
    (s.mapBase f).name = s.name := by
  cases s <;> rfl

theorem methods_identity : StrategyEngine.Methods (fun _ => True) (fun _ => True)
    (SameIdentity (σ := AnyStrategy)) where
  refl s := ⟨rfl, rfl⟩
  trans s s' s'' h h' := ⟨h'.1.trans h.1, h'.2.trans h.2⟩
  onFrame frame s _ := by
    cases s with
    | eventDriven book base => exact ⟨rfl, onFrame_ticker frame base⟩
    | leaderLag l => exact ⟨rfl, onFrame_ticker frame l.toStrategyBase⟩
  onSignal signal now s _ := by
    cases s with
    | eventDriven book base => exact ⟨rfl, onSignal_ticker book signal now base⟩
    | leaderLag l =>
        refine ⟨rfl, ?_⟩
        show (l.onSignal signal).ticker = l.ticker
        unfold LeaderLag.onSignal
        split <;> rfl
  tick now s := by
    cases s with
    | eventDriven book base => exact ⟨rfl, expirePlan_ticker now base⟩
    | leaderLag l => exact ⟨rfl, (tick_plan now l).1⟩
  resetActivePlan s :=
    ⟨mapBase_name _ s,
      (congrArg StrategyBase.ticker (mapBase_base StrategyBase.resetActivePlan s)).trans rfl⟩
  onPlanAccepted plan s :=
    ⟨mapBase_name _ s,
      (congrArg StrategyBase.ticker (mapBase_base _ s)).trans (onPlanAccepted_rest _ plan _).1⟩
  checkCloseConditions now frame s := by
    cases s with
    | eventDriven book base => exact ⟨rfl, checkClose_ticker _ base⟩
    | leaderLag l => exact ⟨rfl, checkClose_ticker _ l.toStrategyBase⟩

/-- The strategies of this repository keep to it. -/
instance : LawfulStrategy AnyStrategy where
  identity := methods_identity
  hasActivePlan_reset s :=
    congrArg (fun base => base.activePlan.isSome) (mapBase_base StrategyBase.resetActivePlan s)
  hasActivePlan_accepted plan s := by
    have hbase := mapBase_base (fun base => base.onPlanAccepted s.name plan) s
    have hplan := (congrArg StrategyBase.activePlan hbase).trans
      (onPlanAccepted_rest s.name plan s.base).2
    exact congrArg Option.isSome hplan
  hasActivePlan_tick now s plan hplan := by
    cases s with
    | eventDriven book base => exact absurd hplan (by simp [IStrategy.tick, tick])
    | leaderLag l => exact Option.isSome_of_eq_some ((tick_plan now l).2 plan hplan).1
  strategyName_tick now s plan hplan := by
    cases s with
    | eventDriven book base => exact absurd hplan (by simp [IStrategy.tick, tick])
    | leaderLag l => exact ((tick_plan now l).2 plan hplan).2.1
  ticker_tick now s _ plan hplan := by
    cases s with
    | eventDriven book base => exact absurd hplan (by simp [IStrategy.tick, tick])
    | leaderLag l => exact ((tick_plan now l).2 plan hplan).2.2

end AnyStrategy

namespace StrategyEngine

/-- The ticker of the strategy at an address. -/
def tickerAt {σ : Type} [IStrategy σ] (eng : StrategyEngine σ) (a : Address) : Ticker :=
  ((eng.objects a).map IStrategy.ticker).getD ""

/-- Each registered strategy is in one list, and those of `tickerStrategies` are under their ticker. -/
structure Registered {σ : Type} [IStrategy σ] (eng : StrategyEngine σ) : Prop where
  keyed : BucketMap.WellKeyed eng.tickerAt eng.tickerStrategies
  ticker_ne : ∀ a ∈ eng.tickerStrategies.values, eng.tickerAt a ≠ ""
  lt_nextAddress : ∀ a ∈ eng.addresses, a < eng.nextAddress
  nodup : eng.addresses.Nodup

theorem mem_strategiesOf {σ : Type} {eng : StrategyEngine σ} {ticker : Ticker} {a : Address} :
    a ∈ eng.strategiesOf ticker ↔ ∃ as, eng.tickerStrategies.find? ticker = some as ∧ a ∈ as := by
  unfold strategiesOf
  cases eng.tickerStrategies.find? ticker <;> simp

section

variable {σ : Type} [IStrategy σ] {eng eng' : StrategyEngine σ}

theorem Registered.tickerAt_of_mem (h : Registered eng) {ticker : Ticker} {a : Address}
    (ha : a ∈ eng.strategiesOf ticker) : eng.tickerAt a = ticker ∧ ticker ≠ "" := by
  obtain ⟨hvalues, hkey⟩ := h.keyed.mem_find?.1 (mem_strategiesOf.1 ha)
  exact ⟨hkey, hkey ▸ h.ticker_ne a hvalues⟩

/-- Registrations may be dropped. -/
theorem Registered.drop (h : Registered eng) (hobjects : eng'.objects = eng.objects)
    (hnext : eng'.nextAddress = eng.nextAddress)
    (hkeyed : BucketMap.WellKeyed eng.tickerAt eng'.tickerStrategies)
    (hticker : eng'.tickerStrategies.values.Sublist eng.tickerStrategies.values)
    (hglobal : eng'.globalStrategies.Sublist eng.globalStrategies) : Registered eng' := by
  have hat : eng'.tickerAt = eng.tickerAt := by
    funext a
    rw [tickerAt, tickerAt, hobjects]
  have hsub : eng'.addresses.Sublist eng.addresses := hticker.append hglobal
  refine ⟨hat ▸ hkeyed, fun a ha => ?_, fun a ha => ?_, h.nodup.sublist hsub⟩
  · rw [hat]
    exact h.ticker_ne a (hticker.subset ha)
  · rw [hnext]
    exact h.lt_nextAddress a (hsub.subset ha)

/-- A new strategy is at a new address, the others stay where they are. -/
theorem addStrategy_objects (s : σ) (eng : StrategyEngine σ) :
    (eng.addStrategy s).objects = Function.update eng.objects eng.nextAddress (some s) := by
  unfold addStrategy store
  dsimp only
  split <;> rfl

theorem mem_addresses_addStrategy {s : σ} {a : Address} (h : a ∈ (eng.addStrategy s).addresses) :
    a = eng.nextAddress ∨ a ∈ eng.addresses := by
  unfold addStrategy addresses at h
  dsimp only at h
  split at h
  · rcases List.mem_append.1 h with h | h
    · exact Or.inr (List.mem_append_left _ h)
    · rcases List.mem_append.1 h with h | h
      · exact Or.inr (List.mem_append_right _ h)
      · exact Or.inl (List.mem_singleton.1 h)
  · rcases List.mem_append.1 h with h | h
    · exact (BucketMap.mem_values_push.1 h).imp_right (List.mem_append_left _)
    · exact Or.inr (List.mem_append_right _ h)

theorem removeStrategy_objects (ticker : Ticker) (name : String) (eng : StrategyEngine σ) :
    (eng.removeStrategy ticker name).objects = eng.objects := by
  unfold removeStrategy
  split
  · rfl
  split
  · rfl
  split <;> rfl

/-- A removal only drops addresses from the lists. -/
theorem removeStrategy_drops (ticker : Ticker) (name : String) (eng : StrategyEngine σ) :
    (eng.removeStrategy ticker name).nextAddress = eng.nextAddress ∧
      (eng.removeStrategy ticker name).tickerStrategies.values.Sublist eng.tickerStrategies.values ∧
      (eng.removeStrategy ticker name).globalStrategies.Sublist eng.globalStrategies := by
  unfold removeStrategy
  split
  · exact ⟨rfl, List.Sublist.refl _, List.filter_sublist⟩
  split
  · exact ⟨rfl, List.Sublist.refl _, List.Sublist.refl _⟩
  next as has =>
    split
    · refine ⟨rfl, ?_, List.Sublist.refl _⟩
      exact (List.filter_sublist (l := eng.tickerStrategies)).flatMap _
    · obtain ⟨pre, post, hvalues, -, hvalues'⟩ := BucketMap.forKey_of_find? has
        (fun (_ : Unit) as => ((), as.filter (fun a => !eng.isNamed name a))) ()
      refine ⟨rfl, ?_, List.Sublist.refl _⟩
      rw [hvalues, hvalues']
      exact ((List.Sublist.refl pre).append List.filter_sublist).append (List.Sublist.refl post)

theorem addresses_removeStrategy_subset (ticker : Ticker) (name : String) (eng : StrategyEngine σ) :
    (eng.removeStrategy ticker name).addresses ⊆ eng.addresses := by
  obtain ⟨_, hticker, hglobal⟩ := removeStrategy_drops ticker name eng
  exact (hticker.append hglobal).subset

theorem registered_removeStrategy (h : Registered eng) (ticker : Ticker) (name : String) :
    Registered (eng.removeStrategy ticker name) := by
  obtain ⟨hnext, hticker, hglobal⟩ := removeStrategy_drops ticker name eng
  refine h.drop (removeStrategy_objects ticker name eng) hnext ?_ hticker hglobal
  unfold removeStrategy
  split
  · exact h.keyed
  split
  · exact h.keyed
  split
  · have hsub : (eng.tickerStrategies.filter (fun e => decide (e.1 ≠ ticker))).Sublist
        eng.tickerStrategies := List.filter_sublist
    exact ⟨h.keyed.sorted.sublist hsub, fun e he => h.keyed.keyed e (hsub.subset he)⟩
  · exact h.keyed.of_sameKeys (BucketMap.sameKeys_forKey (fun _ l a' ha' =>
      ⟨a', List.mem_of_mem_filter ha', rfl⟩) () _)

theorem registered_addStrategy (h : Registered eng) (s : σ) : Registered (eng.addStrategy s) := by
  -- the new address has not been given out
  have hnew : eng.nextAddress ∉ eng.addresses := fun hmem => lt_irrefl _ (h.lt_nextAddress _ hmem)
  have hself : (eng.store eng.nextAddress s).tickerAt eng.nextAddress = IStrategy.ticker s := by
    rw [tickerAt, store_objects_self, Option.map_some, Option.getD_some]
  -- so no registered strategy changes
  have hat : ∀ a ∈ eng.addresses, (eng.store eng.nextAddress s).tickerAt a = eng.tickerAt a := by
    intro a ha
    have hne : a ≠ eng.nextAddress := fun heq => hnew (heq ▸ ha)
    rw [tickerAt, tickerAt, store_objects_of_ne hne]
  have hvalues : ∀ a ∈ eng.tickerStrategies.values, a ∈ eng.addresses :=
    fun a ha => List.mem_append_left _ ha
  have hkeyed := h.keyed.congr (fun a ha => hat a (hvalues a ha))
  have hlt : ∀ a, a = eng.nextAddress ∨ a ∈ eng.addresses → a < eng.nextAddress + 1 := by
    rintro a (rfl | ha)
    · exact Nat.lt_succ_self _
    · exact Nat.lt_succ_of_lt (h.lt_nextAddress a ha)
  have hcons := List.nodup_cons.2 ⟨hnew, h.nodup⟩
  unfold addStrategy
  dsimp only
  split
  · -- a strategy without a ticker is global
    have hperm : (eng.tickerStrategies.values ++ (eng.globalStrategies ++ [eng.nextAddress])).Perm
        (eng.nextAddress :: eng.addresses) := by
      rw [← List.append_assoc]
      exact List.perm_append_singleton _ _
    exact ⟨hkeyed, fun a ha => (hat a (hvalues a ha)).symm ▸ h.ticker_ne a ha,
      fun a ha => hlt a (List.mem_cons.1 (hperm.mem_iff.1 ha)), hperm.nodup_iff.2 hcons⟩
  · next hne =>
      -- the others go to the bucket of their ticker
      have hperm : ((eng.tickerStrategies.push (IStrategy.ticker s) eng.nextAddress).values ++
          eng.globalStrategies).Perm (eng.nextAddress :: eng.addresses) :=
        (BucketMap.values_push _ _ _).append_right _
      refine ⟨hkeyed.push hself, fun a ha => ?_,
        fun a ha => hlt a (List.mem_cons.1 (hperm.mem_iff.1 ha)), hperm.nodup_iff.2 hcons⟩
      rcases BucketMap.mem_values_push.1 ha with rfl | ha
      · exact hself.symm ▸ hne
      · exact (hat a (hvalues a ha)).symm ▸ h.ticker_ne a ha

/-- Strategies that stay what they are stay where they are. -/
theorem Registered.evolves (h : Registered eng) (he : Evolves SameIdentity eng eng') :
    Registered eng' := by
  have hat : eng'.tickerAt = eng.tickerAt := by
    funext a
    have ha := he.objects a
    unfold tickerAt
    revert ha
    generalize eng.objects a = o
    generalize eng'.objects a = o'
    rintro (⟨hr⟩ | _)
    · exact hr.2
    · rfl
  have haddresses : eng'.addresses = eng.addresses := by
    rw [addresses, addresses, he.tickerStrategies, he.globalStrategies]
  refine ⟨?_, ?_, ?_, ?_⟩
  · rw [hat, he.tickerStrategies]
    exact h.keyed
  · rw [hat, he.tickerStrategies]
    exact h.ticker_ne
  · rw [haddresses, he.nextAddress]
    exact h.lt_nextAddress
  · rw [haddresses]
    exact h.nodup

end

section

variable {σ ω : Type} [IStrategy σ] [LawfulStrategy σ]

theorem registered_step (st : StrategyEngine σ × ω) (op : Op σ ω) (h : Registered st.1) :
    Registered (step st op).1 := by
  have hidentity := LawfulStrategy.identity (σ := σ)
  cases op with
  | addStrategy s => exact registered_addStrategy h s
  | removeStrategy ticker name => exact registered_removeStrategy h ticker name
  | onFrame closing now frame =>
      exact h.evolves (hidentity.onFrame' closing now trivial st.1)
  | signal onPlan s now =>
      exact h.evolves (hidentity.onSignal' onPlan trivial now st)
  | tick ps onPlan now =>
      exact h.evolves (hidentity.tick' ps onPlan now st)
  | resetStrategyPlan ticker name =>
      exact h.evolves (hidentity.modifyNamed hidentity.resetActivePlan ticker name st.1)
  | notifyPlanAccepted plan =>
      exact h.evolves (hidentity.modifyNamed (hidentity.onPlanAccepted plan) plan.ticker
        plan.strategyName st.1)

theorem registered_run (w : ω) (ops : List (Op σ ω)) : Registered (run w ops).1 :=
  Runs.invariant (fun st : StrategyEngine σ × ω => Registered st.1) registered_step ops
    ⟨BucketMap.wellKeyed_nil _, List.forall_mem_nil _, List.forall_mem_nil _, List.nodup_nil⟩

end

end StrategyEngine

end TradeBot
