import Mathlib.Data.List.Dedup
import TradeBot.Executor.StartupRecovery

set_option autoImplicit false

/-! # Stops of recovered positions

Which stop orders a recovery leaves open. One round looks at the open orders of one ticker only: an
order is kept if a trade recovered so far names it, the first stop that none of them names is adopted
by a trade without a stop, and the other stops are cancelled. So a persisted stop id that is out of
date hides that the stop is missing, and gets the real stop cancelled.

A sweep goes through the orders of a ticker with the trade that was recovered for it. Each round of
its loop leaves the order alone, adopts it as stop or target, or cancels it, and a trade that has
adopted one names it from then on (`Swept`). The tickers are taken one after the other; a round
leaves the orders of the others alone (`Round.frame`), so the rounds can be looked at one by one.

At the end a position is protected if an order that is a stop is left open for it. For a persisted
trade that depends on the recorded stop id, and `KeepsStops` says how. -/

namespace TradeBot

/-! ## Orders named by trades -/

section

variable {o : RestOrder} {t t' : ActiveTrade} {ts ts' : List ActiveTrade}

theorem RestOrder.usedBy_append :
    o.usedBy (ts ++ ts') = (o.usedBy ts || o.usedBy ts') := List.any_append

theorem RestOrder.usedBy_singleton (h : o.id ≠ 0) : o.usedBy [t] = t.names o := by
  simp [RestOrder.usedBy, h]

theorem ActiveTrade.names_fromServer (t : ActiveTrade) (p : ServerPosition) (o : RestOrder) :
    (StartupRecovery.fromServer t p).names o = t.names o := rfl

/-- A trade without a stop that adopts another order names what it named. -/
theorem ActiveTrade.names_adoptStop {id : OrderId} (h0 : o.id ≠ 0) (hne : o.id ≠ id)
    (hstop : t.stopOrderId = 0) : ({ t with stopOrderId := id }).names o = t.names o := by
  simp [ActiveTrade.names, h0, hne, hstop]

theorem ActiveTrade.names_adoptTp1 {id : OrderId} (h0 : o.id ≠ 0) (hne : o.id ≠ id)
    (htp1 : t.tp1OrderId = 0) : ({ t with tp1OrderId := id }).names o = t.names o := by
  simp [ActiveTrade.names, h0, hne, htp1]

end

namespace StartupRecovery

variable {env : StartupRecovery} {ticker : Ticker} {s : RecoveryState}

/-! ## One ticker's orders -/

/-- A stop that none of the trades names. -/
def unnamedStop (ts : List ActiveTrade) (o : RestOrder) : Bool := o.isStop && !o.usedBy ts

/-- What the loop over the orders `os` makes of the trade `t` and of the open orders: it cancels the
    orders `cs` and no others. -/
structure Swept (before : List ActiveTrade) (os : List RestOrder) (s s' : RecoveryState)
    (t t' : ActiveTrade) (cs : List RestOrder) : Prop where
  recovered : s'.recovered = s.recovered
  orders : s'.orders = s.orders.filter (fun x => decide (x.id ∉ cs.map RestOrder.id))
  cancelled : ∀ o ∈ cs, o ∈ os ∧ o.usedBy (before ++ [t]) = false
  names : ∀ o : RestOrder, o.id ≠ 0 → o.id ∉ os.map RestOrder.id → t'.names o = t.names o
  ticker : t'.plan.ticker = t.plan.ticker
  stop : t.stopOrderId ≠ 0 → t'.stopOrderId = t.stopOrderId
  adopted : t.stopOrderId = 0 →
    t'.stopOrderId = ((os.find? (unnamedStop (before ++ [t]))).map RestOrder.id).getD 0
  stopCancelled : ∀ o ∈ os, unnamedStop (before ++ [t]) o = true →
    (o ∉ cs ↔ t.stopOrderId = 0 ∧ os.find? (unnamedStop (before ++ [t])) = some o)

theorem find?_congr_mem {α : Type} {p q : α → Bool} {l : List α} (h : ∀ a ∈ l, p a = q a) :
    l.find? p = l.find? q := by
  induction l with
  | nil => rfl
  | cons a l ih =>
      rw [List.find?_cons, List.find?_cons, h a (List.mem_cons_self ..),
        ih (fun b hb => h b (List.mem_cons_of_mem _ hb))]

/-- A trade that has adopted an order names the orders after it as before. -/
theorem usedBy_rest (before : List ActiveTrade) {t t' : ActiveTrade} {os : List RestOrder}
    {o : RestOrder} (hids : ((o :: os).map RestOrder.id).Nodup) (h0 : ∀ x ∈ o :: os, x.id ≠ 0)
    (hnames : ∀ x : RestOrder, x.id ≠ 0 → x.id ≠ o.id → t'.names x = t.names x) :
    ∀ x ∈ os, x.usedBy (before ++ [t']) = x.usedBy (before ++ [t]) := by
  intro x hx
  have hx0 : x.id ≠ 0 := h0 x (List.mem_cons_of_mem _ hx)
  have hne : x.id ≠ o.id := by
    intro heq
    rw [List.map_cons, List.nodup_cons] at hids
    exact hids.1 (heq ▸ List.mem_map_of_mem hx)
  rw [RestOrder.usedBy_append, RestOrder.usedBy_append, RestOrder.usedBy_singleton hx0,
    RestOrder.usedBy_singleton hx0, hnames x hx0 hne]

theorem isStop_of_takeProfit {o : RestOrder} (h : o.type = .takeProfit) : o.isStop = false := by
  simp [RestOrder.isStop, h]

/-! ### The four cases of a round -/

section

variable {o : RestOrder} {os cs : List RestOrder} {s s' s₁ : RecoveryState} {t t' t₁ : ActiveTrade}
  {before : List ActiveTrade}

theorem handleOrder_used (h : o.usedBy (s.recovered ++ [t]) = true) :
    env.handleOrder ticker (s, some t) o = (s, some t) := if_pos h

theorem handleOrder_stop (hunused : ¬ o.usedBy (s.recovered ++ [t]) = true)
    (h : o.isStop = true ∧ t.stopOrderId = 0) :
    env.handleOrder ticker (s, some t) o
      = ({ s with log := s.log ++ ["Assigned existing SL id=" ++ toString o.id ++ " to recovered " ++
            ticker] }, some { t with stopOrderId := o.id }) := (if_neg hunused).trans (if_pos h)

theorem handleOrder_tp1 (hunused : ¬ o.usedBy (s.recovered ++ [t]) = true)
    (hstop : ¬ (o.isStop = true ∧ t.stopOrderId = 0))
    (h : o.type = .takeProfit ∧ t.tp1OrderId = 0) :
    env.handleOrder ticker (s, some t) o
      = ({ s with log := s.log ++ ["Assigned existing TP id=" ++ toString o.id ++ " to recovered " ++
            ticker] }, some { t with tp1OrderId := o.id }) :=
  ((if_neg hunused).trans (if_neg hstop)).trans (if_pos h)

theorem handleOrder_cancel (hunused : ¬ o.usedBy (s.recovered ++ [t]) = true)
    (hstop : ¬ (o.isStop = true ∧ t.stopOrderId = 0))
    (htp1 : ¬ (o.type = .takeProfit ∧ t.tp1OrderId = 0)) :
    env.handleOrder ticker (s, some t) o = (env.cancelOrphan ticker o s, some t) :=
  ((if_neg hunused).trans (if_neg hstop)).trans (if_neg htp1)

theorem ne_of_nodup_ids (hids : ((o :: os).map RestOrder.id).Nodup) : ∀ x ∈ os, x ≠ o := by
  rintro x hx rfl
  exact (List.nodup_cons.1 hids).1 (List.mem_map_of_mem hx)

/-- The round leaves trade and orders alone. -/
theorem Swept.used (h : Swept before os s s' t t' cs) (hids : ((o :: os).map RestOrder.id).Nodup)
    (hused : o.usedBy (before ++ [t]) = true) : Swept before (o :: os) s s' t t' cs := by
  have hskip : unnamedStop (before ++ [t]) o = false := by simp [unnamedStop, hused]
  have hfind : (o :: os).find? (unnamedStop (before ++ [t]))
      = os.find? (unnamedStop (before ++ [t])) := List.find?_cons_of_neg (by simp [hskip])
  refine { h with cancelled := ?_, names := ?_, adopted := ?_, stopCancelled := ?_ }
  · exact fun x hx => ⟨List.mem_cons_of_mem _ (h.cancelled x hx).1, (h.cancelled x hx).2⟩
  · exact fun x hx hnot => h.names x hx (fun hin => hnot (List.mem_cons_of_mem _ hin))
  · rw [hfind]
    exact h.adopted
  · intro x hx hxstop
    rw [hfind]
    rcases List.mem_cons.1 hx with rfl | hx
    · rw [hskip] at hxstop
      cases hxstop
    · exact h.stopCancelled x hx hxstop

/-- What remains of a sweep when its first round has made `t₁` of the trade by adopting the order. -/
theorem Swept.cancelled_cons (h : Swept before os s₁ s' t₁ t' cs)
    (hrest : ∀ x ∈ os, x.usedBy (before ++ [t₁]) = x.usedBy (before ++ [t])) :
    ∀ x ∈ cs, x ∈ o :: os ∧ x.usedBy (before ++ [t]) = false := by
  intro x hx
  obtain ⟨hin, hunnamed⟩ := h.cancelled x hx
  exact ⟨List.mem_cons_of_mem _ hin, by rw [← hrest x hin]; exact hunnamed⟩

theorem Swept.names_cons (h : Swept before os s₁ s' t₁ t' cs)
    (hnames : ∀ x : RestOrder, x.id ≠ 0 → x.id ≠ o.id → t₁.names x = t.names x) :
    ∀ x : RestOrder, x.id ≠ 0 → x.id ∉ (o :: os).map RestOrder.id → t'.names x = t.names x := by
  intro x hx hnot
  rw [List.map_cons, List.mem_cons, not_or] at hnot
  rw [h.names x hx hnot.2, hnames x hx hnot.1]

/-- The round adopts the order as the trade's stop. -/
theorem Swept.adoptStop {log : List String}
    (h : Swept before os { s with log := log } s' { t with stopOrderId := o.id } t' cs)
    (hids : ((o :: os).map RestOrder.id).Nodup) (h0 : ∀ x ∈ o :: os, x.id ≠ 0)
    (hunused : o.usedBy (before ++ [t]) = false) (hstop : o.isStop = true ∧ t.stopOrderId = 0) :
    Swept before (o :: os) s s' t t' cs := by
  have ho0 : o.id ≠ 0 := h0 o (List.mem_cons_self ..)
  have hnames : ∀ x : RestOrder, x.id ≠ 0 → x.id ≠ o.id →
      ({ t with stopOrderId := o.id } : ActiveTrade).names x = t.names x :=
    fun x hx hxo => ActiveTrade.names_adoptStop hx hxo hstop.2
  have hrest := usedBy_rest before hids h0 hnames
  have hfind : (o :: os).find? (unnamedStop (before ++ [t])) = some o :=
    List.find?_cons_of_pos (by simp [unnamedStop, hunused, hstop.1])
  refine ⟨h.recovered, h.orders, h.cancelled_cons hrest, h.names_cons hnames, h.ticker,
    fun hne => absurd hstop.2 hne, fun _ => ?_, fun x hx hxstop => ?_⟩
  · rw [hfind]
    exact h.stop ho0
  · rw [hfind, Option.some.injEq]
    rcases List.mem_cons.1 hx with rfl | hx
    · refine ⟨fun _ => ⟨hstop.2, rfl⟩, fun _ hin => ?_⟩
      exact ne_of_nodup_ids hids x (h.cancelled x hin).1 rfl
    · rw [unnamedStop, ← hrest x hx] at hxstop
      refine ⟨fun hout => absurd ((h.stopCancelled x hx hxstop).1 hout).1 ho0, fun heq => ?_⟩
      exact absurd heq.2.symm (ne_of_nodup_ids hids x hx)

/-- The round adopts the order as the trade's TP1. -/
theorem Swept.adoptTp1 {log : List String}
    (h : Swept before os { s with log := log } s' { t with tp1OrderId := o.id } t' cs)
    (hids : ((o :: os).map RestOrder.id).Nodup) (h0 : ∀ x ∈ o :: os, x.id ≠ 0)
    (htp1 : o.type = .takeProfit ∧ t.tp1OrderId = 0) : Swept before (o :: os) s s' t t' cs := by
  have hnames : ∀ x : RestOrder, x.id ≠ 0 → x.id ≠ o.id →
      ({ t with tp1OrderId := o.id } : ActiveTrade).names x = t.names x :=
    fun x hx hxo => ActiveTrade.names_adoptTp1 hx hxo htp1.2
  have hrest := usedBy_rest before hids h0 hnames
  have hskip : unnamedStop (before ++ [t]) o = false := by
    simp [unnamedStop, isStop_of_takeProfit htp1.1]
  have hfind : (o :: os).find? (unnamedStop (before ++ [t]))
      = os.find? (unnamedStop (before ++ [{ t with tp1OrderId := o.id }])) := by
    rw [List.find?_cons_of_neg (by simp [hskip])]
    exact find?_congr_mem (fun x hx => by rw [unnamedStop, unnamedStop, hrest x hx])
  refine ⟨h.recovered, h.orders, h.cancelled_cons hrest, h.names_cons hnames, h.ticker, h.stop,
    ?_, fun x hx hxstop => ?_⟩
  · rw [hfind]
    exact h.adopted
  · rw [hfind]
    rcases List.mem_cons.1 hx with rfl | hx
    · rw [hskip] at hxstop
      cases hxstop
    · rw [unnamedStop, ← hrest x hx] at hxstop
      exact h.stopCancelled x hx hxstop

/-- The round cancels the order. -/
theorem Swept.cancel (h : Swept before os s₁ s' t t' cs) (hids : ((o :: os).map RestOrder.id).Nodup)
    (hrecovered : s₁.recovered = s.recovered)
    (horders : s₁.orders = s.orders.filter (fun x => decide (x.id ≠ o.id)))
    (hunused : o.usedBy (before ++ [t]) = false) (hstop : ¬ (o.isStop = true ∧ t.stopOrderId = 0)) :
    Swept before (o :: os) s s' t t' (o :: cs) := by
  -- the cancelled order is no candidate for adoption
  have hfind : t.stopOrderId = 0 → (o :: os).find? (unnamedStop (before ++ [t]))
      = os.find? (unnamedStop (before ++ [t])) := by
    intro hzero
    have hno : o.isStop = false := by simpa [hzero] using hstop
    exact List.find?_cons_of_neg (by simp [unnamedStop, hno])
  refine ⟨h.recovered.trans hrecovered, ?_, ?_, ?_, h.ticker, h.stop, ?_, ?_⟩
  · rw [h.orders, horders, List.filter_filter]
    refine List.filter_congr (fun x _ => ?_)
    simp [not_or, Bool.and_comm]
  · intro x hx
    rcases List.mem_cons.1 hx with rfl | hx
    · exact ⟨List.mem_cons_self .., hunused⟩
    · exact ⟨List.mem_cons_of_mem _ (h.cancelled x hx).1, (h.cancelled x hx).2⟩
  · exact fun x hx hnot => h.names x hx (fun hin => hnot (List.mem_cons_of_mem _ hin))
  · intro hzero
    rw [hfind hzero]
    exact h.adopted hzero
  · intro x hx hxstop
    rw [List.mem_cons, not_or]
    rcases List.mem_cons.1 hx with rfl | hx
    · -- the cancelled order itself
      refine ⟨fun hout => absurd rfl hout.1, fun heq => ?_⟩
      rw [unnamedStop, Bool.and_eq_true] at hxstop
      exact absurd ⟨hxstop.1, heq.1⟩ hstop
    · -- the others are decided by the rest of the sweep
      have hiff := h.stopCancelled x hx hxstop
      constructor
      · rintro ⟨_, hout⟩
        obtain ⟨hzero, hsome⟩ := hiff.1 hout
        exact ⟨hzero, (hfind hzero).trans hsome⟩
      · rintro ⟨hzero, hsome⟩
        exact ⟨ne_of_nodup_ids hids x hx, hiff.2 ⟨hzero, (hfind hzero).symm.trans hsome⟩⟩

theorem sweep (ticker : Ticker) (hpolicy : env.cfg.orphanCancelPolicy = "cancel")
    (hids : (os.map RestOrder.id).Nodup) (h0 : ∀ o ∈ os, o.id ≠ 0) (s : RecoveryState)
    (t : ActiveTrade) :
    ∃ s' t' cs, os.foldl (env.handleOrder ticker) (s, some t) = (s', some t') ∧
      Swept s.recovered os s s' t t' cs := by
  induction os generalizing s t with
  | nil =>
      exact ⟨s, t, [], rfl, rfl, by simp, by simp, fun _ _ _ => rfl, rfl, fun _ => rfl,
        fun h => by simp [h], by simp⟩
  | cons o os ih =>
      have hrest := ih (List.nodup_cons.1 hids).2 (fun x hx => h0 x (List.mem_cons_of_mem _ hx))
      rw [List.foldl_cons]
      by_cases hused : o.usedBy (s.recovered ++ [t]) = true
      · obtain ⟨s', t', cs, hfold, hswept⟩ := hrest s t
        exact ⟨s', t', cs, by rw [handleOrder_used hused, hfold], hswept.used hids hused⟩
      have hunused : o.usedBy (s.recovered ++ [t]) = false := by simpa using hused
      by_cases hstop : o.isStop = true ∧ t.stopOrderId = 0
      · rw [handleOrder_stop hused hstop]
        obtain ⟨s', t', cs, hfold, hswept⟩ := hrest { s with log := _ } { t with stopOrderId := o.id }
        exact ⟨s', t', cs, hfold, hswept.adoptStop hids h0 hunused hstop⟩
      by_cases htp1 : o.type = .takeProfit ∧ t.tp1OrderId = 0
      · rw [handleOrder_tp1 hused hstop htp1]
        obtain ⟨s', t', cs, hfold, hswept⟩ := hrest { s with log := _ } { t with tp1OrderId := o.id }
        exact ⟨s', t', cs, hfold, hswept.adoptTp1 hids h0 htp1⟩
      · rw [handleOrder_cancel hused hstop htp1, cancelOrphan, if_pos hpolicy]
        obtain ⟨s', t', cs, hfold, hswept⟩ := hrest (cancelOrder o { s with log := _ }) t
        exact ⟨s', t', o :: cs, hfold, hswept.cancel hids rfl rfl hunused hstop⟩

end

/-! ## The orders of one ticker and of the others -/

theorem mem_ordersOf {o : RestOrder} : o ∈ env.ordersOf ticker ↔ o ∈ env.orders ∧ o.ticker = ticker := by
  simp [ordersOf]

theorem nodup_ordersOf (env : StartupRecovery) (ticker : Ticker) :
    ((env.ordersOf ticker).map RestOrder.id).Nodup :=
  env.ids_nodup.sublist ((List.filter_sublist).map RestOrder.id)

theorem ordersOf_ne_zero : ∀ o ∈ env.ordersOf ticker, o.id ≠ 0 :=
  fun o ho => env.ids_ne_zero o (mem_ordersOf.1 ho).1

theorem eq_of_id_eq {o o' : RestOrder} (ho : o ∈ env.orders) (ho' : o' ∈ env.orders)
    (h : o.id = o'.id) : o = o' := List.inj_on_of_nodup_map env.ids_nodup ho ho' h

/-- The persisted trade that is recovered for a ticker. -/
def recoverable (env : StartupRecovery) (ticker : Ticker) : Option ActiveTrade :=
  (env.position? ticker).bind (fun _ => env.trade? ticker)

/-- `place_order` succeeds, and the order gets an id that no open order has. -/
def Succeeds (env : StartupRecovery) : Prop :=
  ∀ req, ∃ res, env.placeOrder req = .ok res ∧ res.exchangeId ∉ env.orders.map RestOrder.id

/-- Where the run stands after the tickers `done`: the orders of the others are untouched, orders
    placed have new ids, and the trades recovered name the orders that the persisted ones name. -/
structure After (env : StartupRecovery) (done : List Ticker) (s : RecoveryState) : Prop where
  untouched : ∀ x : RestOrder, x.ticker ∉ done → (x ∈ s.orders ↔ x ∈ env.orders)
  known : ∀ x ∈ s.orders, x ∈ env.orders ∨ x.id ∉ env.orders.map RestOrder.id
  names : ∀ x ∈ env.orders, x.ticker ∉ done →
    x.usedBy s.recovered = x.usedBy (done.filterMap env.recoverable)

theorem after_start (env : StartupRecovery) : After env [] env.start where
  untouched := fun _ _ => Iff.rfl
  known := fun _ hx => Or.inl hx
  names := fun _ _ _ => rfl

/-- Another ticker's order has none of the ids of this ticker's orders. -/
theorem After.id_not_mem {done : List Ticker} (h : After env done s) {x : RestOrder}
    (hx : x ∈ s.orders) (hticker : x.ticker ≠ ticker) :
    x.id ∉ (env.ordersOf ticker).map RestOrder.id := by
  intro hin
  obtain ⟨o, ho, hid⟩ := List.mem_map.1 hin
  obtain ⟨hopen, hot⟩ := mem_ordersOf.1 ho
  rcases h.known x hx with hknown | hnew
  · exact hticker (eq_of_id_eq hknown hopen hid.symm ▸ hot)
  · exact hnew (hid ▸ List.mem_map_of_mem hopen)

/-! ## The trade recovered for a ticker -/

/-- Before the loop over its orders, the ticker's trade is the persisted one, or one whose stop has
    been placed. -/
structure Positioned (env : StartupRecovery) (ticker : Ticker) (s s' : RecoveryState)
    (t? : Option ActiveTrade) : Prop where
  recovered : s'.recovered = s.recovered
  absent : env.position? ticker = none → t? = none ∧ s'.orders = s.orders
  persisted : ∀ p t, env.position? ticker = some p → env.trade? ticker = some t →
    t? = some (fromServer t p) ∧ s'.orders = s.orders
  orphan : ∀ p, env.position? ticker = some p → env.trade? ticker = none →
    ∃ t o, t? = some t ∧ s'.orders = s.orders ++ [o] ∧ o.id ∉ env.orders.map RestOrder.id ∧
      o.ticker = ticker ∧ o.isStop = true ∧ o.side = p.side.opposite ∧ t.plan.ticker = ticker ∧
      (t.stopOrderId = 0 ∨ t.stopOrderId = o.id) ∧ ∀ x ∈ env.orders, t.names x = false

theorem positioned (hplace : Succeeds env) (ticker : Ticker) (s : RecoveryState) :
    Positioned env ticker s (env.recoverPosition ticker s).1 (env.recoverPosition ticker s).2 := by
  unfold recoverPosition
  cases hp : env.position? ticker with
  -- no position: nothing is adopted
  | none =>
      cases ht : env.trade? ticker with
      | none => exact ⟨rfl, fun _ => ⟨rfl, rfl⟩, by simp [hp], by simp [hp]⟩
      | some t => exact ⟨rfl, fun _ => ⟨rfl, rfl⟩, by simp [hp], by simp [hp]⟩
  | some p =>
      cases ht : env.trade? ticker with
      | some t =>
          -- a trade that was persisted is adopted, and no order changes
          have hadopt : (env.adoptTrade ticker t p s).1.recovered = s.recovered ∧
              (env.adoptTrade ticker t p s).1.orders = s.orders ∧
              (env.adoptTrade ticker t p s).2 = t := by
            unfold adoptTrade
            split <;> exact ⟨rfl, rfl, rfl⟩
          obtain ⟨hrec, hord, htrade⟩ := hadopt
          dsimp only
          split
          all_goals
            refine ⟨hrec, by simp [hp], fun p' t' hp' ht' => ?_, by simp [ht]⟩
            rw [hp, Option.some.injEq] at hp'
            rw [ht, Option.some.injEq] at ht'
            subst hp' ht'
            exact ⟨by rw [htrade], hord⟩
      | none =>
          -- a position without a trade gets an emergency stop, whose id is new
          obtain ⟨res, hres, hnew⟩ := hplace (env.emergencyStop ticker p)
          have hadopt : (env.adoptPosition ticker p s).1.recovered = s.recovered ∧
              (env.adoptPosition ticker p s).1.orders
                = s.orders ++ [placed (env.emergencyStop ticker p) res] ∧
              (env.adoptPosition ticker p s).2
                = { env.emergencyTrade ticker p with stopOrderId := res.orderId } := by
            unfold adoptPosition
            simp only [hres, and_self]
          obtain ⟨hrec, hord, htrade⟩ := hadopt
          -- so the new trade names no order that was there before
          have hnames : ∀ x ∈ env.orders, (fromServer { env.emergencyTrade ticker p with
              stopOrderId := res.orderId } p).names x = false := by
            intro x hx
            have hx0 : x.id ≠ 0 := env.ids_ne_zero x hx
            have hxnew : x.id ≠ res.orderId := by
              rcases res.orderId_eq with hzero | heq
              · rw [hzero]
                exact hx0
              · rw [heq]
                exact fun hid => hnew (hid ▸ List.mem_map_of_mem hx)
            simp [ActiveTrade.names, fromServer, emergencyTrade, hx0, hxnew]
          dsimp only
          split
          all_goals
            refine ⟨hrec, by simp [hp], by simp [ht], fun p' hp' _ => ?_⟩
            rw [hp, Option.some.injEq] at hp'
            subst hp'
            exact ⟨_, _, rfl, hord, hnew, rfl, rfl, rfl, by rw [htrade]; rfl,
              by rw [htrade]; exact res.orderId_eq, by rw [htrade]; exact hnames⟩

/-- Without a trade, the loop over the orders cancels those that no trade names. -/
theorem sweep_none (env : StartupRecovery) (ticker : Ticker) (os : List RestOrder)
    (s : RecoveryState) :
    (os.foldl (env.handleOrder ticker) (s, none)).2 = none ∧
      (os.foldl (env.handleOrder ticker) (s, none)).1.recovered = s.recovered ∧
      (os.foldl (env.handleOrder ticker) (s, none)).1.orders.Sublist s.orders ∧
      ∀ x ∈ s.orders, x.id ∉ os.map RestOrder.id →
        x ∈ (os.foldl (env.handleOrder ticker) (s, none)).1.orders := by
  induction os generalizing s with
  | nil => exact ⟨rfl, rfl, List.Sublist.refl _, fun _ hx _ => hx⟩
  | cons o os ih =>
      have hstep : ∃ s₁, env.handleOrder ticker (s, none) o = (s₁, none) ∧
          s₁.recovered = s.recovered ∧ s₁.orders.Sublist s.orders ∧
          ∀ x ∈ s.orders, x.id ≠ o.id → x ∈ s₁.orders := by
        unfold handleOrder cancelOrphan
        dsimp only
        split
        · exact ⟨s, rfl, rfl, List.Sublist.refl _, fun _ hx _ => hx⟩
        split
        · exact ⟨_, rfl, rfl, List.filter_sublist, fun x hx hne => by simp [cancelOrder, hx, hne]⟩
        · exact ⟨s, rfl, rfl, List.Sublist.refl _, fun _ hx _ => hx⟩
      obtain ⟨s₁, heq, hrec, hsub, hkeep⟩ := hstep
      rw [List.foldl_cons, heq]
      obtain ⟨hnone, hrec', hsub', hkeep'⟩ := ih s₁
      refine ⟨hnone, hrec'.trans hrec, hsub'.trans hsub, fun x hx hnot => ?_⟩
      rw [List.map_cons, List.mem_cons, not_or] at hnot
      exact hkeep' x (hkeep x hx hnot.1) hnot.2

/-! ## One round -/

/-- What a round leaves of the ticker's stops, when a persisted trade is recovered: its stop id names
    an open order if it did before or none was recorded, and the stops left are those that a recovered
    trade names, or the first other one if no stop id was recorded. -/
structure KeepsPersisted (env : StartupRecovery) (ticker : Ticker) (before : List ActiveTrade)
    (t t' : ActiveTrade) (s' : RecoveryState) : Prop where
  stopOpen : (t'.stopOrderId = 0 ∨ ∃ o ∈ s'.orders, o.id = t'.stopOrderId ∧ o.ticker = ticker) ↔
    (t.stopOrderId = 0 ∨ ∃ o ∈ env.ordersOf ticker, o.id = t.stopOrderId)
  stops : ∀ o : RestOrder, o.isStop = true → o.ticker = ticker → (o ∈ s'.orders ↔
    o ∈ env.ordersOf ticker ∧ (o.usedBy (before ++ [t]) = true ∨
      t.stopOrderId = 0 ∧ (env.ordersOf ticker).find? (unnamedStop (before ++ [t])) = some o))

/-- What a round over one ticker leaves. -/
structure Round (env : StartupRecovery) (ticker : Ticker) (s s' : RecoveryState)
    (t? : Option ActiveTrade) : Prop where
  recovered : s'.recovered = s.recovered ++ t?.toList
  frame : ∀ x : RestOrder, x.ticker ≠ ticker → (x ∈ s'.orders ↔ x ∈ s.orders)
  known : ∀ x ∈ s'.orders, x ∈ env.orders ∨ x.id ∉ env.orders.map RestOrder.id
  ownTicker : ∀ t, t? = some t → t.plan.ticker = ticker
  names : ∀ x ∈ env.orders, x.ticker ≠ ticker →
    x.usedBy t?.toList = x.usedBy (env.recoverable ticker).toList
  absent : env.position? ticker = none → t? = none
  orphan : ∀ p, env.position? ticker = some p → env.trade? ticker = none →
    ∃ t o, t? = some t ∧ o ∈ s'.orders ∧ o.ticker = ticker ∧ o.isStop = true ∧
      o.side = p.side.opposite ∧
      (t.stopOrderId = 0 ∨ ∃ o ∈ s'.orders, o.id = t.stopOrderId ∧ o.ticker = ticker)
  persisted : ∀ p t, env.position? ticker = some p → env.trade? ticker = some t →
    ∃ t', t? = some t' ∧ KeepsPersisted env ticker s.recovered t t' s'

/-- An order is left open exactly if it was not cancelled. -/
theorem Swept.mem_orders {before : List ActiveTrade} {s₁ s' : RecoveryState} {t t' : ActiveTrade}
    {cs : List RestOrder} (h : Swept before (env.ordersOf ticker) s₁ s' t t' cs) {o : RestOrder}
    (ho : o ∈ env.ordersOf ticker) (hopen : o ∈ s₁.orders) : o ∈ s'.orders ↔ o ∉ cs := by
  rw [h.orders, List.mem_filter, decide_eq_true_eq]
  refine ⟨fun hin hc => hin.2 (List.mem_map_of_mem hc), fun hout => ⟨hopen, fun hid => ?_⟩⟩
  obtain ⟨c, hc, heq⟩ := List.mem_map.1 hid
  have hcin := (mem_ordersOf.1 (h.cancelled c hc).1).1
  exact hout (eq_of_id_eq hcin (mem_ordersOf.1 ho).1 heq ▸ hc)

/-- An order that a recovered trade names is not cancelled. -/
theorem Swept.not_mem_of_used {before os cs} {s₁ s' : RecoveryState} {t t' : ActiveTrade}
    (h : Swept before os s₁ s' t t' cs) {o : RestOrder} (hused : o.usedBy (before ++ [t]) = true) :
    o ∉ cs := by
  intro hc
  rw [(h.cancelled o hc).2] at hused
  cases hused

theorem mem_of_find? {ts : List ActiveTrade} {os : List RestOrder} {o : RestOrder}
    (h : os.find? (unnamedStop ts) = some o) : o ∈ os ∧ unnamedStop ts o = true :=
  ⟨List.mem_of_find?_eq_some h, List.find?_some h⟩

theorem Swept.keepsPersisted {s s' : RecoveryState} {t t' : ActiveTrade}
    {cs : List RestOrder} (h : Swept s.recovered (env.ordersOf ticker) s s' t t' cs)
    (hopen : ∀ x : RestOrder, x.ticker = ticker → (x ∈ s.orders ↔ x ∈ env.orders)) :
    KeepsPersisted env ticker s.recovered t t' s' where
  stopOpen := by
    have hmem : ∀ o ∈ env.ordersOf ticker, (o ∈ s'.orders ↔ o ∉ cs) := fun o ho =>
      h.mem_orders ho ((hopen o (mem_ordersOf.1 ho).2).2 (mem_ordersOf.1 ho).1)
    by_cases hzero : t.stopOrderId = 0
    · -- without a recorded stop the trade adopts the first unnamed one
      refine ⟨fun _ => Or.inl hzero, fun _ => ?_⟩
      rw [h.adopted hzero]
      cases hfind : (env.ordersOf ticker).find? (unnamedStop (s.recovered ++ [t])) with
      | none => exact Or.inl rfl
      | some o =>
          obtain ⟨ho, hstop⟩ := mem_of_find? hfind
          have hkept := (h.stopCancelled o ho hstop).2 ⟨hzero, hfind⟩
          exact Or.inr ⟨o, (hmem o ho).2 hkept, rfl, (mem_ordersOf.1 ho).2⟩
    · rw [h.stop hzero]
      -- a recorded stop is open afterwards if and only if it was
      refine or_congr Iff.rfl ⟨?_, ?_⟩
      · rintro ⟨o, ho, hid, hticker⟩
        rw [h.orders, List.mem_filter] at ho
        exact ⟨o, mem_ordersOf.2 ⟨(hopen o hticker).1 ho.1, hticker⟩, hid⟩
      · rintro ⟨o, ho, hid⟩
        have hused : o.usedBy (s.recovered ++ [t]) = true := by
          rw [RestOrder.usedBy_append, RestOrder.usedBy_singleton (ordersOf_ne_zero o ho)]
          simp [ActiveTrade.names, hid]
        exact ⟨o, (hmem o ho).2 (h.not_mem_of_used hused), hid, (mem_ordersOf.1 ho).2⟩
  stops := by
    intro o hstop hticker
    constructor
    · intro ho
      have hold : o ∈ s.orders := by
        rw [h.orders] at ho
        exact List.mem_of_mem_filter ho
      have hin : o ∈ env.ordersOf ticker := mem_ordersOf.2 ⟨(hopen o hticker).1 hold, hticker⟩
      refine ⟨hin, ?_⟩
      by_cases hused : o.usedBy (s.recovered ++ [t]) = true
      · exact Or.inl hused
      · have hunnamed : unnamedStop (s.recovered ++ [t]) o = true := by
          simp [unnamedStop, hstop, hused]
        exact Or.inr ((h.stopCancelled o hin hunnamed).1 ((h.mem_orders hin hold).1 ho))
    · rintro ⟨hin, hkept⟩
      have hold : o ∈ s.orders := (hopen o hticker).2 (mem_ordersOf.1 hin).1
      rw [h.mem_orders hin hold]
      rcases hkept with hused | hfirst
      · exact h.not_mem_of_used hused
      · exact (h.stopCancelled o hin (mem_of_find? hfirst.2).2).2 hfirst

/-- A sweep leaves the orders of other tickers, and orders with new ids, alone. -/
theorem Swept.frame {before : List ActiveTrade} {s₁ s' : RecoveryState} {t t' : ActiveTrade}
    {cs : List RestOrder} (h : Swept before (env.ordersOf ticker) s₁ s' t t' cs) {x : RestOrder}
    (hx : x.id ∉ (env.ordersOf ticker).map RestOrder.id) : x ∈ s'.orders ↔ x ∈ s₁.orders := by
  rw [h.orders, List.mem_filter, decide_eq_true_eq]
  refine and_iff_left (fun hin => hx ?_)
  obtain ⟨c, hc, hid⟩ := List.mem_map.1 hin
  exact List.mem_map.2 ⟨c, (h.cancelled c hc).1, hid⟩

/-- A ticker's orders have different ids from another ticker's open orders. -/
theorem id_not_mem_ordersOf {x : RestOrder} (hx : x ∈ env.orders) (hticker : x.ticker ≠ ticker) :
    x.id ∉ (env.ordersOf ticker).map RestOrder.id := by
  intro hin
  obtain ⟨o, ho, hid⟩ := List.mem_map.1 hin
  obtain ⟨hopen, hot⟩ := mem_ordersOf.1 ho
  exact hticker (eq_of_id_eq hx hopen hid.symm ▸ hot)

theorem Round.of_absent {s s' : RecoveryState} {done : List Ticker}
    (hafter : After env done s) (hp : env.position? ticker = none)
    (hrec : s'.recovered = s.recovered) (hsub : s'.orders.Sublist s.orders)
    (hkeep : ∀ x ∈ s.orders, x.id ∉ (env.ordersOf ticker).map RestOrder.id → x ∈ s'.orders) :
    Round env ticker s s' none where
  recovered := by simp [hrec]
  frame := fun x hx =>
    ⟨fun hin => hsub.subset hin, fun hin => hkeep x hin (hafter.id_not_mem hin hx)⟩
  known := fun x hx => hafter.known x (hsub.subset hx)
  ownTicker := by simp
  names := fun x _ _ => by simp [recoverable, hp]
  absent := fun _ => rfl
  orphan := by simp [hp]
  persisted := by simp [hp]

/-- What a trade takes from the server does not matter to its orders. -/
theorem KeepsPersisted.of_fromServer {before : List ActiveTrade} {t t' : ActiveTrade}
    {p : ServerPosition} {s' : RecoveryState}
    (h : KeepsPersisted env ticker before (fromServer t p) t' s') :
    KeepsPersisted env ticker before t t' s' := by
  have hused : ∀ o : RestOrder, o.usedBy (before ++ [fromServer t p]) = o.usedBy (before ++ [t]) := by
    intro o
    rw [RestOrder.usedBy_append, RestOrder.usedBy_append]
    rfl
  have hunnamed : unnamedStop (before ++ [fromServer t p]) = unnamedStop (before ++ [t]) := by
    funext o
    rw [unnamedStop, unnamedStop, hused]
  refine ⟨h.stopOpen, fun o hstop hticker => ?_⟩
  rw [h.stops o hstop hticker, hused, hunnamed]
  rfl

/-- The orders of other tickers, and what is known of the open orders, after a sweep. -/
theorem Swept.others {s s₁ s' : RecoveryState} {before : List ActiveTrade} {t t' : ActiveTrade}
    {cs : List RestOrder} {done : List Ticker} {placed : List RestOrder} (hafter : After env done s)
    (h : Swept before (env.ordersOf ticker) s₁ s' t t' cs) (hord : s₁.orders = s.orders ++ placed)
    (hplaced : ∀ o ∈ placed, o.ticker = ticker ∧ o.id ∉ env.orders.map RestOrder.id) :
    (∀ x : RestOrder, x.ticker ≠ ticker → (x ∈ s'.orders ↔ x ∈ s.orders)) ∧
      ∀ x ∈ s'.orders, x ∈ env.orders ∨ x.id ∉ env.orders.map RestOrder.id := by
  have hmem : ∀ x ∈ s'.orders, x ∈ s.orders ∨ x ∈ placed := by
    intro x hx
    rw [h.orders, hord] at hx
    exact List.mem_append.1 (List.mem_of_mem_filter hx)
  refine ⟨fun x hx => ⟨fun hin => ?_, fun hin => ?_⟩, fun x hin => ?_⟩
  · exact (hmem x hin).resolve_right (fun hp => hx (hplaced x hp).1)
  · refine (h.frame (hafter.id_not_mem hin hx)).2 ?_
    rw [hord]
    exact List.mem_append_left _ hin
  · rcases hmem x hin with hold | hp
    · exact hafter.known x hold
    · exact Or.inr (hplaced x hp).2

/-- A round that recovers a persisted trade. -/
theorem Round.of_persisted {done : List Ticker} {s₁ s' : RecoveryState} {cs : List RestOrder}
    {p : ServerPosition} {t t' : ActiveTrade} (hafter : After env done s) (hnew : ticker ∉ done)
    (hp : env.position? ticker = some p) (ht : env.trade? ticker = some t)
    (hrec : s₁.recovered = s.recovered) (hord : s₁.orders = s.orders)
    (h : Swept s₁.recovered (env.ordersOf ticker) s₁ s' (fromServer t p) t' cs) :
    Round env ticker s { s' with recovered := s'.recovered ++ [t'] } (some t') := by
  have hopen : ∀ x : RestOrder, x.ticker = ticker → (x ∈ s₁.orders ↔ x ∈ env.orders) := by
    intro x hx
    rw [hord]
    exact hafter.untouched x (by rw [hx]; exact hnew)
  have hkeeps := (h.keepsPersisted hopen).of_fromServer
  have hothers := h.others hafter (by rw [hord]; exact (List.append_nil _).symm)
    (List.forall_mem_nil _)
  refine ⟨by simp [h.recovered, hrec], hothers.1, hothers.2, ?_, ?_, by simp [hp], by simp [ht], ?_⟩
  · intro t'' ht''
    rw [Option.some.injEq] at ht''
    have hfound := List.find?_some ht
    rw [← ht'', h.ticker]
    exact of_decide_eq_true hfound
  · intro x hx hticker
    have hx0 : x.id ≠ 0 := env.ids_ne_zero x hx
    rw [recoverable, hp, Option.bind_some, ht, Option.toList_some, Option.toList_some,
      RestOrder.usedBy_singleton hx0, RestOrder.usedBy_singleton hx0,
      h.names x hx0 (id_not_mem_ordersOf hx hticker), ActiveTrade.names_fromServer]
  · intro p' t₀ _ ht₀
    rw [ht, Option.some.injEq] at ht₀
    subst ht₀
    rw [hrec] at hkeeps
    exact ⟨t', rfl, hkeeps.stopOpen, hkeeps.stops⟩

/-- A round that makes up a trade. -/
theorem Round.of_orphan {done : List Ticker} {s₁ s' : RecoveryState} {cs : List RestOrder}
    {p : ServerPosition} {t t' : ActiveTrade} {o : RestOrder} (hafter : After env done s)
    (hnew : ticker ∉ done) (hp : env.position? ticker = some p) (ht : env.trade? ticker = none)
    (hrec : s₁.recovered = s.recovered) (hord : s₁.orders = s.orders ++ [o])
    (hid : o.id ∉ env.orders.map RestOrder.id) (hot : o.ticker = ticker) (hstop : o.isStop = true)
    (hside : o.side = p.side.opposite) (htticker : t.plan.ticker = ticker)
    (hstopId : t.stopOrderId = 0 ∨ t.stopOrderId = o.id)
    (hnames : ∀ x ∈ env.orders, t.names x = false)
    (h : Swept s₁.recovered (env.ordersOf ticker) s₁ s' t t' cs) :
    Round env ticker s { s' with recovered := s'.recovered ++ [t'] } (some t') := by
  have hothers := h.others hafter hord
    (fun o' ho' => by rw [List.mem_singleton.1 ho']; exact ⟨hot, hid⟩)
  -- the sweep goes through the orders that were there before, so the new stop stays
  have hplaced : o ∈ s'.orders := by
    have hoid : o.id ∉ (env.ordersOf ticker).map RestOrder.id := by
      intro hin
      obtain ⟨o', ho', heq⟩ := List.mem_map.1 hin
      exact hid (heq ▸ List.mem_map_of_mem (mem_ordersOf.1 ho').1)
    rw [h.frame hoid, hord]
    exact List.mem_append_right _ (List.mem_singleton.2 rfl)
  refine ⟨by simp [h.recovered, hrec], hothers.1, hothers.2, ?_, ?_, by simp [hp], ?_, by simp [ht]⟩
  · intro t'' ht''
    rw [Option.some.injEq] at ht''
    rw [← ht'', h.ticker, htticker]
  · intro x hx hticker
    have hx0 : x.id ≠ 0 := env.ids_ne_zero x hx
    rw [recoverable, hp, Option.bind_some, ht, Option.toList_some, RestOrder.usedBy_singleton hx0,
      h.names x hx0 (id_not_mem_ordersOf hx hticker), hnames x hx]
    rfl
  · intro p' hp' _
    rw [hp, Option.some.injEq] at hp'
    rw [← hp']
    refine ⟨t', o, rfl, hplaced, hot, hstop, hside, ?_⟩
    by_cases hzero : t.stopOrderId = 0
    · -- no stop was placed for the trade: it adopts the first unnamed one, if there is one
      rw [h.adopted hzero]
      cases hfind : (env.ordersOf ticker).find? (unnamedStop (s₁.recovered ++ [t])) with
      | none => exact Or.inl rfl
      | some o' =>
          obtain ⟨ho', hstop'⟩ := mem_of_find? hfind
          have hkept := (h.stopCancelled o' ho' hstop').2 ⟨hzero, hfind⟩
          obtain ⟨hopen', hticker'⟩ := mem_ordersOf.1 ho'
          refine Or.inr ⟨o', (h.mem_orders ho' ?_).2 hkept, rfl, hticker'⟩
          rw [hord]
          exact List.mem_append_left _
            ((hafter.untouched o' (by rw [hticker']; exact hnew)).2 hopen')
    · rw [h.stop hzero, hstopId.resolve_left hzero]
      exact Or.inr ⟨o, hplaced, rfl, hot⟩

theorem round (hplace : Succeeds env) (hpolicy : env.cfg.orphanCancelPolicy = "cancel")
    {done : List Ticker} (hafter : After env done s) (hnew : ticker ∉ done) :
    ∃ t?, Round env ticker s (env.recoverTicker s ticker) t? := by
  have hpos := positioned hplace ticker s
  unfold recoverTicker
  generalize env.recoverPosition ticker s = st at hpos
  obtain ⟨s₁, t?⟩ := st
  dsimp only at hpos
  cases hp : env.position? ticker with
  | none =>
      obtain ⟨rfl, hord⟩ := hpos.absent hp
      obtain ⟨hnone, hrec, hsub, hkeep⟩ := sweep_none env ticker (env.ordersOf ticker) s₁
      refine ⟨none, ?_⟩
      generalize (env.ordersOf ticker).foldl (env.handleOrder ticker) (s₁, none) = st'
        at hnone hrec hsub hkeep
      obtain ⟨s', t'⟩ := st'
      dsimp only at hnone
      subst hnone
      rw [hord] at hsub hkeep
      exact Round.of_absent hafter hp ((List.append_nil _).trans (hrec.trans hpos.recovered)) hsub hkeep
  | some p =>
      cases ht : env.trade? ticker with
      | some t =>
          obtain ⟨rfl, hord⟩ := hpos.persisted p t hp ht
          obtain ⟨s', t', cs, hfold, hswept⟩ := sweep ticker hpolicy
            (nodup_ordersOf env ticker) ordersOf_ne_zero s₁ (fromServer t p)
          rw [hfold]
          exact ⟨some t', Round.of_persisted hafter hnew hp ht hpos.recovered hord hswept⟩
      | none =>
          obtain ⟨t, o, rfl, hord, hid, hot, hostop, hoside, htticker, hstopId, hnames⟩ :=
            hpos.orphan p hp ht
          obtain ⟨s', t', cs, hfold, hswept⟩ := sweep ticker hpolicy
            (nodup_ordersOf env ticker) ordersOf_ne_zero s₁ t
          rw [hfold]
          exact ⟨some t', Round.of_orphan hafter hnew hp ht hpos.recovered hord hid hot hostop hoside
            htticker hstopId hnames hswept⟩

/-! ## The run -/

/-- A round leads from one ticker to the next. -/
theorem Round.after {s' : RecoveryState} {done : List Ticker} {t? : Option ActiveTrade}
    (hafter : After env done s) (h : Round env ticker s s' t?) : After env (done ++ [ticker]) s' where
  untouched := by
    intro x hx
    rw [List.mem_append, List.mem_singleton, not_or] at hx
    rw [h.frame x hx.2, hafter.untouched x hx.1]
  known := h.known
  names := by
    intro x hx hticker
    rw [List.mem_append, List.mem_singleton, not_or] at hticker
    rw [h.recovered, RestOrder.usedBy_append, hafter.names x hx hticker.1, h.names x hx hticker.2,
      List.filterMap_append, RestOrder.usedBy_append]
    cases hr : env.recoverable ticker with
    | none => simp [hr]
    | some t => simp [hr]

/-- The rounds over further tickers leave the orders of others alone and only add their own trades. -/
theorem rounds (hplace : Succeeds env) (hpolicy : env.cfg.orphanCancelPolicy = "cancel")
    {done rest : List Ticker} (hafter : After env done s) (hnodup : (done ++ rest).Nodup) :
    After env (done ++ rest) (rest.foldl env.recoverTicker s) ∧
      (∀ x : RestOrder, x.ticker ∉ rest →
        (x ∈ (rest.foldl env.recoverTicker s).orders ↔ x ∈ s.orders)) ∧
      ∃ ts, (rest.foldl env.recoverTicker s).recovered = s.recovered ++ ts ∧
        ∀ t ∈ ts, t.plan.ticker ∈ rest := by
  induction rest generalizing done s with
  | nil =>
      refine ⟨?_, fun _ _ => Iff.rfl, [], (List.append_nil _).symm, List.forall_mem_nil _⟩
      rw [List.append_nil]
      exact hafter
  | cons ticker rest ih =>
      have hnew : ticker ∉ done := fun hin =>
        (List.nodup_append.1 hnodup).2.2 ticker hin ticker (List.mem_cons_self ..) rfl
      obtain ⟨t?, hround⟩ := round hplace hpolicy hafter hnew
      have hassoc : done ++ ticker :: rest = done ++ [ticker] ++ rest := by simp
      rw [hassoc] at hnodup
      obtain ⟨hafter', hframe, ts, hts, htickers⟩ := ih (hround.after hafter) hnodup
      rw [List.foldl_cons, hassoc]
      refine ⟨hafter', fun x hx => ?_, t?.toList ++ ts, ?_, fun t ht => ?_⟩
      · rw [List.mem_cons, not_or] at hx
        rw [hframe x hx.2, hround.frame x hx.1]
      · rw [hts, hround.recovered, List.append_assoc]
      · rcases List.mem_append.1 ht with hmine | hlater
        · rw [hround.ownTicker t (Option.mem_toList.1 hmine)]
          exact List.mem_cons_self ..
        · exact List.mem_cons_of_mem _ (htickers t hlater)

theorem nodup_tickers (env : StartupRecovery) : env.tickers.Nodup :=
  (List.perm_insertionSort _ _).nodup_iff.2 (List.nodup_dedup _)

/-- The persisted trades recovered for the tickers up to this one. -/
def recoverableUpTo (env : StartupRecovery) (ticker : Ticker) : List ActiveTrade :=
  (env.tickers.filter (fun t => decide (t ≤ ticker))).filterMap env.recoverable

/-- The tickers are taken in order. -/
theorem recoverableUpTo_eq {pre post : List Ticker} {t : ActiveTrade}
    (htickers : env.tickers = pre ++ ticker :: post) (ht : env.recoverable ticker = some t) :
    env.recoverableUpTo ticker = pre.filterMap env.recoverable ++ [t] := by
  have hsorted : env.tickers.Pairwise (· ≤ ·) := List.pairwise_insertionSort _ _
  have hnodup := nodup_tickers env
  rw [htickers] at hsorted hnodup
  obtain ⟨_, hpost, hcross⟩ := List.pairwise_append.1 hsorted
  have hbefore : pre.filter (fun t => decide (t ≤ ticker)) = pre :=
    List.filter_eq_self.2 (fun a ha => decide_eq_true (hcross a ha ticker (List.mem_cons_self ..)))
  have hlater : post.filter (fun t => decide (t ≤ ticker)) = [] := by
    refine List.filter_eq_nil_iff.2 (fun a ha hle => ?_)
    have heq : a = ticker :=
      le_antisymm (of_decide_eq_true hle) ((List.pairwise_cons.1 hpost).1 a ha)
    have hnot := (List.nodup_cons.1 (List.nodup_append.1 hnodup).2.1).1
    exact hnot (heq ▸ ha)
  rw [recoverableUpTo, htickers, List.filter_append, List.filter_cons_of_pos (by simp), hbefore,
    hlater, List.filterMap_append, List.filterMap_cons_some ht]
  rfl

/-- The ticker's trade and stops when the run is over. -/
structure Kept (env : StartupRecovery) (ticker : Ticker) (t? : Option ActiveTrade) : Prop where
  recovered : ∀ t, t ∈ env.run.recoveredTrades ∧ t.plan.ticker = ticker ↔ t? = some t
  absent : env.position? ticker = none → t? = none
  orphan : ∀ p, env.position? ticker = some p → env.trade? ticker = none →
    ∃ t o, t? = some t ∧ o ∈ env.run.orders ∧ o.ticker = ticker ∧ o.isStop = true ∧
      o.side = p.side.opposite ∧
      (t.stopOrderId = 0 ∨ ∃ o ∈ env.run.orders, o.id = t.stopOrderId ∧ o.ticker = ticker)
  stopOpen : ∀ p t, env.position? ticker = some p → env.trade? ticker = some t →
    ∃ t', t? = some t' ∧
      ((t'.stopOrderId = 0 ∨ ∃ o ∈ env.run.orders, o.id = t'.stopOrderId ∧ o.ticker = ticker) ↔
        (t.stopOrderId = 0 ∨ ∃ o ∈ env.ordersOf ticker, o.id = t.stopOrderId))
  stops : ∀ p t, env.position? ticker = some p → env.trade? ticker = some t →
    ∀ o : RestOrder, o.isStop = true → o.ticker = ticker → (o ∈ env.run.orders ↔
      o ∈ env.ordersOf ticker ∧ (o.usedBy (env.recoverableUpTo ticker) = true ∨
        t.stopOrderId = 0 ∧
          (env.ordersOf ticker).find? (unnamedStop (env.recoverableUpTo ticker)) = some o))

theorem KeepsPersisted.congr {before before' : List ActiveTrade} {t t' : ActiveTrade}
    {s' : RecoveryState} (h : KeepsPersisted env ticker before t t' s')
    (hnames : ∀ o ∈ env.ordersOf ticker, o.usedBy (before ++ [t]) = o.usedBy before') {o : RestOrder}
    (hstop : o.isStop = true) (hticker : o.ticker = ticker) :
    o ∈ s'.orders ↔ o ∈ env.ordersOf ticker ∧ (o.usedBy before' = true ∨
      t.stopOrderId = 0 ∧ (env.ordersOf ticker).find? (unnamedStop before') = some o) := by
  have hfind : (env.ordersOf ticker).find? (unnamedStop (before ++ [t]))
      = (env.ordersOf ticker).find? (unnamedStop before') :=
    find?_congr_mem (fun x hx => by rw [unnamedStop, unnamedStop, hnames x hx])
  rw [h.stops o hstop hticker, hfind]
  exact and_congr_right (fun hin => by rw [hnames o hin])

theorem kept (hplace : Succeeds env) (hpolicy : env.cfg.orphanCancelPolicy = "cancel")
    (hin : ticker ∈ env.tickers) : ∃ t?, Kept env ticker t? := by
  obtain ⟨pre, post, htickers⟩ := List.append_of_mem hin
  have hnodup := nodup_tickers env
  rw [htickers] at hnodup
  obtain ⟨hpre, hpost, hcross⟩ := List.nodup_append.1 hnodup
  have hnotpre : ticker ∉ pre := fun h => hcross ticker h ticker (List.mem_cons_self ..) rfl
  have hnotpost : ticker ∉ post := (List.nodup_cons.1 hpost).1
  -- the rounds before, the round of the ticker, and the rounds behind it
  obtain ⟨hafter, -, ts, hts, htstickers⟩ := rounds hplace hpolicy (after_start env) hpre
  rw [List.nil_append] at hafter
  obtain ⟨t?, hround⟩ := round hplace hpolicy hafter hnotpre
  have hassoc : pre ++ ticker :: post = pre ++ [ticker] ++ post := by simp
  rw [hassoc] at hnodup
  obtain ⟨-, hframe, us, hus, hustickers⟩ := rounds hplace hpolicy (hround.after hafter) hnodup
  have hrun : env.tickers.foldl env.recoverTicker env.start
      = post.foldl env.recoverTicker (env.recoverTicker (pre.foldl env.recoverTicker env.start)
          ticker) := by
    rw [htickers, List.foldl_append, List.foldl_cons]
  rw [← hrun] at hframe hus
  -- the rounds behind it leave the orders of the ticker as they are
  have hopen : ∀ x : RestOrder, x.ticker = ticker → (x ∈ env.run.orders ↔
      x ∈ (env.recoverTicker (pre.foldl env.recoverTicker env.start) ticker).orders) :=
    fun x hx => hframe x (by rw [hx]; exact hnotpost)
  have hexists : ∀ id, (∃ o ∈ env.run.orders, o.id = id ∧ o.ticker = ticker) ↔
      ∃ o ∈ (env.recoverTicker (pre.foldl env.recoverTicker env.start) ticker).orders,
        o.id = id ∧ o.ticker = ticker :=
    fun id => exists_congr (fun o => ⟨fun h => ⟨(hopen o h.2.2).1 h.1, h.2⟩,
      fun h => ⟨(hopen o h.2.2).2 h.1, h.2⟩⟩)
  refine ⟨t?, ?_, hround.absent, ?_, ?_, ?_⟩
  · intro t
    -- no other round recovers a trade for the ticker
    have hmem : t ∈ env.run.recoveredTrades ↔ t ∈ ts ∨ t? = some t ∨ t ∈ us := by
      have hrecovered : env.run.recoveredTrades
          = env.start.recovered ++ ts ++ t?.toList ++ us := by
        rw [← hts, ← hround.recovered]
        exact hus
      rw [hrecovered]
      simp [start]
    rw [hmem]
    constructor
    · rintro ⟨hpre' | hmine | hpost', hticker⟩
      · exact absurd (hticker ▸ htstickers t hpre') hnotpre
      · exact hmine
      · exact absurd (hticker ▸ hustickers t hpost') hnotpost
    · exact fun hmine => ⟨Or.inr (Or.inl hmine), hround.ownTicker t hmine⟩
  · intro p hp ht
    obtain ⟨t, o, ht?, ho, hot, hstop, hside, hstopId⟩ := hround.orphan p hp ht
    exact ⟨t, o, ht?, (hopen o hot).2 ho, hot, hstop, hside,
      hstopId.imp_right (fun h => (hexists _).2 h)⟩
  · intro p t hp ht
    obtain ⟨t', ht?, hkeeps⟩ := hround.persisted p t hp ht
    exact ⟨t', ht?, (or_congr Iff.rfl (hexists _)).trans hkeeps.stopOpen⟩
  · intro p t hp ht o hstop hticker
    obtain ⟨t', _, hkeeps⟩ := hround.persisted p t hp ht
    have hrecoverable : env.recoverable ticker = some t := by
      rw [recoverable, hp, Option.bind_some, ht]
    rw [hopen o hticker]
    refine hkeeps.congr (fun x hx => ?_) hstop hticker
    obtain ⟨hxopen, hxticker⟩ := mem_ordersOf.1 hx
    rw [recoverableUpTo_eq htickers hrecoverable, RestOrder.usedBy_append, RestOrder.usedBy_append,
      hafter.names x hxopen (by rw [hxticker]; exact hnotpre)]

/-- Trades are recovered for the tickers of persisted trades and positions only. -/
theorem ticker_mem (hplace : Succeeds env) (hpolicy : env.cfg.orphanCancelPolicy = "cancel")
    {t : ActiveTrade} (ht : t ∈ env.run.recoveredTrades) : t.plan.ticker ∈ env.tickers := by
  have hnodup : ([] ++ env.tickers).Nodup := nodup_tickers env
  obtain ⟨-, -, ts, hts, htickers⟩ := rounds hplace hpolicy (after_start env) hnodup
  have hin : t ∈ (env.tickers.foldl env.recoverTicker env.start).recovered := ht
  rw [hts] at hin
  rcases List.mem_append.1 hin with hnone | hin
  · exact absurd hnone List.not_mem_nil
  · exact htickers t hin

/-! ## Protected positions -/

/-- A stop order that reduces the position. -/
def protects (p : ServerPosition) (o : RestOrder) : Prop :=
  o.isStop = true ∧ o.side = p.side.opposite

/-- What the run should leave: recorded stops are open, and a position with a stop keeps one. -/
def Protected (env : StartupRecovery) : Prop :=
  ∀ t ∈ env.run.recoveredTrades,
    (t.stopOrderId = 0 ∨
      ∃ o ∈ env.run.orders, o.id = t.stopOrderId ∧ o.ticker = t.plan.ticker) ∧
    ∀ p, env.position? t.plan.ticker = some p →
      (∃ o ∈ env.ordersOf t.plan.ticker, protects p o) →
        ∃ o ∈ env.run.orders, o.ticker = t.plan.ticker ∧ protects p o

/-- No persisted stop id is out of date, and a position with a stop has one that a recovered trade of
    its ticker or an earlier one names, or the first stop of its ticker that none of them names is one
    and the trade has no stop id. -/
def KeepsStops (env : StartupRecovery) : Prop :=
  ∀ ticker t p, env.trade? ticker = some t → env.position? ticker = some p →
    (t.stopOrderId = 0 ∨ ∃ o ∈ env.ordersOf ticker, o.id = t.stopOrderId) ∧
    ((∃ o ∈ env.ordersOf ticker, protects p o) → ∃ o ∈ env.ordersOf ticker, protects p o ∧
      (o.usedBy (env.recoverableUpTo ticker) = true ∨ t.stopOrderId = 0 ∧
        (env.ordersOf ticker).find? (unnamedStop (env.recoverableUpTo ticker)) = some o))

theorem mem_tickers_of_trade? {t : ActiveTrade} (ht : env.trade? ticker = some t) :
    ticker ∈ env.tickers := by
  rw [tickers, List.mem_insertionSort, List.mem_dedup, List.mem_append]
  have hfound := List.find?_some ht
  exact Or.inl (List.mem_map.2 ⟨t, List.mem_of_find?_eq_some ht, of_decide_eq_true hfound⟩)

/-- For a persisted trade, the stops the run leaves are those that `KeepsStops` asks for. -/
theorem Kept.exists_stop {t? : Option ActiveTrade} (h : Kept env ticker t?) {p : ServerPosition}
    {t : ActiveTrade} (hp : env.position? ticker = some p) (ht : env.trade? ticker = some t) :
    (∃ o ∈ env.run.orders, o.ticker = ticker ∧ protects p o) ↔
      ∃ o ∈ env.ordersOf ticker, protects p o ∧
        (o.usedBy (env.recoverableUpTo ticker) = true ∨ t.stopOrderId = 0 ∧
          (env.ordersOf ticker).find? (unnamedStop (env.recoverableUpTo ticker)) = some o) := by
  constructor
  · rintro ⟨o, ho, hticker, hprotects⟩
    obtain ⟨hin, hkept⟩ := (h.stops p t hp ht o hprotects.1 hticker).1 ho
    exact ⟨o, hin, hprotects, hkept⟩
  · rintro ⟨o, hin, hprotects, hkept⟩
    have hticker := (mem_ordersOf.1 hin).2
    exact ⟨o, (h.stops p t hp ht o hprotects.1 hticker).2 ⟨hin, hkept⟩, hticker, hprotects⟩

/-- Recovery leaves positions protected exactly if no persisted stop id is out of date and none of
    the stops it cancels is the last one. -/
theorem protected_iff (env : StartupRecovery) (hplace : Succeeds env)
    (hpolicy : env.cfg.orphanCancelPolicy = "cancel") : Protected env ↔ KeepsStops env := by
  constructor
  · intro h ticker t p ht hp
    -- what recovery left for the ticker decides
    obtain ⟨t?, hkept⟩ := kept hplace hpolicy (mem_tickers_of_trade? ht)
    obtain ⟨t', ht', hstopOpen⟩ := hkept.stopOpen p t hp ht
    obtain ⟨hrecovered, hticker⟩ := (hkept.recovered t').2 ht'
    obtain ⟨hopen, hkeeps⟩ := h t' hrecovered
    rw [hticker] at hopen hkeeps
    refine ⟨hstopOpen.1 hopen, fun hbefore => ?_⟩
    exact (hkept.exists_stop hp ht).1 (hkeeps p hp hbefore)
  · intro h t' hrecovered
    obtain ⟨t?, hkept⟩ := kept hplace hpolicy (ticker_mem hplace hpolicy hrecovered)
    have ht? := (hkept.recovered t').1 ⟨hrecovered, rfl⟩
    cases hp : env.position? t'.plan.ticker with
    | none =>
        -- no position, so nothing is recovered
        rw [hkept.absent hp] at ht?
        cases ht?
    | some p =>
        cases ht : env.trade? t'.plan.ticker with
        | some t =>
            obtain ⟨t'', ht'', hstopOpen⟩ := hkept.stopOpen p t hp ht
            rw [ht?, Option.some.injEq] at ht''
            rw [← ht''] at hstopOpen
            obtain ⟨hopen, hkeeps⟩ := h _ t p ht hp
            refine ⟨hstopOpen.2 hopen, fun p' hp' hbefore => ?_⟩
            rw [Option.some.injEq] at hp'
            rw [← hp'] at hbefore ⊢
            exact (hkept.exists_stop hp ht).2 (hkeeps hbefore)
        | none =>
            -- an orphaned position got a new stop
            obtain ⟨t'', o, ht'', ho, hot, hstop, hside, hopen⟩ := hkept.orphan p hp ht
            rw [ht?, Option.some.injEq] at ht''
            rw [← ht''] at hopen
            refine ⟨hopen, fun p' hp' _ => ?_⟩
            rw [Option.some.injEq] at hp'
            rw [← hp']
            exact ⟨o, ho, hot, hstop, hside⟩

/-- A long position with one stop, and a persisted trade that records the stop id `stopOrderId`. -/
def longPosition (stopOrderId : OrderId) : StartupRecovery where
  persisted := some
    [{ plan := { ticker := "A", side := .buy, sizeCoin := 1 }, stopOrderId := stopOrderId }]
  positions := [{ ticker := "A", side := .buy, size := 1 }]
  orders := [{ id := 5, ticker := "A", side := .sell, type := .stop, price := 90, size := 1 }]
  placeOrder := fun _ => .ok
    { orderId := 6, exchangeId := 6, exchangeId_ne_zero := by decide, orderId_eq := Or.inr rfl }
  ids_nodup := by decide
  ids_ne_zero := by decide

theorem longPosition_succeeds (stopOrderId : OrderId) : Succeeds (longPosition stopOrderId) :=
  fun _ => ⟨_, rfl, by simp [longPosition]⟩

theorem protected_recorded : Protected (longPosition 5) := by
  refine (protected_iff (longPosition 5) (longPosition_succeeds 5) rfl).2 ?_
  intro ticker t p ht _
  have hticker : "A" = ticker := by
    have hfound := List.find?_some ht
    have hin := List.mem_of_find?_eq_some ht
    rw [List.mem_singleton.1 hin] at hfound
    exact of_decide_eq_true hfound
  subst hticker
  have htrade : t.stopOrderId = 5 := by
    rw [List.mem_singleton.1 (List.mem_of_find?_eq_some ht)]
  refine ⟨Or.inr ⟨_, List.mem_cons_self .., htrade.symm⟩, ?_⟩
  rintro ⟨o, ho, hprotects⟩
  refine ⟨o, ho, hprotects, Or.inl ?_⟩
  rw [List.mem_singleton.1 ho]
  decide +kernel

/-- The recorded stop is gone, and the stop that is open gets cancelled. -/
theorem not_protected_stale : Succeeds (longPosition 77) ∧
    (longPosition 77).cfg.orphanCancelPolicy = "cancel" ∧ ¬ Protected (longPosition 77) := by
  refine ⟨longPosition_succeeds 77, rfl, fun h => ?_⟩
  have horders : (longPosition 77).run.orders = [] := by decide +kernel
  have hstop : (longPosition 77).run.recoveredTrades.map ActiveTrade.stopOrderId = [77] := by
    decide +kernel
  obtain ⟨t, ht, hid⟩ := List.mem_map.1 (hstop ▸ List.mem_singleton.2 rfl)
  rcases (h t ht).1 with hzero | ⟨o, ho, _⟩
  · rw [hzero] at hid
    exact absurd hid (by decide)
  · rw [horders] at ho
    exact List.not_mem_nil ho

end StartupRecovery

end TradeBot
