import Mathlib.Data.List.Dedup
import Mathlib.Data.Multiset.Filter
import TradeBot.Executor.StartupRecovery

set_option autoImplicit false

/-! # Automatic acknowledgement

When a recovery acknowledges itself, and whether the persisted trades then are the positions on the
exchange. The check for drift compares, ticker by ticker, the first trade with the first position
above the threshold, and of these the sizes only, so the two lists can differ without drift.

Whether two lists correspond one to one is a question ticker by ticker (`multisetRel_iff_filter`),
and so is the check. Where it passes, a single trade and a single position have the same size
(`matches_single`). What it does not look at are the sides, the positions and trades beyond the
first, and sizes that were not recorded; `Agrees` asks for exactly these, and with them an
acknowledgement is right (`autoAck_sound_iff`). -/

namespace TradeBot

/-! ## One-to-one correspondence -/

/-- Two multisets correspond exactly if the parts of each key do, for a relation that respects keys. -/
theorem multisetRel_iff_filter {α β κ : Type} [DecidableEq κ] {r : α → β → Prop} {key : α → κ}
    {key' : β → κ} (hr : ∀ a b, r a b → key a = key' b) (as : Multiset α) (bs : Multiset β) :
    Multiset.Rel r as bs ↔
      ∀ k, Multiset.Rel r (as.filter (fun a => key a = k)) (bs.filter (fun b => key' b = k)) := by
  constructor
  · intro h k
    induction h with
    | zero => exact Multiset.Rel.zero
    | @cons a b as bs hab _ ih =>
        rw [Multiset.filter_cons, Multiset.filter_cons, hr a b hab]
        by_cases hk : key' b = k
        · rw [if_pos hk, if_pos hk]
          exact Multiset.Rel.cons hab ih
        · rw [if_neg hk, if_neg hk, Multiset.zero_add, Multiset.zero_add]
          exact ih
  · intro h
    induction as using Multiset.induction_on generalizing bs with
    | empty =>
        rw [Multiset.rel_zero_left]
        refine Multiset.eq_zero_of_forall_notMem (fun b hb => ?_)
        have hnone := h (key' b)
        rw [Multiset.filter_zero, Multiset.rel_zero_left] at hnone
        exact Multiset.notMem_zero b (hnone ▸ Multiset.mem_filter.2 ⟨hb, rfl⟩)
    | cons a as ih =>
        -- the partner of the first element is found under its key
        have ha := h (key a)
        rw [Multiset.filter_cons, if_pos rfl, Multiset.singleton_add, Multiset.rel_cons_left] at ha
        obtain ⟨b, rest, hab, hrest, heq⟩ := ha
        have hb : b ∈ bs := Multiset.mem_of_mem_filter (heq ▸ Multiset.mem_cons_self b rest)
        obtain ⟨bs', rfl⟩ := Multiset.exists_cons_of_mem hb
        refine Multiset.Rel.cons hab (ih bs' (fun k => ?_))
        -- taking both out leaves the parts of the other keys as they are
        by_cases hak : key a = k
        · rw [Multiset.filter_cons, if_pos (hr a b hab).symm, Multiset.singleton_add,
            Multiset.cons_inj_right] at heq
          rw [← hak, heq]
          exact hrest
        · have hk := h k
          rw [Multiset.filter_cons, if_neg hak, Multiset.filter_cons,
            if_neg ((hr a b hab) ▸ hak)] at hk
          simpa using hk

theorem multisetRel_singleton {α β : Type} {r : α → β → Prop} {a : α} {b : β} :
    Multiset.Rel r ([a] : Multiset α) ([b] : Multiset β) ↔ r a b := by
  rw [← Multiset.cons_coe, Multiset.rel_cons_left, Multiset.coe_nil]
  constructor
  · rintro ⟨b', rest, hab, hrest, heq⟩
    rw [Multiset.rel_zero_left.1 hrest, Multiset.cons_zero] at heq
    exact (Multiset.singleton_inj.1 heq).symm ▸ hab
  · exact fun hab => ⟨b, 0, hab, Multiset.Rel.zero, rfl⟩

namespace StartupRecovery

/-! ## Drift -/

section

variable (env : StartupRecovery)

/-- The check sees a difference on the ticker. -/
def driftAt (ticker : Ticker) : Bool :=
  match env.position? ticker, env.trade? ticker with
  | some p, some t => env.sizeDrift t p
  | some _, none => true
  | none, some _ => true
  | none, none => false

theorem handleOrder_driftDetected (ticker : Ticker) (st : RecoveryState × Option ActiveTrade)
    (o : RestOrder) : (env.handleOrder ticker st o).1.driftDetected = st.1.driftDetected := by
  obtain ⟨s, t?⟩ := st
  have hcancel : (env.cancelOrphan ticker o s).driftDetected = s.driftDetected := by
    unfold cancelOrphan
    split <;> rfl
  unfold handleOrder
  dsimp only
  split
  · rfl
  · cases t? with
    | none => exact hcancel
    | some t =>
        dsimp only
        split
        · rfl
        split
        · rfl
        · exact hcancel

theorem foldl_handleOrder_driftDetected (ticker : Ticker) (os : List RestOrder)
    (st : RecoveryState × Option ActiveTrade) :
    (os.foldl (env.handleOrder ticker) st).1.driftDetected = st.1.driftDetected := by
  induction os generalizing st with
  | nil => rfl
  | cons o os ih => rw [List.foldl_cons, ih, handleOrder_driftDetected]

theorem recoverPosition_driftDetected (ticker : Ticker) (s : RecoveryState) :
    (env.recoverPosition ticker s).1.driftDetected = (s.driftDetected || env.driftAt ticker) := by
  unfold recoverPosition driftAt
  cases env.position? ticker with
  | none =>
      cases env.trade? ticker with
      | none => exact (Bool.or_false _).symm
      | some t => exact (Bool.or_true _).symm
  | some p =>
      cases env.trade? ticker with
      | none =>
          have hadopt : (env.adoptPosition ticker p s).1.driftDetected = true := by
            unfold adoptPosition
            dsimp only
            split <;> rfl
          dsimp only
          rw [Bool.or_true]
          split <;> exact hadopt
      | some t =>
          have hadopt : (env.adoptTrade ticker t p s).1.driftDetected
              = (s.driftDetected || env.sizeDrift t p) := by
            unfold adoptTrade
            by_cases h : env.sizeDrift t p = true
            · rw [if_pos h, h, Bool.or_true]
            · rw [if_neg h, Bool.eq_false_of_not_eq_true h, Bool.or_false]
          dsimp only
          split <;> exact hadopt

theorem recoverTicker_driftDetected (ticker : Ticker) (s : RecoveryState) :
    (env.recoverTicker s ticker).driftDetected = (s.driftDetected || env.driftAt ticker) :=
  (env.foldl_handleOrder_driftDetected ticker _ _).trans (env.recoverPosition_driftDetected ticker s)

theorem foldl_driftDetected (ts : List Ticker) (s : RecoveryState) :
    (ts.foldl env.recoverTicker s).driftDetected = (s.driftDetected || ts.any env.driftAt) := by
  induction ts generalizing s with
  | nil => exact (Bool.or_false _).symm
  | cons t ts ih =>
      rw [List.foldl_cons, ih, recoverTicker_driftDetected, List.any_cons, Bool.or_assoc]

/-- Without a trade or a position the ticker is not looked at. -/
theorem driftAt_of_not_mem (ticker : Ticker) (h : ticker ∉ env.tickers) :
    env.driftAt ticker = false := by
  rw [tickers, List.mem_insertionSort, List.mem_dedup, List.mem_append, not_or] at h
  have hp : env.position? ticker = none := by
    refine List.find?_eq_none.2 (fun p hp hfound => h.2 ?_)
    rw [Bool.and_eq_true, decide_eq_true_eq] at hfound
    exact List.mem_map.2 ⟨p, hp, hfound.1⟩
  have ht : env.trade? ticker = none := by
    refine List.find?_eq_none.2 (fun t ht hfound => h.1 ?_)
    exact List.mem_map.2 ⟨t, ht, of_decide_eq_true hfound⟩
  rw [driftAt, hp, ht]

theorem autoAck_iff :
    env.run.autoAck = true ↔
      env.cfg.autoAckOnClean = true ∧ ∀ ticker, env.driftAt ticker = false := by
  have hdrift : (env.tickers.foldl env.recoverTicker env.start).driftDetected
      = env.tickers.any env.driftAt := env.foldl_driftDetected env.tickers env.start
  have hrun : env.run.autoAck = (env.cfg.autoAckOnClean && !env.tickers.any env.driftAt) := by
    rw [← hdrift]
    rfl
  rw [hrun, Bool.and_eq_true, Bool.not_eq_true', List.any_eq_false]
  refine and_congr_right (fun _ => ⟨fun h ticker => ?_, fun h ticker _ => by simp [h ticker]⟩)
  by_cases hin : ticker ∈ env.tickers
  · exact Bool.eq_false_of_not_eq_true (h ticker hin)
  · exact env.driftAt_of_not_mem ticker hin

/-! ## Trades and positions -/

/-- A persisted trade is the position: the same ticker, side and size. -/
def Matches (t : ActiveTrade) (p : ServerPosition) : Prop :=
  t.plan.ticker = p.ticker ∧ t.plan.side = p.side ∧
    |(|p.size| - t.plan.sizeCoin)| ≤ env.cfg.positionDriftCoin

/-- The persisted trades and the non-flat positions are the same, one to one. -/
def Corresponds : Prop :=
  Multiset.Rel env.Matches (env.activeTrades : Multiset ActiveTrade)
    (env.positions.filter (fun p => decide (p.size ≠ 0)) : Multiset ServerPosition)

/-- The persisted trades of a ticker. -/
def tradesOf (ticker : Ticker) : List ActiveTrade :=
  env.activeTrades.filter (fun t => decide (t.plan.ticker = ticker))

/-- The ticker's non-flat positions. -/
def positionsOf (ticker : Ticker) : List ServerPosition :=
  (env.positions.filter (fun p => decide (p.size ≠ 0))).filter (fun p => decide (p.ticker = ticker))

theorem corresponds_iff :
    env.Corresponds ↔ ∀ ticker, Multiset.Rel env.Matches
      (env.tradesOf ticker : Multiset ActiveTrade) (env.positionsOf ticker) :=
  multisetRel_iff_filter (fun _ _ h => h.1) _ _

/-- What is left to ask of a ticker without drift: no position below the threshold stands alone, a
    trade with one position has its side and a recorded size, and several of them correspond. -/
def Agrees (ticker : Ticker) : Prop :=
  match env.tradesOf ticker, env.positionsOf ticker with
  | [], ps => ps = []
  | [t], [p] => t.plan.side = p.side ∧ 0 < t.plan.sizeCoin
  | ts, ps => Multiset.Rel env.Matches (ts : Multiset ActiveTrade) ps

theorem mem_positionsOf {ticker : Ticker} {p : ServerPosition} :
    p ∈ env.positionsOf ticker ↔ p ∈ env.positions ∧ p.size ≠ 0 ∧ p.ticker = ticker := by
  simp [positionsOf, and_comm]

/-- A trade and a position of one ticker that the check lets pass. -/
theorem position?_of_driftAt {ticker : Ticker} {t : ActiveTrade} {ts : List ActiveTrade}
    (hdrift : env.driftAt ticker = false) (ht : env.tradesOf ticker = t :: ts) :
    ∃ p ∈ env.positions, p.ticker = ticker ∧ env.cfg.positionDriftCoin < |p.size| ∧
      env.sizeDrift t p = false := by
  have htrade : env.trade? ticker = some t := by
    rw [trade?, ← List.head?_filter]
    exact (congrArg List.head? ht).trans rfl
  unfold driftAt at hdrift
  rw [htrade] at hdrift
  cases hp : env.position? ticker with
  | none =>
      rw [hp] at hdrift
      cases hdrift
  | some p =>
      rw [hp] at hdrift
      have hfound := List.find?_some hp
      rw [Bool.and_eq_true, decide_eq_true_eq, decide_eq_true_eq] at hfound
      exact ⟨p, List.mem_of_find?_eq_some hp, hfound.1, hfound.2, hdrift⟩

/-- Without drift, a single trade has the size of a single position if it has a recorded size. -/
theorem matches_single {ticker : Ticker} {t : ActiveTrade} {p : ServerPosition}
    (hdrift : env.driftAt ticker = false) (ht : env.tradesOf ticker = [t])
    (hp : env.positionsOf ticker = [p]) :
    env.Matches t p ↔ t.plan.side = p.side ∧ 0 < t.plan.sizeCoin := by
  obtain ⟨p', hin, hticker, hbig, hsize⟩ := env.position?_of_driftAt hdrift ht
  have htin : t ∈ env.tradesOf ticker := ht ▸ List.mem_singleton.2 rfl
  have htticker : t.plan.ticker = ticker := of_decide_eq_true (List.mem_filter.1 htin).2
  have hpticker : p.ticker = ticker :=
    (env.mem_positionsOf.1 (hp ▸ List.mem_singleton.2 rfl)).2.2
  -- A negative threshold matches nothing, and the check sees every recorded size.
  rcases lt_or_ge env.cfg.positionDriftCoin 0 with hneg | hpos
  · have hclose : ∀ x : ℚ, ¬ |x| ≤ env.cfg.positionDriftCoin :=
      fun x hx => absurd (abs_nonneg x) (not_le.2 (lt_of_le_of_lt hx hneg))
    refine iff_of_false (fun h => hclose _ h.2.2) (fun h => ?_)
    rw [sizeDrift, decide_eq_true h.2, Bool.true_and, decide_eq_false_iff_not, not_lt] at hsize
    exact hclose _ hsize
  · have hsame : p' = p := by
      have hflat : p'.size ≠ 0 := abs_pos.1 (lt_of_le_of_lt hpos hbig)
      have hmem := env.mem_positionsOf.2 ⟨hin, hflat, hticker⟩
      rw [hp] at hmem
      exact List.mem_singleton.1 hmem
    subst hsame
    constructor
    · rintro ⟨_, hside, hclose⟩
      refine ⟨hside, lt_of_not_ge (fun hzero => ?_)⟩
      have habs : |p'.size| ≤ |(|p'.size| - t.plan.sizeCoin)| :=
        (le_sub_self_iff _).2 hzero |>.trans (le_abs_self _)
      exact absurd (habs.trans hclose) (not_le.2 hbig)
    · rintro ⟨hside, hrecorded⟩
      refine ⟨htticker.trans hpticker.symm, hside, ?_⟩
      rw [sizeDrift, decide_eq_true hrecorded, Bool.true_and, decide_eq_false_iff_not,
        not_lt] at hsize
      exact hsize

theorem agrees_iff {ticker : Ticker} (hdrift : env.driftAt ticker = false) :
    Multiset.Rel env.Matches (env.tradesOf ticker : Multiset ActiveTrade) (env.positionsOf ticker) ↔
      env.Agrees ticker := by
  unfold Agrees
  split
  · next ht => rw [ht, Multiset.coe_nil, Multiset.rel_zero_left, Multiset.coe_eq_zero]
  · next t p ht hp => rw [ht, hp, multisetRel_singleton, env.matches_single hdrift ht hp]
  · exact Iff.rfl

/-- An acknowledged recovery has the trades and positions correspond exactly if, where the check sees
    no drift, the tickers agree in what it does not look at. -/
theorem autoAck_sound_iff :
    (env.run.autoAck = true → env.Corresponds) ↔
      (env.cfg.autoAckOnClean = true → (∀ ticker, env.driftAt ticker = false) →
        ∀ ticker, env.Agrees ticker) := by
  rw [autoAck_iff, corresponds_iff, and_imp]
  refine forall_congr' (fun _ => forall_congr' (fun hdrift => ?_))
  exact forall_congr' (fun ticker => env.agrees_iff (hdrift ticker))

end

/-- A long trade was persisted, and the exchange has a short position of the same size. -/
def oppositeSides : StartupRecovery where
  persisted := some [{ plan := { ticker := "A", side := .buy, sizeCoin := 1 } }]
  positions := [{ ticker := "A", side := .sell, size := 1 }]
  placeOrder := fun _ => .error ""
  ids_nodup := by decide
  ids_ne_zero := by decide

theorem autoAck_oppositeSides : oppositeSides.run.autoAck = true ∧ ¬ oppositeSides.Corresponds := by
  refine ⟨by decide +kernel, fun h => ?_⟩
  have hmatches := multisetRel_singleton.1 h
  exact absurd hmatches.2.1 (by decide)

end StartupRecovery

end TradeBot
