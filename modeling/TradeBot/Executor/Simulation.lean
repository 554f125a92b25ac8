import Mathlib.Data.Fintype.EquivFin
import TradeBot.Executor.Lifecycle

set_option autoImplicit false

/-! # The executor simulates the lives of its trades

Each operation that keeps the set of trades makes every trade take exactly one `TradeTurn`. For the
loops over one ticker this is the library's pass over one bucket; `tick` is several passes, and the
work here is to see that no trade takes a turn in two of them.

A tick is the hardest: phases 1 and 2 are one pass, in which a trade is marked and its close is sent,
and the loop over the tickers is one pass for each of them. A trade is on one ticker, so it takes a
turn in one pass of the loop at most (`TickersTurn.comp`), and a trade that was marked is neither
open nor unknown any more, so it takes none. -/

namespace TradeBot

open KeyedPass LiveExecutor

/-- The trades have different uids and sit under their own ticker. -/
structure Keyed (ex : LiveExecutor) : Prop where
  nodup : (ex.allTrades.map ActiveTrade.uid).Nodup
  keyed : BucketMap.WellKeyed (fun t : ActiveTrade => t.plan.ticker) ex.trades

/-- From `ex` to `ex'` every trade takes one turn. -/
structure Passes (turn : ActiveTrade × Members → ActiveTrade × Members → Prop)
    (ex ex' : LiveExecutor) : Prop where
  refines : Refines tradeFrame turn ex.toMembers ex.allTrades ex'.toMembers ex'.allTrades
  keyed : BucketMap.WellKeyed (fun t : ActiveTrade => t.plan.ticker) ex'.trades

section Passes

variable {turn turn₁ turn₂ turn₃ : ActiveTrade × Members → ActiveTrade × Members → Prop}
  {ex ex' ex'' : LiveExecutor}

theorem Passes.after (h : Passes turn ex ex') (hex : Keyed ex) : Keyed ex' where
  nodup := by
    have hkeys : ex'.allTrades.map ActiveTrade.uid = ex.allTrades.map ActiveTrade.uid :=
      h.refines.keys
    rw [hkeys]
    exact hex.nodup
  keyed := h.keyed

theorem Passes.mono (himp : ∀ x y, turn₁ x y → turn₂ x y) (h : Passes turn₁ ex ex') :
    Passes turn₂ ex ex' := ⟨h.refines.mono himp, h.keyed⟩

theorem Passes.seq (hs : tradeFrame.Sound turn₁) (h₁ : Passes turn₁ ex ex')
    (h₂ : Passes turn₂ ex' ex'')
    (hcomp : ∀ {t t' t'' s₁ s₂ s₃ s₄}, turn₁ (t, s₁) (t', s₂) → Foreign t.uid s₂ s₃ →
      turn₂ (t', s₃) (t'', s₄) → tradeFrame.Move turn₃ (t, s₁) (t'', s₄)) :
    Passes turn₃ ex ex'' := ⟨h₁.refines.seq hs h₂.refines hcomp, h₂.keyed⟩

theorem Passes.rest (hrest : ∀ x, turn x x) (hex : Keyed ex) : Passes turn ex ex :=
  ⟨.rest (fun _ _ => hrest _), hex.keyed⟩

/-- What a pass does to one trade. -/
theorem Passes.move_of_mem (h : Passes turn ex ex') {t : ActiveTrade} (ht : t ∈ ex.allTrades) :
    ∃ t' ∈ ex'.allTrades, tradeFrame.Move turn (t, ex.toMembers) (t', ex'.toMembers) := by
  obtain ⟨i, hi, rfl⟩ := List.mem_iff_getElem.1 ht
  have hlen := h.refines.moves.length_eq
  have hi' : i < ex'.allTrades.length := by omega
  exact ⟨_, List.getElem_mem hi', h.refines.moves.get hi hi'⟩

/-- Where a trade comes from. -/
theorem Passes.of_mem (h : Passes turn ex ex') {t' : ActiveTrade} (ht' : t' ∈ ex'.allTrades) :
    ∃ t ∈ ex.allTrades, tradeFrame.Move turn (t, ex.toMembers) (t', ex'.toMembers) := by
  obtain ⟨i, hi, rfl⟩ := List.mem_iff_getElem.1 ht'
  have hlen := h.refines.moves.length_eq
  have hi' : i < ex.allTrades.length := by omega
  exact ⟨_, List.getElem_mem hi', h.refines.moves.get hi' hi⟩

/-- A pass only appends to the trace. -/
theorem Passes.grows (h : Passes turn ex ex') : ∃ evs, Grows evs ex.toMembers ex'.toMembers := by
  obtain ⟨u, hu⟩ := Infinite.exists_notMem_finset (ex.allTrades.map ActiveTrade.uid).toFinset
  obtain ⟨evs, hg, _⟩ := h.refines.foreign u (fun hin => hu (List.mem_toFinset.2 hin))
  exact ⟨evs, hg⟩

/-- A change of the members that concerns no trade. -/
theorem Passes.precede {m : Members} (hm : ∀ u, Foreign u ex.toMembers m)
    (h : Passes turn { ex with toMembers := m } ex') : Passes turn ex ex' :=
  ⟨h.refines.precede hm, h.keyed⟩

/-- The turn `f` for the trades of one ticker, and none for the others. -/
def TickerTurn (ticker : Ticker) (f : Members → ActiveTrade → Members × ActiveTrade)
    (x y : ActiveTrade × Members) : Prop :=
  (x.1.plan.ticker = ticker ∧ y = ((f x.2 x.1).2, (f x.2 x.1).1)) ∨
    (x.1.plan.ticker ≠ ticker ∧ y = x)

/-- The loop over the trades of one ticker. -/
theorem passes_forKey (f : Members → ActiveTrade → Members × ActiveTrade) (ticker : Ticker)
    (hf : ∀ m t, Keeps t m (f m t)) (hex : Keyed ex) :
    Passes (TickerTurn ticker f) ex
      (ex.ofPass (ex.trades.forKey ticker (mapAccum f) ex.toMembers)) where
  refines := by
    have hs : tradeFrame.Sound (TickerTurn ticker f) := by
      refine sound_of_keeps (fun {t t' m m'} h => ?_)
      rcases h with ⟨_, heq⟩ | ⟨_, heq⟩
      · obtain ⟨rfl, rfl⟩ := Prod.mk.inj heq
        exact hf m t
      · obtain ⟨rfl, rfl⟩ := Prod.mk.inj heq
        exact ⟨rfl, rfl, [], .refl ..⟩
    refine BucketMap.refines_forKey hex.keyed hex.nodup (fun t m ht => Or.inr ⟨ht, rfl⟩)
      (fun l hl hnd => refines_mapAccum hs _ l (fun m t ht => Or.inl ⟨?_, rfl⟩) hnd)
    exact (hex.keyed.mem_find?.1 ⟨l, hl, ht⟩).2
  keyed := by
    refine hex.keyed.of_sameKeys (BucketMap.sameKeys_forKey (fun m l t' ht' => ?_) _ _)
    obtain ⟨m', t, ht, rfl⟩ := mem_mapAccum ht'
    exact ⟨t, ht, by rw [(hf m' t).plan]⟩

end Passes

/-! ## Operations that are one loop over a ticker -/

theorem foreign_emit {m : Members} {e : Event} (hown : e.owner = none)
    (hrec : recordsIn [e] = []) (u : ℕ) : Foreign u m (m.emit e) :=
  ⟨[e], ⟨rfl, by rw [hrec]; simp [Members.emit], rfl, rfl, rfl⟩, by simp [NoneOf, hown]⟩

theorem rest_tradeTurn (ex : LiveExecutor) (op : Op) (x : ActiveTrade × Members) :
    TradeTurn ex op x x := .rest

variable {ex : LiveExecutor}

theorem onPositionUpdate_passes (hex : Keyed ex) (upd : PositionUpdate) :
    Passes (TradeTurn ex (.onPositionUpdate upd)) ex (ex.onPositionUpdate upd) := by
  have h := passes_forKey (applyPositionUpdate upd) upd.ticker (applyPositionUpdate_keeps upd) hex
  refine Passes.mono ?_ ⟨h.refines, h.keyed⟩
  rintro ⟨t, m⟩ y (⟨hticker, rfl⟩ | ⟨_, rfl⟩)
  · exact .position hticker
  · exact .rest

theorem closeTradeTurn_keeps (env : Env) (reason : String) (m : Members) (t : ActiveTrade) :
    Keeps t m (closeTradeTurn env reason m t) := by
  unfold closeTradeTurn
  split
  · exact closeAndRecord_keeps env reason m t
  · exact ⟨rfl, rfl, [], .refl ..⟩

/-- `close_trade` runs its loop body on every trade of the ticker. -/
theorem closeTrade_exact (hex : Keyed ex) (env : Env) (ticker : Ticker) (reason : String) :
    Passes (TickerTurn ticker (closeTradeTurn env reason)) ex (ex.closeTrade env ticker reason) := by
  have h := passes_forKey (closeTradeTurn env reason) ticker (closeTradeTurn_keeps env reason) hex
  exact ⟨h.refines, h.keyed⟩

/-- `close_trade` sends the market close of an open trade. -/
theorem closeTrade_sends (hex : Keyed ex) {t : ActiveTrade} (hmem : t ∈ ex.allTrades)
    (hst : t.state = .opened) (hexec : 0 < t.executedSize) (env : Env) (reason : String) :
    ∃ evs res, (ex.closeTrade env t.plan.ticker reason).trace = ex.trace ++ evs ∧
      .placed t.uid t.marketClose res ∈ evs := by
  obtain ⟨t', _, s₁, s₂, ⟨evs₁, hg₁, _⟩, hturn, ⟨evs₂, hg₂, _⟩⟩ :=
    (closeTrade_exact hex env t.plan.ticker reason).move_of_mem hmem
  rcases hturn with ⟨_, heq⟩ | ⟨hne, _⟩
  · obtain ⟨pre, res, heff, _⟩ := closeAndRecord_effect env reason s₁ t
    have hs₂ : s₂ = (closeAndRecord env reason s₁ t).1 := by
      have := congrArg Prod.snd heq
      simpa [closeTradeTurn, hst, hexec] using this
    refine ⟨evs₁ ++ (pre ++ [.placed t.uid t.marketClose res,
      .recorded t.uid (emergencyRecord s₁ t reason)]) ++ evs₂, res, ?_, by simp⟩
    rw [hg₂.trace, hs₂, heff.trace, hg₁.trace]
    simp only [List.append_assoc]
  · exact absurd rfl hne

theorem closeTrade_passes (hex : Keyed ex) (env : Env) (ticker : Ticker) (reason : String) :
    Passes (TradeTurn ex (.closeTrade env ticker reason)) ex (ex.closeTrade env ticker reason) := by
  refine (closeTrade_exact hex env ticker reason).mono ?_
  rintro ⟨t, m⟩ y (⟨hticker, rfl⟩ | ⟨_, rfl⟩)
  · unfold closeTradeTurn
    split
    · next h => exact .close hticker h.1 h.2
    · exact .rest
  · exact .rest

/-- `cancel_all` runs its loop body on every trade of the ticker, if the gateway does not throw. -/
theorem cancelAll_exact (hex : Keyed ex) {env : Env} {ticker : Ticker}
    (hok : env.cancelAllOrders ex.trace.length ticker = .ok ()) :
    Passes (TickerTurn ticker cancelTrade) ex (ex.cancelAll env ticker).1 := by
  refine Passes.precede (foreign_emit (e := .cancelledAll ticker (.ok ())) rfl rfl) ?_
  have hex' : Keyed { ex with toMembers := ex.emit (.cancelledAll ticker (.ok ())) } :=
    ⟨hex.nodup, hex.keyed⟩
  have h := passes_forKey cancelTrade ticker cancelTrade_keeps hex'
  unfold cancelAll
  rw [hok]
  exact ⟨h.refines, h.keyed⟩

theorem cancelAll_passes (hex : Keyed ex) (env : Env) (ticker : Ticker) :
    Passes (TradeTurn ex (.cancelAll env ticker)) ex (ex.cancelAll env ticker).1 := by
  cases hres : env.cancelAllOrders ex.trace.length ticker with
  | ok _ =>
      refine (cancelAll_exact hex hres).mono ?_
      rintro ⟨t, m⟩ y (⟨hticker, rfl⟩ | ⟨_, rfl⟩)
      · exact .cancel hticker hres
      · exact .rest
  | error e =>
      refine Passes.precede (foreign_emit (e := .cancelledAll ticker (.error e)) rfl rfl) ?_
      unfold cancelAll
      rw [hres]
      exact .rest (rest_tradeTurn _ _) ⟨hex.nodup, hex.keyed⟩

/-- The first trade of the ticker's bucket that selects an update is the one it is routed to. -/
theorem route_of_split {upd : OrderUpdate} {l pre post : List ActiveTrade} {t : ActiveTrade}
    {om : OrderMatch} (hl : ex.trades.find? upd.ticker = some l) (hsplit : l = pre ++ t :: post)
    (hpre : ∀ x ∈ pre, selectTrade upd x = none) (hsel : selectTrade upd t = some om) :
    ex.route upd = some (t, om) := by
  have hnone : pre.findSome? (fun t => (selectTrade upd t).map (fun om => (t, om))) = none :=
    List.findSome?_eq_none_iff.2 (fun x hx => by rw [hpre x hx]; rfl)
  simp [route, hl, hsplit, List.findSome?_append, hnone, hsel]

/-- The trade an update is routed to is replaced by what the handler makes of it; nothing else
    changes. -/
theorem onOrderUpdate_of_route (hex : Keyed ex) (env : Env) {upd : OrderUpdate} {t : ActiveTrade}
    {om : OrderMatch} (h : ex.route upd = some (t, om)) :
    selectTrade upd t = some om ∧ t.plan.ticker = upd.ticker ∧
      (ex.onOrderUpdate env upd).toMembers
        = (applyOrderUpdate env upd (ex.emit (.reported upd)) t om).1 ∧
      ∃ pre post, ex.allTrades = pre ++ t :: post ∧ (ex.onOrderUpdate env upd).allTrades
        = pre ++ (applyOrderUpdate env upd (ex.emit (.reported upd)) t om).2 :: post := by
  obtain ⟨l, hl, hfirst⟩ := Option.bind_eq_some_iff.1 h
  obtain ⟨before, x, after, hsplit, hx, hnone⟩ := List.findSome?_eq_some_iff.1 hfirst
  obtain ⟨om', hsel, heq⟩ := Option.map_eq_some_iff.1 hx
  obtain ⟨rfl, rfl⟩ := Prod.mk.inj heq
  have hbefore : ∀ y ∈ before, selectTrade upd y = none := fun y hy =>
    Option.map_eq_none_iff.1 (hnone y hy)
  have hmem : x ∈ l := by simp [hsplit]
  refine ⟨hsel, (hex.keyed.mem_find?.1 ⟨l, hl, hmem⟩).2, ?_⟩
  obtain ⟨pre, post, hvalues, hstate, hpost⟩ := BucketMap.forKey_of_find? hl
    (fun m ts => (updateFirst? (selectTrade upd) (applyOrderUpdate env upd) m ts).getD (m, ts))
    (ex.emit (.reported upd))
  rw [hsplit, updateFirst?_append _ _ hbefore hsel, Option.getD_some] at hstate hpost
  refine ⟨hstate, pre ++ before, after ++ post, ?_, ?_⟩
  · rw [allTrades, hvalues, hsplit]
    simp
  · refine Eq.trans hpost ?_
    simp

theorem mem_of_route (hex : Keyed ex) {upd : OrderUpdate} {t : ActiveTrade}
    {om : OrderMatch} (h : ex.route upd = some (t, om)) : t ∈ ex.allTrades := by
  obtain ⟨_, _, _, pre, post, hall, _⟩ := onOrderUpdate_of_route hex .accepting h
  simp [hall]

theorem onOrderUpdate_passes (hex : Keyed ex) (env : Env) (upd : OrderUpdate) :
    Passes (TradeTurn ex (.onOrderUpdate env upd)) ex (ex.onOrderUpdate env upd) := by
  have hemit := fun u => foreign_emit (m := ex.toMembers) (e := .reported upd) rfl rfl u
  refine Passes.precede hemit ?_
  unfold onOrderUpdate
  dsimp only
  constructor
  · refine BucketMap.refines_forKey hex.keyed hex.nodup (fun _ _ _ => .rest) (fun l hl hnd => ?_)
    cases hr : updateFirst? (selectTrade upd) (applyOrderUpdate env upd)
      (ex.emit (.reported upd)) l with
    | none => exact .rest (fun _ _ => .rest)
    | some r =>
        refine refines_updateFirst? hr (sound_tradeTurn _ _) (rest_tradeTurn _ _) ?_ hnd
        intro pre t post om hsplit hpre hsel
        exact .update (route_of_split hl hsplit hpre hsel) hsel (by simp)
  · refine hex.keyed.of_sameKeys (BucketMap.sameKeys_forKey (fun m l t' ht' => ?_) _ _)
    cases hr : updateFirst? (selectTrade upd) (applyOrderUpdate env upd) m l with
    | none => rw [hr] at ht'; exact ⟨t', ht', rfl⟩
    | some r =>
        rw [hr] at ht'
        obtain ⟨pre, t, post, om, rfl, _, hsel, rfl⟩ := updateFirst?_eq_some hr
        have hplan := (applyOrderUpdate_keeps env upd m t (selectTrade_eq_some hsel).2.2.2).plan
        rcases List.mem_append.1 ht' with h | h
        · exact ⟨t', List.mem_append_left _ h, rfl⟩
        · rcases List.mem_cons.1 h with rfl | h
          · exact ⟨t, by simp, by rw [hplan]⟩
          · exact ⟨t', List.mem_append_right _ (List.mem_cons_of_mem _ h), rfl⟩

/-! ## The timer -/

/-- What phases 1 and 2 of `tick` do to a trade. -/
inductive CollectTurn (m₀ : Members) (env : Env) (now : TimePoint) :
    ActiveTrade × Members → ActiveTrade × Members → Prop
  | spared {t : ActiveTrade} {m : Members} (hact : closeAction? m₀ now t = none) :
      CollectTurn m₀ env now (t, m) (t, m)
  | emergency {act : CloseAction} {t : ActiveTrade} {m : Members}
      (hact : closeAction? m₀ now t = some act) :
      CollectTurn m₀ env now (t, m) (t.markClosing, execCloseAction env m act)

/-- What `tick`'s loop over the tickers `ks` does to a trade. -/
inductive TickersTurn (env : Env) (now : TimePoint) (ks : List Ticker) :
    ActiveTrade × Members → ActiveTrade × Members → Prop
  | rest {t : ActiveTrade} {m : Members} : TickersTurn env now ks (t, m) (t, m)
  | rearm {t : ActiveTrade} {m : Members} (hticker : t.plan.ticker ∈ ks)
      (hdue : rearmDue now t = true) :
      TickersTurn env now ks (t, m) ((placeStops env m t).2, (placeStops env m t).1)
  | reconciled {res : ReconcileResult} {t : ActiveTrade} {m : Members}
      (hst : t.state = .submitUnknown) (hout : res.outcome ≠ .pending) :
      TickersTurn env now ks (t, m)
        ((applyReconciled res m t ()).2, (applyReconciled res m t ()).1)

theorem rearmDue_opened {now : TimePoint} {t : ActiveTrade} (h : rearmDue now t = true) :
    t.state = .opened := by
  simp only [rearmDue, Bool.and_eq_true, decide_eq_true_eq] at h
  exact h.1.1

theorem placeStops_state (env : Env) (m : Members) (t : ActiveTrade) :
    (placeStops env m t).2.state = t.state := by
  obtain ⟨evs, i, j, _, _, ht⟩ := placeStops_effect env m t
  rw [ht]
  rfl

/-- Reconciliation takes a trade out of `SubmitUnknown`, and not into `Open`. -/
theorem applyReconciled_state {res : ReconcileResult} (hout : res.outcome ≠ .pending)
    (m : Members) (t : ActiveTrade) :
    (applyReconciled res m t ()).2.state = .pendingEntry ∨
      (applyReconciled res m t ()).2.state = .closed := by
  unfold applyReconciled
  split
  · next h => exact absurd h hout
  · exact Or.inl rfl
  · exact Or.inr rfl

section Tick

variable {m₀ : Members} {env : Env} {now : TimePoint} {ks ks' : List Ticker}

theorem sound_collectTurn : tradeFrame.Sound (CollectTurn m₀ env now) := by
  refine sound_of_keeps (fun {t t' m m'} h => ?_)
  cases h with
  | spared hact => exact ⟨rfl, rfl, [], .refl ..⟩
  | emergency hact => exact execCloseAction_keeps hact

theorem sound_tickersTurn : tradeFrame.Sound (TickersTurn env now ks) := by
  refine sound_of_keeps (fun {t t' m m'} h => ?_)
  cases h with
  | rest => exact ⟨rfl, rfl, [], .refl ..⟩
  | rearm hticker hdue => exact placeStops_keeps env m t
  | reconciled hst hout => exact applyReconciled_keeps _ m t

theorem rest_tickersTurn (x : ActiveTrade × Members) : TickersTurn env now ks x x := .rest

theorem TickersTurn.mono (hsub : ∀ k ∈ ks, k ∈ ks') {x y : ActiveTrade × Members}
    (h : TickersTurn env now ks x y) : TickersTurn env now ks' x y := by
  cases h with
  | rest => exact .rest
  | rearm hticker hdue => exact .rearm (hsub _ hticker) hdue
  | reconciled hst hout => exact .reconciled hst hout

/-- After a re-arm or a reconciliation nothing is left to do for the trade on other tickers. -/
theorem TickersTurn.comp (hdis : ∀ k ∈ ks, k ∉ ks') {t t' t'' : ActiveTrade}
    {s₁ s₂ s₃ s₄ : Members} (h₁ : TickersTurn env now ks (t, s₁) (t', s₂))
    (hmid : Foreign t.uid s₂ s₃) (h₂ : TickersTurn env now ks' (t', s₃) (t'', s₄)) :
    tradeFrame.Move (TickersTurn env now (ks ++ ks')) (t, s₁) (t'', s₄) := by
  have h₁' : TickersTurn env now (ks ++ ks') (t, s₁) (t', s₂) :=
    h₁.mono (fun k hk => List.mem_append_left _ hk)
  have h₂' : TickersTurn env now (ks ++ ks') (t', s₃) (t'', s₄) :=
    h₂.mono (fun k hk => List.mem_append_right _ hk)
  cases h₁ with
  | rest => exact (Frame.Move.of_turn h₂').precede hmid
  | rearm hticker hdue =>
      cases h₂ with
      | rest => exact (Frame.Move.of_turn h₁').follow hmid
      | rearm hticker' _ =>
          rw [(placeStops_keeps env s₁ t).plan] at hticker'
          exact absurd hticker' (hdis _ hticker)
      | reconciled hst _ =>
          rw [placeStops_state, rearmDue_opened hdue] at hst
          exact absurd hst (by simp)
  | @reconciled res _ _ hst hout =>
      cases h₂ with
      | rest => exact (Frame.Move.of_turn h₁').follow hmid
      | rearm _ hdue =>
          rcases applyReconciled_state hout s₁ t with h | h <;>
            exact absurd (h.symm.trans (rearmDue_opened hdue)) (by simp)
      | reconciled hst' _ =>
          rcases applyReconciled_state hout s₁ t with h | h <;>
            exact absurd (h.symm.trans hst') (by simp)

theorem handleReconciled_passes (hex : Keyed ex) (res : ReconcileResult) :
    Passes (TickersTurn env now []) ex (ex.handleReconciled res) := by
  unfold handleReconciled
  split
  · exact .rest rest_tickersTurn hex
  next hout =>
  split
  · exact .rest rest_tickersTurn hex
  next intent _ =>
  cases hr : ex.trades.updateFirst? (selectUnknown intent) (applyReconciled res) ex.toMembers with
  | none => exact ⟨.rest (fun _ _ => .rest), hex.keyed⟩
  | some r =>
      refine ⟨BucketMap.refines_updateFirst? hr sound_tickersTurn rest_tickersTurn ?_ hex.nodup, ?_⟩
      · intro t _ b hsel
        refine .reconciled ?_ hout
        unfold selectUnknown at hsel
        split at hsel
        next h => exact h.1
        · simp at hsel
      · exact hex.keyed.of_sameKeys (BucketMap.sameKeys_updateFirst?
          (fun m t _ _ => by rw [(applyReconciled_keeps res m t).plan]) hr)

theorem handleReconciled_foldl_passes (hex : Keyed ex) (results : List ReconcileResult) :
    Passes (TickersTurn env now []) ex (results.foldl handleReconciled ex) := by
  induction results generalizing ex with
  | nil => exact .rest rest_tickersTurn hex
  | cons res rest ih =>
      have hd : Passes (TickersTurn env now []) ex (ex.handleReconciled res) :=
        handleReconciled_passes hex res
      exact hd.seq sound_tickersTurn (ih (hd.after hex))
        (fun h₁ hmid h₂ => TickersTurn.comp (by simp) h₁ hmid h₂)

theorem foreign_pollOpenOrders (env : Env) (ticker : Ticker) (now : TimePoint) (m : Members)
    (u : ℕ) :
    Foreign u m (pollOpenOrders env ticker now m).1 := by
  unfold pollOpenOrders
  dsimp only
  split
  · exact .refl u m
  · have h := foreign_emit (m := m) (e := .fetched (toInternalTicker ticker)) rfl rfl u
    obtain ⟨evs, hg, hno⟩ := h
    exact ⟨evs, ⟨hg.trace, hg.closedTrades, hg.cfg, hg.nextUid, hg.markPrices⟩, hno⟩

theorem rearmTurn_keeps (env : Env) (now : TimePoint) (m : Members) (t : ActiveTrade) :
    Keeps t m (rearmTurn env now m t) := by
  unfold rearmTurn
  split
  · exact placeStops_keeps env m t
  · exact ⟨rfl, rfl, [], .refl ..⟩

/-- A ticker with an intent is polled, -/
theorem tickTicker_of_pending {ticker : Ticker} (h : ex.reconciliator.hasPending ticker = true) :
    ex.tickTicker env now ticker
      = (pollOpenOrders env ticker now ex.toMembers).2.foldl handleReconciled
        { ex with toMembers := (pollOpenOrders env ticker now ex.toMembers).1 } := by
  unfold tickTicker
  exact if_pos h

/-- and the stops of any other ticker are rearmed. -/
theorem tickTicker_of_idle {ticker : Ticker} (h : ¬ ex.reconciliator.hasPending ticker = true) :
    ex.tickTicker env now ticker = rebuildActiveSnapshot
      (ex.ofPass (ex.trades.forKey ticker (mapAccum (rearmTurn env now)) ex.toMembers)) := by
  unfold tickTicker
  exact if_neg h

theorem tickTicker_passes (hex : Keyed ex) (ticker : Ticker) :
    Passes (TickersTurn env now [ticker]) ex (ex.tickTicker env now ticker) := by
  by_cases hpending : ex.reconciliator.hasPending ticker = true
  · rw [tickTicker_of_pending hpending]
    refine Passes.precede (foreign_pollOpenOrders env ticker now ex.toMembers) ?_
    have hex' : Keyed { ex with toMembers := (pollOpenOrders env ticker now ex.toMembers).1 } :=
      ⟨hex.nodup, hex.keyed⟩
    exact (handleReconciled_foldl_passes hex' _).mono (fun x y h => h.mono (by simp))
  · rw [tickTicker_of_idle hpending]
    have h := passes_forKey (rearmTurn env now) ticker (rearmTurn_keeps env now) hex
    refine Passes.mono ?_ ⟨h.refines, h.keyed⟩
    rintro ⟨t, m⟩ y (⟨hticker, rfl⟩ | ⟨_, rfl⟩)
    · unfold rearmTurn
      split
      · next hdue => exact .rearm (by simpa using hticker) hdue
      · exact .rest
    · exact .rest

/-- The loop over different tickers gives each trade at most one turn. -/
theorem tickTicker_foldl_passes (hex : Keyed ex) (hnd : ks.Nodup) :
    Passes (TickersTurn env now ks) ex (ks.foldl (tickTicker env now) ex) := by
  induction ks generalizing ex with
  | nil => exact .rest rest_tickersTurn hex
  | cons k ks ih =>
      obtain ⟨hk, hnd⟩ := List.nodup_cons.1 hnd
      have hd : Passes (TickersTurn env now [k]) ex (ex.tickTicker env now k) :=
        tickTicker_passes hex k
      exact hd.seq sound_tickersTurn (ih (hd.after hex) hnd)
        (fun h₁ hmid h₂ => TickersTurn.comp (by simpa using hk) h₁ hmid h₂)

theorem closeAction?_expire (m : Members) (now' : TimePoint) (t : ActiveTrade) :
    closeAction? (expireReservation now m) now' t = closeAction? m now' t := by
  unfold expireReservation
  split <;> rfl

theorem foreign_expire (now : TimePoint) (m : Members) (u : ℕ) :
    Foreign u m (expireReservation now m) := by
  unfold expireReservation
  split
  · exact ⟨[], ⟨by simp, by simp, rfl, rfl, rfl⟩, by simp [NoneOf]⟩
  · exact .refl u m

/-- Phases 1 and 2 of `tick` for one trade. -/
def collectAndClose (env : Env) (m₀ : Members) (now : TimePoint) (m : Members) (t : ActiveTrade) :
    Members × ActiveTrade :=
  match closeAction? m₀ now t with
  | some act => (execCloseAction env m act, t.markClosing)
  | none => (m, t)

/-- Phases 1 and 2 together are one pass: a trade is marked and its action performed. -/
theorem tickClose_collect_passes (hex : Keyed ex) :
    Passes (CollectTurn ex.toMembers env now) ex
      (tickClose env (tickCollect now ex).2 (tickCollect now ex).1) := by
  refine Passes.precede (foreign_expire now ex.toMembers) ?_
  constructor
  · set m := expireReservation now ex.toMembers with hm
    have hact : ∀ t, closeAction? m now t = closeAction? ex.toMembers now t :=
      fun t => by rw [hm, closeAction?_expire]
    have hpass : Refines tradeFrame (CollectTurn ex.toMembers env now) m ex.allTrades
        (mapAccum (collectAndClose env m now) m ex.allTrades).1
        (mapAccum (collectAndClose env m now) m ex.allTrades).2 := by
      refine refines_mapAccum sound_collectTurn _ _ (fun s t _ => ?_) hex.nodup
      unfold collectAndClose
      split
      · next act h => exact .emergency (by rw [← hact, h])
      · next h => exact .spared (by rw [← hact, h])
    have hsplit : mapAccum (collectAndClose env m now) m ex.allTrades
        = ((ex.allTrades.filterMap (closeAction? m now)).foldl (execCloseAction env) m,
          ex.allTrades.map
            (fun t => if (closeAction? m now t).isSome then t.markClosing else t)) := by
      refine mapAccum_eq_foldl_filterMap (fun s t act h => ?_) (fun s t h => ?_) m ex.allTrades
      · simp [collectAndClose, h]
      · simp [collectAndClose, h]
    rw [hsplit] at hpass
    simpa only [tickClose, tickCollect, rebuildActiveSnapshot, allTrades,
      BucketMap.values_mapValues] using hpass
  · refine hex.keyed.of_sameKeys (BucketMap.sameKeys_mapValues (fun t => ?_) ex.trades)
    split <;> rfl

theorem tick_passes (hex : Keyed ex) (env : Env) (now : TimePoint) :
    Passes (TradeTurn ex (.tick env now)) ex (ex.tick env now) := by
  have hcollect : Passes (CollectTurn ex.toMembers env now) ex
    (tickClose env (tickCollect now ex).2 (tickCollect now ex).1) := tickClose_collect_passes hex
  have hnd : (ex.trades.map Prod.fst).Nodup :=
    (List.pairwise_map.2 hex.keyed.sorted).imp (fun h => ne_of_lt h)
  have htickers : Passes (TickersTurn env now (ex.trades.map Prod.fst)) _ (ex.tick env now) :=
    tickTicker_foldl_passes (hcollect.after hex) hnd
  refine hcollect.seq sound_collectTurn htickers ?_
  intro t t' t'' s₁ s₂ s₃ s₄ h₁ hmid h₂
  cases h₁ with
  | spared hact =>
      refine Frame.Move.precede hmid (.of_turn ?_)
      cases h₂ with
      | rest => exact .rest
      | rearm _ hdue => exact .rearm hact hdue
      | reconciled hst hout => exact .reconciled hst hout
  | emergency hact =>
      cases h₂ with
      | rest => exact (Frame.Move.of_turn (.emergency hact)).follow hmid
      | rearm _ hdue => exact absurd (rearmDue_opened hdue) (by simp [ActiveTrade.markClosing])
      | reconciled hst _ => exact absurd hst (by simp [ActiveTrade.markClosing])

end Tick

end TradeBot
