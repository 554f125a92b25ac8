import TradeBot.Executor.Snapshot
import TradeBot.Executor.Outcomes

set_option autoImplicit false

/-! # The kill switch and the executor

The executor part of `handle_kill_switch_` (`app/BotAppRun.cpp`): cancel all orders ticker by ticker,
then close the positions at market. `cancel_all` leaves the trades of a ticker in `Cancelling`, and
`close_trade` only closes trades in `Open`: a position is closed exactly if its ticker's orders were
not cancelled (`killSwitch_flattens_iff`). The deadline of the sequence is left out.

Step 2 is one pass over the trades of each controller's ticker, so a trade has at most one turn in it
(`afterCancel_move`). Step 3 asks the executor for positions, which step 2 has not changed on the
other tickers (`hasPosition_after`). Step 4 closes what is open on the tickers that it finds there.

Together they say of each open position whether its market close is sent (`closeIsSent_iff`). Whether
all of them are is then a condition on the state before the sequence. -/

namespace TradeBot

open LiveExecutor

/-- A size below `1e-9` counts as no position. -/
def PositionUpdate.isFlat (pos : PositionUpdate) : Bool := decide (|pos.size| < 1 / 1000000000)

/-- The positions of the executor's own model, to fall back on. -/
def openPositions (ex : LiveExecutor) : List PositionUpdate :=
  (ex.getActiveTrades.filter (fun t => decide (t.state = .opened ∧ 0 < t.executedSize))).map
    (fun t => { ticker := t.plan.ticker, size := t.executedSize })

/-- Step 2: cancel all orders of the controllers' tickers. A ticker whose cancel throws is logged. -/
def cancelOrders (env : Env) (controllers : List Ticker) (ex : LiveExecutor) : LiveExecutor :=
  controllers.foldl (fun ex ticker => (ex.cancelAll env ticker).1) ex

/-- Step 4: close the positions that are not flat. -/
def closePositions (env : Env) (positions : List PositionUpdate) (ex : LiveExecutor) :
    LiveExecutor :=
  positions.foldl (fun ex pos =>
    if pos.isFlat then ex else ex.closeTrade env pos.ticker "KillSwitch") ex

/-- Steps 2 to 4, with the positions `fetched` from the exchange in step 3, or `none` if they could
    not be had. Step 5 closes positions again that are still reported; `fetched` may repeat them. -/
def handleKillSwitch (env : Env) (controllers : List Ticker) (fetched : Option (List PositionUpdate))
    (ex : LiveExecutor) : LiveExecutor :=
  let ex := cancelOrders env controllers ex
  closePositions env (fetched.getD (openPositions ex)) ex

/-- From `ex` to `ex'` the market close of the trade was sent. -/
def CloseIsSent (t : ActiveTrade) (ex ex' : LiveExecutor) : Prop :=
  ∃ evs res, ex'.trace = ex.trace ++ evs ∧ .placed t.uid t.marketClose res ∈ evs

/-- The ticker has a position that is not flat. -/
def HasPosition (ticker : Ticker) (positions : List PositionUpdate) : Prop :=
  ∃ pos ∈ positions, pos.ticker = ticker ∧ pos.isFlat = false

section

variable {ex ex' ex'' : LiveExecutor} {env : Env} {t t' : ActiveTrade}

/-! ## Step 2 -/

theorem Silent.trans {u : ℕ} {m m' m'' : Members} (h : Silent u m m') (h' : Silent u m' m'') :
    Silent u m m'' := by
  obtain ⟨evs, htr, hno⟩ := h
  obtain ⟨evs', htr', hno'⟩ := h'
  exact ⟨evs ++ evs', by rw [htr', htr, List.append_assoc], noneOf_append.2 ⟨hno, hno'⟩⟩

/-- What step 2 leaves of a trade: those of the controllers' tickers are cancelling. -/
structure AfterCancel (controllers : List Ticker) (t t' : ActiveTrade) : Prop where
  uid : t'.uid = t.uid
  ticker : t'.plan.ticker = t.plan.ticker
  cancelled : t.plan.ticker ∈ controllers → t.state ≠ .closed → t'.state = .cancelling
  spared : t.plan.ticker ∉ controllers → t' = t

theorem AfterCancel.cons {ticker : Ticker} {controllers : List Ticker} {t'' : ActiveTrade}
    (h : AfterCancel [ticker] t t') (h' : AfterCancel controllers t' t'') :
    AfterCancel (ticker :: controllers) t t'' where
  uid := h'.uid.trans h.uid
  ticker := h'.ticker.trans h.ticker
  cancelled := fun hin hst => by
    by_cases hhead : t.plan.ticker = ticker
    · have hcancelled := h.cancelled (List.mem_singleton.2 hhead) hst
      by_cases htail : t'.plan.ticker ∈ controllers
      · exact h'.cancelled htail (by simp [hcancelled])
      · rw [h'.spared htail]
        exact hcancelled
    · obtain rfl := h.spared (fun hmem => hhead (List.mem_singleton.1 hmem))
      exact h'.cancelled ((List.mem_cons.1 hin).resolve_left hhead) hst
  spared := fun hno => by
    rw [List.mem_cons, not_or] at hno
    obtain rfl := h.spared (fun hmem => hno.1 (List.mem_singleton.1 hmem))
    exact h'.spared hno.2

/-- One turn of `cancel_all`'s loop, between events of other trades. -/
theorem afterCancel_move {m m' : Members} (ticker : Ticker)
    (h : tradeFrame.Move (TickerTurn ticker cancelTrade) (t, m) (t', m')) :
    AfterCancel [ticker] t t' ∧ Silent t.uid m m' := by
  obtain ⟨s₁, s₂, hpre, hturn, hpost⟩ := h
  rcases hturn with ⟨hticker, heq⟩ | ⟨hticker, heq⟩
  · obtain ⟨rfl, rfl⟩ := Prod.mk.inj heq
    have hkeeps := cancelTrade_keeps s₁ t
    have hsame : (cancelTrade s₁ t).1.trace = s₁.trace := by
      unfold cancelTrade
      split
      · rfl
      · dsimp only
        split <;> rfl
    refine ⟨⟨hkeeps.uid, by rw [hkeeps.plan], fun _ hst => ?_, fun hno => ?_⟩,
      (hpre.silent.trans (.of_trace_eq hsame)).trans hpost.silent⟩
    · simp [cancelTrade, hst]
    · exact absurd (List.mem_singleton.2 hticker) hno
  · obtain ⟨rfl, rfl⟩ := Prod.mk.inj heq
    exact ⟨⟨rfl, rfl, fun hin => absurd (List.mem_singleton.1 hin) hticker, fun _ => rfl⟩,
      hpre.silent.trans hpost.silent⟩

/-- Step 2 as a whole. -/
structure Cancels (controllers : List Ticker) (ex ex' : LiveExecutor) : Prop where
  wf : ex'.WF
  snapshot : SnapshotCurrent ex → SnapshotCurrent ex'
  forth : ∀ t ∈ ex.allTrades, ∃ t' ∈ ex'.allTrades, AfterCancel controllers t t' ∧
    Silent t.uid ex.toMembers ex'.toMembers
  back : ∀ t' ∈ ex'.allTrades, ∃ t ∈ ex.allTrades, AfterCancel controllers t t'

theorem cancels (hwf : ex.WF) (henv : env.NeverThrows) (controllers : List Ticker) :
    Cancels controllers ex (cancelOrders env controllers ex) := by
  have refl : ∀ t : ActiveTrade, AfterCancel [] t t := fun t =>
    ⟨rfl, rfl, fun hin => absurd hin List.not_mem_nil, fun _ => rfl⟩
  induction controllers generalizing ex with
  | nil => exact ⟨hwf, id, fun t ht => ⟨t, ht, refl t, .of_trace_eq rfl⟩, fun t ht => ⟨t, ht, refl t⟩⟩
  | cons ticker controllers ih =>
      have hpass := cancelAll_exact hwf.toKeyed (henv.cancelAllOrders ex.trace.length ticker)
      have hrest := ih (hwf.step (.cancelAll env ticker))
      refine ⟨hrest.wf, fun h => hrest.snapshot (h.step (.cancelAll env ticker)), ?_, ?_⟩
      · intro t ht
        obtain ⟨t₁, ht₁, hmove⟩ := hpass.move_of_mem ht
        obtain ⟨hone, hsilent⟩ := afterCancel_move ticker hmove
        obtain ⟨t', ht', hmany, hsilent'⟩ := hrest.forth t₁ ht₁
        exact ⟨t', ht', hone.cons hmany, hsilent.trans (hone.uid ▸ hsilent')⟩
      · intro t' ht'
        obtain ⟨t₁, ht₁, hmany⟩ := hrest.back t' ht'
        obtain ⟨t, ht, hmove⟩ := hpass.of_mem ht₁
        exact ⟨t, ht, (afterCancel_move ticker hmove).1.cons hmany⟩

/-! ## Step 4 -/

/-- `close_trade` leaves a trade alone that is on another ticker or not open. -/
theorem closeTrade_spares (env : Env) (hwf : ex.WF) (ht : t ∈ ex.allTrades) (ticker : Ticker)
    (reason : String)
    (hno : t.plan.ticker = ticker → t.state = .opened → ¬ 0 < t.executedSize) :
    t ∈ (ex.closeTrade env ticker reason).allTrades ∧
      Silent t.uid ex.toMembers (ex.closeTrade env ticker reason).toMembers := by
  obtain ⟨t', ht', s₁, s₂, hpre, hturn, hpost⟩ :=
    (closeTrade_exact hwf.toKeyed env ticker reason).move_of_mem ht
  have hrest : (t', s₂) = (t, s₁) := by
    rcases hturn with ⟨hticker, heq⟩ | ⟨_, heq⟩
    · rw [heq, closeTradeTurn, if_neg (fun h => hno hticker h.1 h.2)]
    · exact heq
  obtain ⟨rfl, rfl⟩ := Prod.mk.inj hrest
  exact ⟨ht', hpre.silent.trans hpost.silent⟩

theorem closePositions_flat {pos : PositionUpdate} (positions : List PositionUpdate)
    (h : pos.isFlat = true) :
    closePositions env (pos :: positions) ex = closePositions env positions ex := by
  simp only [closePositions, List.foldl_cons, h, if_true]

theorem closePositions_cons {pos : PositionUpdate} (positions : List PositionUpdate)
    (h : pos.isFlat = false) :
    closePositions env (pos :: positions) ex
      = closePositions env positions (ex.closeTrade env pos.ticker "KillSwitch") := by
  simp only [closePositions, List.foldl_cons, h, Bool.false_eq_true, if_false]

/-- Nothing is sent for a trade that is not open, or whose ticker has no position. -/
theorem closePositions_silent (hwf : ex.WF) (ht : t ∈ ex.allTrades) (positions : List PositionUpdate)
    (hno : t.state = .opened → 0 < t.executedSize → ¬ HasPosition t.plan.ticker positions) :
    Silent t.uid ex.toMembers (closePositions env positions ex).toMembers := by
  induction positions generalizing ex with
  | nil => exact .of_trace_eq rfl
  | cons pos positions ih =>
      have hno' : t.state = .opened → 0 < t.executedSize → ¬ HasPosition t.plan.ticker positions :=
        fun hst hexec ⟨p, hp, hpos⟩ => hno hst hexec ⟨p, List.mem_cons_of_mem _ hp, hpos⟩
      cases hflat : pos.isFlat with
      | true =>
          rw [closePositions_flat _ hflat]
          exact ih hwf ht hno'
      | false =>
          obtain ⟨ht', hsilent⟩ := closeTrade_spares env hwf ht pos.ticker "KillSwitch"
            (fun hticker hst hexec => hno hst hexec
              ⟨pos, List.mem_cons_self .., hticker.symm, hflat⟩)
          rw [closePositions_cons _ hflat]
          exact hsilent.trans (ih (hwf.step (.closeTrade env pos.ticker "KillSwitch")) ht' hno')

theorem closePositions_grows (env : Env) (hwf : ex.WF) (positions : List PositionUpdate) :
    ∃ evs, (closePositions env positions ex).trace = ex.trace ++ evs := by
  induction positions generalizing ex with
  | nil => exact ⟨[], (List.append_nil _).symm⟩
  | cons pos positions ih =>
      cases hflat : pos.isFlat with
      | true =>
          rw [closePositions_flat _ hflat]
          exact ih hwf
      | false =>
          obtain ⟨evs, hg⟩ := (closeTrade_exact hwf.toKeyed env pos.ticker "KillSwitch").grows
          obtain ⟨evs', htr⟩ := ih (hwf.step (.closeTrade env pos.ticker "KillSwitch"))
          rw [closePositions_cons _ hflat]
          exact ⟨evs ++ evs', htr.trans ((congrArg (· ++ evs') hg.trace).trans
            (List.append_assoc ..))⟩

/-- The market close of an open trade is sent when its ticker has a position. -/
theorem closePositions_sends (env : Env) (hwf : ex.WF) (ht : t ∈ ex.allTrades)
    (hst : t.state = .opened) (hexec : 0 < t.executedSize) {positions : List PositionUpdate}
    (hpos : HasPosition t.plan.ticker positions) :
    CloseIsSent t ex (closePositions env positions ex) := by
  induction positions generalizing ex with
  | nil =>
      obtain ⟨_, hmem, _⟩ := hpos
      simp at hmem
  | cons pos positions ih =>
      cases hflat : pos.isFlat with
      | true =>
          -- a flat position is passed over
          rw [closePositions_flat _ hflat]
          refine ih hwf ht ?_
          obtain ⟨p, hp, hticker, hp'⟩ := hpos
          rcases List.mem_cons.1 hp with rfl | hp
          · simp [hflat] at hp'
          · exact ⟨p, hp, hticker, hp'⟩
      | false =>
          rw [closePositions_cons _ hflat]
          have hwf' : (ex.closeTrade env pos.ticker "KillSwitch").WF :=
            hwf.step (.closeTrade env pos.ticker "KillSwitch")
          by_cases hticker : t.plan.ticker = pos.ticker
          · -- this is the position of the ticker
            obtain ⟨evs, res, htr, hmem⟩ :=
              closeTrade_sends hwf.toKeyed ht hst hexec env "KillSwitch"
            obtain ⟨evs', htr'⟩ := closePositions_grows env hwf' positions
            rw [hticker] at htr
            exact ⟨evs ++ evs', res, by rw [htr', htr, List.append_assoc],
              List.mem_append_left _ hmem⟩
          · -- the close of another ticker spares the trade
            obtain ⟨ht', evs, htr, _⟩ := closeTrade_spares env hwf ht pos.ticker
              "KillSwitch" (fun h => absurd h hticker)
            obtain ⟨p, hp, hpticker, hp'⟩ := hpos
            have hp : p ∈ positions := (List.mem_cons.1 hp).resolve_left
              (fun h => hticker (by rw [← hpticker, h]))
            obtain ⟨evs', res, htr', hmem⟩ := ih hwf' ht' ⟨p, hp, hpticker, hp'⟩
            exact ⟨evs ++ evs', res, by rw [htr', htr, List.append_assoc],
              List.mem_append_right _ hmem⟩

/-! ## The positions to close -/

/-- On a ticker that step 2 leaves alone, step 3 finds the positions that were there before. -/
theorem hasPosition_after {controllers : List Ticker} (h : Cancels controllers ex ex')
    (hsnap : SnapshotCurrent ex) {ticker : Ticker} (hno : ticker ∉ controllers) :
    HasPosition ticker (openPositions ex') ↔ HasPosition ticker (openPositions ex) := by
  have shown : ∀ {ex : LiveExecutor}, SnapshotCurrent ex → (HasPosition ticker (openPositions ex) ↔
      ∃ t ∈ ex.allTrades, t.plan.ticker = ticker ∧ t.state = .opened ∧ 0 < t.executedSize ∧
        PositionUpdate.isFlat { ticker := t.plan.ticker, size := t.executedSize } = false) := by
    intro ex hsnap
    refine Iff.trans ?_ (hsnap.exists_iff (fun t => t.plan.ticker = ticker ∧ t.state = .opened ∧
      0 < t.executedSize ∧
        PositionUpdate.isFlat { ticker := t.plan.ticker, size := t.executedSize } = false))
    simp only [HasPosition, openPositions, List.mem_map, List.mem_filter, decide_eq_true_eq]
    constructor
    · rintro ⟨_, ⟨t, ⟨ht, hst, hexec⟩, rfl⟩, hticker, hflat⟩
      exact ⟨t, ht, hticker, hst, hexec, hflat⟩
    · rintro ⟨t, ht, hticker, hst, hexec, hflat⟩
      exact ⟨_, ⟨t, ⟨ht, hst, hexec⟩, rfl⟩, hticker, hflat⟩
  rw [shown hsnap, shown (h.snapshot hsnap)]
  constructor
  · rintro ⟨t', ht', hticker, hrest⟩
    obtain ⟨t, ht, hafter⟩ := h.back t' ht'
    obtain rfl := hafter.spared (by rw [← hafter.ticker, hticker]; exact hno)
    exact ⟨t', ht, hticker, hrest⟩
  · rintro ⟨t, ht, hticker, hrest⟩
    obtain ⟨t', ht', hafter, _⟩ := h.forth t ht
    obtain rfl := hafter.spared (by rw [hticker]; exact hno)
    exact ⟨t', ht', hticker, hrest⟩

/-- The market close of an open trade is sent if its ticker's orders were not cancelled first, and the
    ticker has a position. -/
theorem closeIsSent_iff (hex : ex.Reachable) (henv : env.NeverThrows) (controllers : List Ticker)
    (fetched : Option (List PositionUpdate)) (ht : t ∈ ex.allTrades) (hst : t.state = .opened)
    (hexec : 0 < t.executedSize) :
    CloseIsSent t ex (handleKillSwitch env controllers fetched ex) ↔
      t.plan.ticker ∉ controllers ∧
        HasPosition t.plan.ticker (fetched.getD (openPositions ex)) := by
  have hcancels := cancels hex.wf henv controllers
  set ex' := cancelOrders env controllers ex with hex'
  have hpositions : t.plan.ticker ∉ controllers →
      (HasPosition t.plan.ticker (fetched.getD (openPositions ex')) ↔
        HasPosition t.plan.ticker (fetched.getD (openPositions ex))) := by
    intro hno
    cases fetched with
    | some ps => rfl
    | none => exact hasPosition_after hcancels hex.snapshotCurrent hno
  obtain ⟨t', ht', hafter, hsilent⟩ := hcancels.forth t ht
  constructor
  · intro hsent
    by_contra hnot
    -- otherwise nothing at all happens to the trade in steps 2 and 4
    have hquiet : Silent t'.uid ex'.toMembers
        (handleKillSwitch env controllers fetched ex).toMembers := by
      refine closePositions_silent hcancels.wf ht' _ (fun hst' hexec' hpos => hnot ?_)
      have hno : t.plan.ticker ∉ controllers := fun hin => by
        simp [hafter.cancelled hin (by simp [hst])] at hst'
      exact ⟨hno, (hpositions hno).1 (hafter.ticker ▸ hpos)⟩
    obtain ⟨evs, htr, hno⟩ := hsilent.trans (hafter.uid ▸ hquiet)
    obtain ⟨evs', res, htr', hmem⟩ := hsent
    obtain rfl : evs = evs' := List.append_cancel_left (htr.symm.trans htr')
    exact hno _ hmem rfl
  · rintro ⟨hno, hpos⟩
    obtain rfl := hafter.spared hno
    obtain ⟨evs, htr, _⟩ := hsilent
    obtain ⟨evs', res, htr', hmem⟩ := closePositions_sends env hcancels.wf ht' hst hexec
      ((hpositions hno).2 hpos)
    exact ⟨evs ++ evs', res, by rw [handleKillSwitch, htr', htr, List.append_assoc],
      List.mem_append_right _ hmem⟩

end

/-! ## The results -/

/-- Let the kill switch run in any reachable state, with a gateway that never throws. The market close
    of every open position is sent if and only if no open position's ticker is among those whose
    orders are cancelled first, and each has a position to close. -/
theorem killSwitch_flattens_iff (ex : LiveExecutor) (hex : ex.Reachable) (env : Env)
    (henv : env.NeverThrows) (controllers : List Ticker) (fetched : Option (List PositionUpdate)) :
    (∀ t ∈ ex.allTrades, t.state = .opened → 0 < t.executedSize →
        CloseIsSent t ex (handleKillSwitch env controllers fetched ex)) ↔
      ∀ t ∈ ex.allTrades, t.state = .opened → 0 < t.executedSize →
        t.plan.ticker ∉ controllers ∧
          HasPosition t.plan.ticker (fetched.getD (openPositions ex)) :=
  forall₂_congr (fun _ ht => forall₂_congr (fun hst hexec =>
    closeIsSent_iff hex henv controllers fetched ht hst hexec))

/-- Without controllers nothing is cancelled first. -/
theorem killSwitch_flattens_iff_uncontrolled :
    (∀ t ∈ openedRun.allTrades, t.state = .opened → 0 < t.executedSize →
        CloseIsSent t openedRun (handleKillSwitch .accepting [] none openedRun)) ↔
      ∀ t ∈ openedRun.allTrades, t.state = .opened → 0 < t.executedSize →
        t.plan.ticker ∉ [] ∧ HasPosition t.plan.ticker (openPositions openedRun) :=
  killSwitch_flattens_iff openedRun ⟨{}, _, rfl⟩ .accepting Env.accepting_neverThrows [] none

/-- The ticker of the one open position has a controller: its orders are cancelled, its stop
    included, and its position is left open. -/
theorem killSwitch_leaves_position :
    ¬ ∀ ex : LiveExecutor, ex.Reachable → ∀ env, env.NeverThrows → ∀ controllers fetched,
        (∀ t ∈ ex.allTrades, t.plan.ticker ∈ controllers) →
        (∀ t ∈ ex.allTrades, t.state = .opened → 0 < t.executedSize →
          HasPosition t.plan.ticker fetched) →
        ∀ t ∈ ex.allTrades, t.state = .opened → 0 < t.executedSize →
          CloseIsSent t ex (handleKillSwitch env controllers (some fetched) ex) := by
  intro hall
  have hmem : openedTrade ∈ openedRun.allTrades := by decide +kernel
  have hsent := hall openedRun ⟨{}, _, rfl⟩ .accepting Env.accepting_neverThrows
    ["BTC_USDT"] [{ ticker := "BTC_USDT", side := .buy, size := 1 }] (by decide +kernel)
    (fun t ht _ _ => ⟨_, List.mem_singleton_self _, by revert t; decide +kernel, by decide +kernel⟩)
    openedTrade hmem rfl (by decide +kernel)
  exact ((closeIsSent_iff ⟨{}, _, rfl⟩ Env.accepting_neverThrows _ _ hmem rfl
    (by decide +kernel)).1 hsent).1 (List.mem_singleton_self _)

end TradeBot
