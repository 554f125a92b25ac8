import TradeBot.Lib.Json
import TradeBot.Lib.LastWrite
import TradeBot.Risk.StateFile

set_option autoImplicit false

/-! # Recovering the state

`AccountStatePersister::load` of `risk/AccountStatePersister.cpp` reads what `save` has written. Some
fields are not in the file: `forget` gives them the values that they have after a restart. The JSON
library is a parameter; it may keep the fields of an object in another order than `save` lists them.

Reading does not look at the order of fields, which is why the library may change it (`Json.Same`).
The numbers of the source have widths, and `Fits` is that they are kept; a state of the program
always fits. Of a run of calls only the last `save` that replaced the file counts. -/

namespace TradeBot

open Json

/-! ## What a restart forgets -/

/-- A value of a signed integer type. -/
def FitsInt (bits : ℕ) (n : ℤ) : Prop := -2 ^ (bits - 1) ≤ n ∧ n < 2 ^ (bits - 1)

theorem integer?_int {bits : ℕ} {n : ℤ} (h : FitsInt bits n) (hbits : 0 < bits) (hle : bits ≤ 64) :
    (Json.int n).integer? bits = some n := by
  have hpow : (2 : ℤ) ^ (bits - 1) ≤ 2 ^ 63 := pow_le_pow_right₀ (by decide) (by omega)
  have hin : -2 ^ 63 ≤ n ∧ n < 2 ^ 64 := by
    obtain ⟨hlow, hhigh⟩ := h
    constructor <;> omega
  rw [Json.integer?, if_pos hin, bmod_of_mem hbits h.1 h.2]

theorem int32?_int {n : ℤ} (h : FitsInt 32 n) : (Json.int n).int32? = some n :=
  integer?_int h (by decide) (by decide)

/-- The integers of a payload are `int`s. -/
structure SignalPayload.Fits (p : SignalPayload) : Prop where
  touches : FitsInt 32 p.touches
  prints : FitsInt 32 p.prints
  ageMs : FitsInt 32 p.ageMs
  refillEvents : FitsInt 32 p.refillEvents

/-- What is not in the file of a payload. -/
def SignalPayload.forget (p : SignalPayload) : SignalPayload := { p with speedBps := 0, approachType := "" }

theorem SignalPayload.fromJson_toJson (p : SignalPayload) (h : p.Fits) :
    fromJson p.toJson = some p.forget := by
  simp [toJson, fromJson, forget, Json.value?_obj, Json.find?_cons, Json.string?, Json.double?, Json.bool?,
    int32?_int h.touches, int32?_int h.prints, int32?_int h.ageMs, int32?_int h.refillEvents]

/-- What is not in the file of a signal. -/
def Signal.forget (s : Signal) : Signal :=
  { s with timestamp := 0, triggerTraceId := 0, payload := s.payload.forget }

theorem Signal.fromJson_toJson (s : Signal) (h : s.payload.Fits) : fromJson s.toJson = some s.forget :=
  fromJson_obj (enumOf?_signalKind s.kind) (s.payload.fromJson_toJson h) s.ticker s.price s.confidence

theorem mapM_fromJson_toJson {α : Type} (toJson : α → Json) (fromJson : Json → Option α) (forget : α → α)
    {as : List α} (h : ∀ a ∈ as, fromJson (toJson a) = some (forget a)) :
    (as.map toJson).mapM fromJson = some (as.map forget) := by
  induction as with
  | nil => rfl
  | cons a as ih =>
      rw [List.map_cons, List.mapM_cons, h a (List.mem_cons_self ..),
        ih fun b hb => h b (List.mem_cons_of_mem _ hb)]
      rfl

/-- The numbers of a plan are those of the types of the source. -/
structure StrategyPlan.Fits (p : StrategyPlan) : Prop where
  evidence : ∀ s ∈ p.evidence, s.payload.Fits
  approachCount : FitsInt 32 p.approachCount
  traceId : p.traceId < 2 ^ 64

/-- What is not in the file of a plan. -/
def StrategyPlan.forget (p : StrategyPlan) : StrategyPlan :=
  { p with evidence := p.evidence.map Signal.forget, validUntil := 0, frameAtEntry := {} }

theorem traceId_int {n : ℕ} (h : n < 2 ^ 64) :
    ((Json.int n).integer? 64).map (fun m => (m % 2 ^ 64).toNat) = some n := by
  have hin : -2 ^ 63 ≤ (n : ℤ) ∧ (n : ℤ) < 2 ^ 64 := by omega
  rw [Json.integer?, if_pos hin, Option.map_some]
  have hmod : ((n : ℤ).bmod (2 ^ 64)) % 2 ^ 64 = n := by
    have := Int.bmod_emod (x := (n : ℤ)) (m := 2 ^ 64)
    omega
  rw [hmod, Int.toNat_natCast]

theorem StrategyPlan.fromJson_fields_eq (p : StrategyPlan) {side type tp2 : Json} {js : List Json}
    {evidence : List Signal} (hside : enumOf? Side.all side = some p.side)
    (htype : enumOf? OrderType.all type = some p.entryType)
    (htp2 : optionalFromJson (some tp2) = some p.tp2Price)
    (hevidence : js.mapM Signal.fromJson = some evidence)
    (happroach : (Json.int p.approachCount).int32? = some p.approachCount)
    (htrace : ((Json.int p.traceId).integer? 64).map (fun n => (n % 2 ^ 64).toNat) = some p.traceId) :
    fromJson (.obj (p.fields side type tp2 (.arr js)))
      = some { p with evidence := evidence, validUntil := 0, frameAtEntry := {} } := by
  simp only [fromJson, fields, Json.find?_cons, Json.value?_obj, Json.string?, Json.double?, Json.array?,
    hside, htype, htp2, hevidence, happroach, htrace, ↓reduceIte, String.reduceEq, Option.pure_def,
    Option.bind_eq_bind, Option.bind_some, Option.elim_some]

theorem StrategyPlan.fromJson_toJson_eq (p : StrategyPlan) (h : p.Fits) :
    fromJson p.toJson = some p.forget :=
  p.fromJson_fields_eq (enumOf?_side p.side) (enumOf?_orderType p.entryType)
    (optionalFromJson_toJson p.tp2Price)
    (mapM_fromJson_toJson _ _ _ fun s hs => s.fromJson_toJson (h.evidence s hs))
    (int32?_int h.approachCount) (traceId_int h.traceId)

namespace PersistedTrade

/-- The numbers of a trade are those of the types of the source. -/
structure Fits (t : PersistedTrade) : Prop where
  plan : t.plan.Fits
  entryOrderId : FitsInt 64 t.trade.entryOrderId
  stopOrderId : FitsInt 64 t.trade.stopOrderId
  tp1OrderId : FitsInt 64 t.trade.tp1OrderId
  tp2OrderId : FitsInt 64 t.trade.tp2OrderId

/-- A trade after a restart. -/
def forget (t : PersistedTrade) : PersistedTrade where
  trade := { t.trade with entryClientOrderId := "", openedAt := 0, unrealizedPnl := 0, uid := 0 }
  plan := t.plan.forget
  plan_eq := t.plan_eq

theorem fromJson_fields_eq (t : PersistedTrade) {plan state : Json}
    (hplan : StrategyPlan.fromJson plan = some t.plan.forget)
    (hstate : enumOf? TradeState.all state = some t.trade.state)
    (hentry : (Json.int t.trade.entryOrderId).integer? 64 = some t.trade.entryOrderId)
    (hstop : (Json.int t.trade.stopOrderId).integer? 64 = some t.trade.stopOrderId)
    (htp1 : (Json.int t.trade.tp1OrderId).integer? 64 = some t.trade.tp1OrderId)
    (htp2 : (Json.int t.trade.tp2OrderId).integer? 64 = some t.trade.tp2OrderId) :
    fromJson (.obj (fields t.trade plan state)) = some t.forget := by
  obtain ⟨trade, p, hp⟩ := t
  obtain ⟨tradePlan, _, _, _, _, _, _, _, _, _, _, _, _, _⟩ := trade
  obtain rfl : p.toTradePlan = tradePlan := hp
  simp only [fromJson, fields, Json.find?_cons, Json.value?_obj, Json.double?, Json.bool?, hplan, hstate,
    hentry, hstop, htp1, htp2, ↓reduceIte, String.reduceEq, Option.pure_def, Option.bind_eq_bind,
    Option.bind_some, Option.elim_some]
  rfl

theorem fromJson_toJson_eq (t : PersistedTrade) (h : t.Fits) : fromJson t.toJson = some t.forget :=
  t.fromJson_fields_eq (t.plan.fromJson_toJson_eq h.plan) (enumOf?_tradeState t.trade.state)
    (integer?_int h.entryOrderId (by decide) le_rfl) (integer?_int h.stopOrderId (by decide) le_rfl)
    (integer?_int h.tp1OrderId (by decide) le_rfl) (integer?_int h.tp2OrderId (by decide) le_rfl)

end PersistedTrade

/-! ## The whole state -/

/-- `from_json(const json&, AccountState&)`. -/
def PersistedAccount.fromJson (j : Json) : Option PersistedAccount := do
  return {
    state :=
      { equityUsd := ← (← j.find? "equity_usd").double?
        startingEquityUsd := ← (← j.find? "starting_equity_usd").double?
        realizedPnlTodayUsd := ← (← j.find? "realized_pnl_today_usd").double?
        unrealizedPnlUsd := ← (← j.find? "unrealized_pnl_usd").double?
        freeBalanceUsd := ← (← j.find? "free_balance_usd").double?
        activePositions := ← (← j.find? "active_positions").int32?
        activeTickers := ← (← (← j.find? "active_tickers").array?).mapM Json.string?
        killSwitchTriggered := ← (← j.find? "kill_switch_triggered").bool? }
    finresDayStartResultUsd := ← (← j.find? "finres_day_start_result_usd").double? }

/-- The mark price is not in the file. -/
def PersistedAccount.forget (a : PersistedAccount) : PersistedAccount :=
  { a with state := { a.state with markPrice := 0 } }

theorem PersistedAccount.fromJson_toJson (a : PersistedAccount) (h : FitsInt 32 a.state.activePositions) :
    fromJson a.toJson = some a.forget := by
  have htickers : (a.state.activeTickers.map Json.str).mapM Json.string? = some a.state.activeTickers := by
    have hread : (a.state.activeTickers.map Json.str).mapM Json.string?
        = some (a.state.activeTickers.map id) :=
      mapM_fromJson_toJson _ _ _ fun _ _ => rfl
    rwa [List.map_id] at hread
  simp [fromJson, toJson, forget, Json.find?_cons, Json.double?, Json.array?, Json.bool?, htickers,
    int32?_int h]

namespace PersistedData

/-- `load`, from the value that the state file holds. A schema version other than 1 is refused. -/
def fromJson (j : Json) : Option PersistedData := do
  let version ← j.value? "schema_version" Json.int32? 0
  guard (version = 1)
  return {
    lastResetDayUtc := ← j.value? "last_reset_day_utc" Json.string? ""
    accountState := ← PersistedAccount.fromJson (← j.find? "account_state")
    activeTrades := ← (← (← j.find? "active_trades").array?).mapM PersistedTrade.fromJson
    killSwitchTriggered := ← j.value? "kill_switch_triggered" Json.bool? false
    killSwitchReason := ← j.value? "kill_switch_reason" Json.string? "" }

/-- The numbers of the whole state are those of the types of the source. -/
structure Fits (data : PersistedData) : Prop where
  activePositions : FitsInt 32 data.accountState.state.activePositions
  activeTrades : ∀ t ∈ data.activeTrades, t.Fits

/-- The whole state after a restart. -/
def forget (data : PersistedData) : PersistedData :=
  { data with
    accountState := data.accountState.forget
    activeTrades := data.activeTrades.map PersistedTrade.forget }

theorem fromJson_fields (data : PersistedData) {now : TimePoint} {account : Json} {trades : List Json}
    (haccount : PersistedAccount.fromJson account = some data.accountState.forget)
    (htrades : trades.mapM PersistedTrade.fromJson = some (data.activeTrades.map PersistedTrade.forget)) :
    fromJson (.obj
        [("schema_version", .int 1), ("last_persist_ts_utc", .int (now.tdiv nsPerSec)),
          ("last_reset_day_utc", .str data.lastResetDayUtc), ("account_state", account),
          ("active_trades", .arr trades), ("kill_switch_triggered", .bool data.killSwitchTriggered),
          ("kill_switch_reason", .str data.killSwitchReason)]) = some data.forget := by
  have hversion : (Json.int 1).int32? = some 1 := int32?_int ⟨by decide, by decide⟩
  simp only [fromJson, Json.find?_cons, Json.value?_obj, Json.string?, Json.bool?, Json.array?, hversion,
    haccount, htrades, guard, ↓reduceIte, String.reduceEq, Option.pure_def, Option.bind_eq_bind,
    Option.bind_some, Option.elim_some]
  rfl

theorem fromJson_toJson (data : PersistedData) (h : data.Fits) (now : TimePoint) :
    fromJson (data.toJson now) = some data.forget :=
  data.fromJson_fields (data.accountState.fromJson_toJson h.activePositions)
    (mapM_fromJson_toJson _ _ _ fun t ht => t.fromJson_toJson_eq (h.activeTrades t ht))

end PersistedData

/-! ## The order of the fields -/

section

variable {j j' : Json}

theorem SignalPayload.fromJson_congr (h : Same j j') : fromJson j = fromJson j' := by
  have hstring (key : String) (d : String) := h.value? key d fun _ _ hv => hv.string?
  have hdouble (key : String) (d : ℚ) := h.value? key d fun _ _ hv => hv.double?
  have hint (key : String) (d : ℤ) := h.value? key d fun _ _ hv => hv.int32?
  have hbool (key : String) (d : Bool) := h.value? key d fun _ _ hv => hv.bool?
  simp only [fromJson, hstring, hdouble, hint, hbool]

theorem enumOf?_congr {α : Type} [DecidableEq α] (all : List α) (h : Same j j') :
    enumOf? all j = enumOf? all j' := by
  rw [enumOf?, h.int32?, enumOf?]

theorem Signal.fromJson_congr (h : Same j j') : fromJson j = fromJson j' := by
  simp only [fromJson, Option.bind_eq_bind]
  refine h.bind_field _ (fun _ _ hv => enumOf?_congr _ hv) fun kind => ?_
  refine h.bind_field _ (fun _ _ hv => hv.string?) fun ticker => ?_
  refine h.bind_field _ (fun _ _ hv => hv.double?) fun price => ?_
  refine h.bind_field _ (fun _ _ hv => hv.double?) fun confidence => ?_
  exact h.bind_field _ (fun _ _ hv => SignalPayload.fromJson_congr hv) fun payload => rfl

theorem optionalFromJson_congr (h : Same j j') (key : String) :
    optionalFromJson (j.find? key) = optionalFromJson (j'.find? key) := by
  have helim (o : Option Json) :
      optionalFromJson o
        = o.elim (some none) fun v => if v.isNull then some none else v.double?.map some := by
    cases o <;> rfl
  rw [helim, helim]
  exact elim_eq_of_rel (h.find? key) _ fun v v' hv => by rw [hv.isNull, hv.double?]

theorem StrategyPlan.fromJson_congr (h : Same j j') : fromJson j = fromJson j' := by
  unfold fromJson
  refine h.bind_field _ (fun _ _ hv => hv.string?) fun ticker => ?_
  refine h.bind_field _ (fun _ _ hv => enumOf?_congr _ hv) fun side => ?_
  refine h.bind_field _ (fun _ _ hv => enumOf?_congr _ hv) fun entryType => ?_
  refine h.bind_field _ (fun _ _ hv => hv.double?) fun entryPrice => ?_
  refine h.bind_field _ (fun _ _ hv => hv.double?) fun stopPrice => ?_
  refine h.bind_field _ (fun _ _ hv => hv.double?) fun tp1Price => ?_
  rw [optionalFromJson_congr h]
  refine Option.bind_congr fun tp2Price _ => ?_
  refine h.bind_field _ (fun _ _ hv => hv.double?) fun tp1SizeRatio => ?_
  refine h.bind_field _ (fun _ _ hv => hv.double?) fun sizeCoin => ?_
  refine h.bind_field _ (fun _ _ hv => hv.double?) fun riskUsd => ?_
  refine h.bind_field _ (fun _ _ hv => hv.string?) fun strategyName => ?_
  refine h.bind_field _ (fun _ _ hv => hv.string?) fun reason => ?_
  refine h.bind_array _ (fun _ _ hv => Signal.fromJson_congr hv) fun evidence => ?_
  refine h.bind_value _ _ (fun _ _ hv => hv.double?) fun noProgressTimeoutSec => ?_
  refine h.bind_value _ _ (fun _ _ hv => hv.double?) fun postEntryGraceSec => ?_
  refine h.bind_value _ _ (fun _ _ hv => hv.double?) fun minFollowThroughBps => ?_
  refine h.bind_value _ _ (fun _ _ hv => hv.double?) fun entryCorrelation => ?_
  refine h.bind_value _ _ (fun _ _ hv => hv.double?) fun leaderEntryLagPct => ?_
  refine h.bind_value _ _ (fun _ _ hv => hv.double?) fun correlationExitThreshold => ?_
  refine h.bind_value _ _ (fun _ _ hv => hv.double?) fun leaderExitReversalBps => ?_
  refine h.bind_value _ _ (fun _ _ hv => hv.double?) fun densityPriceForStop => ?_
  refine h.bind_value _ _ (fun _ _ hv => hv.int32?) fun approachCount => ?_
  exact h.bind_value _ _ (fun _ _ hv => by rw [hv.integer?]) fun traceId => rfl

theorem PersistedTrade.fromJson_congr (h : Same j j') : fromJson j = fromJson j' := by
  unfold fromJson
  refine h.bind_field _ (fun _ _ hv => StrategyPlan.fromJson_congr hv) fun plan => ?_
  refine h.bind_value _ _ (fun _ _ hv => hv.integer? 64) fun entryOrderId => ?_
  refine h.bind_value _ _ (fun _ _ hv => hv.integer? 64) fun stopOrderId => ?_
  refine h.bind_value _ _ (fun _ _ hv => hv.integer? 64) fun tp1OrderId => ?_
  refine h.bind_value _ _ (fun _ _ hv => hv.integer? 64) fun tp2OrderId => ?_
  refine h.bind_field _ (fun _ _ hv => enumOf?_congr _ hv) fun state => ?_
  refine h.bind_field _ (fun _ _ hv => hv.double?) fun executedSize => ?_
  refine h.bind_field _ (fun _ _ hv => hv.double?) fun avgEntryPrice => ?_
  refine h.bind_value _ _ (fun _ _ hv => hv.double?) fun avgPriceFix => ?_
  exact h.bind_value _ _ (fun _ _ hv => hv.bool?) fun tp1Filled => rfl

theorem PersistedAccount.fromJson_congr (h : Same j j') : fromJson j = fromJson j' := by
  unfold fromJson
  refine h.bind_field _ (fun _ _ hv => hv.double?) fun equityUsd => ?_
  refine h.bind_field _ (fun _ _ hv => hv.double?) fun startingEquityUsd => ?_
  refine h.bind_field _ (fun _ _ hv => hv.double?) fun realizedPnlTodayUsd => ?_
  refine h.bind_field _ (fun _ _ hv => hv.double?) fun unrealizedPnlUsd => ?_
  refine h.bind_field _ (fun _ _ hv => hv.double?) fun freeBalanceUsd => ?_
  refine h.bind_field _ (fun _ _ hv => hv.int32?) fun activePositions => ?_
  refine h.bind_array _ (fun _ _ hv => hv.string?) fun activeTickers => ?_
  refine h.bind_field _ (fun _ _ hv => hv.bool?) fun killSwitchTriggered => ?_
  exact h.bind_field _ (fun _ _ hv => hv.double?) fun finresDayStartResultUsd => rfl

theorem PersistedData.fromJson_congr (h : Same j j') : fromJson j = fromJson j' := by
  unfold fromJson
  refine h.bind_value _ _ (fun _ _ hv => hv.int32?) fun version => ?_
  refine Option.bind_congr fun _ _ => ?_
  refine h.bind_value _ _ (fun _ _ hv => hv.string?) fun lastResetDayUtc => ?_
  refine h.bind_field _ (fun _ _ hv => PersistedAccount.fromJson_congr hv) fun accountState => ?_
  refine h.bind_array _ (fun _ _ hv => PersistedTrade.fromJson_congr hv) fun activeTrades => ?_
  refine h.bind_value _ _ (fun _ _ hv => hv.bool?) fun killSwitchTriggered => ?_
  exact h.bind_value _ _ (fun _ _ hv => hv.string?) fun killSwitchReason => rfl

end

/-! ## Restarts -/

section

variable (dump : Json → List UInt8) (parse : List UInt8 → Option Json)

/-- `AccountStatePersister::load`; a missing file and all errors give `none`. -/
def load (path : String) (fs : StateFiles) : Option PersistedData := do
  let content ← fs path
  PersistedData.fromJson (← parse content)

/-- What the library reads from what it has written differs in the order of fields at most. -/
def ReadsBack (j : Json) : Prop := ∃ j', parse (dump j) = some j' ∧ Same j' j

namespace SaveOp

/-- The data with which a call replaces the state file. -/
def saved (op : SaveOp) : Option PersistedData :=
  if op.calls.opened ∧ op.calls.renamed ∧ op.calls.written.isSome then some op.data else none

/-- A call whose file was written as a whole, with data that can be read back. A crash within `save` is a
    call that does not replace the state file. -/
structure Recoverable (op : SaveOp) : Prop where
  fits : op.data.Fits
  whole : ∀ n, op.calls.written = some n → (op.data.content dump op.now).length ≤ n
  readsBack : ReadsBack dump parse (op.data.toJson op.now)

end SaveOp

variable {dump parse} {path : String} {fs : StateFiles} {op : SaveOp}

theorem load_content {data : PersistedData} {now : TimePoint} (hfits : data.Fits)
    (hlib : ReadsBack dump parse (data.toJson now)) (hcontent : fs path = some (data.content dump now)) :
    load parse path fs = some data.forget := by
  obtain ⟨j, hparse, hsame⟩ := hlib
  rw [load, hcontent, Option.bind_eq_bind, Option.bind_some, PersistedData.content, hparse]
  exact (PersistedData.fromJson_congr hsame).trans (data.fromJson_toJson hfits now)

theorem load_congr {fs' : StateFiles} (h : fs path = fs' path) :
    load parse path fs = load parse path fs' := by
  rw [load, load, h]

/-- A restart after a call finds the data of the call, or what it would have found before. -/
theorem load_step (h : op.saved.isSome = true → op.Recoverable dump parse) :
    load parse path (op.step dump path fs)
      = (op.saved.map PersistedData.forget).or (load parse path fs) := by
  have hpath := @save_path dump path fs op.now op.data op.calls
  by_cases hsaved : op.calls.opened ∧ op.calls.renamed ∧ op.calls.written.isSome
  · obtain ⟨hopened, hrenamed, hwritten⟩ := hsaved
    obtain ⟨n, hn⟩ := Option.isSome_iff_exists.1 hwritten
    have hop : op.saved = some op.data := if_pos ⟨hopened, hrenamed, hwritten⟩
    obtain ⟨hfits, hwhole, hlib⟩ := h (Option.isSome_of_eq_some hop)
    rw [if_pos ⟨hopened, hrenamed⟩, hn, Option.elim_some, List.take_of_length_le (hwhole n hn)] at hpath
    rw [hop, Option.map_some, Option.some_or]
    exact load_content hfits hlib hpath
  · have hkept : op.step dump path fs path = fs path := by
      refine hpath.trans ?_
      by_cases hreplace : op.calls.opened = true ∧ op.calls.renamed = true
      · have hnone : op.calls.written = none := by
          rw [← Option.not_isSome_iff_eq_none]
          exact fun hwritten => hsaved ⟨hreplace.1, hreplace.2, hwritten⟩
        rw [if_pos hreplace, hnone, Option.elim_none]
      · rw [if_neg hreplace]
    rw [SaveOp.saved, if_neg hsaved, Option.map_none, Option.none_or]
    exact load_congr hkept

/-- **A restart recovers the last state that was saved**, up to what is not in the file, whatever calls
    failed before and after; without one, it finds what was there at the start. -/
theorem load_after_saves {ops : List SaveOp}
    (h : ∀ op ∈ ops, op.saved.isSome = true → op.Recoverable dump parse) :
    load parse path (ops.foldl (SaveOp.step dump path) fs)
      = ((LastWrite.last SaveOp.saved ops).map PersistedData.forget).or (load parse path fs) := by
  induction ops generalizing fs with
  | nil => rfl
  | cons op ops ih =>
      rw [List.foldl_cons, ih fun op' hmem => h op' (List.mem_cons_of_mem _ hmem),
        load_step (h op (List.mem_cons_self ..)), LastWrite.last_cons, ← Option.or_assoc]
      cases LastWrite.last SaveOp.saved ops <;> rfl

end

/-- What the library reads from `defaultContent`, whose fields are sorted. -/
def defaultJson : Json :=
  .obj
    [("account_state",
        .obj
          [("active_positions", .int 0), ("active_tickers", .arr []), ("equity_usd", .dec 0),
            ("finres_day_start_result_usd", .dec 0), ("free_balance_usd", .dec 0),
            ("kill_switch_triggered", .bool false), ("realized_pnl_today_usd", .dec 0),
            ("starting_equity_usd", .dec 0), ("unrealized_pnl_usd", .dec 0)]),
      ("active_trades", .arr []), ("kill_switch_reason", .str ""), ("kill_switch_triggered", .bool false),
      ("last_persist_ts_utc", .int 0), ("last_reset_day_utc", .str ""), ("schema_version", .int 1)]

theorem same_defaultJson : Same defaultJson (PersistedData.toJson {} 0) := by
  refine .obj_of_keys ["account_state", "active_trades", "kill_switch_reason", "kill_switch_triggered",
    "last_persist_ts_utc", "last_reset_day_utc", "schema_version"] (by decide) (by decide) ?_
  simp only [List.forall_mem_cons, Json.find?_cons, ↓reduceIte, String.reduceEq]
  refine ⟨.some ?_, .some (.refl _), .some (.refl _), .some (.refl _), .some (.refl _), .some (.refl _),
    .some (.refl _), fun _ h => absurd h List.not_mem_nil⟩
  refine .obj_of_keys ["active_positions", "active_tickers", "equity_usd", "finres_day_start_result_usd",
    "free_balance_usd", "kill_switch_triggered", "realized_pnl_today_usd", "starting_equity_usd",
    "unrealized_pnl_usd"] (by decide) (by decide) ?_
  simp only [List.forall_mem_cons, Json.find?_cons, ↓reduceIte, String.reduceEq]
  exact ⟨.some (.refl _), .some (.refl _), .some (.refl _), .some (.refl _), .some (.refl _),
    .some (.refl _), .some (.refl _), .some (.refl _), .some (.refl _),
    fun _ h => absurd h List.not_mem_nil⟩

/-- After a whole `save` and one whose `write` fails. -/
theorem load_after_saves_failed :
    load (fun content => if content = defaultContent then some defaultJson else none)
        "journal/account_state.json"
        ([{ now := 0, data := {}, calls := { written := some 1000 } },
          { now := nsPerSec, data := { killSwitchTriggered := true }, calls := { written := none } }].foldl
          (SaveOp.step (fun _ => defaultContent) "journal/account_state.json") fun _ => none)
      = some (PersistedData.forget {}) := by
  refine (load_after_saves fun op hop hsaved => ?_).trans rfl
  rcases List.mem_cons.1 hop with rfl | hop
  · have hlength : defaultContent.length ≤ 1000 := by decide +kernel
    refine ⟨⟨⟨by decide, by decide⟩, fun _ ht => absurd ht List.not_mem_nil⟩, ?_, _, if_pos rfl,
      same_defaultJson⟩
    rintro n ⟨⟩
    exact hlength
  · rw [List.mem_singleton.1 hop] at hsaved
    exact absurd hsaved Bool.false_ne_true

end TradeBot
