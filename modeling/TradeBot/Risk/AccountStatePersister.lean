import TradeBot.Domain.Signals
import TradeBot.Lib.Json

set_option autoImplicit false

/-! # AccountStatePersister

`risk/AccountStatePersister.cpp`: how active trades are written to the persisted state and read back,
with their plans and the signals of these. Numbers survive the file; an enumerator is written as its
number, and a number that is none of them is not read here.

Each record comes with its way out, its way in and a lemma that the second undoes the first up to the
fields that are not written. The way in is written in `Option`, since the conversions of the library
throw and `load` answers any exception in the same way. -/

namespace TradeBot

/-! ## Enumerators -/

section

variable {α : Type} [DecidableEq α]

/-- `static_cast<int>(a)`, for the enumerators in the order of their declaration. -/
def enumCode (all : List α) (a : α) : Json := .int (all.idxOf a)

/-- `static_cast<E>(j.get<int>())`. -/
def enumOf? (all : List α) (j : Json) : Option α :=
  j.int32?.bind (fun n => if 0 ≤ n then all[n.toNat]? else none)

end

/-- In the order of the source, where the number of an enumerator is its place. -/
def Side.all : List Side := [.none, .buy, .sell]

/-- In the order of the source. -/
def OrderType.all : List OrderType := [.limit, .stop, .stopLoss, .takeProfit, .market]

/-- In the order of the source. -/
def TradeState.all : List TradeState :=
  [.pendingEntry, .opened, .exiting, .closed, .cancelling, .submitUnknown, .emergencyClosing]

/-- In the order of the source. -/
def SignalKind.all : List SignalKind :=
  [.densityDetected, .densityRemoved, .densityEating, .icebergSuspected, .tapeBurst, .tapeFade,
    .tapeFlush, .tapeDistribution, .levelFormed, .levelApproach, .levelRejection, .levelBreak,
    .leaderMove, .densityStack]

theorem enumOf?_side (a : Side) : enumOf? Side.all (enumCode Side.all a) = some a := by
  cases a <;> decide +kernel

theorem enumOf?_orderType (a : OrderType) :
    enumOf? OrderType.all (enumCode OrderType.all a) = some a := by
  cases a <;> decide +kernel

theorem enumOf?_tradeState (a : TradeState) :
    enumOf? TradeState.all (enumCode TradeState.all a) = some a := by
  cases a <;> decide +kernel

theorem enumOf?_signalKind (a : SignalKind) :
    enumOf? SignalKind.all (enumCode SignalKind.all a) = some a := by
  cases a <;> decide +kernel

/-! ## Signals -/

/-- Two of the fields are not written, and are zero and empty after a restart. -/
def SignalPayload.toJson (p : SignalPayload) : Json :=
  .obj
    [("side", .str p.side), ("size", .dec p.size), ("size_usd", .dec p.sizeUsd),
      ("total_eaten_usd", .dec p.totalEatenUsd), ("original_size", .dec p.originalSize),
      ("remaining_size", .dec p.remainingSize), ("eaten_ratio", .dec p.eatenRatio),
      ("remaining_ratio", .dec p.remainingRatio), ("first_price", .dec p.firstPrice),
      ("last_price", .dec p.lastPrice), ("width_bps", .dec p.widthBps),
      ("total_size_usd", .dec p.totalSizeUsd), ("stop_anchor_price", .dec p.stopAnchorPrice),
      ("lag_pct", .dec p.lagPct), ("correlation", .dec p.correlation), ("dist_bps", .dec p.distBps),
      ("delta_bps", .dec p.deltaBps), ("leader_move_pct", .dec p.leaderMovePct),
      ("our_move_pct", .dec p.ourMovePct), ("expected_move_pct", .dec p.expectedMovePct),
      ("lag_ms", .dec p.lagMs), ("ratio", .dec p.ratio), ("intensity", .dec p.intensity),
      ("peak_rate", .dec p.peakRate), ("current_rate", .dec p.currentRate), ("cusum", .dec p.cusum),
      ("volatility_bps", .dec p.volatilityBps), ("volume_usd_30s", .dec p.volumeUsd30s),
      ("max_range_bps", .dec p.maxRangeBps), ("touches", .int p.touches), ("prints", .int p.prints),
      ("age_ms", .int p.ageMs), ("refill_events", .int p.refillEvents), ("fake", .bool p.fake),
      ("id", .str p.id), ("source", .str p.source)]

/-- A field that is missing has its default. One of another type makes the whole file unreadable. -/
def SignalPayload.fromJson (j : Json) : Option SignalPayload := do
  return {
    side := ← j.value? "side" Json.string? ""
    size := ← j.value? "size" Json.double? 0
    sizeUsd := ← j.value? "size_usd" Json.double? 0
    totalEatenUsd := ← j.value? "total_eaten_usd" Json.double? 0
    originalSize := ← j.value? "original_size" Json.double? 0
    remainingSize := ← j.value? "remaining_size" Json.double? 0
    eatenRatio := ← j.value? "eaten_ratio" Json.double? 0
    remainingRatio := ← j.value? "remaining_ratio" Json.double? 0
    firstPrice := ← j.value? "first_price" Json.double? 0
    lastPrice := ← j.value? "last_price" Json.double? 0
    widthBps := ← j.value? "width_bps" Json.double? 0
    totalSizeUsd := ← j.value? "total_size_usd" Json.double? 0
    stopAnchorPrice := ← j.value? "stop_anchor_price" Json.double? 0
    lagPct := ← j.value? "lag_pct" Json.double? 0
    correlation := ← j.value? "correlation" Json.double? 0
    distBps := ← j.value? "dist_bps" Json.double? 0
    deltaBps := ← j.value? "delta_bps" Json.double? 0
    leaderMovePct := ← j.value? "leader_move_pct" Json.double? 0
    ourMovePct := ← j.value? "our_move_pct" Json.double? 0
    expectedMovePct := ← j.value? "expected_move_pct" Json.double? 0
    lagMs := ← j.value? "lag_ms" Json.double? 0
    ratio := ← j.value? "ratio" Json.double? 0
    intensity := ← j.value? "intensity" Json.double? 0
    peakRate := ← j.value? "peak_rate" Json.double? 0
    currentRate := ← j.value? "current_rate" Json.double? 0
    cusum := ← j.value? "cusum" Json.double? 0
    volatilityBps := ← j.value? "volatility_bps" Json.double? 0
    volumeUsd30s := ← j.value? "volume_usd_30s" Json.double? 0
    maxRangeBps := ← j.value? "max_range_bps" Json.double? 0
    touches := ← j.value? "touches" Json.int32? 0
    prints := ← j.value? "prints" Json.int32? 0
    ageMs := ← j.value? "age_ms" Json.int32? 0
    refillEvents := ← j.value? "refill_events" Json.int32? 0
    fake := ← j.value? "fake" Json.bool? false
    id := ← j.value? "id" Json.string? ""
    source := ← j.value? "source" Json.string? "" }

theorem SignalPayload.isSome_fromJson_toJson (p : SignalPayload) :
    (fromJson p.toJson).isSome = true := by
  simp [toJson, fromJson, Json.value?_obj, Json.find?_cons, Json.string?, Json.double?, Json.int32?,
    Json.integer?, Json.bool?]

/-- A signal without its time and the trace of its trigger. -/
def Signal.toJson (s : Signal) : Json :=
  .obj
    [("kind", enumCode SignalKind.all s.kind), ("ticker", .str s.ticker), ("price", .dec s.price),
      ("confidence", .dec s.confidence), ("payload", s.payload.toJson)]

/-- The timestamp and the trace id are not read: they keep their default values. -/
def Signal.fromJson (j : Json) : Option Signal := do
  return {
    kind := ← enumOf? SignalKind.all (← j.find? "kind")
    timestamp := 0
    ticker := ← (← j.find? "ticker").string?
    price := ← (← j.find? "price").double?
    confidence := ← (← j.find? "confidence").double?
    payload := ← SignalPayload.fromJson (← j.find? "payload") }

theorem Signal.fromJson_obj {k j : Json} {kind : SignalKind} {payload : SignalPayload}
    (hkind : enumOf? SignalKind.all k = some kind)
    (hpayload : SignalPayload.fromJson j = some payload) (ticker : Ticker) (price confidence : ℚ) :
    fromJson (.obj [("kind", k), ("ticker", .str ticker), ("price", .dec price),
        ("confidence", .dec confidence), ("payload", j)])
      = some { kind := kind, timestamp := 0, ticker := ticker, price := price,
               confidence := confidence, payload := payload } := by
  simp [fromJson, Json.find?_cons, Json.string?, Json.double?, hkind, hpayload]

theorem Signal.isSome_fromJson_toJson (s : Signal) : (fromJson s.toJson).isSome = true := by
  obtain ⟨p, hp⟩ := Option.isSome_iff_exists.1 s.payload.isSome_fromJson_toJson
  exact Option.isSome_iff_exists.2
    ⟨_, fromJson_obj (enumOf?_signalKind s.kind) hp s.ticker s.price s.confidence⟩

/-- A list of signals is read if each of them is. -/
theorem isSome_mapM_fromJson (ss : List Signal) :
    ((ss.map Signal.toJson).mapM Signal.fromJson).isSome = true := by
  induction ss with
  | nil => rfl
  | cons s ss ih =>
      obtain ⟨s', hs⟩ := Option.isSome_iff_exists.1 s.isSome_fromJson_toJson
      obtain ⟨ss', hss⟩ := Option.isSome_iff_exists.1 ih
      rw [List.map_cons, List.mapM_cons, hs, hss]
      rfl

/-! ## Plans -/

/-- `p.tp2_price ? json(*p.tp2_price) : json{}`. -/
def optionalToJson : Option ℚ → Json
  | some q => .dec q
  | none => .null

/-- A field that may be missing or null. -/
def optionalFromJson : Option Json → Option (Option ℚ)
  | none => some none
  | some v => if v.isNull then some none else v.double?.map some

theorem optionalFromJson_toJson (q : Option ℚ) :
    optionalFromJson (some (optionalToJson q)) = some q := by
  cases q <;> rfl

namespace StrategyPlan

/-- The object of a plan, with its enumerators, optional price and signals already written. -/
def fields (p : StrategyPlan) (side type tp2 evidence : Json) : List (String × Json) :=
  [("ticker", .str p.ticker), ("side", side), ("entry_type", type), ("entry_price", .dec p.entryPrice),
    ("stop_price", .dec p.stopPrice), ("tp1_price", .dec p.tp1Price), ("tp2_price", tp2),
    ("tp1_size_ratio", .dec p.tp1SizeRatio), ("size_coin", .dec p.sizeCoin),
    ("risk_usd", .dec p.riskUsd), ("strategy_name", .str p.strategyName), ("reason", .str p.reason),
    ("evidence", evidence), ("no_progress_timeout_sec", .dec p.noProgressTimeoutSec),
    ("post_entry_grace_sec", .dec p.postEntryGraceSec),
    ("min_follow_through_bps", .dec p.minFollowThroughBps),
    ("entry_correlation", .dec p.entryCorrelation),
    ("leader_entry_lag_pct", .dec p.leaderEntryLagPct),
    ("correlation_exit_threshold", .dec p.correlationExitThreshold),
    ("leader_exit_reversal_bps", .dec p.leaderExitReversalBps),
    ("density_price_for_stop", .dec p.densityPriceForStop),
    ("approach_count", .int p.approachCount), ("trace_id", .int p.traceId)]

/-- A plan with its evidence. The optional second target is written as `null` where there is none. -/
def toJson (p : StrategyPlan) : Json :=
  .obj (p.fields (enumCode Side.all p.side) (enumCode OrderType.all p.entryType)
    (optionalToJson p.tp2Price) (.arr (p.evidence.map Signal.toJson)))

/-- `valid_until` and `frame_at_entry` are not read: they keep their default values. -/
def fromJson (j : Json) : Option StrategyPlan := do
  return {
    ticker := ← (← j.find? "ticker").string?
    side := ← enumOf? Side.all (← j.find? "side")
    entryType := ← enumOf? OrderType.all (← j.find? "entry_type")
    entryPrice := ← (← j.find? "entry_price").double?
    stopPrice := ← (← j.find? "stop_price").double?
    tp1Price := ← (← j.find? "tp1_price").double?
    tp2Price := ← optionalFromJson (j.find? "tp2_price")
    tp1SizeRatio := ← (← j.find? "tp1_size_ratio").double?
    sizeCoin := ← (← j.find? "size_coin").double?
    riskUsd := ← (← j.find? "risk_usd").double?
    strategyName := ← (← j.find? "strategy_name").string?
    reason := ← (← j.find? "reason").string?
    evidence := ← (← (← j.find? "evidence").array?).mapM Signal.fromJson
    noProgressTimeoutSec := ← j.value? "no_progress_timeout_sec" Json.double? 120
    postEntryGraceSec := ← j.value? "post_entry_grace_sec" Json.double? 0
    minFollowThroughBps := ← j.value? "min_follow_through_bps" Json.double? 0
    entryCorrelation := ← j.value? "entry_correlation" Json.double? 0
    leaderEntryLagPct := ← j.value? "leader_entry_lag_pct" Json.double? 0
    correlationExitThreshold := ← j.value? "correlation_exit_threshold" Json.double? 0
    leaderExitReversalBps := ← j.value? "leader_exit_reversal_bps" Json.double? 0
    densityPriceForStop := ← j.value? "density_price_for_stop" Json.double? 0
    approachCount := ← j.value? "approach_count" Json.int32? 0
    traceId := ← j.value? "trace_id" (fun v => (v.integer? 64).map (fun n => (n % 2 ^ 64).toNat)) 0 }

theorem fromJson_fields (p : StrategyPlan) {side type tp2 : Json} {js : List Json}
    {evidence : List Signal} (hside : enumOf? Side.all side = some p.side)
    (htype : enumOf? OrderType.all type = some p.entryType)
    (htp2 : optionalFromJson (some tp2) = some p.tp2Price)
    (hevidence : js.mapM Signal.fromJson = some evidence) :
    ∃ p', fromJson (.obj (p.fields side type tp2 (.arr js))) = some p' ∧
      p'.toTradePlan = p.toTradePlan := by
  simp [fromJson, fields, Json.find?_cons, Json.value?_obj, Json.string?, Json.double?, Json.array?,
    Json.int32?, Json.integer?, hside, htype, htp2, hevidence]

/-- The executor's part of a plan is read as it was written. -/
theorem fromJson_toJson (p : StrategyPlan) :
    ∃ p', fromJson p.toJson = some p' ∧ p'.toTradePlan = p.toTradePlan := by
  obtain ⟨evidence, hevidence⟩ := Option.isSome_iff_exists.1 (isSome_mapM_fromJson p.evidence)
  exact p.fromJson_fields (enumOf?_side p.side) (enumOf?_orderType p.entryType)
    (optionalFromJson_toJson p.tp2Price) hevidence

end StrategyPlan

/-! ## Trades -/

/-- An active trade with its whole plan, of which `ActiveTrade` has the part the executor reads. -/
structure PersistedTrade where
  trade : ActiveTrade
  plan : StrategyPlan
  plan_eq : plan.toTradePlan = trade.plan

namespace PersistedTrade

/-- The fields of a trade around its plan and its state. -/
def fields (t : ActiveTrade) (plan state : Json) : List (String × Json) :=
  [("plan", plan), ("entry_order_id", .int t.entryOrderId), ("stop_order_id", .int t.stopOrderId),
    ("tp1_order_id", .int t.tp1OrderId), ("tp2_order_id", .int t.tp2OrderId), ("state", state),
    ("executed_size", .dec t.executedSize), ("avg_entry_price", .dec t.avgEntryPrice),
    ("avg_price_fix", .dec t.avgPriceFix), ("tp1_filled", .bool t.tp1Filled)]

/-- `to_json(json&, const ActiveTrade&)`. -/
def toJson (t : PersistedTrade) : Json :=
  .obj (fields t.trade t.plan.toJson (enumCode TradeState.all t.trade.state))

/-- `from_json(const json&, ActiveTrade&)`. The client order id, the time the trade opened at and its
    unrealized PnL are not read: they keep their default values. -/
def fromJson (j : Json) : Option PersistedTrade := do
  let plan ← StrategyPlan.fromJson (← j.find? "plan")
  let trade : ActiveTrade :=
    { plan := plan.toTradePlan
      entryOrderId := ← j.value? "entry_order_id" (Json.integer? 64) 0
      stopOrderId := ← j.value? "stop_order_id" (Json.integer? 64) 0
      tp1OrderId := ← j.value? "tp1_order_id" (Json.integer? 64) 0
      tp2OrderId := ← j.value? "tp2_order_id" (Json.integer? 64) 0
      state := ← enumOf? TradeState.all (← j.find? "state")
      executedSize := ← (← j.find? "executed_size").double?
      avgEntryPrice := ← (← j.find? "avg_entry_price").double?
      avgPriceFix := ← j.value? "avg_price_fix" Json.double? 0
      tp1Filled := ← j.value? "tp1_filled" Json.bool? false }
  return ⟨trade, plan, rfl⟩

/-- What the file keeps of a trade, apart from its order ids. -/
structure Kept (t t' : ActiveTrade) : Prop where
  plan : t'.plan = t.plan
  state : t'.state = t.state
  executedSize : t'.executedSize = t.executedSize
  avgEntryPrice : t'.avgEntryPrice = t.avgEntryPrice
  avgPriceFix : t'.avgPriceFix = t.avgPriceFix
  tp1Filled : t'.tp1Filled = t.tp1Filled
  openedAt : t'.openedAt = 0

theorem fromJson_fields (t : ActiveTrade) {plan state : Json} {p : StrategyPlan}
    (hplan : StrategyPlan.fromJson plan = some p) (hp : p.toTradePlan = t.plan)
    (hstate : enumOf? TradeState.all state = some t.state) :
    ∃ t', fromJson (.obj (fields t plan state)) = some t' ∧ Kept t t'.trade := by
  simp only [fromJson, fields, Json.find?_cons, Json.value?_obj, Json.double?, Json.bool?,
    Json.integer?, hplan, hstate, ↓reduceIte, String.reduceEq, Option.pure_def,
    Option.bind_eq_bind, Option.bind_some, Option.elim_some]
  exact ⟨_, rfl, hp, rfl, rfl, rfl, rfl, rfl, rfl⟩

theorem fromJson_toJson (t : PersistedTrade) :
    ∃ t', fromJson t.toJson = some t' ∧ Kept t.trade t'.trade := by
  obtain ⟨p, hplan, hp⟩ := t.plan.fromJson_toJson
  exact fromJson_fields t.trade hplan (hp.trans t.plan_eq) (enumOf?_tradeState t.trade.state)

end PersistedTrade

end TradeBot
