import TradeBot.Domain.Signals
import TradeBot.Lib.SortedMap
import TradeBot.Utils.TickerSymbol

set_option autoImplicit false

/-! # The signal levels of the server

`signals/SignalLevelBridge.cpp`: the levels that the bridge knows of, what a formed level and the
notifications of `NotificationFeed` do to them. `on_level_formed` holds the mutex for its check of the
limit and for its insertion, and calls the gateway between the two without it, so each of the parts is
a function of its own.

Which level makes room for a new one is decided in three steps: one that has triggered, the one
farthest from the mid price, the oldest one. All that is used of it is that it is among the levels
(`victim_mem`), and that there is one if there are any (`victim_isSome`). -/

namespace TradeBot

/-- `domain/Types.hpp`. -/
structure SignalLevel where
  id : ℤ
  ticker : Ticker
  price : ℚ
  triggered : Bool := false
  createdAt : TimePoint := 0
  deriving DecidableEq

namespace SignalLevelBridge

/-- `SignalLevelBridge::Config`, with a limit of at least zero. -/
structure Config where
  enabled : Bool := true
  maxServerLevels : ℕ := 50

/-- A level as the bridge knows it. -/
structure LevelInfo where
  id : ℤ
  ticker : Ticker
  price : ℚ
  createdAt : TimePoint
  triggered : Bool := false
  deriving DecidableEq

/-- `active_levels_`. -/
abbrev Levels := SortedMap (fun a b : ℤ => a < b) LevelInfo

/-! ## `on_level_formed` -/

/-- The entry farthest from `mid`; of several, the first. -/
def farthest (mid : ℚ) (entries : List (ℤ × LevelInfo)) : Option ℤ :=
  (entries.foldl
    (fun r e =>
      let d := |e.2.price - mid| / mid
      if r.2 < d then (some e.1, d) else r)
    ((none, -1) : Option ℤ × ℚ)).1

/-- The entry created first; of several, the first. -/
def oldest (entries : List (ℤ × LevelInfo)) : Option (ℤ × LevelInfo) :=
  entries.foldl
    (fun victim e =>
      match victim with
      | none => some e
      | some v => if e.2.createdAt < v.2.createdAt then some e else some v)
    none

/-- Eviction priority: triggered > farthest from mid > oldest. -/
def victim (mid : ℚ) (levels : Levels) : Option ℤ :=
  ((levels.entries.find? (fun e => e.2.triggered)).map Prod.fst).or
    ((if 0 < mid then farthest mid levels.entries else none).or
      ((oldest levels.entries).map Prod.fst))

/-- The level that the check of the limit evicts. -/
def evicted (cfg : Config) (mid : ℚ) (levels : Levels) : Option ℤ :=
  if cfg.maxServerLevels ≤ levels.entries.length then victim mid levels else none

/-- The check of the limit: `evict_id`, and the levels that stay. -/
def checkLimit (cfg : Config) (mid : ℚ) (levels : Levels) : ℤ × Levels :=
  match evicted cfg mid levels with
  | some id => (id, levels.erase id)
  | none => (-1, levels)

/-- The insertion of the level that the server created under `id`. -/
def insertCreated (id : ℤ) (key : Ticker) (price : ℚ) (timestamp : TimePoint) (levels : Levels) :
    Levels :=
  if 0 < id then
    levels.insert id { id := id, ticker := key, price := price, createdAt := timestamp }
  else levels

/-! ## The notifications -/

/-- `on_server_trigger`, with the signal it publishes. To `fmt` the format string of the payload's id
    is plain text. -/
def onServerTrigger (id : ℤ) (ticker : Ticker) (price : ℚ) (timestamp : TimePoint)
    (levels : Levels) : Levels × Signal :=
  (match levels.lookup id with
    | some level => levels.insert id { level with triggered := true }
    | none => levels,
  { kind := .levelBreak
    timestamp := timestamp
    ticker := toInternalTicker ticker
    price := price
    confidence := 1
    payload := { id := "%lld", source := "server" } })

/-- `on_server_level_placed`. -/
def onServerLevelPlaced (level : SignalLevel) (levels : Levels) : Levels :=
  if level.id ≤ 0 then levels
  else
    levels.insert level.id
      { id := level.id
        ticker := toInternalTicker level.ticker
        price := level.price
        createdAt := level.createdAt
        triggered := level.triggered }

/-- `on_server_snapshot`, which adds each level as `on_server_level_placed` does. -/
def onServerSnapshot (snapshot : List SignalLevel) : Levels :=
  snapshot.foldl (fun levels level => onServerLevelPlaced level levels) ∅

/-- `on_server_removed`. -/
def onServerRemoved (id : ℤ) (levels : Levels) : Levels := levels.erase id

/-- `on_server_removed_all`. -/
def onServerRemovedAll (ticker : Ticker) (levels : Levels) : Levels :=
  let key := toInternalTicker ticker
  if key = "" then ∅
  else levels.filterMap (fun _ level => if level.ticker = key then none else some level)

/-- `on_server_removed_triggered`. -/
def onServerRemovedTriggered (levels : Levels) : Levels :=
  levels.filterMap (fun _ level => if level.triggered then none else some level)

/-- What `NotificationFeed` passes on to the bridge. -/
inductive Notification
  | snapshot (levels : List SignalLevel)
  | placed (level : SignalLevel)
  | triggered (level : SignalLevel)
  | removed (id : ℤ)
  | removedAll (ticker : Ticker)
  | removedTriggered
  deriving DecidableEq

/-- The levels after a notification; the `LevelBreak` signal goes to the bus. -/
def handle : Notification → Levels → Levels
  | .snapshot snapshot, _ => onServerSnapshot snapshot
  | .placed level, levels => onServerLevelPlaced level levels
  | .triggered level, levels =>
      (onServerTrigger level.id level.ticker level.price level.createdAt levels).1
  | .removed id, levels => onServerRemoved id levels
  | .removedAll ticker, levels => onServerRemovedAll ticker levels
  | .removedTriggered, levels => onServerRemovedTriggered levels

/-! ## The evicted level -/

variable {cfg : Config} {mid : ℚ} {levels : Levels} {id : ℤ}

theorem farthest_mem (h : farthest mid levels.entries = some id) : ∃ level, (id, level) ∈ levels := by
  have hfold : ∀ (entries : List (ℤ × LevelInfo)) (r : Option ℤ × ℚ),
      (entries.foldl
        (fun r e =>
          let d := |e.2.price - mid| / mid
          if r.2 < d then (some e.1, d) else r) r).1 = some id →
      r.1 = some id ∨ ∃ level, (id, level) ∈ entries := by
    intro entries
    induction entries with
    | nil => exact fun r hr => Or.inl hr
    | cons e entries ih =>
        intro r hr
        rcases ih _ hr with hstart | ⟨level, hmem⟩
        · dsimp only at hstart
          by_cases hlt : r.2 < |e.2.price - mid| / mid
          · rw [if_pos hlt] at hstart
            obtain rfl := Option.some.inj hstart
            exact Or.inr ⟨e.2, List.mem_cons_self ..⟩
          · rw [if_neg hlt] at hstart
            exact Or.inl hstart
        · exact Or.inr ⟨level, List.mem_cons_of_mem _ hmem⟩
  rcases hfold _ _ h with hnone | hmem
  · cases hnone
  · exact hmem

theorem oldest_foldl (entries : List (ℤ × LevelInfo)) (v : ℤ × LevelInfo) :
    ∃ e ∈ v :: entries, entries.foldl
      (fun victim e =>
        match victim with
        | none => some e
        | some v => if e.2.createdAt < v.2.createdAt then some e else some v)
      (some v) = some e := by
  induction entries generalizing v with
  | nil => exact ⟨v, List.mem_cons_self .., rfl⟩
  | cons e entries ih =>
      rw [List.foldl_cons]
      dsimp only
      by_cases hlt : e.2.createdAt < v.2.createdAt
      · rw [if_pos hlt]
        obtain ⟨e', he', heq⟩ := ih e
        exact ⟨e', List.mem_cons_of_mem _ he', heq⟩
      · rw [if_neg hlt]
        obtain ⟨e', he', heq⟩ := ih v
        refine ⟨e', ?_, heq⟩
        rcases List.mem_cons.1 he' with rfl | hin
        · exact List.mem_cons_self ..
        · exact List.mem_cons_of_mem _ (List.mem_cons_of_mem _ hin)

/-- Among some entries one is the oldest. -/
theorem oldest_mem (e₀ : ℤ × LevelInfo) (entries : List (ℤ × LevelInfo)) :
    ∃ e ∈ e₀ :: entries, oldest (e₀ :: entries) = some e := oldest_foldl entries e₀

theorem victim_mem (h : victim mid levels = some id) : ∃ level, (id, level) ∈ levels := by
  rw [victim, Option.or_eq_some_iff, Option.or_eq_some_iff] at h
  rcases h with h | ⟨_, h | ⟨_, h⟩⟩
  · obtain ⟨e, hfind, rfl⟩ := Option.map_eq_some_iff.1 h
    exact ⟨e.2, List.mem_of_find?_eq_some hfind⟩
  · split at h
    · exact farthest_mem h
    · cases h
  · obtain ⟨e, hold, rfl⟩ := Option.map_eq_some_iff.1 h
    cases hentries : levels.entries with
    | nil =>
        rw [hentries] at hold
        cases hold
    | cons e₀ entries =>
        rw [hentries] at hold
        obtain ⟨e', hmem, heq⟩ := oldest_mem e₀ entries
        obtain rfl : e' = e := Option.some.inj (heq.symm.trans hold)
        exact ⟨e'.2, SortedMap.mem_def.2 (hentries ▸ hmem)⟩

/-- Of some levels there is one to evict. -/
theorem victim_isSome (mid : ℚ) (h : levels.entries ≠ []) : (victim mid levels).isSome = true := by
  cases hentries : levels.entries with
  | nil => exact absurd hentries h
  | cons e₀ entries =>
      obtain ⟨e, _, heq⟩ := oldest_mem e₀ entries
      rw [victim, hentries, heq]
      simp

theorem evicted_mem (h : evicted cfg mid levels = some id) : ∃ level, (id, level) ∈ levels := by
  unfold evicted at h
  split at h
  · exact victim_mem h
  · cases h

end SignalLevelBridge

end TradeBot
