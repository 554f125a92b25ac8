import TradeBot.Lib.Files
import TradeBot.Lib.Runs
import TradeBot.Risk.AccountStatePersister
import TradeBot.Risk.RiskManager

set_option autoImplicit false

/-! # Replacing the state file

`AccountStatePersister::save` writes the new content to a temporary file and renames it. It looks for an
error of `write`, but not at how many bytes were written: a short write replaces the state file by a
part of the new content. `dump`, of the JSON library, is a parameter; it gives the bytes of a value whose
strings are valid UTF-8, as those of Lean are. The lock is left out: no two calls overlap.

The outcomes of the calls of the file system are an argument of `save`, so every failure is covered:
an open that fails, a write that fails or is short, a rename that fails. What counts is which calls
lead up to the rename (`save_path`). -/

namespace TradeBot

open Runs

/-- The account state with the baseline of the day, which only the persisted state has. -/
structure PersistedAccount where
  state : AccountState := {}
  finresDayStartResultUsd : ℚ := 0

/-- `to_json(json&, const AccountState&)`. -/
def PersistedAccount.toJson (a : PersistedAccount) : Json :=
  .obj
    [("equity_usd", .dec a.state.equityUsd), ("starting_equity_usd", .dec a.state.startingEquityUsd),
      ("realized_pnl_today_usd", .dec a.state.realizedPnlTodayUsd),
      ("finres_day_start_result_usd", .dec a.finresDayStartResultUsd),
      ("unrealized_pnl_usd", .dec a.state.unrealizedPnlUsd),
      ("free_balance_usd", .dec a.state.freeBalanceUsd),
      ("active_positions", .int a.state.activePositions),
      ("active_tickers", .arr (a.state.activeTickers.map Json.str)),
      ("kill_switch_triggered", .bool a.state.killSwitchTriggered)]

/-- `AccountStatePersister::PersistedData`. -/
structure PersistedData where
  accountState : PersistedAccount := {}
  activeTrades : List PersistedTrade := []
  lastResetDayUtc : String := ""
  killSwitchTriggered : Bool := false
  killSwitchReason : String := ""

/-- The object that `save` writes, with the time in seconds. -/
def PersistedData.toJson (data : PersistedData) (now : TimePoint) : Json :=
  .obj
    [("schema_version", .int 1), ("last_persist_ts_utc", .int (now.tdiv nsPerSec)),
      ("last_reset_day_utc", .str data.lastResetDayUtc),
      ("account_state", data.accountState.toJson),
      ("active_trades", .arr (data.activeTrades.map PersistedTrade.toJson)),
      ("kill_switch_triggered", .bool data.killSwitchTriggered),
      ("kill_switch_reason", .str data.killSwitchReason)]

/-- How the file system calls of a `save` end. -/
structure SaveCalls where
  opened : Bool := true
  /-- How many bytes `write` takes; `none` if it fails. -/
  written : Option ℕ
  /-- The result of `fdatasync`, which `save` does not look at. -/
  synced : Bool := true
  renamed : Bool := true

/-- The content of the state file: bytes. -/
abbrev StateFiles := Files String UInt8

/-- Beside the state file, so that the rename stays in one directory. -/
def tmpPath (path : String) : String := path ++ ".tmp"

section

variable (dump : Json → List UInt8)

/-- The full serialisation of the data. -/
def PersistedData.content (data : PersistedData) (now : TimePoint) : List UInt8 :=
  dump (data.toJson now)

/-- `AccountStatePersister::save`: the files afterwards, and whether it returns. If `rename` fails it
    throws. -/
def save (path : String) (fs : StateFiles) (now : TimePoint) (data : PersistedData)
    (calls : SaveCalls) : StateFiles × Bool :=
  if calls.opened = false then (fs, true)
  else
    let fs := fs.truncate (tmpPath path)
    match calls.written with
    | none => (fs, true)
    | some n =>
        let fs := fs.append (tmpPath path) ((data.content dump now).take n)
        if calls.renamed then (fs.rename (tmpPath path) path, true) else (fs, false)

end

/-- The calls do not end in a short write that is renamed over the state file, unless the bytes written
    are those that it held. -/
def SaveCalls.Whole (calls : SaveCalls) (previous : Option (List UInt8)) (content : List UInt8) : Prop :=
  calls.opened = false ∨ calls.renamed = false ∨
    ∀ n, calls.written = some n → content.length ≤ n ∨ previous = some (content.take n)

variable {dump : Json → List UInt8} {path : String} {fs : StateFiles} {now : TimePoint}
  {data : PersistedData} {calls : SaveCalls}

theorem ne_tmpPath (path : String) : path ≠ tmpPath path := by
  intro heq
  have hlen := congrArg String.length heq
  rw [tmpPath, String.length_append] at hlen
  have hext : ".tmp".length = 4 := by decide
  omega

/-- What the state file holds after a `save`. -/
theorem save_path :
    (save dump path fs now data calls).1 path
      = if calls.opened = true ∧ calls.renamed = true then
          calls.written.elim (fs path) (fun n => some ((data.content dump now).take n))
        else fs path := by
  have hne := ne_tmpPath path
  unfold save
  by_cases hopened : calls.opened = true
  · have hopen : ¬ calls.opened = false := by simp [hopened]
    rw [if_neg hopen]
    dsimp only
    cases hwritten : calls.written with
    | none =>
        dsimp only
        rw [Files.truncate_of_ne _ hne, Option.elim_none, ite_self]
    | some n =>
        dsimp only
        by_cases hrenamed : calls.renamed = true
        · rw [if_pos hrenamed, if_pos ⟨hopened, hrenamed⟩]
          exact (Files.rename_target _).trans (Files.append_truncate_self _)
        · rw [if_neg hrenamed, if_neg (fun h => hrenamed h.2)]
          exact (Files.append_of_ne _ hne).trans (Files.truncate_of_ne _ hne)
  · rw [if_pos (Bool.not_eq_true _ ▸ hopened), if_neg (fun h => hopened h.1)]

/-- Other files than the state file and the temporary one are left alone. -/
theorem save_of_ne {p : String} (hpath : p ≠ path) (htmp : p ≠ tmpPath path) :
    (save dump path fs now data calls).1 p = fs p := by
  unfold save
  split
  · rfl
  dsimp only
  split
  · exact Files.truncate_of_ne _ htmp
  split
  · exact (Files.rename_of_ne _ htmp hpath).trans
      ((Files.append_of_ne _ htmp).trans (Files.truncate_of_ne _ htmp))
  · exact (Files.append_of_ne _ htmp).trans (Files.truncate_of_ne _ htmp)

/-- **The state file is replaced atomically** except by a short write that is renamed over it. -/
theorem save_atomic_iff (dump : Json → List UInt8) (path : String) (fs : StateFiles) (now : TimePoint)
    (data : PersistedData) (calls : SaveCalls) :
    ((save dump path fs now data calls).1 path = fs path ∨
        (save dump path fs now data calls).1 path = some (data.content dump now))
      ↔ calls.Whole (fs path) (data.content dump now) := by
  rw [save_path]
  generalize data.content dump now = content
  by_cases hrename : calls.opened = true ∧ calls.renamed = true
  · have hwhole : calls.Whole (fs path) content
        ↔ ∀ n, calls.written = some n → content.length ≤ n ∨ fs path = some (content.take n) := by
      rw [SaveCalls.Whole, or_iff_right (by simp [hrename.1]), or_iff_right (by simp [hrename.2])]
    rw [if_pos hrename, hwhole]
    cases calls.written with
    | none => simp
    | some n =>
        have hfull : some (content.take n) = some content ↔ content.length ≤ n := by
          rw [Option.some.injEq, List.take_eq_self_iff]
        rw [Option.elim_some, hfull]
        constructor
        · rintro h _ ⟨⟩
          exact h.symm.imp_right Eq.symm
        · exact fun h => (h n rfl).symm.imp_left Eq.symm
  · rw [if_neg hrename]
    refine iff_of_true (Or.inl rfl) ?_
    rw [not_and_or, Bool.not_eq_true, Bool.not_eq_true] at hrename
    exact hrename.imp_right Or.inl

/-! ## One `save` after the other -/

/-- A call of `save`, and how it went. -/
structure SaveOp where
  now : TimePoint
  data : PersistedData
  calls : SaveCalls

/-- The files after a call. -/
def SaveOp.step (dump : Json → List UInt8) (path : String) (fs : StateFiles) (op : SaveOp) : StateFiles :=
  (save dump path fs op.now op.data op.calls).1

/-- After calls that replaced the state file as a whole or not at all, it holds what it held before or
    the whole content of one of them. -/
theorem saves_whole {ops : List SaveOp}
    (h : Along (SaveOp.step dump path)
      (fun fs op => op.calls.Whole (fs path) (op.data.content dump op.now)) fs ops) :
    ops.foldl (SaveOp.step dump path) fs path = fs path ∨
      ∃ op ∈ ops, ops.foldl (SaveOp.step dump path) fs path = some (op.data.content dump op.now) := by
  induction ops generalizing fs with
  | nil => exact Or.inl rfl
  | cons op ops ih =>
      rw [List.foldl_cons]
      rcases ih h.2 with hsame | ⟨op', hop', hcontent⟩
      · rw [hsame]
        rcases (save_atomic_iff dump path fs op.now op.data op.calls).2 h.1 with hold | hnew
        · exact Or.inl hold
        · exact Or.inr ⟨op, List.mem_cons_self .., hnew⟩
      · exact Or.inr ⟨op', List.mem_cons_of_mem _ hop', hcontent⟩

/-! ## A short write -/

/-- `dump(2)` of the default data at time zero, by lines. -/
def defaultLines : List String :=
  ["\x7b", "  \"account_state\": \x7b", "    \"active_positions\": 0,",
    "    \"active_tickers\": [],", "    \"equity_usd\": 0.0,",
    "    \"finres_day_start_result_usd\": 0.0,", "    \"free_balance_usd\": 0.0,",
    "    \"kill_switch_triggered\": false,", "    \"realized_pnl_today_usd\": 0.0,",
    "    \"starting_equity_usd\": 0.0,", "    \"unrealized_pnl_usd\": 0.0", "  \x7d,",
    "  \"active_trades\": [],", "  \"kill_switch_reason\": \"\",",
    "  \"kill_switch_triggered\": false,", "  \"last_persist_ts_utc\": 0,",
    "  \"last_reset_day_utc\": \"\",", "  \"schema_version\": 1", "\x7d"]

/-- The lines as bytes. -/
def defaultContent : List UInt8 := ("\n".intercalate defaultLines).toUTF8.toList

/-- Of the content of a `save`, 100 bytes are written. -/
theorem short_write_renamed :
    ¬ ∀ (dump : Json → List UInt8) (path : String) (fs : StateFiles) (now : TimePoint)
        (data : PersistedData) (calls : SaveCalls),
        (save dump path fs now data calls).1 path = fs path ∨
          (save dump path fs now data calls).1 path = some (data.content dump now) := by
  intro hall
  have hholds := hall (fun _ => defaultContent) "journal/account_state.json"
    (fun _ => some defaultContent) 0 {} { written := some 100 }
  revert hholds
  decide +kernel

end TradeBot
