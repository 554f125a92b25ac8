import TradeBot.Signals.MirroredLevels

set_option autoImplicit false

/-! # Runs of the exchange

`on_level_formed` checks the limit and inserts its level far apart, and both can be wrong by then: a
level that is gone from the server comes back to the bridge (`late_insertion`), and two calls can pass
the check with room for one. `levels_mirrored` is about the runs in which neither happens.

A call that runs alone meets both conditions by itself (`timely_of_alone`), so they are about calls
that overlap or about others who remove levels. `Room` is the invariant for the limit: what the calls
under way are going to insert is counted with the levels that are there. -/

namespace TradeBot

namespace SignalLevelBridge

open FlagReplay

namespace LevelExchange

/-- The levels that the bridge has created on the server, and that no call is about to remove. -/
def kept (x : LevelExchange) : List ℤ :=
  x.created.filter (fun id => !x.calls.any (Call.removes id))

/-- The calls that have yet to create their level. -/
def openCalls (x : LevelExchange) : ℕ := x.calls.countP Call.isOpen

/-- At its check of the limit a call finds room for its level beside the levels of the bridge, but for
    the one it evicts, and the levels of the other calls. A created level is inserted in time. -/
def Timely (cfg : Config) (x : LevelExchange) : ExchangeStep → Prop
  | .levelFormed _ _ _ currentMid => cfg.enabled = true →
      (x.kept.filter (fun id => evicted cfg currentMid x.active != some id)).length + x.openCalls <
        cfg.maxServerLevels
  | .proceed (.inserting id key price timestamp) _ _ =>
      Call.inserting id key price timestamp ∈ x.calls →
        InTime (x.sent.map (news id key)) (x.server.flagOf id)
  | _ => True

instance (cfg : Config) (x : LevelExchange) (s : ExchangeStep) : Decidable (Timely cfg x s) := by
  unfold Timely
  split <;> infer_instance

variable {cfg : Config} {x x' : LevelExchange} {id : ℤ} {call : Call}
  {r : LevelServer × List Notification}

theorem inv_step (h : Inv x) (s : ExchangeStep) (ht : Timely cfg x s) : Inv (step cfg x s) := by
  cases s with
  | levelFormed ticker price timestamp currentMid => exact h.begin ticker price timestamp currentMid
  | proceed call id now =>
      rw [step]
      by_cases hin : call ∈ x.calls
      · rw [if_pos hin]
        cases call with
        | removing evictId key price timestamp => exact h.remove hin
        | creating key price timestamp =>
            rw [advance]
            by_cases hfresh : 0 < id ∧ x.server.issued.lookup id = none
            · rw [if_pos hfresh]
              exact h.create hin hfresh
            · rw [if_neg hfresh]
              exact h
        | inserting id' key price timestamp => exact h.insert hin (ht hin)
      · rw [if_neg hin]
        exact h
  | deliver =>
      rw [step]
      split
      · rename_i hsent
        exact h.deliver hsent
      · exact h
  | place level => exact h.others (reports_place x.server level false)
  | trigger id => exact h.others (reports_trigger id)
  | remove id => exact h.others (reports_remove id)
  | removeAll ticker => exact h.others (reports_removeAll ticker)
  | removeTriggered => exact h.others reports_removeTriggered
  | snapshot => exact h.others reports_snapshot

/-! ## The limit -/

theorem mem_created : id ∈ x.created ↔ ∃ l, (id, l) ∈ x.server.levels ∧ l.byBridge = true := by
  rw [created, List.mem_map]
  constructor
  · rintro ⟨e, he, rfl⟩
    obtain ⟨hin, hby⟩ := List.mem_filter.1 he
    exact ⟨e.2, hin, hby⟩
  · rintro ⟨l, hin, hby⟩
    exact ⟨(id, l), List.mem_filter.2 ⟨hin, hby⟩, rfl⟩

theorem nodup_created : x.created.Nodup :=
  x.server.levels.nodup.sublist (List.filter_sublist.map Prod.fst)

theorem mem_kept : id ∈ x.kept ↔ id ∈ x.created ∧ ¬ x.Removing id := by
  simp [kept, Removing]

/-- `on_level_formed` leaves room for the levels that it creates. -/
def Room (cfg : Config) (x : LevelExchange) : Prop :=
  x.kept.length + x.openCalls ≤ cfg.maxServerLevels

theorem length_kept_le {ids : List ℤ} (h : ∀ id ∈ x.kept, id ∈ ids) : x.kept.length ≤ ids.length :=
  (List.subperm_of_subset (nodup_created.filter _) h).length_le

theorem openCalls_erase (hin : call ∈ x.calls) :
    x.openCalls = (x.calls.erase call).countP Call.isOpen + if call.isOpen then 1 else 0 := by
  rw [openCalls, (List.perm_cons_erase hin).countP_eq, List.countP_cons]

/-- Only the bridge adds a level that counts. -/
theorem Room.mono (h : Room cfg x) (hcreated : ∀ id ∈ x'.created, id ∈ x.created)
    (hremoving : ∀ id ∈ x'.created, x.Removing id → x'.Removing id)
    (hopen : x'.openCalls ≤ x.openCalls) : Room cfg x' := by
  have hle : x'.kept.length ≤ x.kept.length := by
    refine length_kept_le (fun id hid => ?_)
    obtain ⟨hin, hnot⟩ := mem_kept.1 hid
    exact mem_kept.2 ⟨hcreated id hin, fun hrem => hnot (hremoving id hin hrem)⟩
  exact le_trans (Nat.add_le_add hle hopen) h

theorem created_revise {f : ℤ → ServerLevel → Option Bool} {ns : List Notification} :
    ∀ id ∈ (x.change (x.server.revise f, ns)).created, id ∈ x.created := by
  intro id hid
  obtain ⟨l, hl, hby⟩ := mem_created.1 hid
  obtain ⟨l', hl', heq⟩ := SortedMap.mem_filterMap.1 hl
  obtain ⟨flag, _, rfl⟩ := Option.map_eq_some_iff.1 heq
  exact mem_created.2 ⟨l', hl', hby⟩

theorem created_remove (evictId : ℤ) :
    ∀ id ∈ (x.change (x.server.remove evictId)).created, id ∈ x.created := by
  unfold LevelServer.remove
  cases x.server.levels.lookup evictId with
  | none => exact fun _ hid => hid
  | some l => exact created_revise

/-- A removed level is gone. -/
theorem not_mem_created_remove : id ∉ (x.change (x.server.remove id)).created := by
  intro hid
  obtain ⟨l, hl, _⟩ := mem_created.1 hid
  unfold change LevelServer.remove at hl
  cases hlook : x.server.levels.lookup id with
  | none =>
      rw [hlook] at hl
      rw [SortedMap.lookup_eq_some.2 hl] at hlook
      cases hlook
  | some l' =>
      rw [hlook] at hl
      obtain ⟨_, _, heq⟩ := SortedMap.mem_filterMap.1 hl
      obtain ⟨_, hflag, _⟩ := Option.map_eq_some_iff.1 heq
      dsimp only at hflag
      rw [if_pos rfl] at hflag
      cases hflag

theorem created_trigger (id' : ℤ) :
    ∀ id ∈ (x.change (x.server.trigger id')).created, id ∈ x.created := by
  unfold LevelServer.trigger
  cases x.server.levels.lookup id' with
  | none => exact fun _ hid => hid
  | some l =>
      dsimp only
      split
      · exact fun _ hid => hid
      · exact created_revise

/-- A placed level counts if the bridge has created it. -/
theorem created_place {level : SignalLevel} {byBridge : Bool} :
    ∀ id ∈ (x.change (x.server.place level byBridge)).created,
      id ∈ x.created ∨ byBridge = true ∧ id = level.id := by
  intro id hid
  obtain ⟨l, hl, hby⟩ := mem_created.1 hid
  by_cases hfresh : 0 < level.id ∧ x.server.issued.lookup level.id = none
  · rw [change, LevelServer.place, dif_pos hfresh] at hl
    rcases SortedMap.mem_insert.1 hl with heq | ⟨hl, _⟩
    · obtain ⟨rfl, rfl⟩ := Prod.mk.inj heq
      exact Or.inr ⟨hby, rfl⟩
    · exact Or.inl (mem_created.2 ⟨l, hl, hby⟩)
  · rw [change, LevelServer.place, dif_neg hfresh] at hl
    exact Or.inl (mem_created.2 ⟨l, hl, hby⟩)

/-- A call begins; it is about to remove the level `v` that its check evicts. -/
theorem room_cons {levels : Levels} {v : Option ℤ} (hopen : call.isOpen = true)
    (hcall : ∀ id, v = some id → call.removes id = true)
    (hroom : (x.kept.filter (fun id => v != some id)).length + x.openCalls < cfg.maxServerLevels) :
    Room cfg { x with active := levels, calls := call :: x.calls } := by
  have hkept : (kept { x with active := levels, calls := call :: x.calls }).length ≤
      (x.kept.filter (fun id => v != some id)).length := by
    refine length_kept_le (fun id hid => ?_)
    obtain ⟨hin, hnot⟩ := mem_kept.1 hid
    refine List.mem_filter.2 ⟨mem_kept.2 ⟨hin, ?_⟩, ?_⟩
    · exact fun ⟨call', hin', hrem⟩ => hnot ⟨call', List.mem_cons_of_mem _ hin', hrem⟩
    · exact bne_iff_ne.2 (fun heq => hnot ⟨call, List.mem_cons_self .., hcall id heq⟩)
  have hcount : openCalls { x with active := levels, calls := call :: x.calls } =
      x.openCalls + 1 := List.countP_cons_of_pos hopen
  rw [Room, hcount]
  omega

theorem Room.begin (h : Room cfg x) (hinv : Inv x) {currentMid : ℚ}
    (hroom : cfg.enabled = true →
      (x.kept.filter (fun id => evicted cfg currentMid x.active != some id)).length + x.openCalls <
        cfg.maxServerLevels) (ticker : Ticker) (price : ℚ) (timestamp : TimePoint) :
    Room cfg (x.begin cfg ticker price timestamp currentMid) := by
  unfold LevelExchange.begin checkLimit
  by_cases henabled : cfg.enabled = true
  · have hroom := hroom henabled
    rw [if_pos henabled]
    cases hevict : evicted cfg currentMid x.active with
    | none =>
        rw [hevict] at hroom
        exact room_cons (v := none) rfl (fun _ heq => nomatch heq) hroom
    | some v =>
        obtain ⟨l, hl⟩ := evicted_mem hevict
        have hpos : 0 ≤ v := le_of_lt (hinv.active v l hl).pos
        rw [hevict] at hroom
        dsimp only
        rw [if_pos hpos]
        exact room_cons rfl (fun id heq => decide_eq_true (Option.some.inj heq)) hroom
  · rw [if_neg henabled]
    exact h

theorem Room.remove {evictId : ℤ} {key : Ticker} {price : ℚ} {timestamp : TimePoint}
    (h : Room cfg x) (hin : Call.removing evictId key price timestamp ∈ x.calls) :
    Room cfg { x.change (x.server.remove evictId) with
      calls := .creating key price timestamp ::
        x.calls.erase (.removing evictId key price timestamp) } := by
  refine h.mono (created_remove evictId) ?_ ?_
  · intro id hid hrem
    by_cases heq : evictId = id
    · subst heq
      exact absurd hid not_mem_created_remove
    · have hcall : (Call.removing evictId key price timestamp).removes id = false :=
        decide_eq_false heq
      obtain ⟨call, hcall, hremoves⟩ := hrem.of_erase hcall
      exact ⟨call, List.mem_cons_of_mem _ hcall, hremoves⟩
  · rw [openCalls_erase hin]
    exact le_of_eq (List.countP_cons_of_pos rfl)

theorem Room.create {key : Ticker} {price : ℚ} {timestamp now : TimePoint} (h : Room cfg x)
    (hin : Call.creating key price timestamp ∈ x.calls) :
    Room cfg { x.change (x.server.place
        { id := id, ticker := key, price := price, createdAt := now } true) with
      calls := .inserting id key price timestamp ::
        x.calls.erase (.creating key price timestamp) } := by
  set x' : LevelExchange := { x.change (x.server.place
        { id := id, ticker := key, price := price, createdAt := now } true) with
      calls := .inserting id key price timestamp ::
        x.calls.erase (.creating key price timestamp) } with hx'
  have hkept : x'.kept.length ≤ x.kept.length + 1 := by
    refine (length_kept_le (fun id' hid' => ?_)).trans_eq (List.length_cons (a := id))
    obtain ⟨hcreated, hnot⟩ := mem_kept.1 hid'
    rcases created_place id' hcreated with hold | ⟨_, rfl⟩
    · refine List.mem_cons_of_mem _ (mem_kept.2 ⟨hold, fun hrem => hnot ?_⟩)
      have hcall : (Call.creating key price timestamp).removes id' = false := rfl
      obtain ⟨call, hcall, hremoves⟩ := hrem.of_erase hcall
      exact ⟨call, List.mem_cons_of_mem _ hcall, hremoves⟩
    · exact List.mem_cons_self ..
  have hopen : x.openCalls = x'.openCalls + 1 := by
    rw [openCalls_erase hin, openCalls, hx', List.countP_cons_of_neg (by simp [Call.isOpen])]
    rfl
  rw [Room] at h ⊢
  omega

theorem room_step (h : Room cfg x) (hinv : Inv x) (s : ExchangeStep) (ht : Timely cfg x s) :
    Room cfg (step cfg x s) := by
  -- what the server does on its own creates nothing of ours
  have hothers : ∀ {r : LevelServer × List Notification},
      (∀ id ∈ (x.change r).created, id ∈ x.created) → Room cfg (x.change r) :=
    fun hcreated => h.mono hcreated (fun _ _ hrem => hrem) le_rfl
  cases s with
  | levelFormed ticker price timestamp currentMid => exact h.begin hinv ht ticker price timestamp
  | proceed call id now =>
      rw [step]
      by_cases hin : call ∈ x.calls
      · rw [if_pos hin]
        cases call with
        -- a removal makes room
        | removing evictId key price timestamp => exact h.remove hin
        -- and a creation takes it
        | creating key price timestamp =>
            rw [advance]
            split
            · exact h.create hin
            · exact h
        -- the id is filed under its key, which changes no count
        | inserting id' key price timestamp =>
            refine h.mono (fun _ hid => hid) (fun _ _ hrem => hrem.of_erase rfl) ?_
            rw [openCalls_erase hin]
            exact le_rfl
      · rw [if_neg hin]
        exact h
  | deliver =>
      rw [step]
      split
      · exact h.mono (fun _ hid => hid) (fun _ _ hrem => hrem) le_rfl
      · exact h
  | place level =>
      refine hothers (fun id hid => ?_)
      exact (created_place id hid).resolve_right (fun hby => Bool.noConfusion hby.1)
  | trigger id => exact hothers (created_trigger id)
  | remove id => exact hothers (created_remove id)
  | removeAll ticker => exact hothers created_revise
  | removeTriggered => exact hothers created_revise
  | snapshot => exact hothers (fun _ hid => hid)

/-- Once no call is running, all levels of the bridge are kept. -/
theorem Room.length_created_le (h : Room cfg x) (hquiet : x.Quiet) :
    x.created.length ≤ cfg.maxServerLevels := by
  have hkept : x.kept = x.created := by
    rw [kept, hquiet.1]
    exact List.filter_eq_self.2 (fun _ _ => rfl)
  rw [Room, hkept] at h
  exact le_trans (Nat.le_add_right ..) h

/-- A bridge that knows the levels of a server it has for itself knows those it has created. -/
theorem Mirrors.mem_created_iff (h : x.Mirrors)
    (hown : ∀ id l, (id, l) ∈ x.server.levels → l.byBridge = true) (id : ℤ) :
    id ∈ x.created ↔ id ∈ x.active.entries.map Prod.fst := by
  have hlook := congrArg Option.isSome (h id)
  rw [Option.isSome_map, Option.isSome_map, Bool.eq_iff_iff, Option.isSome_iff_exists,
    Option.isSome_iff_exists] at hlook
  simp only [SortedMap.lookup_eq_some] at hlook
  rw [mem_created, List.mem_map]
  constructor
  · rintro ⟨l, hl, _⟩
    obtain ⟨l', hl'⟩ := hlook.2 ⟨l, hl⟩
    exact ⟨(id, l'), hl', rfl⟩
  · rintro ⟨e, he, rfl⟩
    obtain ⟨l, hl⟩ := hlook.1 ⟨e.2, he⟩
    exact ⟨l, hl, hown _ l hl⟩

/-- A call that runs alone, for a bridge that knows all levels of a server it has for itself, finds
    room at its check. -/
theorem timely_of_alone (hmirrors : x.Mirrors) (hcalls : x.calls = [])
    (hown : ∀ id l, (id, l) ∈ x.server.levels → l.byBridge = true) (hmax : 1 ≤ cfg.maxServerLevels)
    (hle : x.created.length ≤ cfg.maxServerLevels) (ticker : Ticker) (price : ℚ)
    (timestamp : TimePoint) (currentMid : ℚ) :
    Timely cfg x (.levelFormed ticker price timestamp currentMid) := by
  intro _
  have hkept : x.kept = x.created := by
    rw [kept, hcalls]
    exact List.filter_eq_self.2 (fun _ _ => rfl)
  have hmem := hmirrors.mem_created_iff hown
  have hlength : x.created.length = x.active.entries.length := by
    rw [((List.perm_ext_iff_of_nodup nodup_created x.active.nodup).2 hmem).length_eq,
      List.length_map]
  have hopen : x.openCalls = 0 := by
    rw [openCalls, hcalls]
    rfl
  rw [hkept, hopen, Nat.add_zero]
  by_cases hfull : cfg.maxServerLevels ≤ x.active.entries.length
  · -- the evicted level is one of the bridge's
    have hne : x.active.entries ≠ [] := by
      intro hnil
      rw [hnil] at hfull
      exact absurd (le_trans hmax hfull) (by simp)
    obtain ⟨v, hvictim⟩ := Option.isSome_iff_exists.1 (victim_isSome currentMid hne)
    obtain ⟨l, hl⟩ := victim_mem hvictim
    have hv : v ∈ x.created := (hmem v).2 (List.mem_map_of_mem (f := Prod.fst) hl)
    have hevict : evicted cfg currentMid x.active = some v := (if_pos hfull).trans hvictim
    refine lt_of_lt_of_le ?_ hle
    refine List.length_filter_lt_length_iff_exists.2 ⟨v, hv, ?_⟩
    rw [hevict]
    simp
  · exact lt_of_le_of_lt (List.length_filter_le ..) (hlength ▸ not_le.1 hfull)

/-- An insertion leaves the notifications under way on course to the server if and only if it is in
    time. -/
theorem insert_on_course_iff {key : Ticker} {price : ℚ} {timestamp : TimePoint} (h : Inv x)
    (hin : Call.inserting id key price timestamp ∈ x.calls) :
    replay (x.sent.map (news id key)) (flagOf (insertCreated id key price timestamp x.active) id) =
        x.server.flagOf id ↔
      InTime (x.sent.map (news id key)) (x.server.flagOf id) := by
  have hissued := h.inserting id key price timestamp hin
  obtain ⟨e, he⟩ := (h.tracks id key price hissued).reported
  rw [insertCreated, if_pos hissued.pos, flagOf_insert, if_pos rfl]
  exact replay_eq_iff_inTime he

/-! ## Runs -/

instance (x : LevelExchange) : Decidable x.Quiet :=
  inferInstanceAs (Decidable (_ ∧ _))

/-- In a run whose checks find room and whose insertions are in time, the bridge knows the levels of
    the server and has created no more of them than the limit, whenever nothing is under way. -/
theorem levels_mirrored (cfg : Config) (server : LevelServer) (steps : List ExchangeStep)
    (hnone : (start server).created = [])
    (htimely : Runs.Along (step cfg) (Timely cfg) (start server) steps)
    (hquiet : (run cfg (start server) steps).Quiet) :
    (run cfg (start server) steps).Mirrors ∧
      (run cfg (start server) steps).created.length ≤ cfg.maxServerLevels := by
  have hroom : Room cfg (start server) := by
    rw [Room, kept, hnone]
    exact Nat.zero_le _
  have hrun : Inv (run cfg (start server) steps) ∧ Room cfg (run cfg (start server) steps) :=
    htimely.invariant (fun x => Inv x ∧ Room cfg x)
      (fun x s hx ht => ⟨inv_step hx.1 s ht, room_step hx.2 hx.1 s ht⟩) ⟨inv_start server, hroom⟩
  exact ⟨hrun.1.mirrors hquiet, hrun.2.length_created_le hquiet⟩

/-- A level is formed and created; its notification arrives before it is inserted. -/
def formedLevel : List ExchangeStep :=
  [.deliver, .levelFormed "BTCUSDT" 50000 0 0, .proceed (.creating "BTC_USDT" 50000 0) 1 0, .deliver,
    .proceed (.inserting 1 "BTC_USDT" 50000 0) 0 0]

theorem levels_mirrored_formedLevel :
    (run { maxServerLevels := 1 } (start .init) formedLevel).Mirrors ∧
      (run { maxServerLevels := 1 } (start .init) formedLevel).created.length ≤ 1 :=
  levels_mirrored { maxServerLevels := 1 } .init formedLevel rfl (by decide +kernel)
    (by decide +kernel)

/-- The level is removed again, and both notifications arrive before it is inserted. -/
def lateInsertion : List ExchangeStep :=
  [.deliver, .levelFormed "BTCUSDT" 50000 0 0, .proceed (.creating "BTC_USDT" 50000 0) 1 0,
    .remove 1, .deliver, .deliver, .proceed (.inserting 1 "BTC_USDT" 50000 0) 0 0]

theorem late_insertion :
    ¬ ∀ (cfg : Config) (server : LevelServer) (steps : List ExchangeStep),
        (start server).created = [] → 1 ≤ cfg.maxServerLevels →
        (run cfg (start server) steps).Quiet →
        (run cfg (start server) steps).Mirrors ∧
          (run cfg (start server) steps).created.length ≤ cfg.maxServerLevels := by
  intro hall
  have hmirrors := (hall { maxServerLevels := 1 } .init lateInsertion rfl le_rfl
    (by decide +kernel)).1 1
  exact absurd hmirrors (by decide +kernel)

-- two calls pass the check before either has created its level
example : (run { maxServerLevels := 1 } (start .init)
    [.deliver, .levelFormed "BTCUSDT" 50000 0 0, .levelFormed "BTCUSDT" 60000 0 0,
      .proceed (.creating "BTC_USDT" 50000 0) 1 0, .proceed (.creating "BTC_USDT" 60000 0) 2 0,
      .proceed (.inserting 1 "BTC_USDT" 50000 0) 0 0, .proceed (.inserting 2 "BTC_USDT" 60000 0) 0 0,
      .deliver, .deliver]).created = [1, 2] := by decide +kernel

end LevelExchange

end SignalLevelBridge

end TradeBot
