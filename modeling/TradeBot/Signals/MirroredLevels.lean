import TradeBot.Signals.LevelExchange

set_option autoImplicit false

/-! # Levels that mirror the server

A notification acts on the flag of a level in the same way on the server and in the bridge
(`Reports`, `flagOf_handle`), so the notifications under way lead from the bridge's levels to the
server's. Only the insertion of a created level is no report: it is right if it is in time. -/

namespace TradeBot

namespace SignalLevelBridge

open FlagReplay

/-- The flag of a level that the bridge knows. -/
def flagOf (levels : Levels) (id : ℤ) : Option Bool := (levels.lookup id).map LevelInfo.triggered

/-- What a copy should hold of a level: nothing, or its flag. -/
def LevelServer.flagOf (srv : LevelServer) (id : ℤ) : Option Bool :=
  (srv.levels.lookup id).map ServerLevel.triggered

/-- What a notification is to level `id` of ticker `key`. -/
def news (id : ℤ) (key : Ticker) : Notification → News
  | .snapshot snapshot =>
      match flagOf (onServerSnapshot snapshot) id with
      | some flag => .set flag
      | none => .clear
  | .placed level => if level.id = id then .set level.triggered else .other
  | .triggered level => if level.id = id then .raise else .other
  | .removed id' => if id' = id then .clear else .other
  | .removedAll ticker =>
      if toInternalTicker ticker = "" ∨ key = toInternalTicker ticker then .clear else .other
  | .removedTriggered => .clearRaised

/-- The levels that a notification brings. -/
def Notification.levels : Notification → List SignalLevel
  | .snapshot levels => levels
  | .placed level => [level]
  | _ => []

/-- The server has given the level its id. -/
def LevelServer.Issued (srv : LevelServer) (id : ℤ) (key : Ticker) (price : ℚ) : Prop :=
  (id, (key, price)) ∈ srv.issued

section Handling

variable {levels : Levels} {n : Notification} {id : ℤ} {key : Ticker} {l : LevelInfo}
  {level : SignalLevel} {snapshot : List SignalLevel}

/-! ## What a notification does to the bridge -/

theorem flagOf_insert {id' : ℤ} :
    flagOf (levels.insert id' l) id = if id = id' then some l.triggered else flagOf levels id := by
  rw [flagOf, SortedMap.lookup_insert, flagOf]
  split <;> rfl

theorem flagOf_onServerLevelPlaced :
    flagOf (onServerLevelPlaced level levels) id =
      if level.id = id ∧ 0 < id then some level.triggered else flagOf levels id := by
  unfold onServerLevelPlaced
  by_cases hle : level.id ≤ 0
  · have hne : ¬ (level.id = id ∧ 0 < id) := fun hand => not_lt.2 hle (hand.1 ▸ hand.2)
    rw [if_pos hle, if_neg hne]
  · rw [if_neg hle, flagOf_insert]
    by_cases heq : level.id = id
    · rw [if_pos heq.symm, if_pos ⟨heq, heq ▸ not_le.1 hle⟩]
    · rw [if_neg (Ne.symm heq), if_neg (fun hand => heq hand.1)]

theorem flagOf_onServerTrigger {id' : ℤ} {ticker : Ticker} {price : ℚ} {timestamp : TimePoint} :
    flagOf (onServerTrigger id' ticker price timestamp levels).1 id =
      if id' = id then (flagOf levels id).map (fun _ => true) else flagOf levels id := by
  unfold onServerTrigger
  cases hlook : levels.lookup id' with
  | none =>
      by_cases hid : id' = id
      · subst hid
        simp [flagOf, hlook]
      · rw [if_neg hid]
  | some l =>
      rw [flagOf_insert]
      by_cases hid : id' = id
      · subst hid
        simp [flagOf, hlook]
      · rw [if_neg hid, if_neg (Ne.symm hid)]

theorem flagOf_filterMap {p : LevelInfo → Prop} [DecidablePred p] :
    flagOf (levels.filterMap (fun _ l => if p l then none else some l)) id =
      (levels.lookup id).bind (fun l => if p l then none else some l.triggered) := by
  rw [flagOf, SortedMap.lookup_filterMap]
  cases levels.lookup id with
  | none => rfl
  | some l =>
      show Option.map _ (if p l then none else some l) = if p l then none else some l.triggered
      split <;> rfl

/-- A notification does to the flag of a level what it says. -/
theorem flagOf_handle (hid : 0 < id) (hkey : ∀ l, (id, l) ∈ levels → l.ticker = key) :
    flagOf (handle n levels) id = (news id key n).apply (flagOf levels id) := by
  have hlook : ∀ l, levels.lookup id = some l → l.ticker = key :=
    fun l hl => hkey l (SortedMap.lookup_eq_some.1 hl)
  cases n with
  | snapshot snapshot =>
      simp only [handle, news]
      cases flagOf (onServerSnapshot snapshot) id <;> rfl
  | placed level =>
      simp only [handle, news, flagOf_onServerLevelPlaced, hid, and_true]
      split <;> rfl
  | triggered level =>
      simp only [handle, news, flagOf_onServerTrigger]
      split <;> rfl
  | removed id' =>
      simp only [handle, news, onServerRemoved, flagOf, SortedMap.lookup_erase]
      by_cases heq : id' = id
      · rw [if_pos heq.symm, if_pos heq]
        rfl
      · rw [if_neg (Ne.symm heq), if_neg heq]
        rfl
  | removedAll ticker =>
      simp only [handle, news, onServerRemovedAll]
      -- without a ticker all levels go, else those of the ticker
      by_cases hall : toInternalTicker ticker = ""
      · rw [if_pos hall, if_pos (Or.inl hall)]
        rfl
      · rw [if_neg hall, flagOf_filterMap, flagOf]
        cases hl : levels.lookup id with
        | none => split <;> rfl
        | some l =>
            rw [Option.bind_some, hlook l hl]
            by_cases heq : key = toInternalTicker ticker
            · rw [if_pos heq, if_pos (Or.inr heq)]
              rfl
            · rw [if_neg heq, if_neg (not_or.2 ⟨hall, heq⟩)]
              rfl
  | removedTriggered =>
      rw [handle, onServerRemovedTriggered, flagOf_filterMap, flagOf, news]
      cases levels.lookup id with
      | none => rfl
      | some l =>
          rw [Option.bind_some, Option.map_some]
          cases l.triggered <;> rfl

theorem mem_onServerLevelPlaced (h : (id, l) ∈ onServerLevelPlaced level levels) :
    (id, l) ∈ levels ∨
      level.id = id ∧ l.ticker = toInternalTicker level.ticker ∧ l.price = level.price := by
  unfold onServerLevelPlaced at h
  split at h
  · exact Or.inl h
  · rcases SortedMap.mem_insert.1 h with heq | ⟨hmem, _⟩
    · obtain ⟨rfl, hl⟩ := Prod.mk.inj heq
      exact Or.inr ⟨rfl, by rw [hl], by rw [hl]⟩
    · exact Or.inl hmem

theorem mem_onServerSnapshot (h : (id, l) ∈ onServerSnapshot snapshot) :
    ∃ level ∈ snapshot,
      level.id = id ∧ l.ticker = toInternalTicker level.ticker ∧ l.price = level.price := by
  have hfold : ∀ (snapshot : List SignalLevel) (levels : Levels),
      (id, l) ∈ snapshot.foldl (fun levels level => onServerLevelPlaced level levels) levels →
      (id, l) ∈ levels ∨ ∃ level ∈ snapshot,
        level.id = id ∧ l.ticker = toInternalTicker level.ticker ∧ l.price = level.price := by
    intro snapshot
    induction snapshot with
    | nil => exact fun levels hmem => Or.inl hmem
    | cons level snapshot ih =>
        intro levels hmem
        rcases ih _ hmem with hmem | ⟨level', hin, heq⟩
        · rcases mem_onServerLevelPlaced hmem with hmem | heq
          · exact Or.inl hmem
          · exact Or.inr ⟨level, List.mem_cons_self .., heq⟩
        · exact Or.inr ⟨level', List.mem_cons_of_mem _ hin, heq⟩
  exact (hfold snapshot ∅ h).resolve_left (SortedMap.not_mem_empty _)

/-- The levels of the bridge stem from those it had and those that the notification brings. -/
theorem mem_handle (h : (id, l) ∈ handle n levels) :
    (∃ l', (id, l') ∈ levels ∧ l'.ticker = l.ticker ∧ l'.price = l.price) ∨
      ∃ level ∈ n.levels,
        level.id = id ∧ l.ticker = toInternalTicker level.ticker ∧ l.price = level.price := by
  cases n with
  | snapshot snapshot => exact Or.inr (mem_onServerSnapshot h)
  | placed level =>
      rcases mem_onServerLevelPlaced h with hmem | heq
      · exact Or.inl ⟨l, hmem, rfl, rfl⟩
      · exact Or.inr ⟨level, List.mem_singleton_self _, heq⟩
  | triggered level =>
      simp only [handle, onServerTrigger] at h
      cases hlook : levels.lookup level.id with
      | none =>
          rw [hlook] at h
          exact Or.inl ⟨l, h, rfl, rfl⟩
      | some l' =>
          rw [hlook] at h
          -- only the flag of the level changes
          rcases SortedMap.mem_insert.1 h with heq | ⟨hmem, _⟩
          · obtain ⟨rfl, rfl⟩ := Prod.mk.inj heq
            exact Or.inl ⟨l', SortedMap.lookup_eq_some.1 hlook, rfl, rfl⟩
          · exact Or.inl ⟨l, hmem, rfl, rfl⟩
  | removed id' => exact Or.inl ⟨l, (SortedMap.mem_erase.1 h).1, rfl, rfl⟩
  | removedAll ticker =>
      simp only [handle, onServerRemovedAll] at h
      split at h
      · exact absurd h (SortedMap.not_mem_empty _)
      · obtain ⟨l', hmem, heq⟩ := SortedMap.mem_filterMap.1 h
        split at heq
        · cases heq
        · obtain rfl := Option.some.inj heq
          exact Or.inl ⟨l', hmem, rfl, rfl⟩
  | removedTriggered =>
      obtain ⟨l', hmem, heq⟩ := SortedMap.mem_filterMap.1 h
      split at heq
      · cases heq
      · obtain rfl := Option.some.inj heq
        exact Or.inl ⟨l', hmem, rfl, rfl⟩

end Handling

/-! ## What the server does and reports -/

/-- The notifications `r.2` report all that changes from `srv` to `r.1`. -/
structure Reports (srv : LevelServer) (r : LevelServer × List Notification) : Prop where
  issued : ∀ id key price, srv.Issued id key price → r.1.Issued id key price
  brings : ∀ n ∈ r.2, ∀ level ∈ n.levels,
    r.1.Issued level.id (toInternalTicker level.ticker) level.price
  flag : ∀ id key price, r.1.Issued id key price →
    replay (r.2.map (news id key)) (srv.flagOf id) = r.1.flagOf id
  fresh : ∀ id key price, r.1.Issued id key price →
    srv.Issued id key price ∨ Overwritten (r.2.map (news id key))

section Server

variable {srv : LevelServer} {id : ℤ} {key : Ticker} {price : ℚ} {l : ServerLevel}

theorem LevelServer.Issued.unique {key' : Ticker} {price' : ℚ} (h : srv.Issued id key price)
    (h' : srv.Issued id key' price') : key = key' ∧ price = price' :=
  Prod.mk.inj (SortedMap.eq_of_mem h h')

theorem LevelServer.Issued.pos (h : srv.Issued id key price) : 0 < id := srv.positive _ h

theorem LevelServer.Issued.ticker_eq (h : srv.Issued id key price)
    (hl : srv.levels.lookup id = some l) : toInternalTicker l.ticker = key :=
  (LevelServer.Issued.unique (srv.recorded id l (SortedMap.lookup_eq_some.1 hl)) h).1

theorem LevelServer.flagOf_revise {f : ℤ → ServerLevel → Option Bool} :
    (srv.revise f).flagOf id = (srv.levels.lookup id).bind (f id) := by
  rw [LevelServer.flagOf, LevelServer.revise, SortedMap.lookup_filterMap]
  cases srv.levels.lookup id with
  | none => rfl
  | some l =>
      rw [Option.bind_some, Option.bind_some]
      cases f id l <;> rfl

theorem reports_nil : Reports srv (srv, []) where
  issued := fun _ _ _ h => h
  brings := fun _ hn => absurd hn List.not_mem_nil
  flag := fun _ _ _ _ => rfl
  fresh := fun _ _ _ h => Or.inl h

/-- Levels are dropped and triggered as the notification says. -/
theorem reports_revise {f : ℤ → ServerLevel → Option Bool} {n : Notification} (hn : n.levels = [])
    (hnone : ∀ id key, (news id key n).apply none = none)
    (hsome : ∀ id l, srv.levels.lookup id = some l →
      (news id (toInternalTicker l.ticker) n).apply (some l.triggered) = f id l) :
    Reports srv (srv.revise f, [n]) where
  issued := fun _ _ _ h => h
  brings := by
    intro n' hn' level hlevel
    rw [List.mem_singleton.1 hn', hn] at hlevel
    exact absurd hlevel List.not_mem_nil
  flag := by
    intro id key price h
    have h : srv.Issued id key price := h
    rw [List.map_singleton, replay_cons, replay_nil, LevelServer.flagOf_revise, LevelServer.flagOf]
    cases hl : srv.levels.lookup id with
    | none => exact hnone id key
    | some l =>
        rw [← h.ticker_eq hl]
        exact hsome id l hl
  fresh := fun _ _ _ h => Or.inl h

theorem reports_place (srv : LevelServer) (level : SignalLevel) (byBridge : Bool) :
    Reports srv (srv.place level byBridge) := by
  unfold LevelServer.place
  by_cases h : 0 < level.id ∧ srv.issued.lookup level.id = none
  · rw [dif_pos h]
    refine ⟨?_, ?_, ?_, ?_⟩
    · intro id key price hissued
      refine SortedMap.mem_insert.2 (Or.inr ⟨hissued, fun heq => ?_⟩)
      have hsome : srv.issued.lookup id = some (key, price) := SortedMap.lookup_eq_some.2 hissued
      have heq : id = level.id := heq
      rw [heq, h.2] at hsome
      cases hsome
    · intro n hn level' hlevel'
      rw [List.mem_singleton.1 hn] at hlevel'
      rw [List.mem_singleton.1 hlevel']
      exact SortedMap.mem_insert.2 (Or.inl rfl)
    · intro id key price _
      rw [List.map_singleton, replay_cons, replay_nil, news, LevelServer.flagOf, LevelServer.flagOf,
        SortedMap.lookup_insert]
      by_cases heq : level.id = id
      · rw [if_pos heq, if_pos heq.symm]
        rfl
      · rw [if_neg heq, if_neg (Ne.symm heq)]
        rfl
    · intro id key price hissued
      rcases SortedMap.mem_insert.1 hissued with heq | ⟨hold, _⟩
      · obtain ⟨rfl, _⟩ := Prod.mk.inj heq
        exact Or.inr ⟨.set level.triggered, by simp [news], rfl⟩
      · exact Or.inl hold
  · rw [dif_neg h]
    exact reports_nil

theorem reports_trigger (id : ℤ) : Reports srv (srv.trigger id) := by
  unfold LevelServer.trigger
  cases hlook : srv.levels.lookup id with
  | none => exact reports_nil
  | some level =>
      dsimp only
      by_cases htrig : level.triggered = true
      · rw [if_pos htrig]
        exact reports_nil
      · rw [if_neg htrig]
        have hnews : ∀ id' key l, news id' key (.triggered (LevelServer.report (id, l))) =
            if id = id' then .raise else .other := fun _ _ _ => rfl
        refine reports_revise rfl (fun id' key => ?_) (fun id' l hl => ?_)
        · rw [hnews]
          split <;> rfl
        · rw [hnews]
          by_cases heq : id = id'
          · rw [if_pos heq, decide_eq_true heq.symm]
            rfl
          · rw [if_neg heq, decide_eq_false (Ne.symm heq)]
            rfl

theorem reports_remove (id : ℤ) : Reports srv (srv.remove id) := by
  unfold LevelServer.remove
  cases srv.levels.lookup id with
  | none => exact reports_nil
  | some level =>
      refine reports_revise rfl (fun id' key => ?_) (fun id' l hl => ?_)
      · rw [news]
        split <;> rfl
      · rw [news]
        by_cases heq : id = id'
        · rw [if_pos heq, if_pos heq.symm]
          rfl
        · rw [if_neg heq, if_neg (Ne.symm heq)]
          rfl

theorem reports_removeAll (ticker : Ticker) : Reports srv (srv.removeAll ticker) := by
  refine reports_revise rfl (fun id key => ?_) (fun id l _ => ?_)
  · rw [news]
    split <;> rfl
  · rw [news]
    split <;> rfl

theorem reports_removeTriggered : Reports srv srv.removeTriggered := by
  refine reports_revise rfl (fun id key => rfl) (fun id l _ => ?_)
  rw [news]
  cases l.triggered <;> rfl

/-- Reports of other levels leave a level of a snapshot as it is. -/
theorem flagOf_reports_of_not_mem {entries : List (ℤ × ServerLevel)} {levels : Levels}
    (h : id ∉ entries.map Prod.fst) :
    flagOf ((entries.map LevelServer.report).foldl
      (fun levels level => onServerLevelPlaced level levels) levels) id = flagOf levels id := by
  induction entries generalizing levels with
  | nil => rfl
  | cons e entries ih =>
      rw [List.map_cons, List.mem_cons, not_or] at h
      have hne : ¬ ((LevelServer.report e).id = id ∧ 0 < id) := fun hand => h.1 hand.1.symm
      rw [List.map_cons, List.foldl_cons, ih h.2, flagOf_onServerLevelPlaced, if_neg hne]

/-- A snapshot shows the flags of the server. -/
theorem flagOf_snapshot :
    flagOf (onServerSnapshot (srv.levels.entries.map LevelServer.report)) id = srv.flagOf id := by
  cases hlook : srv.levels.lookup id with
  | none =>
      rw [onServerSnapshot, flagOf_reports_of_not_mem, LevelServer.flagOf, hlook]
      · rfl
      · intro hmem
        obtain ⟨e, he, rfl⟩ := List.mem_map.1 hmem
        have hsome : srv.levels.lookup e.1 = some e.2 := SortedMap.lookup_eq_some.2 he
        rw [hlook] at hsome
        cases hsome
  | some l =>
      have hmem : (id, l) ∈ srv.levels := SortedMap.lookup_eq_some.1 hlook
      have hpos : 0 < id := srv.positive _ (srv.recorded id l hmem)
      have hnodup := srv.levels.nodup
      obtain ⟨pre, post, hsplit⟩ := List.append_of_mem (SortedMap.mem_def.1 hmem)
      have hpost : id ∉ post.map Prod.fst := by
        rw [hsplit, List.map_append, List.map_cons] at hnodup
        exact (List.nodup_cons.1 (List.nodup_append.1 hnodup).2.1).1
      have heq : (LevelServer.report (id, l)).id = id ∧ 0 < id := ⟨rfl, hpos⟩
      rw [onServerSnapshot, hsplit, List.map_append, List.map_cons, List.foldl_append,
        List.foldl_cons, flagOf_reports_of_not_mem hpost, flagOf_onServerLevelPlaced, if_pos heq,
        LevelServer.flagOf, hlook]
      rfl

theorem reports_snapshot : Reports srv (srv, [srv.snapshot]) where
  issued := fun _ _ _ h => h
  brings := by
    intro n hn level hlevel
    rw [List.mem_singleton.1 hn] at hlevel
    obtain ⟨e, he, rfl⟩ := List.mem_map.1 hlevel
    exact srv.recorded e.1 e.2 he
  flag := by
    intro id key price _
    rw [List.map_singleton, replay_cons, replay_nil, LevelServer.snapshot, news, flagOf_snapshot]
    cases srv.flagOf id <;> rfl
  fresh := fun _ _ _ h => Or.inl h

end Server

/-! ## The notifications under way lead to the server -/

/-- The ticker of a call, in the spelling of the program. -/
def Call.key : Call → Ticker
  | .removing _ key _ _ => key
  | .creating key _ _ => key
  | .inserting _ key _ _ => key

namespace LevelExchange

variable {cfg : Config} {x : LevelExchange} {r : LevelServer × List Notification} {id : ℤ}
  {key : Ticker} {price : ℚ} {calls : List Call} {call : Call}

/-- Some call is about to remove level `id`. -/
def Removing (x : LevelExchange) (id : ℤ) : Prop := ∃ call ∈ x.calls, call.removes id = true

/-- The bridge, the notifications and the calls under way, against the server. -/
structure Inv (x : LevelExchange) : Prop where
  active : ∀ id l, (id, l) ∈ x.active → x.server.Issued id l.ticker l.price
  brings : ∀ n ∈ x.sent, ∀ level ∈ n.levels,
    x.server.Issued level.id (toInternalTicker level.ticker) level.price
  keys : ∀ call ∈ x.calls, toInternalTicker call.key = call.key
  inserting : ∀ id key price timestamp, Call.inserting id key price timestamp ∈ x.calls →
    x.server.Issued id key price
  tracks : ∀ id key price, x.server.Issued id key price →
    Tracks (x.sent.map (news id key)) (flagOf x.active id) (x.server.flagOf id) (x.Removing id)

theorem inv_start (server : LevelServer) : Inv (start server) where
  active := fun _ _ h => absurd h (SortedMap.not_mem_empty _)
  brings := reports_snapshot.brings
  keys := fun _ h => absurd h List.not_mem_nil
  inserting := fun _ _ _ _ h => absurd h List.not_mem_nil
  tracks := by
    intro id key price h
    have hover : Overwritten ([server.snapshot].map (news id key)) := by
      refine ⟨_, List.mem_singleton_self _, ?_⟩
      rw [LevelServer.snapshot, news]
      split <;> rfl
    exact Tracks.of_eq ((replay_of_overwritten hover).trans (reports_snapshot.flag id key price h))

/-- The server changes and reports it. A call that is about to remove a level still is, or the level is
    gone. -/
theorem Inv.change (h : Inv x) (hr : Reports x.server r)
    (hkeys : ∀ call ∈ calls, toInternalTicker call.key = call.key)
    (hinserting : ∀ id key price timestamp, Call.inserting id key price timestamp ∈ calls →
      r.1.Issued id key price)
    (hremoving : ∀ id key, x.Removing id → (∃ call ∈ calls, call.removes id = true) ∨
      r.1.flagOf id = none ∨ Overwritten (r.2.map (news id key))) :
    Inv { x.change r with calls := calls } where
  active := fun id l hl => hr.issued _ _ _ (h.active id l hl)
  brings := by
    intro n hn level hlevel
    rcases List.mem_append.1 hn with hold | hnew
    · exact hr.issued _ _ _ (h.brings n hold level hlevel)
    · exact hr.brings n hnew level hlevel
  keys := hkeys
  inserting := hinserting
  tracks := by
    intro id key price hissued
    have hflag := hr.flag id key price hissued
    show Tracks ((x.sent ++ r.2).map (news id key)) _ _ _
    rw [List.map_append]
    rcases hr.fresh id key price hissued with hold | hover
    · exact (h.tracks id key price hold).report hflag (hremoving id key)
    · refine Tracks.of_eq ?_
      rw [replay_append]
      exact (replay_of_overwritten hover).trans hflag

/-- Others change the server. -/
theorem Inv.others (h : Inv x) (hr : Reports x.server r) : Inv (x.change r) :=
  h.change hr h.keys (fun id key price timestamp hin =>
    hr.issued _ _ _ (h.inserting id key price timestamp hin)) (fun _ _ hrem => Or.inl hrem)

theorem Inv.deliver {n : Notification} {rest : List Notification} (h : Inv x)
    (hsent : x.sent = n :: rest) : Inv { x with active := handle n x.active, sent := rest } where
  active := by
    intro id l hl
    rcases mem_handle hl with ⟨l', hmem, hticker, hprice⟩ | ⟨level, hlevel, rfl, hticker, hprice⟩
    · rw [← hticker, ← hprice]
      exact h.active id l' hmem
    · rw [hticker, hprice]
      exact h.brings n (hsent ▸ List.mem_cons_self ..) level hlevel
  brings := fun n' hn' => h.brings n' (hsent ▸ List.mem_cons_of_mem _ hn')
  keys := h.keys
  inserting := h.inserting
  tracks := by
    intro id key price hissued
    have htracks := h.tracks id key price hissued
    rw [hsent, List.map_cons] at htracks
    have hkey : ∀ l, (id, l) ∈ x.active → l.ticker = key :=
      fun l hl => ((h.active id l hl).unique hissued).1
    show Tracks (rest.map (news id key)) (flagOf (handle n x.active) id) _ _
    rw [flagOf_handle hissued.pos hkey]
    exact htracks.deliver

/-- A call begins, and a level that it is going to remove is dropped. -/
theorem Inv.cons {levels : Levels} (h : Inv x) (hkey : toInternalTicker call.key = call.key)
    (hinserting : ∀ id key price timestamp, Call.inserting id key price timestamp ≠ call)
    (hsub : ∀ e ∈ levels, e ∈ x.active)
    (hflag : ∀ id, flagOf levels id = flagOf x.active id ∨
      flagOf levels id = none ∧ call.removes id = true) :
    Inv { x with active := levels, calls := call :: x.calls } where
  active := fun id l hl => h.active id l (hsub (id, l) hl)
  brings := h.brings
  keys := List.forall_mem_cons.2 ⟨hkey, h.keys⟩
  inserting := by
    intro id key price timestamp hin
    rcases List.mem_cons.1 hin with heq | hin
    · exact absurd heq (hinserting id key price timestamp)
    · exact h.inserting id key price timestamp hin
  tracks := by
    intro id key price hissued
    have htracks := h.tracks id key price hissued
    show Tracks _ (flagOf levels id) _ _
    rcases hflag id with hsame | ⟨hnone, hremoves⟩
    · rw [hsame]
      refine htracks.mono ?_
      exact fun ⟨call', hin, hrem⟩ => ⟨call', List.mem_cons_of_mem _ hin, hrem⟩
    · rw [hnone]
      exact htracks.drop ⟨call, List.mem_cons_self .., hremoves⟩

/-- The check of the limit drops a level that its call is going to remove. -/
theorem Inv.begin (h : Inv x) (ticker : Ticker) (price : ℚ) (timestamp : TimePoint)
    (currentMid : ℚ) : Inv (x.begin cfg ticker price timestamp currentMid) := by
  unfold LevelExchange.begin checkLimit
  by_cases henabled : cfg.enabled = true
  · rw [if_pos henabled]
    have hidem := toInternalTicker_idem ticker
    generalize toInternalTicker ticker = key at hidem ⊢
    cases hevict : evicted cfg currentMid x.active with
    | none =>
        dsimp only
        rw [if_neg (by decide)]
        exact h.cons hidem (fun _ _ _ _ => Call.noConfusion) (fun _ he => he) (fun _ => Or.inl rfl)
    | some v =>
        obtain ⟨l, hl⟩ := evicted_mem hevict
        have hpos : 0 ≤ v := le_of_lt (h.active v l hl).pos
        dsimp only
        rw [if_pos hpos]
        refine h.cons hidem (fun _ _ _ _ => Call.noConfusion)
          (fun _ he => (SortedMap.mem_erase.1 he).1) (fun id => ?_)
        rw [flagOf, SortedMap.lookup_erase]
        by_cases heq : id = v
        · exact Or.inr ⟨by rw [if_pos heq]; rfl, decide_eq_true heq.symm⟩
        · exact Or.inl (by rw [if_neg heq, flagOf])
  · rw [if_neg henabled]
    exact h

/-- A call that does not remove a level leaves the others to remove theirs. -/
theorem Removing.of_erase (hcall : call.removes id = false) (h : x.Removing id) :
    ∃ call' ∈ x.calls.erase call, call'.removes id = true := by
  obtain ⟨call', hin, hrem⟩ := h
  refine ⟨call', (List.mem_erase_of_ne (fun heq => ?_)).2 hin, hrem⟩
  rw [heq, hcall] at hrem
  cases hrem

theorem Inv.remove {evictId : ℤ} {timestamp : TimePoint} (h : Inv x)
    (hin : Call.removing evictId key price timestamp ∈ x.calls) :
    Inv { x.change (x.server.remove evictId) with
      calls := .creating key price timestamp ::
        x.calls.erase (.removing evictId key price timestamp) } := by
  have hkey : toInternalTicker key = key := h.keys (.removing evictId key price timestamp) hin
  refine h.change (reports_remove evictId) ?_ ?_ ?_
  · exact List.forall_mem_cons.2
      ⟨hkey, fun call hcall => h.keys call (List.mem_of_mem_erase hcall)⟩
  · intro id key' price' timestamp' hin'
    rcases List.mem_cons.1 hin' with heq | hin'
    · exact Call.noConfusion heq
    · exact (reports_remove evictId).issued _ _ _
        (h.inserting id key' price' timestamp' (List.mem_of_mem_erase hin'))
  · intro id key' hrem
    by_cases heq : evictId = id
    · subst heq
      right
      unfold LevelServer.remove
      cases hlook : x.server.levels.lookup evictId with
      | none => exact Or.inl (by rw [LevelServer.flagOf, hlook]; rfl)
      | some l => exact Or.inr ⟨.clear, by simp [news], rfl⟩
    · have hcall : (Call.removing evictId key price timestamp).removes id = false :=
        decide_eq_false heq
      obtain ⟨call, hcall, hremoves⟩ := hrem.of_erase hcall
      exact Or.inl ⟨call, List.mem_cons_of_mem _ hcall, hremoves⟩

theorem Inv.create {timestamp now : TimePoint} (h : Inv x)
    (hin : Call.creating key price timestamp ∈ x.calls)
    (hfresh : 0 < id ∧ x.server.issued.lookup id = none) :
    Inv { x.change (x.server.place
        { id := id, ticker := key, price := price, createdAt := now } true) with
      calls := .inserting id key price timestamp ::
        x.calls.erase (.creating key price timestamp) } := by
  have hr := reports_place x.server
    { id := id, ticker := key, price := price, createdAt := now } true
  have hkey : toInternalTicker key = key := h.keys (.creating key price timestamp) hin
  refine h.change hr ?_ ?_ ?_
  · exact List.forall_mem_cons.2
      ⟨hkey, fun call hcall => h.keys call (List.mem_of_mem_erase hcall)⟩
  · intro id' key' price' timestamp' hin'
    rcases List.mem_cons.1 hin' with heq | hin'
    · obtain ⟨rfl, rfl, rfl, rfl⟩ := Call.inserting.inj heq
      rw [LevelServer.place, dif_pos hfresh]
      refine SortedMap.mem_insert.2 (Or.inl ?_)
      rw [hkey]
    · exact hr.issued _ _ _ (h.inserting id' key' price' timestamp' (List.mem_of_mem_erase hin'))
  · intro id' key' hrem
    have hcall : (Call.creating key price timestamp).removes id' = false := rfl
    obtain ⟨call, hcall, hremoves⟩ := hrem.of_erase hcall
    exact Or.inl ⟨call, List.mem_cons_of_mem _ hcall, hremoves⟩

/-- The insertion of a created level, in time. -/
theorem Inv.insert {timestamp : TimePoint} (h : Inv x)
    (hin : Call.inserting id key price timestamp ∈ x.calls)
    (htime : InTime (x.sent.map (news id key)) (x.server.flagOf id)) :
    Inv { x with
      active := insertCreated id key price timestamp x.active
      calls := x.calls.erase (.inserting id key price timestamp) } := by
  have hissued := h.inserting id key price timestamp hin
  rw [insertCreated, if_pos hissued.pos]
  refine ⟨?_, h.brings, fun call hcall => h.keys call (List.mem_of_mem_erase hcall), ?_, ?_⟩
  · intro id' l hl
    rcases SortedMap.mem_insert.1 hl with heq | ⟨hl, _⟩
    · obtain ⟨rfl, rfl⟩ := Prod.mk.inj heq
      exact hissued
    · exact h.active id' l hl
  · intro id' key' price' timestamp' hin'
    exact h.inserting id' key' price' timestamp' (List.mem_of_mem_erase hin')
  · intro id' key' price' hissued'
    have htracks := h.tracks id' key' price' hissued'
    have hrem : ∀ id', x.Removing id' →
        ∃ call ∈ x.calls.erase (.inserting id key price timestamp), call.removes id' = true :=
      fun id' hrem => hrem.of_erase rfl
    show Tracks _ (flagOf (x.active.insert id _) id') _ _
    rw [flagOf_insert]
    by_cases heq : id' = id
    · subst heq
      obtain ⟨rfl, _⟩ := hissued.unique hissued'
      rw [if_pos rfl]
      exact (htracks.write htime).mono (hrem id')
    · rw [if_neg heq]
      exact htracks.mono (hrem id')

/-- Once everything has arrived, the bridge knows the levels of the server. -/
theorem Inv.mirrors (h : Inv x) (hquiet : x.Quiet) : x.Mirrors := by
  obtain ⟨hcalls, hsent⟩ := hquiet
  have hremoving : ∀ id, ¬ x.Removing id := by
    rintro id ⟨call, hin, _⟩
    rw [hcalls] at hin
    exact absurd hin List.not_mem_nil
  have hflag : ∀ id key price, x.server.Issued id key price →
      flagOf x.active id = x.server.flagOf id := by
    intro id key price hissued
    have htracks := h.tracks id key price hissued
    rw [hsent] at htracks
    exact htracks.eq_of_quiet (hremoving id)
  intro id
  cases hactive : x.active.lookup id with
  | none =>
      cases hserver : x.server.levels.lookup id with
      | none => rfl
      | some l =>
          have heq := hflag id _ _ (x.server.recorded id l (SortedMap.lookup_eq_some.1 hserver))
          rw [flagOf, LevelServer.flagOf, hactive, hserver] at heq
          cases heq
  | some l =>
      have hissued := h.active id l (SortedMap.lookup_eq_some.1 hactive)
      have heq := hflag id _ _ hissued
      rw [flagOf, LevelServer.flagOf, hactive] at heq
      obtain ⟨l', hserver, hl'⟩ := Option.map_eq_some_iff.1 heq.symm
      have hrecorded := x.server.recorded id l' (SortedMap.lookup_eq_some.1 hserver)
      obtain ⟨hticker, hprice⟩ := hissued.unique hrecorded
      rw [hserver, Option.map_some, Option.map_some, hticker, hprice, hl']

end LevelExchange

end SignalLevelBridge

end TradeBot
