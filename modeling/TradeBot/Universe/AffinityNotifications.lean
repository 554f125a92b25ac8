import TradeBot.Lib.Histories
import TradeBot.Lib.Switches
import TradeBot.Universe.TickerPool

set_option autoImplicit false

/-! # Affinity notifications

The subscribers of the affinity changes add and remove strategies and controllers by them, so replaying
the changes should give the affinity map. The affinity layer reports every change that it makes; the
pool drops the entries of a ticker that falls out without a report. `notifications_match_iff` says that
this is the only thing that goes wrong.

The reports are a log of switches, one key for each ticker and strategy, and the mirror of the map is
what `Lib/Switches` reads off the log. An entry for a disabled strategy is the same as no entry,
which is why the pool may drop such entries without a report. -/

namespace TradeBot

open Histories Switches

/-- What a change is about. -/
abbrev AffinityChange.pair (c : AffinityChange) : Ticker × String := (c.ticker, c.strategy)

namespace TickerPool

/-- The log of changes mirrors an affinity map. -/
abbrev Mirrors (log : List AffinityChange) (affinity : AffinityMap) : Prop :=
  Tracks AffinityChange.pair AffinityChange.enabled log
    (enabledAt affinity)

/-- A refresh of the pool keeps every ticker that has an enabled strategy. -/
def DropsNoneEnabled (pool : TickerPool) (op : Op) : Prop :=
  ∀ refresh ∈ pool.refreshOf op, ∀ k, enabledAt pool.affinity k = true → k.1 ∈ refresh.2

variable {pool : TickerPool} {log : List AffinityChange} {affinity : AffinityMap}

/-- A change of one entry that is logged. -/
theorem Mirrors.insert {ticker : Ticker} {entry : AList (fun _ : String => Bool)}
    (h : Mirrors log (affinity.insert ticker entry)) {strategy : String} {enabled : Bool}
    (hchange : enabled ≠ (entry.lookup strategy).getD false) :
    Mirrors (log ++ [⟨ticker, strategy, enabled⟩])
      (affinity.insert ticker (entry.insert strategy enabled)) := by
  have hprev : enabled ≠ enabledAt (affinity.insert ticker entry) (ticker, strategy) := by
    rw [enabledAt_insert, if_pos rfl]
    exact hchange
  refine (h.switch (a := ⟨ticker, strategy, enabled⟩) hprev).congr (fun k => ?_)
  obtain ⟨t, s⟩ := k
  by_cases hk : (t, s) = (ticker, strategy)
  · obtain ⟨rfl, rfl⟩ := Prod.mk.inj hk
    rw [Function.update_self, enabledAt_insert, if_pos rfl, AList.lookup_insert]
    rfl
  · rw [Function.update_of_ne hk, enabledAt_insert, enabledAt_insert]
    by_cases ht : t = ticker
    · have hs : s ≠ strategy := fun hs => hk (by rw [ht, hs])
      simp only [if_pos ht, AList.lookup_insert_ne hs]
    · simp only [if_neg ht]

/-- An entry for a disabled strategy, or none, is the same. -/
theorem Mirrors.insert_silent {ticker : Ticker} {entry : AList (fun _ : String => Bool)}
    (h : Mirrors log (affinity.insert ticker entry)) {strategy : String} {enabled : Bool}
    (hsame : enabled = (entry.lookup strategy).getD false) :
    Mirrors log (affinity.insert ticker (entry.insert strategy enabled)) := by
  refine h.congr (fun k => ?_)
  rw [enabledAt_insert, enabledAt_insert]
  by_cases ht : k.1 = ticker
  · rw [if_pos ht, if_pos ht]
    by_cases hs : k.2 = strategy
    · rw [hs, AList.lookup_insert, hsame]
      rfl
    · rw [AList.lookup_insert_ne hs]
  · rw [if_neg ht, if_neg ht]

theorem collectStrategy_mirrors {scores : AffinityScores} {ticker : Ticker}
    {r : AList (fun _ : String => Bool) × List AffinityChange}
    (h : Mirrors (log ++ r.2) (affinity.insert ticker r.1)) (strategy : String) :
    Mirrors (log ++ (collectStrategy scores ticker r strategy).2)
      (affinity.insert ticker (collectStrategy scores ticker r strategy).1) := by
  unfold collectStrategy
  cases hprev : r.1.lookup strategy with
  | none =>
      by_cases henabled : scores strategy ticker = true
      · simp only [henabled, if_true, ← List.append_assoc]
        exact h.insert (by simp [hprev])
      · rw [Bool.not_eq_true] at henabled
        simp only [henabled, Bool.false_eq_true, if_false]
        exact h.insert_silent (by simp [hprev])
  | some prev =>
      by_cases hchange : prev = scores strategy ticker
      · simp only [hchange, ne_eq, not_true_eq_false, if_false]
        exact h
      · simp only [ne_eq, hchange, not_false_eq_true, if_true, ← List.append_assoc]
        exact h.insert (by simpa [hprev] using Ne.symm hchange)

/-- Writing an entry back, or an empty one where there was none. -/
theorem Mirrors.reinsert (h : Mirrors log affinity) (ticker : Ticker) :
    Mirrors log (affinity.insert ticker ((affinity.lookup ticker).getD ∅)) := by
  refine h.congr (fun k => ?_)
  rw [enabledAt_insert]
  by_cases ht : k.1 = ticker
  · rw [if_pos ht, enabledAt, ht]
    cases affinity.lookup ticker with
    | none => simp
    | some entry => rfl
  · rw [if_neg ht]

theorem collectTicker_mirrors {scores : AffinityScores} {r : AffinityMap × List AffinityChange}
    (h : Mirrors (log ++ r.2) r.1) (ticker : Ticker) :
    Mirrors (log ++ (pool.collectTicker scores r ticker).2)
      (pool.collectTicker scores r ticker).1 :=
  Runs.invariant
    (fun e : AList (fun _ : String => Bool) × List AffinityChange =>
      Mirrors (log ++ e.2) (r.1.insert ticker e.1))
    (fun _ strategy he => collectStrategy_mirrors he strategy) pool.strategies (h.reinsert ticker)

/-- The affinity layer reports what it changes. -/
theorem collectAffinityChanges_mirrors (scores : AffinityScores) (h : Mirrors log pool.affinity) :
    Mirrors (log ++ (pool.collectAffinityChanges scores).2)
      (pool.collectAffinityChanges scores).1.affinity :=
  Runs.invariant
    (fun r : AffinityMap × List AffinityChange => Mirrors (log ++ r.2) r.1)
    (fun _ ticker hr => collectTicker_mirrors hr ticker) pool.active
    (by simpa using h)

/-! ## Tickers outside the pool -/

theorem collectTicker_changes {scores : AffinityScores} (r : AffinityMap × List AffinityChange)
    (ticker : Ticker) :
    ∀ c ∈ (pool.collectTicker scores r ticker).2, c ∈ r.2 ∨ c.ticker = ticker :=
  Runs.invariant
    (fun e : AList (fun _ : String => Bool) × List AffinityChange =>
      ∀ c ∈ e.2, c ∈ r.2 ∨ c.ticker = ticker)
    (fun e strategy he => by
      have happend : ∀ c ∈ e.2 ++ [⟨ticker, strategy, scores strategy ticker⟩],
          c ∈ r.2 ∨ c.ticker = ticker := fun c hc => (List.mem_append.1 hc).elim (he c)
        (fun hc => Or.inr (by rw [List.mem_singleton.1 hc]))
      unfold collectStrategy
      cases e.1.lookup strategy with
      | none =>
          dsimp only
          split
          · exact happend
          · exact he
      | some prev =>
          dsimp only
          split
          · exact happend
          · exact he)
    pool.strategies (fun _ hc => Or.inl hc)

/-- The affinity pass changes nothing about a ticker outside the pool. -/
theorem collect_lookup (scores : AffinityScores) {t : Ticker} (ht : t ∉ pool.active) :
    (pool.collectAffinityChanges scores).1.affinity.lookup t = pool.affinity.lookup t := by
  have hfold : ∀ (l : List Ticker) (r : AffinityMap × List AffinityChange), t ∉ l →
      (l.foldl (pool.collectTicker scores) r).1.lookup t = r.1.lookup t := by
    intro l
    induction l with
    | nil => exact fun _ _ => rfl
    | cons x l ih =>
        intro r hout
        obtain ⟨hx, hl⟩ := not_or.1 (mt List.mem_cons.2 hout)
        exact (ih (pool.collectTicker scores r x) hl).trans (AList.lookup_insert_ne hx)
  exact hfold pool.active (pool.affinity, []) ht

/-- It reports tickers of the pool only. -/
theorem collect_changes (scores : AffinityScores) :
    ∀ c ∈ (pool.collectAffinityChanges scores).2, c.ticker ∈ pool.active := by
  have hfold : ∀ (l : List Ticker) (r : AffinityMap × List AffinityChange),
      ∀ c ∈ (l.foldl (pool.collectTicker scores) r).2, c ∈ r.2 ∨ c.ticker ∈ l := by
    intro l
    induction l with
    | nil => exact fun _ c hc => Or.inl hc
    | cons x l ih =>
        intro r c hc
        rcases ih (pool.collectTicker scores r x) c hc with hc | hc
        · rcases collectTicker_changes r x c hc with hc | heq
          · exact Or.inl hc
          · exact Or.inr (heq ▸ List.mem_cons_self ..)
        · exact Or.inr (List.mem_cons_of_mem _ hc)
  exact fun c hc => (hfold pool.active (pool.affinity, []) c hc).elim
    (fun hnil => absurd hnil List.not_mem_nil) id

/-- What is not reported is not seen. -/
theorem lit_append_of_absent {new : List AffinityChange} {k : Ticker × String}
    (h : ∀ c ∈ new, c.ticker ≠ k.1) :
    lit AffinityChange.pair AffinityChange.enabled (log ++ new) k
      = lit AffinityChange.pair AffinityChange.enabled log k := by
  have hnone : flags AffinityChange.pair AffinityChange.enabled new k
      = [] := by
    rw [flags, List.map_eq_nil_iff, List.filter_eq_nil_iff]
    exact fun c hc heq => h c hc (congrArg Prod.fst (of_decide_eq_true heq))
  rw [lit, lit, flags, List.filter_append, List.map_append, ← flags, ← flags, hnone,
    List.append_nil]

/-! ## One operation -/

theorem mirrors_keepActive_iff (h : Mirrors log pool.affinity) (active : List Ticker) :
    Mirrors log (keepActive active pool.affinity) ↔
      ∀ k, enabledAt pool.affinity k = true → k.1 ∈ active := by
  constructor
  · intro hkept k hk
    by_contra hout
    refine h.not_silent (k := k) ?_ hkept
    rw [enabledAt_keepActive, if_neg hout, hk]
    exact Bool.false_ne_true
  · intro hkeep
    refine h.congr (fun k => ?_)
    rw [enabledAt_keepActive]
    by_cases hk : k.1 ∈ active
    · rw [if_pos hk]
    · rw [if_neg hk]
      exact (Bool.eq_false_iff.2 (mt (hkeep k) hk)).symm

/-- A refresh of the pool and the affinity pass after it. -/
theorem mirrors_refresh_iff (h : Mirrors log pool.affinity) {refreshed : TickerPool}
    (scores : AffinityScores)
    (haff : refreshed.affinity = keepActive refreshed.active pool.affinity) :
    Mirrors (log ++ (refreshed.collectAffinityChanges scores).2)
        (refreshed.collectAffinityChanges scores).1.affinity ↔
      ∀ k, enabledAt pool.affinity k = true → k.1 ∈ refreshed.active := by
  constructor
  · intro hmirrors k hk
    by_contra hout
    have hoff : enabledAt (refreshed.collectAffinityChanges scores).1.affinity k = false := by
      rw [enabledAt, collect_lookup scores hout, ← enabledAt, haff, enabledAt_keepActive, if_neg hout]
    have hnew : ∀ c ∈ (refreshed.collectAffinityChanges scores).2, c.ticker ≠ k.1 :=
      fun c hc hct => hout (hct ▸ collect_changes scores c hc)
    have hlit := hmirrors.lit k
    rw [lit_append_of_absent hnew, h.lit k, hk, hoff] at hlit
    exact Bool.noConfusion hlit
  · intro hkeep
    refine collectAffinityChanges_mirrors scores ?_
    rw [haff]
    exact (mirrors_keepActive_iff h refreshed.active).2 hkeep

theorem overrideAffinity_mirrors (h : Mirrors log pool.affinity) (ticker : Ticker)
    (strategy : String) (enabled : Bool) :
    Mirrors (log ++ (pool.overrideAffinity ticker strategy enabled).2)
      (pool.overrideAffinity ticker strategy enabled).1.affinity := by
  unfold overrideAffinity
  dsimp only
  split
  · next hchange => exact (h.reinsert _).insert (Ne.symm hchange)
  · next hsame =>
      rw [List.append_nil]
      exact (h.reinsert _).insert_silent (not_ne_iff.1 hsame).symm

theorem dropsNoneEnabled_of_none {op : Op} (hnone : pool.refreshOf op = none) :
    DropsNoneEnabled pool op := by
  intro refresh hrefresh
  rw [hnone] at hrefresh
  exact absurd hrefresh (Option.not_mem_none _)

/-- An operation keeps the mirror, unless it drops a ticker with an enabled strategy. -/
theorem step_mirrors_iff (h : Mirrors log pool.affinity) (op : Op) :
    Mirrors (log ++ (pool.step op).2) (pool.step op).1.affinity ↔ DropsNoneEnabled pool op := by
  cases op with
  | refreshPool stats available now =>
      show Mirrors (log ++ []) (keepActive _ pool.affinity) ↔ _
      rw [List.append_nil, mirrors_keepActive_iff h]
      simp [DropsNoneEnabled, refreshOf]
  | refreshAffinity scores =>
      exact iff_of_true (collectAffinityChanges_mirrors scores h) (dropsNoneEnabled_of_none rfl)
  | overrideAffinity ticker strategy enabled =>
      exact iff_of_true (overrideAffinity_mirrors h ticker strategy enabled)
        (dropsNoneEnabled_of_none rfl)
  | onBigEvent ticker scores now =>
      exact iff_of_true (collectAffinityChanges_mirrors scores h) (dropsNoneEnabled_of_none rfl)
  | onScreenerNewCoin ticker stats scores now =>
      by_cases hrebuilds : pool.rebuildsFor (toInternalTicker ticker) = true
      · simp only [step, onScreenerNewCoin, DropsNoneEnabled, refreshOf, if_pos hrebuilds,
          Option.mem_some_iff, forall_eq']
        exact mirrors_refresh_iff h scores rfl
      · simp only [step, onScreenerNewCoin, if_neg hrebuilds, List.append_nil]
        exact iff_of_true h (dropsNoneEnabled_of_none (if_neg hrebuilds))
  | registerStrategy name =>
      refine iff_of_true ?_ (dropsNoneEnabled_of_none rfl)
      show Mirrors (log ++ []) (pool.registerStrategy name).affinity
      rw [List.append_nil, registerStrategy_affinity]
      exact h
  | seedCandidates candidates =>
      refine iff_of_true ?_ (dropsNoneEnabled_of_none rfl)
      show Mirrors (log ++ []) pool.affinity
      rw [List.append_nil]
      exact h

/-- The reports speak of normalized tickers. -/
theorem step_changes_normalized (h : Normalized pool) (op : Op) :
    ∀ c ∈ (pool.step op).2, toInternalTicker c.ticker = c.ticker := by
  have hcollect : ∀ (p : TickerPool) (scores : AffinityScores), Normalized p →
      ∀ c ∈ (p.collectAffinityChanges scores).2, toInternalTicker c.ticker = c.ticker :=
    fun p scores hp c hc => hp.active c.ticker (collect_changes scores c hc)
  cases op with
  | refreshPool stats available now => exact fun c hc => absurd hc List.not_mem_nil
  | refreshAffinity scores => exact hcollect pool scores h
  | overrideAffinity ticker strategy enabled =>
      intro c hc
      simp only [step, overrideAffinity] at hc
      split at hc
      · rw [List.mem_singleton.1 hc]
        dsimp only
        exact toInternalTicker_idem ticker
      · exact absurd hc List.not_mem_nil
  | onBigEvent ticker scores now => exact hcollect _ scores (h.congr rfl rfl)
  | onScreenerNewCoin ticker stats scores now =>
      intro c hc
      simp only [step, onScreenerNewCoin] at hc
      split at hc
      · refine hcollect _ scores ?_ c hc
        refine Normalized.refreshPoolLocked ?_ stats _ now
        exact h.congr rfl rfl
      · exact absurd hc List.not_mem_nil
  | registerStrategy name => exact fun c hc => absurd hc List.not_mem_nil
  | seedCandidates candidates => exact fun c hc => absurd hc List.not_mem_nil

/-! ## Runs -/

/-- Replaying the log of changes gives the affinity state, and the changes of every pair alternate. -/
structure Replays (log : List AffinityChange) (pool : TickerPool) : Prop where
  state : ∀ ticker strategy,
    lit AffinityChange.pair AffinityChange.enabled log
      (toInternalTicker ticker, strategy) = pool.isStrategyEnabled ticker strategy
  alternating : ∀ k,
    Alternating (flags AffinityChange.pair AffinityChange.enabled
      log k)

/-- A ticker that leaves the pool is reported disabled for each strategy that it had enabled. -/
def LeaversReported (pool : TickerPool) (op : Op) : Prop :=
  ∀ t ∈ pool.active, t ∉ (pool.step op).1.active →
    ∀ strategy, pool.isStrategyEnabled t strategy = true → ⟨t, strategy, false⟩ ∈ (pool.step op).2

theorem replays_iff (hpool : Normalized pool)
    (hlog : ∀ c ∈ log, toInternalTicker c.ticker = c.ticker) :
    Replays log pool ↔ Mirrors log pool.affinity := by
  constructor
  · refine fun h => ⟨fun k => ?_, h.alternating⟩
    by_cases hk : toInternalTicker k.1 = k.1
    · have hstate := h.state k.1 k.2
      rw [isStrategyEnabled_eq, hk] at hstate
      exact hstate
    · have hnone : pool.affinity.lookup k.1 = none :=
        AList.lookup_eq_none.2 (fun hin => hk (hpool.affinity k.1 hin))
      have hlit : lit AffinityChange.pair AffinityChange.enabled ([] ++ log) k = false :=
        lit_append_of_absent (fun c hc heq => hk (heq ▸ hlog c hc))
      rw [← List.nil_append log, hlit, enabledAt, hnone]
      rfl
  · exact fun h => ⟨fun ticker strategy => by rw [h.lit, isStrategyEnabled_eq], h.alternating⟩

theorem leaversReported_of_dropsNoneEnabled (hpool : Normalized pool) {op : Op}
    (h : DropsNoneEnabled pool op) : LeaversReported pool op := by
  intro t ht hleaves strategy henabled
  rw [isStrategyEnabled_eq, hpool.active t ht] at henabled
  rw [step_active] at hleaves
  cases hrefresh : pool.refreshOf op with
  | none =>
      rw [hrefresh] at hleaves
      exact absurd ht hleaves
  | some refresh =>
      rw [hrefresh] at hleaves
      exact absurd (h refresh hrefresh (t, strategy) henabled) hleaves

theorem throughout_replays_iff (hpool : Normalized pool) (h : Mirrors log pool.affinity)
    (hlog : ∀ c ∈ log, toInternalTicker c.ticker = c.ticker) (ops : List Op) :
    Throughout (fun pre => Replays (log ++ changes pool pre) (pool.run pre)) ops ↔
      Runs.Along (fun pool op => (pool.step op).1) DropsNoneEnabled pool ops := by
  induction ops generalizing pool log with
  | nil =>
      refine iff_of_true (fun pre hpre => ?_) trivial
      rw [List.prefix_nil.1 hpre]
      simpa [changes, run] using (replays_iff hpool hlog).2 h
  | cons op ops ih =>
      have hlog' : ∀ c ∈ log ++ (pool.step op).2, toInternalTicker c.ticker = c.ticker :=
        fun c hc => (List.mem_append.1 hc).elim (hlog c) (step_changes_normalized hpool op c)
      have hstep := step_mirrors_iff h op
      have htail : ∀ pre, Replays (log ++ changes pool (op :: pre)) (pool.run (op :: pre)) ↔
          Replays ((log ++ (pool.step op).2) ++ changes (pool.step op).1 pre)
            ((pool.step op).1.run pre) := by
        intro pre
        rw [changes, ← List.append_assoc]
        rfl
      simp only [throughout_cons, htail, Runs.Along]
      constructor
      · rintro ⟨_, hrest⟩
        have hnext := hrest [] List.nil_prefix
        simp only [changes, run, List.foldl_nil, List.append_nil] at hnext
        have hmirrors := (replays_iff (hpool.step op) hlog').1 hnext
        exact ⟨hstep.1 hmirrors, (ih (hpool.step op) hmirrors hlog').1 hrest⟩
      · rintro ⟨hop, hops⟩
        refine ⟨?_, (ih (hpool.step op) (hstep.2 hop) hlog').2 hops⟩
        simpa [changes, run] using (replays_iff hpool hlog).2 h

/-- In a run from the empty pool the notifications match the affinity state after every operation,
    and every ticker that leaves is reported, if and only if no refresh of the pool drops a ticker
    with an enabled strategy. -/
theorem notifications_match_iff (boostTtl : TimePoint) (cfg : PoolConfig) (accepts : Ticker → Bool)
    (volumeSort : VolumeSort) (ops : List Op) :
    (Throughout (fun pre => Replays (changes (init boostTtl cfg accepts volumeSort) pre)
          ((init boostTtl cfg accepts volumeSort).run pre)) ops ∧
        Runs.Along (fun pool op => (pool.step op).1) LeaversReported
          (init boostTtl cfg accepts volumeSort) ops) ↔
      Runs.Along (fun pool op => (pool.step op).1) DropsNoneEnabled
        (init boostTtl cfg accepts volumeSort) ops := by
  have hinit := normalized_init boostTtl cfg accepts volumeSort
  have hmirrors : Mirrors [] (init boostTtl cfg accepts volumeSort).affinity := tracks_nil
  have hrun := throughout_replays_iff hinit hmirrors (fun c hc => absurd hc List.not_mem_nil) ops
  refine ⟨fun h => hrun.1 h.1, fun h => ⟨hrun.2 h, ?_⟩⟩
  exact h.imp Normalized (fun pool op hpool _ => hpool.step op)
    (fun pool op hpool hop => leaversReported_of_dropsNoneEnabled hpool hop) hinit

/-- BTC enters the pool, a strategy is enabled for it, and it falls out again. -/
def dropRun : List Op :=
  [.refreshPool (fun _ => none) ["BTC_USDT"] 0, .registerStrategy "bounce",
    .refreshAffinity (fun _ _ => true), .refreshPool (fun _ => none) [] 1]

/-- The strategy was reported enabled, and it still is by the reports. -/
theorem dropped_ticker_not_reported :
    ¬ ∀ boostTtl cfg accepts volumeSort ops,
        Throughout (fun pre => Replays (changes (init boostTtl cfg accepts volumeSort) pre)
          ((init boostTtl cfg accepts volumeSort).run pre)) ops ∧
        Runs.Along (fun pool op => (pool.step op).1) LeaversReported
          (init boostTtl cfg accepts volumeSort) ops := by
  intro hall
  have hreplays := (hall 0 {} (fun _ => true) .stable dropRun).1.last
  have hstate := hreplays.state "BTC_USDT" "bounce"
  have hlit : lit AffinityChange.pair AffinityChange.enabled
      (changes (init 0 {} (fun _ => true) .stable) dropRun)
      (toInternalTicker "BTC_USDT", "bounce") = true := by decide +kernel
  have hgone : ((init 0 {} (fun _ => true) .stable).run dropRun).isStrategyEnabled "BTC_USDT"
      "bounce" = false := by decide +kernel
  rw [hlit, hgone] at hstate
  exact Bool.noConfusion hstate

end TickerPool

end TradeBot
