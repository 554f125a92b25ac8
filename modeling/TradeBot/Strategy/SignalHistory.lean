import Mathlib.Data.List.Induction
import TradeBot.Lib.SortedSlices
import TradeBot.Strategy.StrategyContext

set_option autoImplicit false

/-! # The signal history

Which signals a context still holds. Expiry and compaction drop stale signals only. The hard cap keeps
the newest half of `kMaxHistorySize`, stale ones counted among the rest; it loses live signals when there
are more of them than that.

`kept` is what a query looks at, from the head on. One update is compared with the list of all
signals, cut by cut (`kept_updateSignal`), and a run of updates with the signals that are live at its
end. Either what is gone is stale, or half of the cap has been kept (`Retains`). -/

namespace TradeBot.StrategyContext

/-- Less than 180 seconds older than `now`. -/
def Live (now : TimePoint) (s : Signal) : Prop := now - seconds 180 < s.timestamp

instance (now : TimePoint) (s : Signal) : Decidable (Live now s) :=
  inferInstanceAs (Decidable (_ < _))

/-- The signals seen that have not expired. -/
def liveSignals (now : TimePoint) (seen : List Signal) : List Signal :=
  seen.filter fun s => decide (Live now s)

/-- The context after some signals. -/
def updates (seen : List Signal) : StrategyContext := seen.foldl (fun ctx s => ctx.updateSignal s) {}

variable {ctx : StrategyContext} {signal : Signal} {seen history : List Signal} {now : TimePoint}
  {head : ℕ}

/-! ## One update -/

theorem compact_kept (history : List Signal) (head : ℕ) :
    (compact history head).1.drop (compact history head).2 = history.drop head := by
  unfold compact
  split
  · rfl
  · rfl

theorem compact_head_le (h : head ≤ history.length) :
    (compact history head).2 ≤ (compact history head).1.length ∧
      ((compact history head).2 ≤ 32 ∨ (compact history head).2 ≤ (compact history head).1.length / 2) := by
  unfold compact
  split
  · exact ⟨Nat.zero_le _, .inl (Nat.zero_le _)⟩
  · rename_i hsmall
    have hhalf : head ≤ 32 ∨ head ≤ history.length / 2 := by omega
    exact ⟨h, hhalf⟩

/-- The cap keeps everything, or the newest half. A head in the older half is dropped with it. -/
theorem cap_cases (hhead : head ≤ history.length) (hold : head ≤ 32 ∨ head ≤ history.length / 2) :
    cap history head = (history, head) ∨
    (∃ k, (cap history head).1 = (history.drop head).drop k) ∧ (cap history head).2 = 0 ∧
      (cap history head).1.length = kMaxHistorySize / 2 := by
  have hmax : kMaxHistorySize = 1024 := rfl
  unfold cap
  split
  · rename_i hlong
    have hsplit : history.length - kMaxHistorySize / 2
        = head + (history.length - kMaxHistorySize / 2 - head) := by omega
    have hlength : history.length - (history.length - kMaxHistorySize / 2) = kMaxHistorySize / 2 := by
      omega
    refine .inr ⟨⟨history.length - kMaxHistorySize / 2 - head, ?_⟩, rfl, ?_⟩
    · rw [List.drop_drop, ← hsplit]
    · rw [List.length_drop, hlength]
  · exact .inl rfl

/-- The head offset of `updateSignal` behind the stale signals, before the compaction. -/
def passed (ctx : StrategyContext) (signal : Signal) : ℕ :=
  ctx.historyHeadOffset +
    ((ctx.kept ++ [signal]).takeWhile fun s => !decide (Live signal.timestamp s)).length

theorem drop_concat (hhead : ctx.historyHeadOffset ≤ ctx.signalHistory.length) (signal : Signal) :
    (ctx.signalHistory ++ [signal]).drop ctx.historyHeadOffset = ctx.kept ++ [signal] :=
  List.drop_append_of_le_length hhead

theorem drop_passed (hhead : ctx.historyHeadOffset ≤ ctx.signalHistory.length) (signal : Signal) :
    (ctx.signalHistory ++ [signal]).drop (ctx.passed signal)
      = (ctx.kept ++ [signal]).dropWhile fun s => !decide (Live signal.timestamp s) := by
  rw [passed, ← List.drop_drop, drop_concat hhead, SortedSlices.drop_length_takeWhile]

theorem passed_le (hhead : ctx.historyHeadOffset ≤ ctx.signalHistory.length) (signal : Signal) :
    ctx.passed signal ≤ (ctx.signalHistory ++ [signal]).length := by
  have htake := (List.takeWhile_sublist (l := ctx.kept ++ [signal])
    fun s => !decide (Live signal.timestamp s)).length_le
  have hkept := congrArg List.length (drop_concat hhead signal)
  rw [List.length_drop] at hkept
  rw [List.length_append] at hkept ⊢
  unfold passed
  omega

theorem updateSignal_eq (hhead : ctx.historyHeadOffset ≤ ctx.signalHistory.length) (signal : Signal) :
    let compacted := compact (ctx.signalHistory ++ [signal]) (ctx.passed signal)
    (ctx.updateSignal signal).signalHistory = (cap compacted.1 compacted.2).1 ∧
      (ctx.updateSignal signal).historyHeadOffset = (cap compacted.1 compacted.2).2 := by
  have hstale : (fun s : Signal => decide (s.timestamp ≤ signal.timestamp - seconds 180))
      = fun s => !decide (Live signal.timestamp s) := by
    funext s
    exact (decide_eq_decide.2 not_lt.symm).trans decide_not
  simp only [updateSignal, hstale, drop_concat hhead, passed, and_self]

/-- What is kept after an update: the signals kept before and the new one, from the first live one on, or
the newest half of the cap of these. -/
theorem kept_updateSignal (hhead : ctx.historyHeadOffset ≤ ctx.signalHistory.length) (signal : Signal) :
    (ctx.updateSignal signal).historyHeadOffset ≤ (ctx.updateSignal signal).signalHistory.length ∧
    ∃ k, (ctx.updateSignal signal).kept
        = ((ctx.kept ++ [signal]).dropWhile fun s => !decide (Live signal.timestamp s)).drop k ∧
      (k = 0 ∨ (ctx.updateSignal signal).kept.length = kMaxHistorySize / 2) := by
  obtain ⟨hhistory, hoffset⟩ := updateSignal_eq hhead signal
  obtain ⟨hcompact, hsmall⟩ := compact_head_le (passed_le hhead signal)
  rw [kept, hhistory, hoffset, ← drop_passed hhead, ← compact_kept _ (ctx.passed signal)]
  rcases cap_cases hcompact hsmall with heq | ⟨⟨k, hk⟩, hzero, hlength⟩
  · rw [heq]
    exact ⟨hcompact, 0, rfl, .inl rfl⟩
  · rw [hzero, List.drop_zero]
    exact ⟨Nat.zero_le _, k, hk, .inr hlength⟩

/-! ## A run of updates -/

/-- The signals kept are live and the newest ones seen. The others are stale, or there are more signals
than the cap keeps. -/
structure Retains (now : TimePoint) (seen : List Signal) (ctx : StrategyContext) : Prop where
  head_le : ctx.historyHeadOffset ≤ ctx.signalHistory.length
  live : ∀ s ∈ ctx.kept, Live now s
  gone : ∃ gone, seen = gone ++ ctx.kept ∧
    ((∀ s ∈ gone, ¬Live now s) ∨ kMaxHistorySize / 2 ≤ ctx.kept.length)

theorem Live.of_later {now' : TimePoint} {s s' : Signal} (h : Live now' s) (hnow : now ≤ now')
    (hs : s.timestamp ≤ s'.timestamp) : Live now s' :=
  calc now - seconds 180 ≤ now' - seconds 180 := Int.sub_le_sub_right hnow _
    _ < s.timestamp := h
    _ ≤ s'.timestamp := hs

theorem dropWhile_stale (now : TimePoint) (hsorted : seen.Pairwise fun a b => a.timestamp ≤ b.timestamp) :
    seen.dropWhile (fun s => !decide (Live now s)) = liveSignals now seen := by
  have hstale : seen.Pairwise fun a b => (!decide (Live now b)) = true → (!decide (Live now a)) = true := by
    refine hsorted.imp fun hab => ?_
    simp only [Bool.not_eq_true', decide_eq_false_iff_not]
    exact fun hb ha => hb (ha.of_later le_rfl hab)
  have hslice := SortedSlices.takeWhile_dropWhile_eq_filter (q := fun _ => true) hstale
    (List.pairwise_of_forall fun _ _ h => h)
  rw [List.takeWhile_eq_self_iff.2 fun _ _ => rfl] at hslice
  simpa [liveSignals] using hslice

/-- Passing over the stale signals at the front leaves none behind that is live, or passes over none. -/
theorem stale_or_length_le {gone rest : List Signal} {m : ℕ}
    (hsorted : (gone ++ rest).Pairwise fun a b => a.timestamp ≤ b.timestamp)
    (hgone : (∀ s ∈ gone, ¬Live now s) ∨ m ≤ rest.length) :
    (∀ s ∈ gone ++ rest.takeWhile fun s => !decide (Live now s), ¬Live now s) ∨
      m ≤ (rest.dropWhile fun s => !decide (Live now s)).length := by
  have hskipped : ∀ s ∈ rest.takeWhile fun s => !decide (Live now s), ¬Live now s := fun s hs => by
    simpa using List.mem_takeWhile_imp hs
  rcases hgone with hstale | hmany
  · exact .inl (List.forall_mem_append.2 ⟨hstale, hskipped⟩)
  · cases hskip : rest.takeWhile fun s => !decide (Live now s) with
    | nil =>
        have hall : rest.dropWhile (fun s => !decide (Live now s)) = rest := by
          have hparts := List.takeWhile_append_dropWhile (p := fun s => !decide (Live now s)) (l := rest)
          rwa [hskip] at hparts
        rw [hall]
        exact .inr hmany
    | cons y skipped =>
        -- a skipped signal is stale, and with it everything older
        have hy : y ∈ rest.takeWhile fun s => !decide (Live now s) := by simp [hskip]
        have hbefore := (List.pairwise_append.1 hsorted).2.2
        rw [← hskip]
        refine .inl (List.forall_mem_append.2 ⟨fun s hs hlive => hskipped y hy ?_, hskipped⟩)
        exact hlive.of_later le_rfl (hbefore s hs y ((List.takeWhile_sublist _).subset hy))

theorem Retains.step (h : Retains now seen ctx) (hnow : now ≤ signal.timestamp)
    (hsorted : (seen ++ [signal]).Pairwise fun a b => a.timestamp ≤ b.timestamp) :
    Retains signal.timestamp (seen ++ [signal]) (ctx.updateSignal signal) := by
  obtain ⟨gone, hseen, hgone⟩ := h.gone
  obtain ⟨hhead, k, hkept, hk⟩ := kept_updateSignal h.head_le signal
  rw [hseen, List.append_assoc] at hsorted
  have hlive := dropWhile_stale signal.timestamp (List.pairwise_append.1 hsorted).2.1
  set stale := fun s => !decide (Live signal.timestamp s)
  have hparts : ctx.kept ++ [signal] = (ctx.kept ++ [signal]).takeWhile stale
      ++ (ctx.kept ++ [signal]).dropWhile stale := (List.takeWhile_append_dropWhile).symm
  refine ⟨hhead, fun s hs => ?_, (gone ++ (ctx.kept ++ [signal]).takeWhile stale)
    ++ ((ctx.kept ++ [signal]).dropWhile stale).take k, ?_, ?_⟩
  · rw [hkept, hlive] at hs
    exact of_decide_eq_true (List.mem_filter.1 (List.mem_of_mem_drop hs)).2
  · rw [hkept, List.append_assoc, List.take_append_drop, List.append_assoc, ← hparts, hseen,
      List.append_assoc]
  · rcases hk with rfl | hlength
    · rw [List.take_zero, List.append_nil, hkept, List.drop_zero]
      refine stale_or_length_le hsorted (hgone.imp (fun hstale s hs hlive => ?_) fun hmany => ?_)
      · exact hstale s hs (hlive.of_later hnow le_rfl)
      · rw [List.length_append]
        exact hmany.trans (Nat.le_add_right _ _)
    · exact .inr hlength.ge

theorem updates_concat (seen : List Signal) (signal : Signal) :
    updates (seen ++ [signal]) = (updates seen).updateSignal signal := List.foldl_concat ..

theorem retains_updates (hsorted : seen.Pairwise fun a b => a.timestamp ≤ b.timestamp)
    (hnow : ∀ s ∈ seen.getLast?, s.timestamp = now) : Retains now seen (updates seen) := by
  induction seen using List.reverseRecOn generalizing now with
  | nil => exact ⟨le_rfl, by simp [updates, kept], [], by simp [updates, kept], .inl (by simp)⟩
  | append_singleton seen signal ih =>
      obtain rfl : signal.timestamp = now := hnow signal (by simp)
      obtain ⟨hbefore, -, hlast⟩ := List.pairwise_append.1 hsorted
      rw [updates_concat]
      cases h : seen.getLast? with
      | none =>
          have hretains : Retains signal.timestamp seen (updates seen) :=
            ih hbefore fun s hs => absurd (h.symm.trans hs).symm (Option.some_ne_none s)
          exact hretains.step le_rfl hsorted
      | some last =>
          have hretains : Retains last.timestamp seen (updates seen) :=
            ih hbefore fun s hs => by rw [Option.some.inj (h.symm.trans hs)]
          have hle : last.timestamp ≤ signal.timestamp :=
            hlast last (List.mem_of_getLast? h) signal (List.mem_singleton_self signal)
          exact hretains.step hle hsorted

theorem Retains.kept_eq (h : Retains now seen ctx)
    (hfew : (liveSignals now seen).length ≤ kMaxHistorySize / 2) : ctx.kept = liveSignals now seen := by
  obtain ⟨gone, rfl, hgone⟩ := h.gone
  have hkept : liveSignals now ctx.kept = ctx.kept :=
    List.filter_eq_self.2 fun s hs => decide_eq_true (h.live s hs)
  have hsplit : liveSignals now (gone ++ ctx.kept) = liveSignals now gone ++ ctx.kept := by
    rw [liveSignals, List.filter_append, ← liveSignals, ← liveSignals, hkept]
  have hnil : liveSignals now gone = [] := by
    rcases hgone with hstale | hmany
    · exact List.filter_eq_nil_iff.2 fun s hs => by simpa using hstale s hs
    · rw [hsplit, List.length_append] at hfew
      exact List.eq_nil_of_length_eq_zero (by omega)
  rw [hsplit, hnil, List.nil_append]

/-- A window of less than 180 seconds asks about live signals only. -/
theorem count_eq_of_kept {window : ℤ} (hkept : ctx.kept = liveSignals now seen) (hw : window < 180) :
    ctx.recentSignalCountLocked now window
      = seen.countP fun s => decide (now - seconds window ≤ s.timestamp) := by
  rw [recentSignalCountLocked, hkept, liveSignals, List.countP_filter]
  refine List.countP_congr fun s _ => ?_
  simp only [Bool.and_eq_true, decide_eq_true_eq, and_iff_left_iff_imp]
  intro hin
  have hseconds : seconds window < seconds 180 :=
    Int.mul_lt_mul_of_pos_right hw (by decide)
  exact lt_of_lt_of_le (Int.sub_lt_sub_left hseconds now) hin

theorem live_signals_kept (seen : List Signal) (t : TimePoint)
    (hsorted : seen.Pairwise fun a b => a.timestamp ≤ b.timestamp)
    (ht : seen.getLast?.map Signal.timestamp = some t)
    (hfew : (liveSignals t seen).length ≤ kMaxHistorySize / 2) :
    (updates seen).kept = liveSignals t seen ∧
    ∀ window < 180, (updates seen).recentSignalCountLocked t window
      = seen.countP fun s => decide (t - seconds window ≤ s.timestamp) := by
  have hnow : ∀ s ∈ seen.getLast?, s.timestamp = t := fun s hs => by
    rw [Option.mem_def.1 hs] at ht
    exact Option.some.inj ht
  have hkept := (retains_updates hsorted hnow).kept_eq hfew
  exact ⟨hkept, fun window hw => count_eq_of_kept hkept hw⟩

/-- A burst at a time. -/
def signalAt (t : TimePoint) : Signal := { kind := .tapeBurst, timestamp := t, ticker := "BTC", price := 1 }

theorem live_signals_kept_three :
    (updates [signalAt 0, signalAt (seconds 100), signalAt (seconds 200)]).kept
      = liveSignals (seconds 200) [signalAt 0, signalAt (seconds 100), signalAt (seconds 200)] :=
  (live_signals_kept [signalAt 0, signalAt (seconds 100), signalAt (seconds 200)] (seconds 200)
    (by decide) rfl (by decide)).1

/-! ## More live signals than the cap keeps -/

theorem updateSignal_of_live (signal : Signal) (hhead : ctx.historyHeadOffset = 0)
    (hroom : ctx.signalHistory.length < kMaxHistorySize)
    (hlive : ∀ s ∈ ctx.signalHistory ++ [signal], Live signal.timestamp s) :
    (ctx.updateSignal signal).signalHistory = ctx.signalHistory ++ [signal] ∧
      (ctx.updateSignal signal).historyHeadOffset = 0 := by
  have hnone : (ctx.signalHistory ++ [signal]).takeWhile
      (fun s => decide (s.timestamp ≤ signal.timestamp - seconds 180)) = [] := by
    refine List.takeWhile_eq_nil_iff.2 fun hpos => ?_
    simpa using not_le.2 (hlive _ (List.getElem_mem hpos))
  have hfits : ¬kMaxHistorySize < ctx.signalHistory.length + 1 := by omega
  simp [updateSignal, hhead, hnone, compact, cap, hfits]

theorem foldl_updateSignal_of_live {l : List Signal} (hhead : ctx.historyHeadOffset = 0)
    (hroom : ctx.signalHistory.length + l.length ≤ kMaxHistorySize)
    (hlive : ∀ s ∈ ctx.signalHistory ++ l, ∀ x ∈ l, Live x.timestamp s) :
    (l.foldl (fun ctx s => ctx.updateSignal s) ctx).signalHistory = ctx.signalHistory ++ l ∧
      (l.foldl (fun ctx s => ctx.updateSignal s) ctx).historyHeadOffset = 0 := by
  induction l generalizing ctx with
  | nil => exact ⟨by simp, hhead⟩
  | cons x l ih =>
      rw [List.length_cons] at hroom
      obtain ⟨hhistory, hzero⟩ := updateSignal_of_live x hhead (by omega) fun s hs => by
        refine hlive s ?_ x (by simp)
        rcases List.mem_append.1 hs with hold | hnew
        · exact List.mem_append_left _ hold
        · exact List.mem_append_right _ (by simp [List.mem_singleton.1 hnew])
      have hrest := ih hzero (by rw [hhistory, List.length_append, List.length_singleton]; omega)
        fun s hs y hy => hlive s (by simpa [hhistory] using hs) y (by simp [hy])
      rw [hhistory, List.append_assoc] at hrest
      exact hrest

/-- `n` signals, `n` more a second later, and one when the first ones are just stale. -/
def crowded (n : ℕ) : List Signal :=
  (List.replicate n (signalAt 0) ++ List.replicate n (signalAt (seconds 1))) ++ [signalAt (seconds 180)]

variable {n : ℕ} {s : Signal}

theorem mem_crowded (h : s ∈ List.replicate n (signalAt 0) ++ List.replicate n (signalAt (seconds 1))) :
    s = signalAt 0 ∨ s = signalAt (seconds 1) :=
  (List.mem_append.1 h).imp List.eq_of_mem_replicate List.eq_of_mem_replicate

theorem crowded_pairwise (n : ℕ) :
    (crowded n).Pairwise fun a b => a.timestamp ≤ b.timestamp := by
  have hlast : ∀ s, s = signalAt 0 ∨ s = signalAt (seconds 1) → s.timestamp ≤ seconds 180 := by
    rintro s (rfl | rfl) <;> decide
  refine List.pairwise_append.2 ⟨List.pairwise_append.2 ⟨?_, ?_, ?_⟩, List.pairwise_singleton _ _, ?_⟩
  · exact List.pairwise_replicate.2 (.inr le_rfl)
  · exact List.pairwise_replicate.2 (.inr le_rfl)
  · intro a ha b hb
    rw [List.eq_of_mem_replicate ha, List.eq_of_mem_replicate hb]
    decide
  · intro a ha b hb
    rw [List.mem_singleton.1 hb]
    exact hlast a (mem_crowded ha)

theorem live_crowded_length (n : ℕ) : (liveSignals (seconds 180) (crowded n)).length = n + 1 := by
  have hfst : ¬Live (seconds 180) (signalAt 0) := by decide
  have hsnd : Live (seconds 180) (signalAt (seconds 1)) := by decide
  have hlast : Live (seconds 180) (signalAt (seconds 180)) := by decide
  simp [liveSignals, crowded, hfst, hsnd, hlast]

/-- The stale half is not more than half of the history, so the cap acts and not the compaction. -/
theorem kept_crowded_length (hn : 2 * n = kMaxHistorySize) :
    (updates (crowded n)).kept.length = n := by
  have hmax : kMaxHistorySize = 1024 := rfl
  set l := List.replicate n (signalAt 0) ++ List.replicate n (signalAt (seconds 1)) with hl
  have hfill : (updates l).signalHistory = l ∧ (updates l).historyHeadOffset = 0 := by
    refine foldl_updateSignal_of_live rfl (by simp [hl]; omega) fun a ha x hx => ?_
    rcases mem_crowded (n := n) ha with rfl | rfl <;> rcases mem_crowded hx with rfl | rfl <;> decide
  obtain ⟨hhistory, hhead⟩ := hfill
  set p := fun s : Signal => decide (s.timestamp ≤ (signalAt (seconds 180)).timestamp - seconds 180)
  have hskip : ((crowded n).takeWhile p).length = n := by
    obtain ⟨m, rfl⟩ : ∃ m, n = m + 1 := ⟨n - 1, by omega⟩
    rw [crowded, List.append_assoc, List.takeWhile_append_of_pos fun s hs => by
      rw [List.eq_of_mem_replicate hs]
      decide]
    rw [List.replicate_succ (a := signalAt (seconds 1)), List.cons_append,
      List.takeWhile_cons_of_neg (by decide), List.append_nil, List.length_replicate]
  have hlength : (crowded n).length = 2 * n + 1 := by
    simp [crowded]
    omega
  have hall : (updates l).signalHistory ++ [signalAt (seconds 180)] = crowded n := by
    rw [hhistory]
    rfl
  have hcompact : compact (crowded n) n = (crowded n, n) := if_neg (by omega)
  have hcap : cap (crowded n) n = ((crowded n).drop ((crowded n).length - kMaxHistorySize / 2), 0) :=
    if_pos (by omega)
  have hkept : ((updates l).updateSignal (signalAt (seconds 180))).kept
      = (crowded n).drop ((crowded n).length - kMaxHistorySize / 2) := by
    show List.drop _ _ = _
    simp only [updateSignal, hhead, hall, List.drop_zero, Nat.zero_add]
    rw [hskip, hcompact, hcap, List.drop_zero]
  rw [crowded, updates_concat, hkept, List.length_drop]
  omega

theorem live_signals_lost :
    ¬ ∀ (seen : List Signal) (t : TimePoint),
      (seen.Pairwise fun a b => a.timestamp ≤ b.timestamp) →
      seen.getLast?.map Signal.timestamp = some t →
      (liveSignals t seen).length ≤ kMaxHistorySize →
      (liveSignals t seen).Sublist (updates seen).kept := by
  intro hall
  have hn : 2 * (kMaxHistorySize / 2) = kMaxHistorySize := rfl
  have hlast : (crowded (kMaxHistorySize / 2)).getLast?.map Signal.timestamp = some (seconds 180) := by
    rw [crowded, List.getLast?_concat]
    rfl
  have hsub := hall (crowded (kMaxHistorySize / 2)) (seconds 180) (crowded_pairwise _) hlast
    (by rw [live_crowded_length]; decide)
  have hle := hsub.length_le
  rw [live_crowded_length, kept_crowded_length hn] at hle
  exact absurd hle (Nat.not_succ_le_self _)

end TradeBot.StrategyContext
