import TradeBot.Lib.LastWrite
import TradeBot.Signals.DensityDetector

set_option autoImplicit false

/-! # Density stacks

A scan of the tracked levels finds clusters of levels that stand close together, and reports those that
are large enough. The detector remembers one stack so as not to report it again; where a scan finds
several, each of them makes it forget the others.

The detector remembers the last stack that it reported, and compares a new one with it by its ends.
This is a publisher that suppresses what it published last, so when a second frame is silent follows
from `LastWrite`. It remains to show when two stacks of one scan count as the same. -/

namespace TradeBot

open LastValue

namespace DensityDetector

/-- The tracked levels as a scan goes through them. -/
abbrev Levels := List (ℤ × LevelMeta)

section

variable (cfg : DensityConfig) (book : OrderBook) (mid : ℚ)

/-- A tracked level as a member of a cluster. The tick is recorded in 32 bits. -/
def clusterEntry (tracked : ℤ × LevelMeta) : ClusterEntry :=
  ⟨tracked.1.bmod (2 ^ 32), book.inc.toPrice tracked.1, tracked.2.initialSize⟩

/-- The clusters of the reported levels, with the one that is being collected first. -/
def clusters : Option (Side × List ClusterEntry) → Levels → List (Side × List ClusterEntry)
  | current, [] => current.toList
  | current, tracked :: levels =>
      if !tracked.2.emitted then clusters current levels
      else
        match current with
        | some (side, low :: rest) =>
            if tracked.2.side = side ∧
                |(clusterEntry book tracked).price - low.price| / mid * 10000 ≤ cfg.stackMaxWidthBps then
              clusters (some (side, low :: rest ++ [clusterEntry book tracked])) levels
            else
              (side, low :: rest) :: clusters (some (tracked.2.side, [clusterEntry book tracked])) levels
        | _ => clusters (some (tracked.2.side, [clusterEntry book tracked])) levels

/-- A cluster large enough for a stack. -/
def isStack (cluster : List ClusterEntry) : Bool :=
  match cluster.head?, cluster.getLast? with
  | some low, some high =>
      !decide ((cluster.length : ℤ) < cfg.stackMinLevels ∨
        cfg.stackMaxWidthBps < |high.price - low.price| / mid * 10000 ∨
        totalUsd cluster < cfg.stackMinSizeUsd)
  | _, _ => false

/-- What is remembered of a stack. -/
def signature (side : Side) (cluster : List ClusterEntry) : StackSignature :=
  match cluster.head?, cluster.getLast? with
  | some low, some high =>
      { side := side, firstTick := (nearest side low high).tick,
        lastTick := (farthest side low high).tick, totalSizeUsd := totalUsd cluster, valid := true }
  | _, _ => {}

/-- The stacks among some clusters. -/
def signatures (cs : List (Side × List ClusterEntry)) : List StackSignature :=
  (cs.filter (fun c => isStack cfg mid c.2)).map (fun c => signature c.1 c.2)

/-- The stacks that a scan finds; it needs a mid price. -/
def foundStacks (levels : Levels) : List StackSignature :=
  match book.mid with
  | some mid =>
      if 0 < mid then signatures cfg mid (clusters cfg book mid none levels) else []
  | none => []

end

/-- The detector takes a stack for the one it remembers. -/
def SameStack (last stack : StackSignature) : Prop :=
  sameStack last stack.side stack.firstTick stack.lastTick stack.totalSizeUsd = true

instance : DecidableRel SameStack := fun _ _ => inferInstanceAs (Decidable (_ = true))

/-! ## A scan -/

section

variable {traceId : TraceId} {book : OrderBook} {now : TimePoint} {mid : ℚ}

theorem clusters_cons_of_not_emitted {cfg : DensityConfig} {tracked : ℤ × LevelMeta} {levels : Levels}
    (current : Option (Side × List ClusterEntry)) (h : ¬ tracked.2.emitted = true) :
    clusters cfg book mid current (tracked :: levels) = clusters cfg book mid current levels := by
  cases current <;> simp [clusters, h]

theorem scan_eq (d : DensityDetector) (levels : Levels) (current : Option (Side × List ClusterEntry))
    (r : DensityDetector × List Signal) :
    (levels.foldl (d.clusterStep traceId book now mid) ⟨current, r⟩).flush traceId now mid
      = (clusters d.cfg book mid current levels).foldl
          (fun r c => emitIfQualified traceId now mid c.1 c.2 r) r := by
  induction levels generalizing current r with
  | nil => cases current <;> rfl
  | cons tracked levels ih =>
      obtain ⟨tick, level⟩ := tracked
      by_cases hemitted : level.emitted = true
      · match current with
        | some (side, low :: rest) =>
            by_cases hjoins : level.side = side ∧
                |(clusterEntry book (tick, level)).price - low.price| / mid * 10000
                  ≤ d.cfg.stackMaxWidthBps
            · -- the level is close to the first one of the cluster and joins it
              have hstep : d.clusterStep traceId book now mid ⟨some (side, low :: rest), r⟩ (tick, level)
                  = ⟨some (side, low :: rest ++ [clusterEntry book (tick, level)]), r⟩ := by
                simp only [clusterEntry] at hjoins
                simp [clusterStep, hemitted, hjoins, clusterEntry]
              rw [List.foldl_cons, hstep, ih, clusters]
              simp [hemitted, hjoins]
            · -- the cluster ends here, and the level begins a new one
              have hstep : d.clusterStep traceId book now mid ⟨some (side, low :: rest), r⟩ (tick, level)
                  = ⟨some (level.side, [clusterEntry book (tick, level)]),
                      emitIfQualified traceId now mid side (low :: rest) r⟩ := by
                simp only [clusterEntry] at hjoins
                simp [clusterStep, hemitted, hjoins, clusterEntry, ClusterScan.flush]
              rw [List.foldl_cons, hstep, ih, clusters]
              simp [hemitted, hjoins]
        -- no cluster has a level yet
        | some (side, []) =>
            rw [List.foldl_cons, clusterStep, clusters]
            · simp [hemitted, ih, clusterEntry]
            · simp
        | none =>
            rw [List.foldl_cons, clusterStep, clusters]
            · simp [hemitted, ih, clusterEntry]
            · simp
      · -- only levels that were reported take part
        rw [List.foldl_cons, clusterStep, clusters_cons_of_not_emitted _ hemitted]
        simp [hemitted, ih]

theorem emitIfQualified_of_not_isStack {side : Side} {cluster : List ClusterEntry}
    {r : DensityDetector × List Signal} (h : isStack r.1.cfg mid cluster = false) :
    emitIfQualified traceId now mid side cluster r = r := by
  unfold isStack at h
  unfold emitIfQualified
  split
  · next low high hlow hhigh =>
      simp only [hlow, hhigh, Bool.not_eq_false', decide_eq_true_eq] at h
      exact if_pos h
  · rfl

theorem isStack_ends {cfg : DensityConfig} {cluster : List ClusterEntry}
    (h : isStack cfg mid cluster = true) :
    ∃ low high, cluster.head? = some low ∧ cluster.getLast? = some high := by
  unfold isStack at h
  split at h
  · next low high hlow hhigh => exact ⟨low, high, hlow, hhigh⟩
  · exact absurd h Bool.false_ne_true

theorem emitIfQualified_of_isStack {c : Side × List ClusterEntry}
    {r : DensityDetector × List Signal} (h : isStack r.1.cfg mid c.2 = true) :
    ∃ s, s.kind = .densityStack ∧ emitIfQualified traceId now mid c.1 c.2 r
      = if SameStack r.1.lastStack (signature c.1 c.2) then r
        else ({ r.1 with lastStack := signature c.1 c.2 }, r.2 ++ [s]) := by
  obtain ⟨side, cluster⟩ := c
  obtain ⟨low, high, hlow, hhigh⟩ := isStack_ends h
  rw [isStack, hlow, hhigh, Bool.not_eq_true', decide_eq_false_iff_not] at h
  refine ⟨r.1.stackSignal traceId now side cluster (|high.price - low.price| / mid * 10000)
    (nearest side low high) (farthest side low high), rfl, ?_⟩
  rw [emitIfQualified, signature, hlow, hhigh]
  exact if_neg h

/-- What a detector does with the clusters of a scan. -/
theorem emit_foldl (cs : List (Side × List ClusterEntry)) (r : DensityDetector × List Signal) :
    ∃ new,
      cs.foldl (fun r c => emitIfQualified traceId now mid c.1 c.2 r) r
        = ({ r.1 with
              lastStack := remembered SameStack r.1.lastStack (signatures r.1.cfg mid cs) },
            r.2 ++ new) ∧
      (∀ s ∈ new, s.kind = .densityStack) ∧
      new.length = (published SameStack r.1.lastStack (signatures r.1.cfg mid cs)).length := by
  induction cs generalizing r with
  | nil => exact ⟨[], by simp [signatures], List.forall_mem_nil _, rfl⟩
  | cons c cs ih =>
      rw [List.foldl_cons]
      by_cases hstack : isStack r.1.cfg mid c.2 = true
      · have hcons : signatures r.1.cfg mid (c :: cs)
            = signature c.1 c.2 :: signatures r.1.cfg mid cs := by
          rw [signatures, List.filter_cons, if_pos hstack, List.map_cons]
          rfl
        obtain ⟨s, hkind, hemit⟩ := emitIfQualified_of_isStack hstack
        rw [hcons, hemit]
        by_cases hsame : SameStack r.1.lastStack (signature c.1 c.2)
        · rw [if_pos hsame, remembered_cons_of_same hsame, published_cons_of_same hsame]
          exact ih r
        · rw [if_neg hsame, remembered_cons_of_not_same hsame, published_cons_of_not_same hsame]
          obtain ⟨new, hfold, hkinds, hlength⟩ :=
            ih ({ r.1 with lastStack := signature c.1 c.2 }, r.2 ++ [s])
          refine ⟨s :: new, ?_, List.forall_mem_cons.2 ⟨hkind, hkinds⟩, by simp [hlength]⟩
          rw [hfold]
          simp
      · have hcons : signatures r.1.cfg mid (c :: cs) = signatures r.1.cfg mid cs := by
          rw [signatures, List.filter_cons, if_neg hstack]
          rfl
        rw [hcons, emitIfQualified_of_not_isStack (by simpa using hstack)]
        exact ih r

theorem checkDensityStacks_eq (d : DensityDetector) :
    ∃ new,
      d.checkDensityStacks traceId book now mid
        = ({ d with
              lastStack := remembered SameStack d.lastStack
                (signatures d.cfg mid (clusters d.cfg book mid none d.tracked.entries)) }, new) ∧
      (∀ s ∈ new, s.kind = .densityStack) ∧
      new.length = (published SameStack d.lastStack
        (signatures d.cfg mid (clusters d.cfg book mid none d.tracked.entries))).length := by
  rw [checkDensityStacks, scan_eq]
  exact emit_foldl _ (d, [])

end

/-! ## A frame -/

section

variable {d : DensityDetector} {traceId : TraceId} {book : OrderBook} {frame : FeatureFrame}

/-- What a frame that is processed does: the levels are refreshed, then the stacks among them are
    reported that are not the one remembered. -/
structure Processed (d : DensityDetector) (book : OrderBook) (now : TimePoint)
    (r : DensityDetector × List Signal) : Prop where
  ticker : r.1.ticker = d.ticker
  cfg : r.1.cfg = d.cfg
  tracked : r.1.tracked = (d.refreshTracked book now).tracked
  lastStack : r.1.lastStack
    = remembered SameStack d.lastStack (foundStacks d.cfg book r.1.tracked.entries)
  silent_iff : (∀ s ∈ r.2, s.kind ≠ .densityStack) ↔
    published SameStack d.lastStack (foundStacks d.cfg book r.1.tracked.entries) = []

theorem stickySignals_kind (now : TimePoint) :
    ∀ s ∈ d.stickySignals traceId book now, s.kind ≠ .densityStack := by
  intro s hs
  obtain ⟨e, _, rfl⟩ := List.mem_map.1 hs
  exact SignalKind.noConfusion

/-- A scan is not made without a mid price, and then there are no stacks. -/
theorem processed_of_no_stacks {now : TimePoint} {r : DensityDetector × List Signal}
    (hd : r.1 = d.refreshTracked book now) (hkinds : ∀ s ∈ r.2, s.kind ≠ .densityStack)
    (hnone : foundStacks d.cfg book r.1.tracked.entries = []) : Processed d book now r := by
  refine ⟨by rw [hd]; rfl, by rw [hd]; rfl, by rw [hd], ?_, ?_⟩
  · rw [hnone, hd]
    rfl
  · rw [hnone]
    exact iff_of_true hkinds rfl

theorem refreshTracked_of_isEmpty {now : TimePoint} (h : d.tracked.entries.isEmpty = true) :
    d.refreshTracked book now = d := by
  have hnil := List.isEmpty_iff.1 h
  have htracked : (d.refreshTracked book now).tracked = d.tracked := by
    apply SortedMap.ext_mem
    intro e
    simp [refreshTracked, SortedMap.mem_def, SortedMap.filterMap, hnil]
  have heq : d.refreshTracked book now = { d with tracked := (d.refreshTracked book now).tracked } := rfl
  rw [heq, htracked]

theorem checkStickyLevels_processed (d : DensityDetector) (traceId : TraceId) (book : OrderBook)
    (now : TimePoint) : Processed d book now (d.checkStickyLevels traceId book now) := by
  unfold checkStickyLevels
  by_cases hempty : d.tracked.entries.isEmpty = true
  · rw [if_pos hempty]
    refine processed_of_no_stacks (refreshTracked_of_isEmpty hempty).symm (List.forall_mem_nil _) ?_
    rw [List.isEmpty_iff.1 hempty, foundStacks]
    cases book.mid <;> simp [clusters, signatures]
  · rw [if_neg hempty]
    cases hmid : book.mid with
    | none =>
        exact processed_of_no_stacks rfl (stickySignals_kind now) (by simp only [foundStacks, hmid])
    | some mid =>
        by_cases hpos : 0 < mid
        · obtain ⟨new, heq, hkinds, hlength⟩ := @checkDensityStacks_eq traceId book now mid
            (d.refreshTracked book now)
          have hfound (levels : Levels) : foundStacks d.cfg book levels
              = signatures d.cfg mid (clusters d.cfg book mid none levels) := by
            simp only [foundStacks, hmid, if_pos hpos]
          simp only [if_pos hpos, heq]
          refine ⟨rfl, rfl, rfl, by rw [hfound]; rfl, ?_⟩
          rw [hfound, ← List.length_eq_zero_iff]
          refine Iff.trans ?_ (by rw [← List.length_eq_zero_iff, hlength]; rfl : new = [] ↔ _)
          constructor
          · intro hnone
            refine List.eq_nil_iff_forall_not_mem.2 (fun s hs => ?_)
            exact hnone s (List.mem_append_right _ hs) (hkinds s hs)
          · rintro rfl
            rw [List.append_nil]
            exact stickySignals_kind now
        · simp only [if_neg hpos]
          exact processed_of_no_stacks rfl (stickySignals_kind now)
            (by simp only [foundStacks, hmid, if_neg hpos])

theorem onFrame_processed (hticker : frame.ticker = d.ticker) (hvalid : frame.valid = true) :
    Processed d book frame.timestamp (d.onFrame traceId book frame) := by
  rw [onFrame, if_neg (not_not.2 hticker), hvalid]
  exact d.checkStickyLevels_processed traceId book frame.timestamp

end

/-! ## Segments of a list without repetitions -/

section

variable {α : Type*}

theorem eq_of_suffix_of_head {xs ys : List α} (hnodup : ys.Nodup) (h : xs <:+ ys)
    (hhead : xs.head? = ys.head?) : xs = ys := by
  obtain ⟨front, rfl⟩ := h
  cases front with
  | nil => rfl
  | cons y front =>
      have hmem : y ∈ xs := List.mem_of_head? hhead
      exact absurd (List.mem_append_right front hmem) (List.nodup_cons.1 hnodup).1

theorem eq_of_prefix_of_last {xs ys : List α} (hnodup : ys.Nodup) (h : xs <+: ys)
    (hlast : xs.getLast? = ys.getLast?) : xs = ys := by
  refine List.reverse_injective (eq_of_suffix_of_head (List.nodup_reverse.2 hnodup) ?_ ?_)
  · exact List.reverse_suffix.2 h
  · rwa [List.head?_reverse, List.head?_reverse]

theorem eq_of_infix_of_ends {l xs ys : List α} (hnodup : l.Nodup) (hxs : xs <:+: l)
    (hys : ys <:+: l) (hne : xs ≠ []) (hhead : xs.head? = ys.head?)
    (hlast : xs.getLast? = ys.getLast?) : xs = ys := by
  have hne' : ys ≠ [] := by
    rintro rfl
    exact hne (List.head?_eq_none_iff.1 hhead)
  obtain ⟨us, ⟨xs', rfl⟩, hsuffix⟩ := List.infix_iff_prefix_suffix.1 hxs
  obtain ⟨vs, ⟨ys', rfl⟩, hsuffix'⟩ := List.infix_iff_prefix_suffix.1 hys
  have hheads : (xs ++ xs').head? = (ys ++ ys').head? := by
    rw [List.head?_append_of_ne_nil _ hne, List.head?_append_of_ne_nil _ hne', hhead]
  -- both segments go on to the end of `l`, from the same element
  have heq : xs ++ xs' = ys ++ ys' := by
    rcases List.suffix_or_suffix_of_suffix hsuffix hsuffix' with h | h
    · exact eq_of_suffix_of_head (hnodup.sublist hsuffix'.sublist) h hheads
    · exact (eq_of_suffix_of_head (hnodup.sublist hsuffix.sublist) h hheads.symm).symm
  have hnodup' := hnodup.sublist hsuffix.sublist
  rcases List.prefix_or_prefix_of_prefix (List.prefix_append xs xs') (heq ▸ List.prefix_append ys ys')
    with h | h
  · exact eq_of_prefix_of_last ((heq ▸ hnodup').sublist (List.sublist_append_left ..)) h hlast
  · exact (eq_of_prefix_of_last (hnodup'.sublist (List.sublist_append_left ..)) h hlast.symm).symm

end

/-! ## The same stack -/

section

variable {cfg : DensityConfig} {book book' : OrderBook} {mid : ℚ} {a b : StackSignature}

theorem mem_foundStacks {levels : Levels} {stack : StackSignature} :
    stack ∈ foundStacks cfg book levels ↔ ∃ mid, book.mid = some mid ∧ 0 < mid ∧
      ∃ c ∈ clusters cfg book mid none levels, isStack cfg mid c.2 = true ∧
        signature c.1 c.2 = stack := by
  cases hmid : book.mid with
  | none => simp [foundStacks, hmid]
  | some mid =>
      by_cases hpos : 0 < mid
      · simp [foundStacks, hmid, hpos, signatures, and_assoc]
      · simp [foundStacks, hmid, hpos]

theorem clusterEntry_congr (hinc : book'.inc = book.inc) : clusterEntry book' = clusterEntry book := by
  funext tracked
  rw [clusterEntry, clusterEntry, hinc]

theorem foundStacks_congr (hinc : book'.inc = book.inc) (hmid : book'.mid = book.mid)
    (levels : Levels) : foundStacks cfg book' levels = foundStacks cfg book levels := by
  have hclusters (mid : ℚ) (current : Option (Side × List ClusterEntry)) :
      clusters cfg book' mid current levels = clusters cfg book mid current levels := by
    induction levels generalizing current with
    | nil => rfl
    | cons tracked levels ih => unfold clusters; simp only [clusterEntry_congr hinc, ih]
  simp only [foundStacks, hmid, hclusters]

theorem valid_of_found {levels : Levels} (h : a ∈ foundStacks cfg book levels) : a.valid = true := by
  obtain ⟨mid, -, -, c, -, hstack, rfl⟩ := mem_foundStacks.1 h
  obtain ⟨low, high, hlow, hhigh⟩ := isStack_ends hstack
  rw [signature, hlow, hhigh]

theorem sameStack_iff : SameStack a b ↔ a.valid = true ∧ a.side = b.side ∧
    a.firstTick = b.firstTick ∧ a.lastTick = b.lastTick ∧ |a.totalSizeUsd - b.totalSizeUsd| < 1 := by
  simp only [SameStack, sameStack, Bool.and_eq_true, decide_eq_true_eq]

theorem sameStack_self (h : a.valid = true) : SameStack a a :=
  sameStack_iff.2 ⟨h, rfl, rfl, rfl, by simp⟩

theorem SameStack.symm (h : SameStack a b) (hvalid : b.valid = true) : SameStack b a := by
  obtain ⟨-, hside, hfirst, hlast, husd⟩ := sameStack_iff.1 h
  exact sameStack_iff.2 ⟨hvalid, hside.symm, hfirst.symm, hlast.symm, by rwa [abs_sub_comm]⟩

theorem not_sameStack_default : ¬ SameStack {} b := fun h =>
  Bool.false_ne_true (sameStack_iff.1 h).1

/-- The reported levels, from which the clusters are cut. -/
def clusterEntries (book : OrderBook) (levels : Levels) : List ClusterEntry :=
  (levels.filter (fun tracked => tracked.2.emitted)).map (clusterEntry book)

theorem clusterEntries_cons {tracked : ℤ × LevelMeta} {levels : Levels} :
    clusterEntries book (tracked :: levels)
      = if tracked.2.emitted then clusterEntry book tracked :: clusterEntries book levels
        else clusterEntries book levels := by
  rw [clusterEntries, List.filter_cons]
  split_ifs <;> rfl

theorem infix_of_mem_clusters {levels : Levels} {current : Option (Side × List ClusterEntry)}
    {c : Side × List ClusterEntry} (h : c ∈ clusters cfg book mid current levels) :
    c.2 <:+: (current.elim [] Prod.snd) ++ clusterEntries book levels := by
  induction levels generalizing current with
  | nil =>
      cases current with
      | none => cases h
      | some _ =>
          cases List.mem_singleton.1 h
          exact List.infix_append' [] _ _
  | cons tracked levels ih =>
      by_cases hemitted : tracked.2.emitted = true
      · rw [clusterEntries_cons, if_pos hemitted]
        -- a cluster of the rest, begun with this level
        have hrest {side : Side} {front : List ClusterEntry}
            (h : c ∈ clusters cfg book mid (some (side, [clusterEntry book tracked])) levels) :
            c.2 <:+: front ++ clusterEntry book tracked :: clusterEntries book levels :=
          (ih h).trans (List.suffix_append _ _).isInfix
        match current with
        | some (side, low :: rest) =>
            rw [clusters, if_neg (by simp [hemitted])] at h
            split_ifs at h
            · simpa using ih h
            · rcases List.mem_cons.1 h with rfl | h
              · exact (List.prefix_append _ _).isInfix
              · exact hrest h
        | some (side, []) =>
            rw [clusters, if_neg (by simp [hemitted])] at h
            · exact hrest h
            · simp
        | none =>
            rw [clusters, if_neg (by simp [hemitted])] at h
            · exact hrest h
            · simp
      · rw [clusters_cons_of_not_emitted _ hemitted] at h
        rw [clusterEntries_cons, if_neg hemitted]
        exact ih h

theorem nodup_clusterEntries {levels : Levels}
    (hticks : (levels.map (fun tracked => tracked.1.bmod (2 ^ 32))).Nodup) :
    ((clusterEntries book levels).map ClusterEntry.tick).Nodup := by
  rw [clusterEntries, List.map_map]
  exact hticks.sublist (List.filter_sublist.map _)

/-- If the ticks are distinct as they are recorded, a stack is given by its ends. -/
theorem eq_of_sameStack {levels : Levels} (hinc : book'.inc = book.inc)
    (hticks : (levels.map (fun tracked => tracked.1.bmod (2 ^ 32))).Nodup)
    (ha : a ∈ foundStacks cfg book levels) (hb : b ∈ foundStacks cfg book' levels)
    (h : SameStack a b) : a = b := by
  obtain ⟨mid, -, -, ⟨side, xs⟩, hxs, hstack, rfl⟩ := mem_foundStacks.1 ha
  obtain ⟨mid', -, -, ⟨side', ys⟩, hys, hstack', rfl⟩ := mem_foundStacks.1 hb
  obtain ⟨low, high, hlow, hhigh⟩ := isStack_ends hstack
  obtain ⟨low', high', hlow', hhigh'⟩ := isStack_ends hstack'
  have hentries : clusterEntries book' levels = clusterEntries book levels := by
    rw [clusterEntries, clusterEntries, clusterEntry_congr hinc]
  have hnodup := @nodup_clusterEntries book levels hticks
  have hseg : xs <:+: clusterEntries book levels := infix_of_mem_clusters hxs
  have hseg' : ys <:+: clusterEntries book levels := hentries ▸ infix_of_mem_clusters hys
  dsimp only at hlow hhigh hlow' hhigh'
  obtain ⟨-, hside, hfirst, hlast, -⟩ := sameStack_iff.1 h
  simp only [signature, hlow, hhigh, hlow', hhigh'] at hside hfirst hlast
  subst hside
  have hends : low.tick = low'.tick ∧ high.tick = high'.tick := by
    by_cases hsell : side = .sell
    · subst hsell
      exact ⟨hfirst, hlast⟩
    · simp only [nearest, farthest, if_neg hsell] at hfirst hlast
      exact ⟨hlast, hfirst⟩
  have hmem {zs : List ClusterEntry} (hzs : zs <:+: clusterEntries book levels) {e : ClusterEntry}
      (he : e ∈ zs) : e ∈ clusterEntries book levels := hzs.subset he
  have hloweq : low = low' := List.inj_on_of_nodup_map hnodup
    (hmem hseg (List.mem_of_head? hlow)) (hmem hseg' (List.mem_of_head? hlow')) hends.1
  have hhigheq : high = high' := List.inj_on_of_nodup_map hnodup
    (hmem hseg (List.mem_of_getLast? hhigh)) (hmem hseg' (List.mem_of_getLast? hhigh')) hends.2
  have heq : xs = ys := eq_of_infix_of_ends (List.Nodup.of_map _ hnodup) hseg hseg'
    (List.ne_nil_of_mem (List.mem_of_head? hlow)) (by rw [hlow, hlow', hloweq])
    (by rw [hhigh, hhigh', hhigheq])
  rw [heq]

end

/-! ## Two frames -/

section

variable (d : DensityDetector) (traceId traceId' : TraceId) (book book' : OrderBook)
  (frame next : FeatureFrame)

/-- Two frames one after the other, with the book as it stands at each of them. -/
def twoFrames : DensityDetector × List Signal :=
  (d.onFrame traceId book frame).1.onFrame traceId' book' next

/-- The second frame reports no stack, whatever the detector remembered before the first. -/
def SilentAgain : Prop :=
  ∀ lastStack, ∀ s ∈ (twoFrames { d with lastStack := lastStack } traceId traceId' book book' frame
    next).2, s.kind ≠ .densityStack

variable {d traceId traceId' book book' frame next}

theorem refreshTracked_congr {d' : DensityDetector} (htracked : d'.tracked = d.tracked)
    (hcfg : d'.cfg = d.cfg) (now : TimePoint) :
    (d'.refreshTracked book now).tracked = (d.refreshTracked book now).tracked := by
  obtain ⟨_, _, _, _, _, _⟩ := d
  obtain ⟨_, _, _, _, _, _⟩ := d'
  subst htracked hcfg
  rfl

theorem silentAgain_iff (hticker : frame.ticker = d.ticker) (hvalid : frame.valid = true)
    (hticker' : next.ticker = d.ticker) (hvalid' : next.valid = true)
    (hunchanged : (d.twoFrames traceId traceId' book book' frame next).1.tracked
      = (d.onFrame traceId book frame).1.tracked) :
    d.SilentAgain traceId traceId' book book' frame next ↔
      ∀ last, published SameStack
        (remembered SameStack last
          (foundStacks d.cfg book (d.onFrame traceId book frame).1.tracked.entries))
        (foundStacks d.cfg book' (d.onFrame traceId book frame).1.tracked.entries) = [] := by
  -- the levels do not depend on the stack that is remembered
  have hfirst (last : StackSignature) := @onFrame_processed { d with lastStack := last } traceId book
    frame hticker hvalid
  have hd := @onFrame_processed d traceId book frame hticker hvalid
  have hd' := @onFrame_processed (d.onFrame traceId book frame).1 traceId' book' next
    (by rw [hd.ticker, hticker']) hvalid'
  refine forall_congr' (fun last => ?_)
  have hlevels : (onFrame { d with lastStack := last } traceId book frame).1.tracked
      = (d.onFrame traceId book frame).1.tracked := by
    rw [(hfirst last).tracked, hd.tracked]
    rfl
  have hcfg : (onFrame { d with lastStack := last } traceId book frame).1.cfg
      = (d.onFrame traceId book frame).1.cfg := by
    rw [(hfirst last).cfg, hd.cfg]
  have hsecond := @onFrame_processed (onFrame { d with lastStack := last } traceId book frame).1
    traceId' book' next (by rw [(hfirst last).ticker, hticker']) hvalid'
  have hlevels' : (twoFrames { d with lastStack := last } traceId traceId' book book' frame
      next).1.tracked = (d.onFrame traceId book frame).1.tracked := by
    rw [twoFrames, hsecond.tracked, refreshTracked_congr hlevels hcfg, ← hd'.tracked]
    exact hunchanged
  rw [twoFrames] at hlevels' ⊢
  rw [hsecond.silent_iff, hlevels', (hfirst last).lastStack, hlevels, hcfg, hd.cfg]

/-- A second frame over the same levels reports no stack again, whatever was remembered, if and only
    if, at the same mid price, all the stacks of the scan count as the same; at another mid price, if
    every stack of the second scan is the one that the first scan found last. -/
theorem secondFrame_silent_iff (d : DensityDetector) (traceId traceId' : TraceId)
    (book book' : OrderBook) (frame next : FeatureFrame)
    (hticker : frame.ticker = d.ticker) (hvalid : frame.valid = true)
    (hticker' : next.ticker = d.ticker) (hvalid' : next.valid = true)
    (hinc : book'.inc = book.inc)
    (hunchanged : (d.twoFrames traceId traceId' book book' frame next).1.tracked
      = (d.onFrame traceId book frame).1.tracked) :
    let levels := (d.onFrame traceId book frame).1.tracked.entries
    (book'.mid = book.mid →
      (d.SilentAgain traceId traceId' book book' frame next ↔
        ∀ a ∈ foundStacks d.cfg book levels, ∀ b ∈ foundStacks d.cfg book levels, SameStack a b)) ∧
    ((levels.map (fun tracked => tracked.1.bmod (2 ^ 32))).Nodup →
      (d.SilentAgain traceId traceId' book book' frame next ↔
        ∀ stack ∈ foundStacks d.cfg book' levels,
          (foundStacks d.cfg book levels).getLast? = some stack)) := by
  intro levels
  rw [silentAgain_iff hticker hvalid hticker' hvalid' hunchanged]
  constructor
  · intro hmid
    rw [foundStacks_congr hinc hmid]
    exact silent_again_iff (fun a _ b hb h => h.symm (valid_of_found hb))
  · intro hticks
    refine silent_after_iff (fun a ha => sameStack_self (valid_of_found ha)) (fun a ha b hb h => ?_)
      ⟨{}, fun _ => not_sameStack_default⟩
    rcases List.mem_append.1 hb with hb | hb
    · exact eq_of_sameStack rfl hticks ha hb h
    · exact eq_of_sameStack hinc hticks ha hb h

end

/-! ## An ask stack and a bid stack -/

/-- The detector of the unit tests, with levels that are taken for sticky at once. -/
def stackDetector : DensityDetector :=
  { ticker := "BTCUSDT"
    cfg := { minSizeVsAvg := 1 / 2, minSizeUsd := 100, minDistanceBps := 1, stickyDuration := 0,
             stackMinSizeUsd := 100 }
    densityMinSizeUsd := id }

/-- A book with a mid price of 100.05. -/
def stackBook : OrderBook :=
  ({ inc := centIncrements } : OrderBook).applySnapshot
    { ticker := "BTCUSDT", bids := [⟨100, 1, .buy⟩], asks := [⟨1001 / 10, 1, .sell⟩] }

/-- A frame of the n-th second. -/
def stackFrame (n : ℤ) : FeatureFrame := { ticker := "BTCUSDT", timestamp := n * nsPerSec, valid := true }

/-- Two large asks. -/
def oneSide : DensityDetector :=
  (stackDetector.onBookUpdate 0 stackBook
    { ticker := "BTCUSDT", changes := [⟨1005 / 10, 10, .sell⟩, ⟨1006 / 10, 12, .sell⟩] }).1

/-- The stack of two asks is reported by the first frame, and by no other. -/
theorem secondFrame_silent_oneSide :
    oneSide.SilentAgain 0 0 stackBook stackBook (stackFrame 1) (stackFrame 2) ∧
      ¬ ∀ s ∈ (oneSide.onFrame 0 stackBook (stackFrame 1)).2, s.kind ≠ .densityStack :=
  ⟨((secondFrame_silent_iff oneSide 0 0 stackBook stackBook (stackFrame 1) (stackFrame 2)
    (by decide +kernel) rfl (by decide +kernel) rfl rfl (by decide +kernel)).1 rfl).2
    (by decide +kernel), by decide +kernel⟩

/-- Two large bids more. -/
def bothSides : DensityDetector :=
  (oneSide.onBookUpdate 0 stackBook
    { ticker := "BTCUSDT", changes := [⟨996 / 10, 10, .buy⟩, ⟨995 / 10, 12, .buy⟩] }).1

/-- The bid stack makes the detector forget the ask stack, and the other way round. -/
theorem stacks_reported_again :
    ¬ ∀ (d : DensityDetector) (traceId traceId' : TraceId) (book book' : OrderBook)
        (frame next : FeatureFrame), frame.ticker = d.ticker → frame.valid = true →
        next.ticker = d.ticker → next.valid = true → book'.inc = book.inc →
        (d.twoFrames traceId traceId' book book' frame next).1.tracked
          = (d.onFrame traceId book frame).1.tracked →
        ∀ s ∈ (d.twoFrames traceId traceId' book book' frame next).2, s.kind ≠ .densityStack := by
  intro hall
  have hsilent := hall bothSides 0 0 stackBook stackBook (stackFrame 1) (stackFrame 2)
    (by decide +kernel) rfl (by decide +kernel) rfl rfl (by decide +kernel)
  exact absurd hsilent (by decide +kernel)

end DensityDetector

end TradeBot
