import TradeBot.Lib.Histories
import TradeBot.Signals.LevelStories

set_option autoImplicit false

/-! # Ages of levels

The levels of a rebuild have its time as their `created_at`, whether they are new or not. So the ages
that `LevelApproach` reports are those of the levels if and only if no rebuild finds a level again
(`ages_true_along`).

An age is true if it is counted from the birth of the story of its level, which a rebuild passes on.
Ages are published in 32 bits, so that there is one more condition: a level lives for less than 25
days. It is only looked at where an age is published, at a frame that the detector uses. -/

namespace TradeBot

open LevelDetector Histories Runs

/-! ## Published ages -/

namespace LevelDetector

variable {exp : ℚ → ℚ} {priceIncrement : ℚ} {d : LevelDetector} {op : LevelOp} {sig : Signal}

/-- The approach is to one of the levels. -/
def ApproachTo (cfg : LevelConfig) (levels : List Level) (frame : FeatureFrame) (sig : Signal) :
    Prop :=
  ∃ l ∈ levels, sig.price = l.price ∧ sig.timestamp = frame.timestamp ∧
    |distBps frame.mid l.price| ≤ cfg.approachTriggerBps ∧
    sig.payload.ageMs = (ageMs frame.timestamp l.createdAt).bmod (2 ^ 32)

theorem approachTo_of_mem_handle (hsig : sig ∈ (d.handle exp priceIncrement op).2)
    (hkind : sig.kind = .levelApproach) :
    ∃ frame inputs, op = .frame frame inputs ∧ d.Checked frame ∧
      ApproachTo d.cfg (d.settle exp op).1.activeLevels frame sig := by
  have hsettle : sig ∉ (d.settle exp op).2 := by
    intro hmem
    have hformed := formed_settle exp d op sig hmem
    rw [hkind] at hformed
    cases hformed
  obtain heq | ⟨frame, inputs, hop, hchecked, heq⟩ := handle_eq exp priceIncrement d op
  · rw [heq] at hsig
    exact absurd hsig hsettle
  refine ⟨frame, inputs, hop, hchecked, ?_⟩
  rw [heq] at hsig
  rw [← cfg_settle exp d op]
  -- along the loop the configuration stays, and every approach so far is to a level
  refine (List.foldlRecOn (motive := fun r : LevelDetector × List Signal =>
    r.1.cfg = (d.settle exp op).1.cfg ∧ (sig ∈ r.2 → ApproachTo (d.settle exp op).1.cfg
      (d.settle exp op).1.activeLevels frame sig)) _ _ ⟨rfl, fun h => absurd h hsettle⟩ ?_).2 hsig
  rintro r ⟨hcfg, hbefore⟩ l hl
  refine ⟨hcfg, fun hmem => ?_⟩
  rw [published_checkLevel] at hmem
  rcases List.mem_append.1 hmem with hmem | hmem
  · exact hbefore hmem
  obtain ⟨-, hsilent⟩ | ⟨sig', hone, hvisit⟩ :=
    turn_cases r.1 inputs frame l (r.1.currentApproaches (priceTickOf l.price priceIncrement))
  · rw [hsilent] at hmem
    exact absurd hmem List.not_mem_nil
  · rw [hone, List.mem_singleton] at hmem
    subst hmem
    have hzone := hvisit.inZone hkind
    rw [LevelDetector.inZone, decide_eq_true_iff, hcfg] at hzone
    exact ⟨l, hl, hvisit.price, hvisit.timestamp, hzone, hvisit.ageMs hkind⟩

end LevelDetector

/-! ## True ages -/

namespace LevelRun

/-- The levels are as old as their stories, and so they were at their approaches. -/
structure AgesTrue (s : LevelRun) : Prop where
  created : ∀ st ∈ s.stories, ∀ l ∈ s.detector.activeLevels, l.price = st.price →
    l.createdAt = st.born
  reported : ∀ st ∈ s.stories, ∀ sig ∈ st.signals, sig.kind = .levelApproach →
    sig.payload.ageMs = ageMs sig.timestamp st.born

/-- A rebuild does not find a level again that was formed at another time. -/
def KeepsAges (s : LevelRun) (op : LevelOp) : Prop :=
  match s.detector.renewal? op with
  | none => True
  | some r => ∀ price ∈ r.prices, ∀ l ∈ s.detector.activeLevels, near r.eps price l.price = true →
      l.createdAt = r.now

instance (s : LevelRun) (op : LevelOp) : Decidable (s.KeepsAges op) :=
  match hrenewal : s.detector.renewal? op with
  | none => isTrue (by rw [KeepsAges, hrenewal]; trivial)
  | some r => decidable_of_iff
      (∀ price ∈ r.prices, ∀ l ∈ s.detector.activeLevels, near r.eps price l.price = true →
        l.createdAt = r.now)
      (by rw [KeepsAges, hrenewal])

/-- The ages of the levels that a frame approaches fit in an `int`, unless they are made anew. -/
def AgesFit (s : LevelRun) : LevelOp → Prop
  | .frame frame inputs =>
      s.detector.Checked frame → s.detector.renewal? (.frame frame inputs) = none →
        ∀ l ∈ s.detector.activeLevels,
        |distBps frame.mid l.price| ≤ s.detector.cfg.approachTriggerBps →
        -2 ^ 31 ≤ ageMs frame.timestamp l.createdAt ∧ ageMs frame.timestamp l.createdAt < 2 ^ 31
  | .rebuild .. => True

instance (s : LevelRun) (op : LevelOp) : Decidable (s.AgesFit op) :=
  match op with
  | .frame frame inputs => decidable_of_iff
      (s.detector.Checked frame → (s.detector.renewal? (.frame frame inputs)).isNone = true →
        ∀ l ∈ s.detector.activeLevels,
        |distBps frame.mid l.price| ≤ s.detector.cfg.approachTriggerBps →
        -2 ^ 31 ≤ ageMs frame.timestamp l.createdAt ∧ ageMs frame.timestamp l.createdAt < 2 ^ 31)
      (by rw [Option.isNone_iff_eq_none, AgesFit])
  | .rebuild .. => isTrue trivial

instance (s : LevelRun) : Decidable s.AgesTrue :=
  decidable_of_iff
    ((∀ st ∈ s.stories, ∀ l ∈ s.detector.activeLevels, l.price = st.price → l.createdAt = st.born) ∧
      ∀ st ∈ s.stories, ∀ sig ∈ st.signals, sig.kind = .levelApproach →
        sig.payload.ageMs = ageMs sig.timestamp st.born)
    ⟨fun h => ⟨h.1, h.2⟩, fun h => ⟨h.created, h.reported⟩⟩

variable (exp : ℚ → ℚ) (priceIncrement : ℚ) {s : LevelRun} {op : LevelOp}

/-- The levels of a rebuild are new, or were formed at its time. -/
theorem AgesTrue.settle (h : s.AgesTrue) (hsound : s.Sound) (hkeeps : s.KeepsAges op) :
    (s.settle exp op).AgesTrue := by
  unfold LevelRun.settle
  rw [KeepsAges] at hkeeps
  cases hrenewal : s.detector.renewal? op with
  | none =>
      refine ⟨fun st hst l hl => ?_, h.reported⟩
      rw [(kept_of_renewal? exp hrenewal).levels] at hl
      exact h.created st hst l hl
  | some r =>
      rw [hrenewal] at hkeeps
      have hborn : ∀ st ∈ Story.renew s.stories (some r), st.born = r.now ∧
          ∀ sig ∈ st.signals, sig.kind = .levelApproach →
            sig.payload.ageMs = ageMs sig.timestamp st.born := by
        intro st hst
        obtain ⟨price, hprice, hst⟩ := List.mem_flatMap.1 hst
        obtain ⟨old, hold, hnear, rfl⟩ | ⟨-, rfl⟩ := Story.mem_carryOver hst
        · obtain ⟨l, hl, hlprice⟩ := hsound.level old hold
          have hnow := hkeeps price hprice l hl (by rw [hlprice]; exact hnear)
          exact ⟨(h.created old hold l hl hlprice).symm.trans hnow, h.reported old hold⟩
        · exact ⟨rfl, fun sig hsig => absurd hsig List.not_mem_nil⟩
      refine ⟨fun st hst l hl _ => ?_, fun st hst => (hborn st hst).2⟩
      rw [(renewed_of_renewal? exp hrenewal).createdAt l hl, (hborn st hst).1]

theorem bmod_ageMs (hfit : s.AgesFit op) {frame : FeatureFrame} {inputs : Inputs}
    (hop : op = .frame frame inputs) (hchecked : s.detector.Checked frame) {l : Level}
    (hl : l ∈ (s.detector.settle exp op).1.activeLevels)
    (hzone : |distBps frame.mid l.price| ≤ s.detector.cfg.approachTriggerBps) :
    (ageMs frame.timestamp l.createdAt).bmod (2 ^ 32) = ageMs frame.timestamp l.createdAt := by
  subst hop
  cases hrenewal : s.detector.renewal? (.frame frame inputs) with
  | none =>
      rw [(kept_of_renewal? exp hrenewal).levels] at hl
      obtain ⟨hlo, hhi⟩ := hfit hchecked hrenewal l hl hzone
      exact Int.bmod_eq_of_le (by omega) (by omega)
  | some r =>
      have hnow : l.createdAt = frame.timestamp :=
        ((renewed_of_renewal? exp hrenewal).createdAt l hl).trans (now_of_renewal? hrenewal)
      rw [hnow, ageMs, sub_self]
      rfl

theorem AgesTrue.step (h : s.AgesTrue) (hsound : s.Sound) (hkeeps : s.KeepsAges op)
    (hfit : s.AgesFit op) : (s.step exp priceIncrement op).AgesTrue := by
  obtain ⟨hcreated, hreported⟩ := h.settle exp hsound hkeeps
  refine ⟨fun st hst l hl => ?_, fun st hst sig hsig hkind => ?_⟩
  · obtain ⟨st', hst', rfl⟩ := List.mem_map.1 hst
    rw [LevelRun.step, activeLevels_handle] at hl
    exact hcreated st' hst' l hl
  · obtain ⟨st', hst', rfl⟩ := List.mem_map.1 hst
    rcases List.mem_append.1 hsig with hsig | hsig
    · exact hreported st' hst' sig hsig hkind
    obtain ⟨hsig, hheard⟩ := List.mem_filter.1 hsig
    have hprice : sig.price = st'.price := of_decide_eq_true (Bool.and_eq_true_iff.1 hheard).2
    obtain ⟨frame, inputs, hop, hchecked, l, hl, hlprice, htime, hzone, hage⟩ :=
      approachTo_of_mem_handle hsig hkind
    rw [hage, bmod_ageMs exp hfit hop hchecked hl hzone, htime]
    congr 1
    exact hcreated st' hst' l hl (hlprice.symm.trans hprice)

/-- A rebuild that finds a level again gives it its own time. -/
theorem keepsAges_of_agesTrue (h : s.AgesTrue) (hsound : s.Sound)
    (hstep : (s.step exp priceIncrement op).AgesTrue) : s.KeepsAges op := by
  unfold KeepsAges
  split
  · trivial
  · next r hrenewal =>
      intro price hprice ol hol hnear
      obtain ⟨old, hold, hprice'⟩ := hsound.story ol hol
      have hrenewed := renewed_of_renewal? exp hrenewal
      rw [← hprice'] at hnear
      obtain ⟨l, hl, hlprice⟩ : ∃ l ∈ (s.detector.settle exp op).1.activeLevels, l.price = price := by
        rw [← hrenewed.prices] at hprice
        exact List.mem_map.1 hprice
      have hst : { old with price := price } ∈ Story.renew s.stories (s.detector.renewal? op) := by
        rw [hrenewal]
        exact List.mem_flatMap.2 ⟨price, hprice, Story.mem_carryOver_of_near hold hnear⟩
      have hborn : l.createdAt = old.born := by
        refine hstep.created _ (List.mem_map_of_mem hst) l ?_ hlprice
        rw [LevelRun.step, activeLevels_handle]
        exact hl
      calc ol.createdAt = old.born := h.created old hold ol hol hprice'.symm
        _ = l.createdAt := hborn.symm
        _ = r.now := hrenewed.createdAt l hl

/-- The ages are true throughout the runs in which no rebuild finds a level again that was formed at
    another time, and no others, as long as the ages fit in an `int`. -/
theorem ages_true_along (exp : ℚ → ℚ) (priceIncrement : ℚ) (ticker : Ticker) (cfg : LevelConfig)
    (ops : List LevelOp) :
    (Along (step exp priceIncrement) (fun s op => s.KeepsAges op ∧ s.AgesFit op)
        (init ticker cfg) ops →
      Throughout (fun pre => (pre.foldl (step exp priceIncrement) (init ticker cfg)).AgesTrue) ops) ∧
    (Throughout (fun pre => (pre.foldl (step exp priceIncrement) (init ticker cfg)).AgesTrue) ops →
      Along (step exp priceIncrement) KeepsAges (init ticker cfg) ops) := by
  have hinit : (init ticker cfg).AgesTrue :=
    ⟨fun _ h => absurd h List.not_mem_nil, fun _ h => absurd h List.not_mem_nil⟩
  constructor
  · intro halong pre hpre
    refine (throughout_of_along (fun s => s.Sound ∧ s.AgesTrue) ?_ ⟨sound_init ticker cfg, hinit⟩
      halong pre hpre).2
    exact fun s op hs hop => ⟨hs.1.step exp priceIncrement op,
      hs.2.step exp priceIncrement hs.1 hop.1 hop.2⟩
  · intro hall
    refine along_of_throughout (fun s => s.Sound ∧ s.AgesTrue) ?_
      (fun pre hpre => ⟨?_, hall pre hpre⟩)
    · exact fun s op hs hstep => keepsAges_of_agesTrue exp priceIncrement hs.2 hs.1 hstep.2
    · exact Runs.invariant Sound (fun s op hs => hs.step exp priceIncrement op) pre
        (sound_init ticker cfg)

/-- A level of the first minute and the approach a second later, up to the next rebuild. -/
theorem ages_true_along_dips :
    Throughout (fun pre =>
      (pre.foldl (step (fun _ => 1) (1 / 100)) (init "BTC" {})).AgesTrue) (dips 100 101 100).dropLast :=
  (ages_true_along (fun _ => 1) (1 / 100) "BTC" {} (dips 100 101 100).dropLast).1 (by decide +kernel)

/-- A level that is a minute old is made anew at the frame that approaches it, and reports no age. -/
theorem persisting_level_made_anew :
    let s := (dips 100 101 100).foldl (step (fun _ => 1) (1 / 100)) (init "BTC" {})
    s.stories.map (fun st => (st.price, st.born)) = [(100, 60000000000)] ∧
      s.detector.activeLevels.map (fun l => (l.price, l.createdAt)) = [(100, 120000000000)] ∧
      s.stories.map (fun st => st.signals.map (fun sig => (sig.timestamp, sig.payload.ageMs))) =
        [[(61000000000, 1000), (62000000000, 0), (120000000000, 0)]] ∧
      ¬ s.AgesTrue := by
  decide +kernel

end LevelRun

end TradeBot
