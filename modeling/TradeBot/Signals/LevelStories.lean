import TradeBot.Signals.LevelDetector

set_option autoImplicit false

/-! # Stories of levels

A rebuild makes all levels anew. What happens to a level over several rebuilds is told by its `Story`:
where it is, when it was first formed, and what was published about it. A level of a rebuild takes
over the stories of all levels before it that are within the tolerance, as the same level; if there
are none, a story begins.

The code has no notion of a level that persists, so the stories are kept beside the detector:
`LevelRun` runs both. `handle_eq` splits a step into its rebuild and its approaches, so that a result
about steps is one about each of the two. -/

namespace TradeBot

open LevelDetector

/-- What is fed to a detector. -/
inductive LevelOp
  | frame (frame : FeatureFrame) (inputs : Inputs)
  | rebuild (now : TimePoint) (inputs : Inputs)

/-- A rebuild that makes levels: its time, its tolerance, and the centroids of the clusters. -/
structure Renewal where
  now : TimePoint
  eps : ℚ
  prices : List ℚ

/-- A level over all its rebuilds. -/
structure Story where
  price : ℚ
  born : TimePoint
  signals : List Signal := []

/-- A detector and the stories of its levels. -/
structure LevelRun where
  detector : LevelDetector
  stories : List Story := []

namespace LevelDetector

section

variable (exp : ℚ → ℚ) (priceIncrement : ℚ) (d : LevelDetector)

/-- The levels that a rebuild makes, where there is a tolerance. -/
def renewalAt? (now : TimePoint) (inputs : Inputs) : Option Renewal :=
  (d.tolerance? inputs).map (fun eps => ⟨now, eps, (d.clusters eps).map centroid⟩)

/-- The rebuild of a step. -/
def renewal? : LevelOp → Option Renewal
  | .frame frame inputs =>
      if frame.ticker ≠ d.ticker ∨ frame.valid = false then none
      else if 60000000000 ≤ frame.timestamp - d.lastRebuild then
        (d.observe frame).renewalAt? frame.timestamp inputs
      else none
  | .rebuild now inputs => d.renewalAt? now inputs

/-- A step of the detector, and what it publishes. -/
def handle : LevelOp → LevelDetector × List Signal
  | .frame frame inputs => d.onFrame exp priceIncrement inputs frame
  | .rebuild now inputs => d.rebuildLevels exp inputs now

/-- A step up to the approaches. -/
def settle : LevelOp → LevelDetector × List Signal
  | .frame frame inputs =>
      if frame.ticker ≠ d.ticker ∨ frame.valid = false then (d, [])
      else (d.observe frame).refresh exp inputs frame
  | .rebuild now inputs => d.rebuildLevels exp inputs now

/-- The approaches are checked at a frame. -/
def Checked (frame : FeatureFrame) : Prop :=
  frame.ticker = d.ticker ∧ frame.valid = true ∧ 0 < frame.mid

instance (frame : FeatureFrame) : Decidable (d.Checked frame) :=
  inferInstanceAs (Decidable (_ ∧ _))

end

end LevelDetector

/-- The signals about a level that is there. -/
def Signal.ofVisit (sig : Signal) : Bool :=
  decide (sig.kind = .levelApproach ∨ sig.kind = .levelRejection ∨ sig.kind = .levelBreak)

namespace Story

/-- What is published about the level is added to its story. -/
def hear (published : List Signal) (st : Story) : Story :=
  { st with
    signals := st.signals ++
      published.filter (fun sig => sig.ofVisit && decide (sig.price = st.price)) }

/-- The stories of a level that a rebuild makes at a price. -/
def carryOver (stories : List Story) (r : Renewal) (price : ℚ) : List Story :=
  match stories.filter (fun st => near r.eps price st.price) with
  | [] => [{ price := price, born := r.now }]
  | old => old.map (fun st => { st with price := price })

/-- The stories after a rebuild, in the order of its levels. -/
def renew (stories : List Story) : Option Renewal → List Story
  | none => stories
  | some r => r.prices.flatMap (carryOver stories r)

end Story

namespace LevelRun

/-- A step up to the approaches. -/
def settle (exp : ℚ → ℚ) (s : LevelRun) (op : LevelOp) : LevelRun :=
  ⟨(s.detector.settle exp op).1, Story.renew s.stories (s.detector.renewal? op)⟩

/-- The detector after a step, with the stories of its levels. -/
def step (exp : ℚ → ℚ) (priceIncrement : ℚ) (s : LevelRun) (op : LevelOp) : LevelRun :=
  let r := s.detector.handle exp priceIncrement op
  ⟨r.1, (Story.renew s.stories (s.detector.renewal? op)).map (Story.hear r.2)⟩

/-- The stories are those of the levels that are there. -/
structure Sound (s : LevelRun) : Prop where
  level : ∀ st ∈ s.stories, ∃ l ∈ s.detector.activeLevels, l.price = st.price
  story : ∀ l ∈ s.detector.activeLevels, ∃ st ∈ s.stories, st.price = l.price

end LevelRun

/-! ## Steps -/

namespace LevelDetector

variable (exp : ℚ → ℚ) (priceIncrement : ℚ) {d : LevelDetector} {op : LevelOp} {r : Renewal}
  {now : TimePoint} {inputs : Inputs} {frame : FeatureFrame}

theorem lastRebuild_observe : (d.observe frame).lastRebuild = d.lastRebuild := rfl

theorem map_price_newLevels (now : TimePoint) (eps : ℚ) :
    (d.newLevels exp inputs now eps).map Level.price = (d.clusters eps).map centroid := by
  rw [newLevels, List.map_map, List.map_map]
  rfl

theorem createdAt_newLevels {eps : ℚ} {l : Level} (hl : l ∈ d.newLevels exp inputs now eps) :
    l.createdAt = now := by
  obtain ⟨p, -, rfl⟩ := List.mem_map.1 hl
  rfl

/-- What a rebuild has done. -/
structure Renewed (d : LevelDetector) (r : Renewal) (after : LevelDetector × List Signal) : Prop where
  cfg : after.1.cfg = d.cfg
  prices : after.1.activeLevels.map Level.price = r.prices
  createdAt : ∀ l ∈ after.1.activeLevels, l.createdAt = r.now
  approaches : after.1.currentApproaches = d.prune r.eps after.1.activeLevels
  formed : ∀ sig ∈ after.2, sig.kind = .levelFormed

/-- A step that makes no levels. -/
structure Kept (d : LevelDetector) (after : LevelDetector × List Signal) : Prop where
  cfg : after.1.cfg = d.cfg
  levels : after.1.activeLevels = d.activeLevels
  approaches : after.1.currentApproaches = d.currentApproaches
  silent : after.2 = []

theorem kept_of_renewalAt? (h : d.renewalAt? now inputs = none) :
    d.Kept (d.rebuildLevels exp inputs now) := by
  rw [renewalAt?, Option.map_eq_none_iff] at h
  rw [rebuildLevels, h]
  exact ⟨rfl, rfl, rfl, rfl⟩

theorem renewed_of_renewalAt? (h : d.renewalAt? now inputs = some r) :
    d.Renewed r (d.rebuildLevels exp inputs now) := by
  obtain ⟨eps, heps, rfl⟩ := Option.map_eq_some_iff.1 h
  rw [rebuildLevels, heps]
  refine ⟨rfl, map_price_newLevels exp now eps, fun l hl => createdAt_newLevels exp hl, rfl, ?_⟩
  intro sig hsig
  obtain ⟨nl, -, rfl⟩ := List.mem_map.1 hsig
  rfl

theorem kept_of_renewal? (h : d.renewal? op = none) : d.Kept (d.settle exp op) := by
  cases op with
  | frame frame inputs =>
      rw [renewal?] at h
      rw [settle]
      split_ifs at h ⊢ with hignored hdue
      · exact ⟨rfl, rfl, rfl, rfl⟩
      · have hkept := kept_of_renewalAt? exp h
        rw [refresh, lastRebuild_observe, if_pos hdue]
        exact ⟨hkept.cfg, hkept.levels, hkept.approaches, hkept.silent⟩
      · rw [refresh, lastRebuild_observe, if_neg hdue]
        exact ⟨rfl, rfl, rfl, rfl⟩
  | rebuild now inputs => exact kept_of_renewalAt? exp h

theorem renewed_of_renewal? (h : d.renewal? op = some r) : d.Renewed r (d.settle exp op) := by
  cases op with
  | frame frame inputs =>
      rw [renewal?] at h
      rw [settle]
      split_ifs at h ⊢ with hignored hdue
      have hrenewed := renewed_of_renewalAt? exp h
      rw [refresh, lastRebuild_observe, if_pos hdue]
      exact ⟨hrenewed.cfg, hrenewed.prices, hrenewed.createdAt, hrenewed.approaches, hrenewed.formed⟩
  | rebuild now inputs => exact renewed_of_renewalAt? exp h

theorem formed_settle (d : LevelDetector) (op : LevelOp) :
    ∀ sig ∈ (d.settle exp op).2, sig.kind = .levelFormed := by
  cases hrenewal : d.renewal? op with
  | none =>
      rw [(kept_of_renewal? exp hrenewal).silent]
      exact fun _ hsig => absurd hsig List.not_mem_nil
  | some r => exact (renewed_of_renewal? exp hrenewal).formed

theorem now_of_renewal? (h : d.renewal? (.frame frame inputs) = some r) : r.now = frame.timestamp := by
  rw [renewal?] at h
  split_ifs at h
  obtain ⟨eps, -, rfl⟩ := Option.map_eq_some_iff.1 h
  rfl

/-- A rebuild is the whole step, and so is a frame that is not used for approaches. -/
theorem handle_eq (d : LevelDetector) (op : LevelOp) :
    d.handle exp priceIncrement op = d.settle exp op ∨
    ∃ frame inputs, op = .frame frame inputs ∧ d.Checked frame ∧
      d.handle exp priceIncrement op = (d.settle exp op).1.activeLevels.foldl
        (checkLevel priceIncrement inputs frame) (d.settle exp op) := by
  cases op with
  | frame frame inputs =>
      rw [handle, onFrame, settle]
      split_ifs with hignored
      · exact Or.inl rfl
      · rw [checkApproaches]
        split_ifs with hmid
        · exact Or.inl rfl
        · obtain ⟨hticker, hvalid⟩ := not_or.1 hignored
          have hchecked : d.Checked frame :=
            ⟨not_not.1 hticker, Bool.eq_true_of_not_eq_false hvalid, not_le.1 hmid⟩
          exact Or.inr ⟨frame, inputs, rfl, hchecked, rfl⟩
  | rebuild now inputs => exact Or.inl rfl

/-- A signal about a level, which opens or ends the approach to it. -/
structure Visit (d : LevelDetector) (frame : FeatureFrame) (l : Level)
    (before after : Option ApproachState) (sig : Signal) : Prop where
  ofVisit : sig.ofVisit = true
  price : sig.price = l.price
  timestamp : sig.timestamp = frame.timestamp
  before : decide (sig.kind = .levelApproach) ≠ before.isSome
  after : after.isSome = decide (sig.kind = .levelApproach)
  inZone : sig.kind = .levelApproach → d.inZone frame.mid l = true
  ageMs : sig.kind = .levelApproach →
    sig.payload.ageMs = (ageMs frame.timestamp l.createdAt).bmod (2 ^ 32)

theorem turn_cases (d : LevelDetector) (inputs : Inputs) (frame : FeatureFrame) (l : Level)
    (state : Option ApproachState) :
    ((d.turn inputs frame l state).1.isSome = state.isSome ∧ (d.turn inputs frame l state).2 = []) ∨
    ∃ sig, (d.turn inputs frame l state).2 = [sig] ∧
      d.Visit frame l state (d.turn inputs frame l state).1 sig := by
  unfold turn
  split_ifs with hzone
  · cases state with
    | some st => exact Or.inl ⟨rfl, rfl⟩
    | none =>
        refine Or.inr ⟨_, rfl, rfl, rfl, rfl, Bool.noConfusion, rfl, fun _ => hzone, fun _ => ?_⟩
        rw [signal, approachPayload]
        split <;> rfl
  · cases state with
    | none => exact Or.inl ⟨rfl, rfl⟩
    | some st =>
        refine Or.inr ⟨_, rfl, ?_⟩
        dsimp only [signal]
        split_ifs
        · exact ⟨rfl, rfl, rfl, Bool.noConfusion, rfl, SignalKind.noConfusion, SignalKind.noConfusion⟩
        · exact ⟨rfl, rfl, rfl, Bool.noConfusion, rfl, SignalKind.noConfusion, SignalKind.noConfusion⟩

theorem published_checkLevel (after : LevelDetector × List Signal) (l : Level) :
    (checkLevel priceIncrement inputs frame after l).2 = after.2 ++ (after.1.turn inputs frame l
      (after.1.currentApproaches (priceTickOf l.price priceIncrement))).2 := rfl

theorem currentApproaches_checkLevel (after : LevelDetector × List Signal) (l : Level) :
    (checkLevel priceIncrement inputs frame after l).1.currentApproaches =
      Function.update after.1.currentApproaches (priceTickOf l.price priceIncrement)
        (after.1.turn inputs frame l
          (after.1.currentApproaches (priceTickOf l.price priceIncrement))).1 := rfl

theorem cfg_settle (d : LevelDetector) (op : LevelOp) : (d.settle exp op).1.cfg = d.cfg := by
  cases hrenewal : d.renewal? op with
  | none => exact (kept_of_renewal? exp hrenewal).cfg
  | some r => exact (renewed_of_renewal? exp hrenewal).cfg

theorem activeLevels_handle (d : LevelDetector) (op : LevelOp) :
    (d.handle exp priceIncrement op).1.activeLevels = (d.settle exp op).1.activeLevels := by
  obtain heq | ⟨frame, inputs, -, -, heq⟩ := handle_eq exp priceIncrement d op
  · rw [heq]
  · rw [heq]
    exact List.foldlRecOn (motive := fun r : LevelDetector × List Signal =>
      r.1.activeLevels = (d.settle exp op).1.activeLevels) _ _ rfl (fun _ hr _ _ => hr)

end LevelDetector

/-! ## Stories -/

namespace Story

variable {stories : List Story} {r : Renewal} {price : ℚ} {st old : Story}

theorem mem_carryOver (h : st ∈ carryOver stories r price) :
    (∃ old ∈ stories, near r.eps price old.price = true ∧ st = { old with price := price }) ∨
    (∀ old ∈ stories, near r.eps price old.price = false) ∧
      st = { price := price, born := r.now } := by
  unfold carryOver at h
  split at h
  · next hnone =>
      refine Or.inr ⟨fun old hold => ?_, List.mem_singleton.1 h⟩
      exact Bool.eq_false_iff.2 (List.filter_eq_nil_iff.1 hnone old hold)
  · obtain ⟨old, hold, rfl⟩ := List.mem_map.1 h
    obtain ⟨hmem, hnear⟩ := List.mem_filter.1 hold
    exact Or.inl ⟨old, hmem, hnear, rfl⟩

theorem price_of_mem_carryOver (h : st ∈ carryOver stories r price) : st.price = price := by
  obtain ⟨old, -, -, rfl⟩ | ⟨-, rfl⟩ := mem_carryOver h
  · rfl
  · rfl

theorem mem_carryOver_of_near (hold : old ∈ stories) (hnear : near r.eps price old.price = true) :
    { old with price := price } ∈ carryOver stories r price := by
  have hmem : old ∈ stories.filter (fun st => near r.eps price st.price) :=
    List.mem_filter.2 ⟨hold, hnear⟩
  unfold carryOver
  split
  · next hnone => exact absurd hmem (by rw [hnone]; exact List.not_mem_nil)
  · exact List.mem_map_of_mem hmem

theorem exists_mem_carryOver (stories : List Story) (r : Renewal) (price : ℚ) :
    ∃ st, st ∈ carryOver stories r price := by
  unfold carryOver
  split
  · exact ⟨_, List.mem_singleton_self _⟩
  · next hsome =>
      obtain ⟨old, hold⟩ := List.exists_mem_of_ne_nil _ hsome
      exact ⟨_, List.mem_map_of_mem hold⟩

variable {published : List Signal} {sig : Signal}

theorem hear_eq_self (h : ∀ sig ∈ published, sig.kind = .levelFormed) (st : Story) :
    st.hear published = st := by
  have hnone : published.filter (fun sig => sig.ofVisit && decide (sig.price = st.price)) = [] := by
    refine List.filter_eq_nil_iff.2 (fun sig hsig => ?_)
    rw [Signal.ofVisit, h sig hsig]
    exact Bool.noConfusion
  rw [hear, hnone, List.append_nil]

theorem hear_concat_of_eq (hvisit : sig.ofVisit = true) (hprice : sig.price = st.price) :
    st.hear (published ++ [sig]) =
      { st with signals := (st.hear published).signals ++ [sig] } := by
  simp [hear, hvisit, hprice]

theorem hear_concat_of_ne (hprice : sig.price ≠ st.price) :
    st.hear (published ++ [sig]) = st.hear published := by
  simp [hear, hprice]

end Story

namespace LevelRun

variable (exp : ℚ → ℚ) (priceIncrement : ℚ) {s : LevelRun}

theorem Sound.settle (h : s.Sound) (op : LevelOp) : (s.settle exp op).Sound := by
  unfold LevelRun.settle
  cases hrenewal : s.detector.renewal? op with
  | none =>
      have hlevels := (kept_of_renewal? exp hrenewal).levels
      exact ⟨fun st hst => by rw [hlevels]; exact h.level st hst,
        fun l hl => h.story l (by rw [← hlevels]; exact hl)⟩
  | some r =>
      have hprices := (renewed_of_renewal? exp hrenewal).prices
      refine ⟨fun st hst => ?_, fun l hl => ?_⟩
      · obtain ⟨price, hprice, hst⟩ := List.mem_flatMap.1 hst
        rw [← hprices] at hprice
        rw [Story.price_of_mem_carryOver hst]
        exact List.mem_map.1 hprice
      · obtain ⟨st, hst⟩ := Story.exists_mem_carryOver s.stories r l.price
        refine ⟨st, List.mem_flatMap.2 ⟨l.price, ?_, hst⟩, Story.price_of_mem_carryOver hst⟩
        rw [← hprices]
        exact List.mem_map_of_mem hl

theorem Sound.step (h : s.Sound) (op : LevelOp) : (s.step exp priceIncrement op).Sound := by
  obtain ⟨hlevel, hstory⟩ := h.settle exp op
  have hlevels := activeLevels_handle exp priceIncrement s.detector op
  refine ⟨fun st hst => ?_, fun l hl => ?_⟩
  · obtain ⟨st', hst', rfl⟩ := List.mem_map.1 hst
    obtain ⟨l, hl, hprice⟩ := hlevel st' hst'
    exact ⟨l, hlevels ▸ hl, hprice⟩
  · obtain ⟨st, hst, hprice⟩ := hstory l (hlevels ▸ hl)
    exact ⟨_, List.mem_map_of_mem hst, hprice⟩

/-- A detector at its start. -/
def init (ticker : Ticker) (cfg : LevelConfig) : LevelRun where
  detector := { ticker := ticker, cfg := cfg }

theorem sound_init (ticker : Ticker) (cfg : LevelConfig) : (init ticker cfg).Sound :=
  ⟨fun _ h => absurd h List.not_mem_nil, fun _ h => absurd h List.not_mem_nil⟩

/-- Frames by their seconds and mid prices. -/
def frames (samples : List (ℤ × ℚ)) : List LevelOp :=
  samples.map (fun sample =>
    .frame { timestamp := sample.1 * 1000000000, ticker := "BTC", mid := sample.2, valid := true } {})

def quiet (start : ℤ) : List (ℤ × ℚ) := (List.range 5).map (fun i => (start + i, 101))

/-- Two dips to `100`, which are a level after a minute, another dip, and the frames before and at the
    next rebuild. -/
def dips (bottom before last : ℚ) : List LevelOp :=
  frames (quiet 0 ++ [(5, 100)] ++ quiet 6 ++ [(11, 100)] ++ quiet 12 ++ [(60, 101), (61, bottom)] ++
    quiet 62 ++ [(119, before), (120, last)])

end LevelRun

end TradeBot
