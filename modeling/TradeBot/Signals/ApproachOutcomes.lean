import TradeBot.Lib.Histories
import TradeBot.Lib.Switches
import TradeBot.Signals.LevelStories

set_option autoImplicit false

/-! # Approaches and their outcomes

An approach is kept under the tick of its level. A rebuild may move a level to another tick, or let it
share the tick of another one; then the approach is not found, or is taken for that of the other level.
Approaches and outcomes alternate in the runs whose rebuilds leave every approach where its level is
(`alternates_along`).

What has been published about a level is its story, and `Mirrors` says that a story ends with an
approach exactly if one is kept under the tick of the level. A frame keeps this without a condition,
since it looks at each level under its own tick; a rebuild keeps it if it leaves every approach where
its level is. -/

namespace TradeBot

open LevelDetector Histories Runs

namespace LevelDetector

/-- Whether an approach is kept under a tick. -/
def isOpen (d : LevelDetector) (tick : ℤ) : Bool := (d.currentApproaches tick).isSome

/-- An approach is kept under a tick, and not pruned at the rebuild. -/
def staysOpen (d : LevelDetector) (r : Renewal) (tick : ℤ) : Bool :=
  (d.currentApproaches tick).any (fun st => r.prices.any (fun price => near r.eps price st.levelPrice))

theorem Renewed.isOpen_eq {d : LevelDetector} {r : Renewal} {after : LevelDetector × List Signal}
    (h : d.Renewed r after) (tick : ℤ) : after.1.isOpen tick = d.staysOpen r tick := by
  rw [isOpen, h.approaches, prune, staysOpen, ← h.prices]
  cases d.currentApproaches tick with
  | none => rfl
  | some st =>
      rw [Option.isSome_filter, Option.any_some, Option.any_some, List.any_map]
      rfl

end LevelDetector

namespace Story

/-- The approaches and the outcomes, an approach as `true`. -/
def flags (st : Story) : List Bool := st.signals.map (fun sig => decide (sig.kind = .levelApproach))

/-- The story alternates, and its last signal is an approach if one is open. -/
structure Follows (st : Story) (isOpen : Bool) : Prop where
  alternating : Switches.Alternating st.flags
  last : st.flags.getLast?.getD false = isOpen

variable {st : Story} {isOpen : Bool}

theorem Follows.concat (h : st.Follows isOpen) {sig : Signal}
    (hchange : decide (sig.kind = .levelApproach) ≠ isOpen) :
    Follows { st with signals := st.signals ++ [sig] } (decide (sig.kind = .levelApproach)) := by
  have hflags : { st with signals := st.signals ++ [sig] }.flags =
      st.flags ++ [decide (sig.kind = .levelApproach)] := by
    rw [flags, List.map_append]
    rfl
  constructor
  · rw [hflags]
    exact h.alternating.concat (by rw [h.last]; exact hchange)
  · rw [hflags, List.getLast?_concat]
    rfl

theorem Follows.move (h : st.Follows isOpen) (price : ℚ) :
    Follows { st with price := price } isOpen :=
  ⟨h.alternating, h.last⟩

theorem follows_nil (price : ℚ) (born : TimePoint) : ({ price, born } : Story).Follows false :=
  ⟨List.isChain_singleton _, rfl⟩

end Story

namespace LevelRun

/-- Of every level: first an approach, then an outcome, and so forth. -/
def Alternates (s : LevelRun) : Prop := ∀ st ∈ s.stories, Switches.Alternating st.flags

instance (s : LevelRun) : Decidable s.Alternates :=
  inferInstanceAs (Decidable (∀ st ∈ s.stories, Switches.Alternating st.flags))

/-- A rebuild leaves every approach where its level is: levels at different prices have different ticks,
    an approach is open under the tick of a level if and only if one was under the tick of each level
    before it that is the same, and none is under the tick of a new level. -/
def KeepsKeys (priceIncrement : ℚ) (s : LevelRun) (op : LevelOp) : Prop :=
  match s.detector.renewal? op with
  | none => True
  | some r =>
      (∀ p ∈ r.prices, ∀ q ∈ r.prices,
        priceTickOf p priceIncrement = priceTickOf q priceIncrement → p = q) ∧
      (∀ p ∈ r.prices, ∀ l ∈ s.detector.activeLevels, near r.eps p l.price = true →
        s.detector.staysOpen r (priceTickOf p priceIncrement) =
          s.detector.isOpen (priceTickOf l.price priceIncrement)) ∧
      ∀ p ∈ r.prices, (∀ l ∈ s.detector.activeLevels, near r.eps p l.price = false) →
        s.detector.staysOpen r (priceTickOf p priceIncrement) = false

instance (priceIncrement : ℚ) (s : LevelRun) : DecidablePred (s.KeepsKeys priceIncrement) := by
  intro op
  unfold KeepsKeys
  cases s.detector.renewal? op <;> infer_instance

/-- Every story is at the point where the approach under the tick of its level is. -/
structure Mirrors (priceIncrement : ℚ) (s : LevelRun) : Prop where
  keys : ∀ l ∈ s.detector.activeLevels, ∀ l' ∈ s.detector.activeLevels,
    priceTickOf l.price priceIncrement = priceTickOf l'.price priceIncrement → l.price = l'.price
  follows : ∀ st ∈ s.stories, st.Follows (s.detector.isOpen (priceTickOf st.price priceIncrement))

variable (exp : ℚ → ℚ) {priceIncrement : ℚ} {s : LevelRun} {op : LevelOp}

theorem Mirrors.settle (h : s.Mirrors priceIncrement) (hsound : s.Sound)
    (hkeeps : s.KeepsKeys priceIncrement op) : (s.settle exp op).Mirrors priceIncrement := by
  unfold LevelRun.settle
  rw [KeepsKeys] at hkeeps
  cases hrenewal : s.detector.renewal? op with
  | none =>
      have hkept := kept_of_renewal? exp hrenewal
      constructor
      · rw [hkept.levels]
        exact h.keys
      · rw [show (s.detector.settle exp op).1.isOpen = s.detector.isOpen by
          funext tick; rw [isOpen, isOpen, hkept.approaches]]
        exact h.follows
  | some r =>
      have hrenewed := renewed_of_renewal? exp hrenewal
      rw [hrenewal] at hkeeps
      obtain ⟨hkeys, hsame, hnew⟩ := hkeeps
      refine ⟨fun l hl l' hl' => ?_, fun st hst => ?_⟩
      · rw [← hrenewed.prices] at hkeys
        exact hkeys _ (List.mem_map_of_mem hl) _ (List.mem_map_of_mem hl')
      · obtain ⟨p, hp, hst⟩ := List.mem_flatMap.1 hst
        rw [hrenewed.isOpen_eq]
        obtain ⟨old, hold, hnear, rfl⟩ | ⟨hfresh, rfl⟩ := Story.mem_carryOver hst
        · obtain ⟨l, hl, hlprice⟩ := hsound.level old hold
          rw [hsame p hp l hl (by rw [hlprice]; exact hnear), hlprice]
          exact (h.follows old hold).move p
        · rw [hnew p hp (fun l hl => ?_)]
          · exact Story.follows_nil p r.now
          · obtain ⟨old, hold, holdprice⟩ := hsound.story l hl
            rw [← holdprice]
            exact hfresh old hold

/-- The approaches of a frame. Every turn adds to the story of its level what it changes under its tick,
    which is that of no other level. -/
theorem Mirrors.follows_checkLevels (h : s.Mirrors priceIncrement) (hsound : s.Sound)
    (inputs : Inputs) (frame : FeatureFrame) {published : List Signal}
    (hformed : ∀ sig ∈ published, sig.kind = .levelFormed) {st : Story} (hst : st ∈ s.stories) :
    let after := s.detector.activeLevels.foldl (checkLevel priceIncrement inputs frame)
      (s.detector, published)
    (st.hear after.2).Follows (after.1.isOpen (priceTickOf st.price priceIncrement)) := by
  refine List.foldlRecOn (motive := fun after : LevelDetector × List Signal =>
    (st.hear after.2).Follows (after.1.isOpen (priceTickOf st.price priceIncrement))) _ _ ?_ ?_
  · rw [Story.hear_eq_self hformed]
    exact h.follows st hst
  intro after hafter l hl
  obtain ⟨l₀, hl₀, hprice⟩ := hsound.level st hst
  rw [isOpen, currentApproaches_checkLevel, published_checkLevel]
  obtain ⟨hsame, hsilent⟩ | ⟨sig, hone, hvisit⟩ :=
    turn_cases after.1 inputs frame l (after.1.currentApproaches (priceTickOf l.price priceIncrement))
  · -- nothing is published: what is open at the tick stays open
    rw [hsilent, List.append_nil]
    by_cases htick : priceTickOf st.price priceIncrement = priceTickOf l.price priceIncrement
    · rw [htick, Function.update_self, hsame, ← htick]
      exact hafter
    · rw [Function.update_of_ne htick]
      exact hafter
  · -- one signal, which the story of this level hears and no other
    rw [hone]
    by_cases hhere : l.price = st.price
    · have htick : priceTickOf l.price priceIncrement = priceTickOf st.price priceIncrement := by
        rw [hhere]
      have hchange := hvisit.before
      rw [htick] at hchange
      rw [Story.hear_concat_of_eq hvisit.ofVisit (hvisit.price.trans hhere), ← htick,
        Function.update_self, hvisit.after]
      exact hafter.concat hchange
    · rw [Story.hear_concat_of_ne (fun heq => hhere (hvisit.price.symm.trans heq)),
        Function.update_of_ne (fun heq => hhere ?_)]
      · exact hafter
      · rw [← hprice] at heq ⊢
        exact (h.keys l₀ hl₀ l hl heq).symm

theorem Mirrors.step (h : s.Mirrors priceIncrement) (hsound : s.Sound)
    (hkeeps : s.KeepsKeys priceIncrement op) :
    (s.step exp priceIncrement op).Mirrors priceIncrement := by
  have hsettled := h.settle exp hsound hkeeps
  have hformed := formed_settle exp s.detector op
  constructor
  · rw [LevelRun.step, activeLevels_handle]
    exact hsettled.keys
  · intro st hst
    obtain ⟨st', hst', rfl⟩ := List.mem_map.1 hst
    obtain heq | ⟨frame, inputs, -, -, heq⟩ := handle_eq exp priceIncrement s.detector op
    · rw [LevelRun.step, heq, Story.hear_eq_self hformed]
      exact hsettled.follows st' hst'
    · rw [LevelRun.step, heq]
      exact hsettled.follows_checkLevels (hsound.settle exp op) inputs frame hformed hst'

theorem mirrors_init (priceIncrement : ℚ) (ticker : Ticker) (cfg : LevelConfig) :
    (init ticker cfg).Mirrors priceIncrement :=
  ⟨fun _ h => absurd h List.not_mem_nil, fun _ h => absurd h List.not_mem_nil⟩

/-- Approaches and outcomes alternate throughout the runs whose rebuilds leave every approach where its
    level is. -/
theorem alternates_along (exp : ℚ → ℚ) (priceIncrement : ℚ) (ticker : Ticker) (cfg : LevelConfig)
    (ops : List LevelOp)
    (hkeeps : Along (step exp priceIncrement) (KeepsKeys priceIncrement) (init ticker cfg) ops) :
    Throughout (fun pre => (pre.foldl (step exp priceIncrement) (init ticker cfg)).Alternates) ops := by
  have hinv := throughout_of_along (fun s => s.Sound ∧ s.Mirrors priceIncrement)
    (fun s op hs hop => ⟨hs.1.step exp priceIncrement op, hs.2.step exp hs.1 hop⟩)
    ⟨sound_init ticker cfg, mirrors_init priceIncrement ticker cfg⟩ hkeeps
  exact fun pre hpre st hst => ((hinv pre hpre).2.follows st hst).alternating

/-- An approach that stays open over a rebuild. -/
theorem alternates_dips :
    ((dips 100 100 100).foldl (step (fun _ => 1) (1 / 100)) (init "BTC" {})).stories.map Story.flags =
        [[true, false, true]] ∧
      ((dips 100 100 100).foldl (step (fun _ => 1) (1 / 100)) (init "BTC" {})).Alternates :=
  ⟨by decide +kernel,
    (alternates_along (fun _ => 1) (1 / 100) "BTC" {} (dips 100 100 100) (by decide +kernel)).last⟩

/-- The third dip moves the level by two ticks, while the price is near: it is approached again. -/
theorem approached_twice :
    let s := (dips (10006 / 100) (10005 / 100) (10005 / 100)).foldl (step (fun _ => 1) (1 / 100))
      (init "BTC" {})
    s.stories.map (fun st => (st.price, st.flags)) = [(10002 / 100, [true, false, true, true])] ∧
      ¬ s.Alternates := by
  decide +kernel

end LevelRun

end TradeBot
