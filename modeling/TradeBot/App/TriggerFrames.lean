import TradeBot.App.PipelineProcessor
import TradeBot.Control.TickerController
import TradeBot.Strategy.EngineSteps
import TradeBot.Strategy.Strategies

set_option autoImplicit false

/-! # The frame a decision is made on

`app/PipelineProcessor.cpp` with the controllers and the strategy engine behind it: an event changes a
controller, and at most `feature_rate_hz` times a second the controller produces a frame. The signals
of a frame are published while it is produced, and the engine gets the frame afterwards. So a strategy
that answers such a signal has the frame before (`not_onTrigger_of_clockAdvances`).

The pipeline is one state: the controllers of the registered tickers, the engine with its strategies,
and the decisions made in ticks with the frames that triggered them. Its steps are events and what the
other threads do to the same objects. A message with trades makes the controller tick even if the loop
over them comes across none, a message with changes of the book only if it comes across some. -/

namespace TradeBot

/-- A plan that a strategy made on a signal published in a tick: the frame that the tick produced, and
    the one that the strategy had. -/
structure Decision where
  trigger : FeatureFrame
  gates : FeatureFrame
  plan : StrategyPlan
  deriving DecidableEq

/-- `TickerComponents`. -/
structure TickerComponents (δ : Type) where
  ctrl : TickerController δ
  nextEmitNs : ℕ := 0

/-- The processor's tickers, the engine, the world behind `on_plan_`, and the decisions made in ticks,
    which are not in the source. -/
structure Pipeline (δ ω : Type) where
  tickers : Ticker → Option (TickerComponents δ) := fun _ => none
  engine : StrategyEngine AnyStrategy := {}
  world : ω
  decisions : List Decision := []

/-- What is set once: the reader of the events, the engine's callbacks, the interval between two
    frames, and the leader. -/
structure PipelineSetup (ω : Type) where
  reader : OnDemand
  onPlan : Option (Gate ω)
  closing : Bool
  intervalNs : ℕ
  leaderTicker : Ticker

/-- What the clocks show while an event is processed. -/
structure EventClocks where
  received : TimePoint
  steadyNs : ℕ
  tick : TimePoint
  signal : Signal → TimePoint
  frame : TimePoint

namespace Pipeline

open PipelineProcessor

variable {δ ω : Type} (setup : PipelineSetup ω)

/-- The trace id of the processor's thread. `process_event_` makes a `TraceContext` of the event, not a
    `TraceContextScope`, so the context of the thread stays what it is from the start. -/
def currentTraceId : TraceId := 0

/-! ## Signals -/

/-- What a strategy decides on a signal that is published while `trigger` is produced. -/
def decision? (trigger : FeatureFrame) (s : Signal) (now : TimePoint) (strat : AnyStrategy) :
    Option Decision :=
  (strat.onSignal s now).2.map (fun plan => ⟨trigger, strat.base.ctx.lastFrame, plan⟩)

/-- One strategy gets a signal, published while `trigger` is produced or outside of ticks. -/
def deliver (trigger : Option FeatureFrame) (s : Signal) (now : TimePoint) (p : Pipeline δ ω)
    (a : Address) : Pipeline δ ω :=
  let (engine, world) := StrategyEngine.deliver setup.onPlan s now (p.engine, p.world) a
  let new := trigger.bind (fun frame => (p.engine.objects a).bind (decision? frame s now))
  { p with engine := engine, world := world, decisions := p.decisions ++ new.toList }

/-- A signal goes to the strategies that listen to it. -/
def publish (trigger : Option FeatureFrame) (clocks : EventClocks) (p : Pipeline δ ω) (s : Signal) :
    Pipeline δ ω :=
  (p.engine.recipients s).foldl (deliver setup trigger s (clocks.signal s)) p

/-- The signals of a frame, one after the other. -/
def publishAll (trigger : Option FeatureFrame) (clocks : EventClocks) (signals : List Signal)
    (p : Pipeline δ ω) : Pipeline δ ω :=
  signals.foldl (publish setup trigger clocks) p

/-! ## Events -/

variable [Detection δ]

/-- A call to the controller of a ticker, and the signals it publishes. -/
def callController (clocks : EventClocks) (ticker : Ticker)
    (f : TickerController δ → TickerController δ × List Signal) (p : Pipeline δ ω) : Pipeline δ ω :=
  match p.tickers ticker with
  | none => p
  | some comp =>
      let (ctrl, signals) := f comp.ctrl
      publishAll setup none clocks signals
        { p with tickers := Function.update p.tickers ticker (some { comp with ctrl := ctrl }) }

/-- The data of an event goes to the controller. The ticker is returned for which a frame is due. -/
def ingest (doc : Json) (clocks : EventClocks) (p : Pipeline δ ω) : Pipeline δ ω × Option Ticker :=
  let R := setup.reader
  let registered := fun ticker => (p.tickers ticker).isSome
  let read := field R R.getString "Type" "type" (R.iterate doc)
  match read.1 with
  | some "orderbook_update" =>
      match ((handleOrderbookUpdate R clocks.received registered).run read.2).1 with
      | some upd =>
          (callController setup clocks upd.ticker
            (TickerController.onBookUpdate currentTraceId upd) p, some upd.ticker)
      | none => (p, none)
  | some "trade_update" =>
      match ((handleTradeUpdate R clocks.received registered).run read.2).1 with
      | some (ticker, trades) =>
          (trades.foldl (fun p trade => callController setup clocks ticker
            (TickerController.onTrade currentTraceId trade) p) p, some ticker)
      | none => (p, none)
  | _ => (p, none)

/-- The leader's frame goes to the other controllers. -/
def routeLeader (frame : FeatureFrame) (p : Pipeline δ ω) : Pipeline δ ω :=
  if frame.ticker = setup.leaderTicker then
    { p with
      tickers := fun ticker =>
        if ticker = setup.leaderTicker then p.tickers ticker
        else (p.tickers ticker).map (fun comp => { comp with ctrl := comp.ctrl.onLeaderFrame frame }) }
  else p

/-- The rate limit: the components of a ticker for which a frame is due. -/
def due? (clocks : EventClocks) (ticker : Ticker) (p : Pipeline δ ω) : Option (TickerComponents δ) :=
  (p.tickers ticker).filter (fun comp => decide (comp.nextEmitNs ≤ clocks.steadyNs))

/-- The tick of a controller: the frame, and the signals published while it is produced. -/
def tickController (clocks : EventClocks) (ticker : Ticker) (comp : TickerComponents δ)
    (p : Pipeline δ ω) : Pipeline δ ω × FeatureFrame × List Signal :=
  let (ctrl, frame, signals) := comp.ctrl.tick currentTraceId clocks.tick
  let comp := { ctrl := ctrl, nextEmitNs := clocks.steadyNs + setup.intervalNs }
  ({ p with tickers := Function.update p.tickers ticker (some comp) }, frame, signals)

/-- `trigger_feature_extraction_`: the strategies get the signals of a tick before its frame. -/
def triggerFeatureExtraction (clocks : EventClocks) (ticker : Ticker) (p : Pipeline δ ω) :
    Pipeline δ ω :=
  match due? clocks ticker p with
  | none => p
  | some comp =>
      let (p, frame, signals) := tickController setup clocks ticker comp p
      let p := publishAll setup (some frame) clocks signals p
      routeLeader setup frame
        { p with engine := p.engine.onFrame setup.closing clocks.frame frame }

/-- `process_event_`, with the controllers and the engine behind it. -/
def processEvent (doc : Json) (clocks : EventClocks) (p : Pipeline δ ω) : Pipeline δ ω :=
  match ingest setup doc clocks p with
  | (p, some ticker) => triggerFeatureExtraction setup clocks ticker p
  | (p, none) => p

/-! ## Runs -/

/-- An event with its trace id, which the processor puts aside; and what the other threads do to the
    same objects: register tickers and new strategies, tick the engine, reset plans. -/
inductive Op (δ ω : Type)
  | event (traceId : TraceId) (doc : Json) (clocks : EventClocks)
  | registerTicker (ticker : Ticker) (detection : δ)
  | addStrategy (s : {s : AnyStrategy // s.base.ctx = {}})
  | removeStrategy (ticker : Ticker) (name : String)
  | engineTick (ps : PlanSort) (now : TimePoint)
  | resetStrategyPlan (ticker : Ticker) (name : String)

/-- The pipeline after an operation. -/
def step (p : Pipeline δ ω) : Op δ ω → Pipeline δ ω
  | .event _ doc clocks => processEvent setup doc clocks p
  | .registerTicker ticker detection =>
      let comp : TickerComponents δ := { ctrl := { detection := detection } }
      { p with tickers := Function.update p.tickers ticker (some comp) }
  | .addStrategy s => { p with engine := p.engine.addStrategy s.1 }
  | .removeStrategy ticker name => { p with engine := p.engine.removeStrategy ticker name }
  | .engineTick ps now =>
      let (engine, world) := StrategyEngine.tick ps setup.onPlan now (p.engine, p.world)
      { p with engine := engine, world := world }
  | .resetStrategyPlan ticker name => { p with engine := p.engine.resetStrategyPlan ticker name }

/-- The pipeline after some operations. -/
def run (world : ω) (ops : List (Op δ ω)) : Pipeline δ ω :=
  ops.foldl (step setup) { world := world }

end Pipeline

/-- The decision was made on the frame that triggered it. -/
def Decision.OnTrigger (d : Decision) : Prop :=
  d.gates = d.trigger ∧ d.plan.frameAtEntry = d.trigger

instance (d : Decision) : Decidable d.OnTrigger := inferInstanceAs (Decidable (_ ∧ _))

namespace Pipeline

/-! ## Signals without a trace id -/

/-- No signal that a strategy has received carries a trace id. -/
def UntracedContext (ctx : StrategyContext) : Prop :=
  ∀ e, ctx.Received e → e.triggerTraceId = 0

/-- The strategies of the engine know of no trace. -/
def Untraced (eng : StrategyEngine AnyStrategy) : Prop :=
  ∀ a s, eng.objects a = some s → UntracedContext s.base.ctx

theorem untraced_methods :
    StrategyEngine.Methods (fun _ => True) (fun s => s.triggerTraceId = 0)
      (fun s s' : AnyStrategy => UntracedContext s.base.ctx → UntracedContext s'.base.ctx) :=
  AnyStrategy.methods_of_ctx (Q := fun c c' => UntracedContext c → UntracedContext c')
    (fun _ h => h) (fun _ _ _ h h' hc => h' (h hc)) (fun _ _ _ hc => hc)
    (fun _ _ hs hc e he => (StrategyContext.received_updateSignal he).elim (hc e)
      (fun heq => heq ▸ hs))

theorem Untraced.evolves {eng eng' : StrategyEngine AnyStrategy} (h : Untraced eng)
    (hev : StrategyEngine.Evolves
      (fun s s' : AnyStrategy => UntracedContext s.base.ctx → UntracedContext s'.base.ctx) eng eng') :
    Untraced eng' := by
  intro a s' hs'
  obtain ⟨s, hs, himp⟩ := hev.some_right hs'
  exact himp (h a s hs)

/-- A plan made on signals without a trace id takes the last frame with it. -/
theorem frameAtEntry_of_onSignal {strat : AnyStrategy} {s : Signal} {now : TimePoint}
    {plan : StrategyPlan} (hctx : UntracedContext strat.base.ctx) (hs : s.triggerTraceId = 0)
    (hplan : (strat.onSignal s now).2 = some plan) :
    plan.frameAtEntry = strat.base.ctx.lastFrame := by
  cases strat with
  | leaderLag l => exact absurd hplan (by simp [AnyStrategy.onSignal])
  | eventDriven book base =>
      have hdoc := book.documents now (base.notice s) plan (book.onSignal_snd hplan)
      have hid : (plan.evidence.getLast?.map Signal.triggerTraceId).getD 0 = 0 := by
        cases hlast : plan.evidence.getLast? with
        | none => rfl
        | some e =>
            have he := hdoc.received e (List.mem_of_getLast? hlast)
            rcases StrategyContext.received_updateSignal he with hold | rfl
            · exact hctx e hold
            · exact hs
      rw [← hdoc.traced]
      simp only [StrategyBase.traced, hid]
      rfl

/-! ## What a step decides -/

section

variable {δ ω : Type} (setup : PipelineSetup ω)

/-- From `p` to `p'` decisions are made that are on their triggers exactly if `C` holds. -/
structure Records (p p' : Pipeline δ ω) (C : Prop) : Prop where
  untraced : Untraced p'.engine
  decisions : ∃ new, p'.decisions = p.decisions ++ new ∧ ((∀ d ∈ new, d.OnTrigger) ↔ C)

theorem Records.trans {p p' p'' : Pipeline δ ω} {C C' : Prop} (h : Records p p' C)
    (h' : Records p' p'' C') : Records p p'' (C ∧ C') := by
  obtain ⟨new, hnew, hC⟩ := h.decisions
  obtain ⟨new', hnew', hC'⟩ := h'.decisions
  refine ⟨h'.untraced, new ++ new', by rw [hnew', hnew, List.append_assoc], ?_⟩
  rw [List.forall_mem_append, hC, hC']

theorem Records.congr {p p' : Pipeline δ ω} {C C' : Prop} (h : Records p p' C) (hC : C ↔ C') :
    Records p p' C' :=
  propext hC ▸ h

/-- A step that decides nothing. -/
theorem Records.quiet {p p' : Pipeline δ ω} (h : Untraced p'.engine)
    (hdecisions : p'.decisions = p.decisions) : Records p p' True :=
  ⟨h, [], by rw [hdecisions, List.append_nil], by simp⟩

theorem records_foldl {ι : Type} {f : Pipeline δ ω → ι → Pipeline δ ω}
    {C : Pipeline δ ω → ι → Prop} {is : List ι}
    (h : ∀ i ∈ is, ∀ p, Untraced p.engine → Records p (f p i) (C p i)) {p : Pipeline δ ω}
    (hp : Untraced p.engine) : Records p (is.foldl f p) (Runs.Along f C p is) := by
  induction is generalizing p with
  | nil => exact .quiet hp rfl
  | cons i is ih =>
      have hi := h i (List.mem_cons_self ..) p hp
      exact hi.trans (ih (fun j hj => h j (List.mem_cons_of_mem _ hj)) hi.untraced)

/-- A strategy that answers a signal of a tick with a plan has the frame of the tick already. -/
def AnswersOn (trigger : Option FeatureFrame) (s : Signal) (now : TimePoint) (p : Pipeline δ ω)
    (a : Address) : Prop :=
  ∀ frame ∈ trigger, ∀ strat, p.engine.objects a = some strat →
    (strat.onSignal s now).2.isSome = true → strat.base.ctx.lastFrame = frame

theorem deliver_records (trigger : Option FeatureFrame) {s : Signal} (hs : s.triggerTraceId = 0)
    (now : TimePoint) (a : Address) (p : Pipeline δ ω) (hp : Untraced p.engine) :
    Records p (deliver setup trigger s now p a) (AnswersOn trigger s now p a) := by
  refine ⟨hp.evolves (untraced_methods.deliver setup.onPlan hs now (p.engine, p.world) a), _, rfl, ?_⟩
  cases trigger with
  | none => simp [AnswersOn]
  | some frame =>
      cases hstrat : p.engine.objects a with
      | none => simp [AnswersOn, hstrat]
      | some strat =>
          cases hplan : (strat.onSignal s now).2 with
          | none => simp [AnswersOn, hstrat, hplan, decision?]
          | some plan =>
              have hframe := frameAtEntry_of_onSignal (hp a strat hstrat) hs hplan
              simp [AnswersOn, hstrat, hplan, decision?, Decision.OnTrigger, hframe]

/-- All strategies answer the signals of a tick on its frame. -/
def PublishedOn (trigger : Option FeatureFrame) (clocks : EventClocks) (p : Pipeline δ ω)
    (s : Signal) : Prop :=
  Runs.Along (deliver setup trigger s (clocks.signal s)) (AnswersOn trigger s (clocks.signal s)) p
    (p.engine.recipients s)

theorem publishAll_records (trigger : Option FeatureFrame) (clocks : EventClocks)
    {signals : List Signal} (hs : ∀ s ∈ signals, s.triggerTraceId = 0) {p : Pipeline δ ω}
    (hp : Untraced p.engine) :
    Records p (publishAll setup trigger clocks signals p)
      (Runs.Along (publish setup trigger clocks) (PublishedOn setup trigger clocks) p
        signals) :=
  records_foldl (fun s hmem _ hp => records_foldl
    (fun a _ p hp => deliver_records setup trigger (hs s hmem) (clocks.signal s) a p hp) hp) hp

/-- Outside of ticks nothing is decided. -/
theorem publishAll_none_records (clocks : EventClocks) {signals : List Signal}
    (hs : ∀ s ∈ signals, s.triggerTraceId = 0) {p : Pipeline δ ω} (hp : Untraced p.engine) :
    Records p (publishAll setup none clocks signals p) True :=
  (publishAll_records setup none clocks hs hp).congr (iff_true_intro
    (Runs.along_of_mem (fun _ _ _ => Runs.along_of_mem (fun _ _ _ _ h => absurd h (by simp)))))

theorem triggerTraceId_of_traced {s : Signal} (h : s.TracedBy currentTraceId) :
    s.triggerTraceId = 0 := h.elim id id

theorem callController_records (clocks : EventClocks) (ticker : Ticker)
    {f : TickerController δ → TickerController δ × List Signal}
    (hf : ∀ ctrl, ∀ s ∈ (f ctrl).2, s.TracedBy currentTraceId) {p : Pipeline δ ω}
    (hp : Untraced p.engine) : Records p (callController setup clocks ticker f p) True := by
  unfold callController
  split
  · exact .quiet hp rfl
  · next comp _ =>
      have hs := fun s hs => triggerTraceId_of_traced (hf comp.ctrl s hs)
      have hcomp : Untraced { p with
        tickers := Function.update p.tickers ticker (some { comp with ctrl := (f comp.ctrl).1 })
          }.engine := hp
      obtain ⟨huntraced, hdecisions⟩ := publishAll_none_records setup clocks hs hcomp
      exact ⟨huntraced, hdecisions⟩

/-! ## Older frames -/

/-- All strategies have frames from before `t`. -/
def Older (t : TimePoint) (eng : StrategyEngine AnyStrategy) : Prop :=
  ∀ a s, eng.objects a = some s → s.base.ctx.lastFrame.timestamp < t

theorem older_methods (t : TimePoint) :
    StrategyEngine.Methods (fun frame => frame.timestamp < t) (fun _ => True)
      (fun s s' : AnyStrategy =>
        s.base.ctx.lastFrame.timestamp < t → s'.base.ctx.lastFrame.timestamp < t) :=
  AnyStrategy.methods_of_ctx
    (Q := fun c c' => c.lastFrame.timestamp < t → c'.lastFrame.timestamp < t)
    (fun _ h => h) (fun _ _ _ h h' hc => h' (h hc)) (fun _ _ hf _ => hf) (fun _ _ _ hc => hc)

theorem Older.evolves {t : TimePoint} {eng eng' : StrategyEngine AnyStrategy} (h : Older t eng)
    (hev : StrategyEngine.Evolves (fun s s' : AnyStrategy =>
      s.base.ctx.lastFrame.timestamp < t → s'.base.ctx.lastFrame.timestamp < t) eng eng') :
    Older t eng' := by
  intro a s' hs'
  obtain ⟨s, hs, himp⟩ := hev.some_right hs'
  exact himp (h a s hs)

/-- Every decision was made on a frame older than its trigger. -/
def Stale (p : Pipeline δ ω) : Prop :=
  ∀ d ∈ p.decisions, d.gates.timestamp < d.trigger.timestamp

/-- Publishing for a frame from `t`, or for none, while the strategies have older ones. -/
theorem publishAll_stale {t : TimePoint} {trigger : Option FeatureFrame} (clocks : EventClocks)
    (htrigger : ∀ frame ∈ trigger, frame.timestamp = t) (signals : List Signal) {p : Pipeline δ ω}
    (hp : Older t p.engine ∧ Stale p) :
    Older t (publishAll setup trigger clocks signals p).engine ∧
      Stale (publishAll setup trigger clocks signals p) := by
  refine Runs.invariant (fun p : Pipeline δ ω => Older t p.engine ∧ Stale p) (fun p s hp => ?_) signals hp
  refine Runs.invariant (fun p : Pipeline δ ω => Older t p.engine ∧ Stale p)
    (fun p a hp => ⟨?_, fun d hd => ?_⟩) (p.engine.recipients s) hp
  · exact hp.1.evolves ((older_methods t).deliver setup.onPlan trivial _ (p.engine, p.world) a)
  · rcases List.mem_append.1 hd with hold | hnew
    · exact hp.2 d hold
    · obtain ⟨frame, hframe, hdecides⟩ := Option.bind_eq_some_iff.1 (Option.mem_toList.1 hnew)
      obtain ⟨strat, hstrat, hdecision⟩ := Option.bind_eq_some_iff.1 hdecides
      obtain ⟨plan, _, rfl⟩ := Option.map_eq_some_iff.1 hdecision
      exact htrigger frame hframe ▸ hp.1 a strat hstrat

/-! ## Events -/

variable [Detection δ]

theorem ingest_records (doc : Json) (clocks : EventClocks) {p : Pipeline δ ω}
    (hp : Untraced p.engine) : Records p (ingest setup doc clocks p).1 True := by
  unfold ingest
  dsimp only
  split
  · split
    · next upd _ =>
        have htraced : ∀ ctrl : TickerController δ, ∀ s ∈ (ctrl.onBookUpdate currentTraceId upd).2,
            s.TracedBy currentTraceId :=
          fun ctrl => Detection.onBookUpdate_traced _ upd ctrl.detection
        exact callController_records setup clocks upd.ticker htraced hp
    · exact .quiet hp rfl
  · split
    · next ticker trades _ =>
        have htraced : ∀ (trade : Trade) (ctrl : TickerController δ),
            ∀ s ∈ (ctrl.onTrade currentTraceId trade).2, s.TracedBy currentTraceId :=
          fun trade ctrl => Detection.onTrade_traced _ trade ctrl.detection
        have htrades := records_foldl (fun trade (_ : trade ∈ trades) _ hp =>
          callController_records setup clocks ticker (htraced trade) hp) hp
        exact htrades.congr (iff_true_intro (Runs.along_of_mem (fun _ _ _ => trivial)))
    · exact .quiet hp rfl
  · exact .quiet hp rfl

/-- In a tick that produces a frame, all strategies answer its signals on the frame. -/
def TickOn (clocks : EventClocks) (ticker : Ticker) (p : Pipeline δ ω) :
    Prop :=
  ∀ comp ∈ due? clocks ticker p,
    let (ticked, frame, signals) := tickController setup clocks ticker comp p
    Runs.Along (publish setup (some frame) clocks)
      (PublishedOn setup (some frame) clocks) ticked signals

theorem routeLeader_engine (frame : FeatureFrame) (p : Pipeline δ ω) :
    (routeLeader setup frame p).engine = p.engine ∧
      (routeLeader setup frame p).decisions = p.decisions := by
  unfold routeLeader
  split <;> exact ⟨rfl, rfl⟩

theorem triggerFeatureExtraction_records (clocks : EventClocks) (ticker : Ticker) {p : Pipeline δ ω}
    (hp : Untraced p.engine) :
    Records p (triggerFeatureExtraction setup clocks ticker p) (TickOn setup clocks ticker p) := by
  unfold triggerFeatureExtraction TickOn
  cases hdue : due? clocks ticker p with
  | none => exact (Records.quiet hp rfl).congr (by simp)
  | some comp =>
      have hsignals := fun s hs => triggerTraceId_of_traced
        (TickerController.tick_signals currentTraceId clocks.tick comp.ctrl s hs).1
      have hticked : Untraced (tickController setup clocks ticker comp p).1.engine := hp
      obtain ⟨huntraced, hdecisions⟩ := publishAll_records setup
        (some (tickController setup clocks ticker comp p).2.1) clocks hsignals hticked
      refine ⟨?_, ?_⟩
      · rw [(routeLeader_engine setup _ _).1]
        exact huntraced.evolves (untraced_methods.onFrame' _ _ trivial _)
      · obtain ⟨new, hnew, hall⟩ := hdecisions
        refine ⟨new, (routeLeader_engine setup _ _).2.trans hnew, hall.trans ?_⟩
        simp only [Option.mem_def, Option.some.injEq, forall_eq']
        rfl

/-! ## Runs -/

/-- Whenever a strategy answers a signal of a tick with a plan, it has had the frame of the tick. -/
def Allowed (p : Pipeline δ ω) : Op δ ω → Prop
  | .event _ doc clocks =>
      ∀ ticker ∈ (ingest setup doc clocks p).2,
        TickOn setup clocks ticker (ingest setup doc clocks p).1
  | _ => True

theorem addStrategy_untraced {eng : StrategyEngine AnyStrategy} (h : Untraced eng)
    (s : {s : AnyStrategy // s.base.ctx = {}}) : Untraced (eng.addStrategy s.1) := by
  have hobjects : (eng.addStrategy s.1).objects = (eng.store eng.nextAddress s.1).objects := by
    unfold StrategyEngine.addStrategy
    dsimp only
    split <;> rfl
  intro a s' hs'
  rw [hobjects] at hs'
  by_cases ha : a = eng.nextAddress
  · rw [ha, StrategyEngine.store_objects_self] at hs'
    cases hs'
    intro e he
    rw [s.2] at he
    rcases he with ⟨kind, hkind⟩ | hmem
    · exact absurd hkind (by simp)
    · exact absurd hmem List.not_mem_nil
  · rw [StrategyEngine.store_objects_of_ne ha] at hs'
    exact h a s' hs'

theorem removeStrategy_objects (ticker : Ticker) (name : String) (eng : StrategyEngine AnyStrategy) :
    (eng.removeStrategy ticker name).objects = eng.objects := by
  unfold StrategyEngine.removeStrategy
  split
  · rfl
  split
  · rfl
  split <;> rfl

theorem step_records (op : Op δ ω) {p : Pipeline δ ω} (hp : Untraced p.engine) :
    Records p (step setup p op) (Allowed setup p op) := by
  cases op with
  | event traceId doc clocks =>
      have hingest := ingest_records setup doc clocks hp
      rcases heq : ingest setup doc clocks p with ⟨p', _ | ticker⟩
      · rw [heq] at hingest
        simp only [step, processEvent, Allowed, heq]
        exact hingest.congr (by simp)
      · rw [heq] at hingest
        simp only [step, processEvent, Allowed, heq]
        exact (hingest.trans (triggerFeatureExtraction_records setup clocks ticker
          hingest.untraced)).congr (by simp)
  | registerTicker ticker detection => exact .quiet hp rfl
  | addStrategy s => exact .quiet (addStrategy_untraced hp s) rfl
  | removeStrategy ticker name =>
      exact .quiet (by intro a s hs; exact hp a s (removeStrategy_objects ticker name p.engine ▸ hs)) rfl
  | engineTick ps now =>
      exact .quiet (hp.evolves (untraced_methods.tick' ps setup.onPlan now (p.engine, p.world))) rfl
  | resetStrategyPlan ticker name =>
      exact .quiet (hp.evolves (untraced_methods.modifyNamed untraced_methods.resetActivePlan
        ticker name p.engine)) rfl

theorem untraced_empty : Untraced {} := fun _ _ h => absurd h (by simp)

theorem ingest_stale {t : TimePoint} (doc : Json) (clocks : EventClocks) {p : Pipeline δ ω}
    (hp : Older t p.engine ∧ Stale p) :
    Older t (ingest setup doc clocks p).1.engine ∧ Stale (ingest setup doc clocks p).1 := by
  have hcall : ∀ (ticker : Ticker) (f : TickerController δ → TickerController δ × List Signal)
      (p : Pipeline δ ω), Older t p.engine ∧ Stale p →
      Older t (callController setup clocks ticker f p).engine ∧
        Stale (callController setup clocks ticker f p) := by
    intro ticker f p hp
    unfold callController
    split
    · exact hp
    · exact publishAll_stale setup clocks (fun _ h => absurd h (by simp)) _ hp
  unfold ingest
  dsimp only
  split
  · split
    · exact hcall _ _ p hp
    · exact hp
  · split
    · exact Runs.invariant (fun p : Pipeline δ ω => Older t p.engine ∧ Stale p)
        (fun p _ hp => hcall _ _ p hp) _ hp
    · exact hp
  · exact hp

theorem triggerFeatureExtraction_stale (clocks : EventClocks) (ticker : Ticker) {p : Pipeline δ ω}
    (hp : Older clocks.tick p.engine ∧ Stale p) :
    Stale (triggerFeatureExtraction setup clocks ticker p) := by
  unfold triggerFeatureExtraction
  split
  · exact hp.2
  · next comp _ =>
      dsimp only
      rw [Stale, (routeLeader_engine setup _ _).2]
      by_cases hsignals : (tickController setup clocks ticker comp p).2.2 = []
      · rw [hsignals]
        exact hp.2
      · obtain ⟨s, hs⟩ := List.exists_mem_of_ne_nil _ hsignals
        have htime := (TickerController.tick_signals currentTraceId clocks.tick comp.ctrl s hs).2
        have htrigger : ∀ frame ∈ some (tickController setup clocks ticker comp p).2.1,
            frame.timestamp = clocks.tick := fun frame hframe => by cases hframe; exact htime
        have hticked : Older clocks.tick (tickController setup clocks ticker comp p).1.engine ∧
            Stale (tickController setup clocks ticker comp p).1 := hp
        exact (publishAll_stale setup clocks htrigger _ hticked).2

/-- The tick of an event is later than every frame that a strategy has. -/
def ClockAdvances (p : Pipeline δ ω) : Op δ ω → Prop
  | .event _ _ clocks => Older clocks.tick p.engine
  | _ => True

/-- If the clock advances, no decision is ever made on the frame that triggered it. -/
theorem not_onTrigger_of_clockAdvances {world : ω} {ops : List (Op δ ω)}
    (h : Runs.Along (step setup) (ClockAdvances (δ := δ)) { world := world } ops) :
    ∀ d ∈ (run setup world ops).decisions, ¬ d.OnTrigger := by
  have hstale : Stale (run setup world ops) := by
    refine h.invariant Stale (fun p op hp hop => ?_) (fun d hd => absurd hd List.not_mem_nil)
    cases op with
    | event traceId doc clocks =>
        have hingest := ingest_stale setup doc clocks ⟨hop, hp⟩
        rcases heq : ingest setup doc clocks p with ⟨p', _ | ticker⟩
        · rw [heq] at hingest
          simp only [step, processEvent, heq]
          exact hingest.2
        · rw [heq] at hingest
          simp only [step, processEvent, heq]
          exact triggerFeatureExtraction_stale setup clocks ticker hingest
    | registerTicker ticker detection => exact hp
    | addStrategy s => exact hp
    | removeStrategy ticker name => exact hp
    | engineTick ps now => exact hp
    | resetStrategyPlan ticker name => exact hp
  intro d hd hon
  exact absurd (hstale d hd) (by rw [hon.1]; exact lt_irrefl _)

end

/-! ## A break that the strategy answers on the frame before -/

/-- Detectors that publish what a script says, one entry for each frame. -/
abbrev Script := List (FeatureFrame × List Signal)

instance : Detection Script where
  onBookUpdate _ _ d := (d, [])
  onTrade _ _ d := (d, [])
  updateStream _ d := d
  extract traceId now d :=
    (d, { (d.head?.map Prod.fst).getD {} with timestamp := now, derivedFrom := traceId })
  onFrame traceId _ d :=
    (d.tail, ((d.head?.map Prod.snd).getD []).map (fun s => { s with triggerTraceId := traceId }))
  onLeaderFrame _ d := d
  updateLeader _ _ d := d
  extract_timestamp _ _ _ := rfl
  onBookUpdate_traced _ _ _ _ hs := absurd hs List.not_mem_nil
  onTrade_traced _ _ _ _ hs := absurd hs List.not_mem_nil
  onFrame_traced _ _ _ s hs := by
    obtain ⟨s', _, rfl⟩ := List.mem_map.1 hs
    exact Or.inl rfl

/-- Two messages with trades, a second apart; the second frame comes with two aggressive prints and a
    break. -/
def breakOnSecondFrame : List (Op Script Unit) :=
  let frame : FeatureFrame :=
    { ticker := "BTC_USDT", spreadBps := 1, sellVol5s := 10, priceChange1s := 1 / 10 }
  let print : Signal :=
    { kind := .tapeFlush, timestamp := seconds 101, ticker := "BTC_USDT", price := 100 }
  let levelBreak : Signal :=
    { print with kind := .levelBreak, payload := { distBps := -10, touches := 3 } }
  let doc : Json := .obj
    [ ("Type", .str "trade_update"), ("Ticker", .str "BTC_USDT"),
      ("Trades", .arr [.obj [("Price", .int 100), ("Size", .int 1), ("Side", .int 1)]]) ]
  let clocks (sec : ℕ) : EventClocks :=
    { received := seconds sec, steadyNs := sec * 1000000000, tick := seconds sec
      signal := fun _ => seconds sec, frame := seconds sec }
  [ .registerTicker "BTC_USDT" [(frame, []), (frame, [print, print, levelBreak])],
    .addStrategy ⟨.eventDriven (FlushReversal.playbook {})
      { ticker := "BTC_USDT", priceIncrement := 1 / 100 }, rfl⟩,
    .event 1 doc (clocks 100),
    .event 2 doc (clocks 101) ]

end Pipeline

end TradeBot
