import Wirework.Proofs.Design.Typing
import Wirework.Proofs.Engine.Permanence

/-! # Designs of sessions

A session does nothing to its design but what calls can do to a design (`Design.Changes`): modules are added and
erased, bodies begun, operations appended and annotated, and scopes entered and left.

This holds for every step of the engine, wherever it starts and whether it is refused or not, so it needs nothing of
what holds in sessions; one lemma for each step, in the order in which they call one another, is all there is to it.
Three relations say the same of a session, of a world and of a running routine (`Session.Evolves`, `World.Evolves`,
`Running.Evolves`), and each step is spoken of where it is taken.

The design of a session is therefore linked at every point (`World.Becomes.linked`), and so its bodies are well
formed. -/

namespace Wirework

open Step

variable {σ α : Type}

/-! ### Evolving sessions -/

/-- The design of the session has gone through some changes. -/
def Session.Evolves (s s' : Session) : Prop :=
  s.design.Evolves s'.design

instance : IsPreorder Session Session.Evolves where
  refl s := refl_of Design.Evolves s.design
  trans _ _ _ h h' := trans_of Design.Evolves h h'

/-- The design has gone through some changes. -/
def World.Evolves (w w' : World σ) : Prop :=
  w.session.Evolves w'.session

instance : IsPreorder (World σ) World.Evolves where
  refl w := refl_of Session.Evolves w.session
  trans _ _ _ h h' := trans_of Session.Evolves h h'

/-- The design has gone through some changes while the routine was running. -/
def Running.Evolves (r r' : Running σ) : Prop :=
  r.world.Evolves r'.world

instance : IsPreorder (Running σ) Running.Evolves where
  refl r := refl_of World.Evolves r.world
  trans _ _ _ h h' := trans_of World.Evolves h h'

/-! ### Steps of a session -/

namespace Compile

abbrev EvolvesFrom (step : Compile α) (s : Session) : Prop :=
  step.Leads Session.Evolves (fun _ _ => True) s

variable {s : Session}

theorem evolvesFrom_of_design {step : Compile α} (h : (step.apply s).2.design = s.design) : step.EvolvesFrom s := by
  refine ⟨?_, fun _ _ => trivial⟩
  unfold Session.Evolves
  rw [h]

theorem bind_evolves_of_design {β : Type} {step : Compile β} {next : β → Compile α}
    (h : (step.apply s).2.design = s.design) (hnext : ∀ b s', (next b).EvolvesFrom s') :
    EvolvesFrom (step >>= next) s :=
  (evolvesFrom_of_design h).bind fun b s' _ _ => hnext b s'

theorem edit_evolves {step : Edit α} (h : step.EvolvesFrom s.design) : (edit step).EvolvesFrom s :=
  (h.mapError BuildError.ir).zoom (fun _ h => h) fun _ _ _ _ => trivial

theorem insertModule_evolves {ρ : Type} (definition : Definition ρ) (symbol : String) (d : Design) :
    (insertModule definition symbol).EvolvesFrom d := by
  unfold insertModule
  cases definition.image with
  | some image => exact Edit.importImage_evolves image symbol d
  | none => cases definition.generator? <;> exact Edit.addModule_evolves _ rfl d

theorem createModule_evolves {ρ : Type} (definition : Definition ρ) (s : Session) :
    (createModule definition).EvolvesFrom s := by
  unfold createModule
  refine Leads.guard fun _ => ?_
  refine bind_evolves_of_design rfl fun symbol s₁ => ?_
  refine (edit_evolves (insertModule_evolves definition symbol s₁.design)).attempt.bind fun outcome s₂ _ _ => ?_
  cases outcome with
  | error e => exact bind_evolves_of_design rfl fun _ s₃ => leads_throw _ e s₃
  | ok id => exact bind_evolves_of_design rfl fun _ s₃ => (leads_pure id s₃).forget

theorem discardModule_evolves (d : DefId) (name : String) (id : ModuleId) (s : Session) :
    (discardModule d name id).EvolvesFrom s := by
  unfold discardModule
  refine bind_evolves_of_design rfl fun _ s₁ => bind_evolves_of_design rfl fun _ s₂ => ?_
  refine (edit_evolves (Edit.eraseModule_evolves id s₂.design)).bind fun erased s₃ _ _ => ?_
  cases erased with
  | none => exact (leads_pure _ s₃).forget
  | some m => exact evolvesFrom_of_design rfl

end Compile

/-! ### Steps of the engine -/

namespace Build

abbrev EvolvesFrom (step : Build σ α) (w : World σ) : Prop :=
  step.Leads World.Evolves (fun _ _ => True) w

end Build

def Materializer.Evolves (materialize : Materializer σ) : Prop :=
  ∀ d (w : World σ), (materialize d).EvolvesFrom w

namespace Build

variable {w : World σ}

theorem supply_evolves (step : Supply σ α) (w : World σ) : (supply step).EvolvesFrom w :=
  ⟨refl_of Session.Evolves w.session, fun _ _ => trivial⟩

theorem compile_evolves {step : Compile α} (h : step.EvolvesFrom w.session) : (compile step).EvolvesFrom w :=
  h.zoom (fun _ h => h) fun _ _ _ _ => trivial

theorem compile_evolves_of_design {step : Compile α} (h : (step.apply w.session).2.design = w.session.design) :
    (compile step).EvolvesFrom w :=
  compile_evolves (Compile.evolvesFrom_of_design h)

theorem compile_bind_evolves {β : Type} {step : Compile β} {next : β → Build σ α}
    (h : (step.apply w.session).2.design = w.session.design) (hnext : ∀ b w', (next b).EvolvesFrom w') :
    EvolvesFrom (compile step >>= next) w :=
  (compile_evolves_of_design h).bind fun b w' _ _ => hnext b w'

theorem edit_evolves {step : Edit α} (h : step.EvolvesFrom w.session.design) : (edit step).EvolvesFrom w :=
  compile_evolves (Compile.edit_evolves h)

theorem edit_query_evolves (read : Design → Except IrError α) (w : World σ) :
    (edit (query read)).EvolvesFrom w :=
  edit_evolves (leads_query read _).forget

theorem uniquifyInstanceName_evolves (name : String) (w : World σ) :
    (compile (Compile.uniquifyInstanceName name)).EvolvesFrom w := by
  refine compile_evolves_of_design ?_
  unfold Compile.uniquifyInstanceName
  rw [apply_bind, apply_get]
  cases hblocks : w.session.blocks with
  | nil => simp only [hblocks, apply_throw]
  | cons block outer => simp only [hblocks, apply_bind, apply_set, apply_pure]

theorem registerInstance_evolves (name : String) (module : ModuleId) (op : OpId) (w : World σ) :
    (compile (Compile.registerInstance name module op)).EvolvesFrom w := by
  refine compile_evolves_of_design ?_
  unfold Compile.registerInstance
  rw [apply_bind, apply_get]
  cases hpoint : w.session.design.scopes.insertionPoint? with
  | none => simp only [hpoint, apply_throw]
  | some parent => simp only [hpoint, apply_bind, apply_set, apply_pure]

theorem placeInstance_evolves {materialize : Materializer σ} (hm : materialize.Evolves) (request : InstanceRequest)
    (w : World σ) : (placeInstance materialize request).EvolvesFrom w := by
  unfold placeInstance
  refine (definition_leads request.definition w).bind fun definition w₁ _ _ => ?_
  refine (leads_get w₁).bind fun _ w₂ _ _ => Leads.guard fun _ => ?_
  refine (leads_ofOutcome _ w₂).bind fun connections w₃ _ _ => ?_
  refine (hm request.definition w₃).bind fun module w₄ _ _ => ?_
  refine (uniquifyInstanceName_evolves _ w₄).bind fun name w₅ _ _ => ?_
  have hinputs : (edit (connections.mapM fun (entry : PortSpec × Connection) =>
      inputValue entry.1 entry.2)).EvolvesFrom w₅ :=
    edit_evolves (Edit.EvolvesFrom.of_grows (leads_mapM (P := fun _ _ => True)
      (fun entry d => (inputValue_leads entry.1 entry.2 d).forget) connections _).forget)
  refine hinputs.bind fun inputs w₆ _ _ => ?_
  refine (definition_leads request.definition w₆).bind fun found w₇ _ _ => ?_
  refine (edit_evolves (Edit.instantiate_evolves module name inputs found.instanceParameters request.location
    w₇.session.design)).bind fun op w₈ _ _ => ?_
  refine (edit_query_evolves _ w₈).bind fun _ w₉ _ _ => ?_
  have hrecord : ∀ w : World σ, EvolvesFrom (do
      let results ← edit (query (·.results op))
      let id ← compile (Compile.registerInstance name module op)
      return { id, name, definition := request.definition, op, results } : Build σ Instance) w := by
    refine fun w => (edit_query_evolves _ w).bind fun results w' _ _ => ?_
    refine (registerInstance_evolves name module op w').bind fun id w'' _ _ => ?_
    exact (leads_pure _ w'').forget
  cases request.appId with
  | none => exact hrecord w₉
  | some appId =>
      exact (edit_evolves (Edit.setAttribute_evolves op "appid" appId.toAttribute w₉.session.design)).bind
        fun _ w₁₀ _ _ => hrecord w₁₀

end Build

/-! ### Running a routine -/

namespace Generation

abbrev EvolvesFrom (step : Generation σ α) (r : Running σ) : Prop :=
  step.Leads Running.Evolves (fun _ _ => True) r

variable {materialize : Materializer σ} {caller : Caller σ} {r : Running σ}

theorem build_evolves {step : Build σ α} (h : step.EvolvesFrom r.world) : (build step).EvolvesFrom r :=
  build_leads h

theorem evolvesFrom_of_drafts {step : Generation σ α} (h : step.Leads Running.Drafts (fun _ _ => True) r) :
    step.EvolvesFrom r := by
  refine h.mono (fun r' hdrafts => ?_) fun _ _ _ h => h
  obtain ⟨-, design, warnings, hgrows, hsession⟩ := hdrafts
  unfold Running.Evolves World.Evolves
  rw [hsession]
  exact hgrows.evolves

theorem edit_evolves {step : Edit α} (h : step.EvolvesFrom r.world.session.design) : (edit step).EvolvesFrom r :=
  build_evolves (Build.edit_evolves h)

theorem answer_evolves (hm : materialize.Evolves) (frame : Frame) (request : Request) (r : Running σ) :
    (answer materialize caller frame request).EvolvesFrom r := by
  cases request with
  | input port => exact input_leads frame port r
  | inputAt index => exact inputAt_leads frame index r
  | clock port => exact clock_leads frame port r
  | set port value => exact evolvesFrom_of_drafts (set_leads frame port value r)
  | setAt index value => exact evolvesFrom_of_drafts (setAt_leads frame index value r)
  | constant type value => exact edit_evolves (.of_grows (Edit.constant_leads type value _))
  | add lhs rhs => exact edit_evolves (.of_grows (Edit.add_leads lhs rhs _))
  | register signal => exact edit_evolves (.of_grows (Edit.register_leads signal _))
  | instantiate request => exact build_evolves (Build.placeInstance_evolves hm request r.world)
  | outputOf placed port => exact build_evolves (outputOf_leads placed port r.world)
  | outputsOf placed => exact build_evolves (outputsOf_leads placed r.world)
  | call factory cache args => exact build_evolves (Build.supply_evolves _ r.world)
  | cacheSize cache => exact (leads_get r).bind fun read r₁ _ _ => pure_leads _ r₁
  | nameOf d => exact build_evolves (Build.nameOf_leads d r.world)
  | inspect => exact inspect_leads materialize caller frame r

theorem run_evolves (hm : materialize.Evolves) (frame : Frame) (routine : Routine σ α) (r : Running σ) :
    (run materialize caller frame routine).EvolvesFrom r := by
  induction routine generalizing r with
  | done outcome => exact (leads_ofOutcome outcome r).forget
  | ask request next ih =>
      exact (answer_evolves hm frame request r).attempt.bind fun outcome r₁ _ _ => ih outcome r₁
  | host update next ih =>
      refine (leads_get r).bind fun read r₁ _ _ => ?_
      have hhost : EvolvesFrom (modify fun r : Running σ =>
          { r with world.workspace.host := update r.world.workspace.host } : Generation σ PUnit) r₁ :=
        ⟨refl_of World.Evolves r₁.world, fun _ _ => trivial⟩
      exact hhost.bind fun _ r₂ _ _ => ih _ r₂

theorem finish_evolves (frame : Frame) (r : Running σ) : (finish frame).EvolvesFrom r := by
  unfold finish
  refine (ownDefinition_leads frame r).bind fun d r₁ _ _ => ?_
  refine (leads_get r₁).bind fun read r₂ _ _ => Leads.guard fun _ => ?_
  exact edit_evolves (Edit.output_evolves _ _)

theorem terminate_evolves (frame : Frame) (ended : Except BuildError Unit) (r : Running σ) :
    (terminate frame ended).EvolvesFrom r :=
  (leads_ofOutcome ended r).bind fun _ r₁ _ _ => finish_evolves frame r₁

end Generation

/-! ### Making modules -/

namespace Build

variable {materialize : Materializer σ} {caller : Caller σ}

theorem within_evolves {step : Generation σ α} {w : World σ} {outputs : List (Option Signal)}
    (h : step.EvolvesFrom ⟨w, outputs⟩) :
    EvolvesFrom (ofApply fun world =>
      let (outcome, running) := step.apply ⟨world, outputs⟩
      (outcome, running.world)) w :=
  ⟨h.state, fun _ _ => trivial⟩

theorem execute_evolves (hm : materialize.Evolves) (frame : Frame) (routine : Routine σ Unit) (w : World σ) :
    (execute materialize caller frame routine).EvolvesFrom w := by
  unfold execute
  refine (definition_leads frame.definition w).bind fun d w₁ _ _ => ?_
  have hruns : Generation.EvolvesFrom (do
      Generation.run materialize caller frame routine
      Generation.finish frame) ⟨w₁, List.replicate d.table.outputCount none⟩ :=
    (Generation.run_evolves hm frame routine _).bind fun _ r _ _ => Generation.finish_evolves frame r
  exact within_evolves hruns

theorem enterBody_evolves (d : DefId) (id : ModuleId) (w : World σ) : (enterBody d id).EvolvesFrom w := by
  unfold enterBody
  refine (definition_leads d w).bind fun definition w₁ _ _ => ?_
  cases definition.generator? with
  | none => exact leads_throw _ _ w₁
  | some generator =>
      refine (edit_evolves (Edit.addEntryBlock_evolves id w₁.session.design)).bind fun arguments w₂ _ _ => ?_
      refine (leads_ofOutcome _ w₂).bind fun clock w₃ _ _ => ?_
      refine compile_bind_evolves rfl fun _ w₄ => ?_
      refine (edit_evolves (Edit.pushInsertionPoint_evolves id w₄.session.design)).attempt.bind
        fun outcome w₅ _ _ => ?_
      cases outcome with
      | error e =>
          refine compile_bind_evolves rfl fun _ w₆ => ?_
          exact leads_throw _ e w₆
      | ok _ =>
          refine (edit_evolves (Edit.pushLocation_evolves generator.location w₅.session.design)).bind
            fun _ w₆ _ _ => ?_
          refine (edit_evolves (Edit.pushClock_evolves clock w₆.session.design)).bind fun _ w₇ _ _ => ?_
          exact (leads_pure _ w₇).forget

theorem leaveBody_evolves (w : World σ) : (leaveBody : Build σ Unit).EvolvesFrom w := by
  have hpop : ∀ {β : Type} {step : Edit β} (w : World σ), (∀ d : Design, step.EvolvesFrom d) →
      EvolvesFrom (discard (edit step) : Build σ PUnit) w := by
    refine fun w h => ⟨?_, fun _ _ => trivial⟩
    rw [apply_discard]
    exact (edit_evolves (h w.session.design)).state
  unfold leaveBody
  refine (hpop w (Edit.leave_evolves _ (·.scopes.clock?))).bind fun _ w₁ _ _ => ?_
  refine (hpop w₁ (Edit.leave_evolves _ (·.scopes.locations.head?))).bind fun _ w₂ _ _ => ?_
  refine (hpop w₂ (Edit.leave_evolves _ (·.scopes.insertionPoint?))).bind fun _ w₃ _ _ => ?_
  exact compile_evolves_of_design rfl

theorem generateBody_evolves (hm : materialize.Evolves) (d : DefId) (id : ModuleId) (w : World σ) :
    (generateBody materialize caller d id).EvolvesFrom w := by
  unfold generateBody
  refine (enterBody_evolves d id w).bind fun entered w₁ _ _ => ?_
  refine (execute_evolves hm entered.1 entered.2 w₁).attempt.bind fun outcome w₂ _ _ => ?_
  refine (leaveBody_evolves w₂).bind fun _ w₃ _ _ => ?_
  exact (leads_ofOutcome outcome w₃).forget

theorem discard_evolves (d named : DefId) (id : ModuleId) (e : BuildError) (w : World σ) :
    EvolvesFrom (do
      compile (Compile.discardModule d (← nameOf named) id)
      throw e : Build σ α) w := by
  refine (nameOf_leads named w).bind fun name w₁ _ _ => ?_
  refine (compile_evolves (Compile.discardModule_evolves d name id w₁.session)).bind fun _ w₂ _ _ => ?_
  exact leads_throw _ e w₂

theorem fillModule_evolves (hm : materialize.Evolves) (d : DefId) (id : ModuleId) (w : World σ) :
    (fillModule materialize caller d id).EvolvesFrom w := by
  unfold fillModule
  refine compile_bind_evolves rfl fun _ w₁ => ?_
  refine (generateBody_evolves hm d id w₁).attempt.bind fun outcome w₂ _ _ => ?_
  refine compile_bind_evolves rfl fun _ w₃ => ?_
  cases outcome with
  | ok _ => exact (leads_pure _ w₃).forget
  | error e => exact discard_evolves d d id e w₃

theorem materializeWith_evolves (hm : materialize.Evolves) : (materializeWith materialize caller).Evolves := by
  intro d w
  unfold materializeWith
  refine (definition_leads d w).bind fun definition w₁ _ _ => ?_
  refine (leads_get w₁).bind fun read w₂ _ _ => Leads.guard_not fun _ => ?_
  cases read.session.moduleOf? d with
  | some id => exact (leads_pure id w₂).forget
  | none =>
      refine (compile_evolves (Compile.createModule_evolves definition w₂.session)).bind fun id w₃ _ _ => ?_
      refine compile_bind_evolves rfl fun _ w₄ => ?_
      by_cases hgenerator : definition.generator?.isSome = true
      · rw [if_pos hgenerator]
        exact (fillModule_evolves hm d id w₄).bind fun _ w₅ _ _ => (leads_pure id w₅).forget
      · rw [if_neg hgenerator]
        exact (leads_pure id w₄).forget

theorem materializeWithin_evolves (depth : Nat) : (materializeWithin depth : Materializer σ).Evolves := by
  induction depth with
  | zero => exact fun d w => leads_throw _ _ w
  | succ depth ih => exact materializeWith_evolves ih

theorem Attempt.evolves {d : DefId} {step : Build σ ModuleId} (h : Attempt d step) (w : World σ) :
    w.Evolves (step.apply w).2 := by
  rcases h.apply_cases w with ⟨e, he⟩ | ⟨depth, hsame⟩
  · rw [he]
    exact refl_of World.Evolves w
  · rw [hsame]
    exact (materializeWithin_evolves depth d w).state

theorem prepare_evolves (d : DefId) (w : World σ) : (prepare d).EvolvesFrom w := by
  unfold prepare
  refine (definition_leads d w).bind fun definition w₁ _ _ => ?_
  refine (leads_get w₁).bind fun read w₂ _ _ => Leads.guard_not fun _ => Leads.guard_not fun _ => ?_
  refine (compile_evolves (Compile.createModule_evolves definition w₂.session)).bind fun id w₃ _ _ => ?_
  refine compile_bind_evolves rfl fun _ w₄ => ?_
  refine compile_bind_evolves rfl fun _ w₅ => ?_
  exact enterBody_evolves d id w₅

theorem conclude_evolves (frame : Frame) (outputs : List (Option Signal)) (ended : Except BuildError Unit)
    (w : World σ) : (conclude frame outputs ended).EvolvesFrom w := by
  unfold conclude
  refine (within_evolves (Generation.terminate_evolves frame ended ⟨w, outputs⟩)).attempt.bind
    fun outcome w₁ _ _ => ?_
  refine (leaveBody_evolves w₁).bind fun _ w₂ _ _ => ?_
  refine compile_bind_evolves rfl fun _ w₃ => ?_
  cases outcome with
  | ok _ => exact (leads_pure _ w₃).forget
  | error e => exact discard_evolves frame.definition frame.definition frame.module e w₃

end Build

/-! ### However a session goes on -/

namespace World

variable {w w' : World σ}

theorem Advances.evolves (h : w.Advances w') : w.Evolves w' := by
  cases h with
  | supply grown => exact refl_of Session.Evolves w.session
  | make attempt => exact attempt.evolves w
  | instantiate request =>
      have hmaterialize : Materializer.Evolves (Build.materialize : Materializer σ) := fun d w =>
        ⟨Build.Attempt.evolves .materialize w, fun _ _ => trivial⟩
      exact (Build.placeInstance_evolves hmaterialize request w).state
  | @prepare _ d frame routine enters =>
      have hprepare := (Build.prepare_evolves d w).state
      rwa [enters] at hprepare
  | @answer frame runs depth outputs request =>
      exact (Generation.answer_evolves (Build.materializeWithin_evolves depth) frame request ⟨w, outputs⟩).state
  | @conclude frame runs outputs ended => exact (Build.conclude_evolves frame outputs ended w).state

theorem Becomes.evolves (h : w.Becomes w') : w.Evolves w' := by
  induction h with
  | refl => exact refl_of World.Evolves w
  | tail _ hstep ih => exact trans_of World.Evolves ih hstep.evolves

/-- At every point of a session its design is linked. -/
theorem Becomes.linked {config : Config} {workspace : Workspace σ}
    (h : World.Becomes ⟨workspace, .ofConfig config⟩ w) : w.session.design.Linked := by
  have hevolves : Design.empty.Evolves w.session.design := h.evolves
  exact Design.Linked.empty.evolves hevolves

end World

end Wirework
