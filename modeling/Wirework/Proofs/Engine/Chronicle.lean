import Wirework.Proofs.Engine.Naming
import Wirework.Proofs.Library.Labels

/-! # Chronicles of sessions

What happens in the course of a session to its library and to its modules is told by events: whatever happens to a
library (`CallEvent`), and that the module of a definition is made.  The events of a step are read off its run, down
to any depth of nested generators (`Build.makeEvents`, `Build.placeEvents`, `Generation.answerEvents`), so that the
chronicle of a session is known from what it has been asked to do (`World.Course`).

A chronicle tells the library, event by event, and it tells when each of the modules was made and what its definition
was then: the record of a module has the values of the parameters that its definition had at that point
(`World.Tells`).  Every step has this property.  Most of them touch neither the library nor the modules
(`World.Rests`), a call only touches the library, and the module of a definition is made at once, before the body is
entered in which other modules may be made (`Build.materializeWith_tells`); so chronicles of parts make up those of
the whole (`World.Course.tells`).

A module that is taken out again leaves its event behind, and the next module of its definition has another number. -/

namespace Wirework

open Step

variable {σ α : Type}

/-! ### Events -/

/-- Something that happens in the course of a session. -/
inductive WorldEvent where
  | library (event : CallEvent)
  /-- The module of the definition has been made. -/
  | module (d : DefId) (id : ModuleId)
deriving DecidableEq

/-- What happens to the library. -/
def WorldEvent.call? : WorldEvent → Option CallEvent
  | library event => some event
  | module _ _ => none

/-- What has happened to the library. -/
def callsOf (events : List WorldEvent) : List CallEvent :=
  events.filterMap WorldEvent.call?

theorem callsOf_append (es es' : List WorldEvent) : callsOf (es ++ es') = callsOf es ++ callsOf es' :=
  List.filterMap_append

theorem callsOf_library (es : List CallEvent) : callsOf (es.map .library) = es := by
  unfold callsOf
  rw [List.filterMap_map]
  exact List.filterMap_some

namespace Build

/-- The events of placing an instance, given those of making modules. -/
def placeEvents (making : DefId → World σ → List WorldEvent) (request : InstanceRequest) (w : World σ) :
    List WorldEvent :=
  match w.workspace.library.getDefinition request.definition with
  | .error _ => []
  | .ok d =>
    if w.session.hasBlock = true ∧ (d.bindInputs request.bindings).isOk = true then making request.definition w
    else []

end Build

namespace Generation

/-- The events of answering a request, given those of making modules and of calls. -/
def answerEvents (making : DefId → World σ → List WorldEvent)
    (calls : FactoryId → CacheId → Args → Workspace σ → List CallEvent) (request : Request) (w : World σ) :
    List WorldEvent :=
  match request with
  | .instantiate request => Build.placeEvents making request w
  | .call f c args => (calls f c args w.workspace).map .library
  | _ => []

/-- The events of running a routine. -/
def runEvents (making : DefId → World σ → List WorldEvent)
    (calls : FactoryId → CacheId → Args → Workspace σ → List CallEvent) (materialize : Materializer σ)
    (caller : Caller σ) (frame : Frame) : Routine σ α → Running σ → List WorldEvent
  | .done _, _ => []
  | .ask request next, r =>
    let answered := (answer materialize caller frame request).apply r
    answerEvents making calls request r.world
      ++ runEvents making calls materialize caller frame (next answered.1) answered.2
  | .host update next, r =>
    runEvents making calls materialize caller frame (next r.world.workspace.host)
      { r with world.workspace.host := update r.world.workspace.host }

end Generation

namespace Build

/-- The events of making the module of a definition, given those of making the modules it instantiates.  Its own comes
first, and those of its routine follow. -/
def makeEventsWith (making : DefId → World σ → List WorldEvent)
    (calls : FactoryId → CacheId → Args → Workspace σ → List CallEvent) (materialize : Materializer σ)
    (caller : Caller σ) (d : DefId) (w : World σ) : List WorldEvent :=
  match w.workspace.library.getDefinition d, (prepare d).apply w with
  | .ok definition, (.ok (frame, routine), entered) =>
    .module d frame.module ::
      Generation.runEvents making calls materialize caller frame routine
        ⟨entered, List.replicate definition.table.outputCount none⟩
  | _, _ =>
    match w.session.moduleOf? d, ((materializeWith materialize caller d).apply w).2.session.moduleOf? d with
    | none, some id => [.module d id]
    | _, _ => []

/-- The events of making the module of a definition. -/
def makeEvents : Nat → DefId → World σ → List WorldEvent
  | 0, _, _ => []
  | depth + 1, d, w =>
    makeEventsWith (makeEvents depth) (Supply.callEvents depth) (materializeWithin depth) (Supply.call depth) d w

end Build

/-- A course of a session: its events, and the world it leads to.  It may end within bodies that have not ended yet. -/
inductive World.Course (start : World σ) : List WorldEvent → World σ → Prop
  | start : Course start [] start
  /-- The library goes through some of its own history. -/
  | library {events : List WorldEvent} {w : World σ} (h : Course start events w) {es : List CallEvent}
      {workspace : Workspace σ} (course : Wirework.Course w.workspace es workspace) :
      Course start (events ++ es.map .library) { w with workspace }
  /-- A module is asked for, whether it can be made or not. -/
  | make {events : List WorldEvent} {w : World σ} (h : Course start events w) (depth : Nat) (d : DefId) :
      Course start (events ++ Build.makeEvents depth d w) ((Build.materializeWithin depth d).apply w).2
  /-- An instance is requested from outside of any routine. -/
  | instantiate {events : List WorldEvent} {w : World σ} (h : Course start events w) (request : InstanceRequest) :
      Course start
        (events ++ Build.placeEvents (Build.makeEvents (Build.nestingBound w.workspace.library)) request w)
        ((Build.instantiate request).apply w).2
  /-- A body is entered, and its routine begins. -/
  | enter {events : List WorldEvent} {w w' : World σ} (h : Course start events w) {d : DefId} {frame : Frame}
      {routine : Routine σ Unit} (enters : (Build.prepare d).apply w = (.ok (frame, routine), w')) :
      Course start (events ++ [.module d frame.module]) w'
  /-- A request of the running routine is answered. -/
  | answer {events : List WorldEvent} {w : World σ} (h : Course start events w) {frame : Frame}
      (runs : w.session.Runs frame) (depth : Nat) (outputs : List (Option Signal)) (request : Request) :
      Course start
        (events ++ Generation.answerEvents (Build.makeEvents depth) (Supply.callEvents depth) request w)
        ((Generation.answer (Build.materializeWithin depth) (Supply.call depth) frame request).apply
          ⟨w, outputs⟩).2.world
  /-- The running routine ends, and its module is finished or taken out of the session. -/
  | conclude {events : List WorldEvent} {w : World σ} (h : Course start events w) {frame : Frame}
      (runs : w.session.Runs frame) (outputs : List (Option Signal)) (ended : Except BuildError Unit) :
      Course start events ((Build.conclude frame outputs ended).apply w).2

/-! ### What chronicles tell -/

/-- The values of parameters, if there are any. -/
def valuesOf (label : Option ParameterKey) : AttributeMap :=
  (label.map (·.values)).getD .empty

/-- The module of the definition was made when the library was `l`, and the entry was recorded then. -/
def Library.Recorded (l : Library σ) (d : DefId) (entry : ManifestEntry) : Prop :=
  ∃ definition, l.getDefinition d = .ok definition ∧ entry.parameters = valuesOf definition.parameters

namespace World

/-- The events lead from one library to the other, and whichever module has been made, they tell when: its record is
of the library at that point. -/
structure Tells (w : World σ) (events : List WorldEvent) (w' : World σ) : Prop where
  happens : w.workspace.library.Happens (callsOf events) w'.workspace.library
  made : ∀ d id entry, (d, id) ∈ w'.session.modules → (id, entry) ∈ w'.session.records →
    (d, id) ∈ w.session.modules ∧ (id, entry) ∈ w.session.records ∨
      ∃ before since l, events = before ++ .module d id :: since ∧
        w.workspace.library.Happens (callsOf before) l ∧ l.Happens (callsOf since) w'.workspace.library ∧
          l.Recorded d entry

/-- The library is as it was, and no module has been made or recorded. -/
structure Rests (w w' : World σ) : Prop where
  library : w'.workspace.library = w.workspace.library
  modules : w'.session.modules ⊆ w.session.modules
  records : w'.session.records ⊆ w.session.records

instance : IsPreorder (World σ) Rests where
  refl _ := ⟨rfl, List.Subset.refl _, List.Subset.refl _⟩
  trans _ _ _ h h' := ⟨h'.library.trans h.library, List.Subset.trans h'.modules h.modules,
    List.Subset.trans h'.records h.records⟩

variable {w w₁ w' : World σ} {es es' : List WorldEvent}

theorem Rests.tells (h : w.Rests w') : w.Tells [] w' where
  happens := h.library ▸ .start
  made _ _ _ hmodule hrecord := Or.inl ⟨h.modules hmodule, h.records hrecord⟩

theorem Tells.trans (h : w.Tells es w₁) (h' : w₁.Tells es' w') : w.Tells (es ++ es') w' where
  happens := callsOf_append es es' ▸ h.happens.trans h'.happens
  made d id entry hmodule hrecord := by
    rcases h'.made d id entry hmodule hrecord with ⟨hmodule, hrecord⟩ | ⟨before, since, l, rfl, hbefore, hsince, hl⟩
    · rcases h.made d id entry hmodule hrecord with hold | ⟨before, since, l, rfl, hbefore, hsince, hl⟩
      · exact Or.inl hold
      · refine Or.inr ⟨before, since ++ es', l, by simp, hbefore, ?_, hl⟩
        rw [callsOf_append]
        exact hsince.trans h'.happens
    · refine Or.inr ⟨es ++ before, since, l, by simp, ?_, hsince, hl⟩
      rw [callsOf_append]
      exact h.happens.trans hbefore

theorem Tells.rests (h : w.Tells es w₁) (hrests : w₁.Rests w') : w.Tells es w' :=
  List.append_nil es ▸ h.trans hrests.tells

theorem tells_of_happens {calls : List CallEvent} {workspace : Workspace σ}
    (h : w.workspace.library.Happens calls workspace.library) :
    w.Tells (calls.map .library) { w with workspace } where
  happens := (callsOf_library calls).symm ▸ h
  made _ _ _ hmodule hrecord := Or.inl ⟨hmodule, hrecord⟩

theorem Drafts.rests (h : w.Drafts w') : w.Rests w' := by
  obtain ⟨workspace, session⟩ := w'
  obtain ⟨rfl, design, warnings, -, rfl⟩ := h
  exact ⟨rfl, List.Subset.refl _, List.Subset.refl _⟩

theorem Leaves.rests {frame : Frame} (h : w.Leaves frame w') : w.Rests w' := by
  cases h with
  | finished ends => exact ⟨rfl, List.Subset.refl _, List.Subset.refl _⟩
  | discarded name => exact ⟨rfl, List.filter_subset_self _, List.filter_subset_self _⟩

/-- A module that is new is recorded as the definition is now. -/
theorem tells_of_enrolled (hw : w.session.Coherent) {d : DefId} {entry : ManifestEntry}
    (recorded : w.workspace.library.Recorded d entry) (library : w'.workspace.library = w.workspace.library)
    (modules : w'.session.modules = (d, w.session.design.nextModule) :: w.session.modules)
    (records : w'.session.records = (w.session.design.nextModule, entry) :: w.session.records) :
    w.Tells [.module d w.session.design.nextModule] w' where
  happens := library ▸ .start
  made e id entry' hmodule hrecord := by
    rw [modules] at hmodule
    rw [records] at hrecord
    have hrecorded : ∀ found, (w.session.design.nextModule, found) ∉ w.session.records := by
      intro found hmem
      obtain ⟨symbol, hsymbol⟩ := (hw.roster.mem_records _).mp (List.mem_map_of_mem hmem)
      obtain ⟨m, hm, -⟩ := Design.symbolOf?_eq_some_iff.mp hsymbol
      exact Design.IsLive.ne_nextModule ⟨m, hm⟩ rfl
    rcases List.mem_cons.mp hmodule with hnew | hold
    · obtain ⟨rfl, rfl⟩ := Prod.mk.inj hnew
      rcases List.mem_cons.mp hrecord with hnew | hold
      · obtain ⟨-, rfl⟩ := Prod.mk.inj hnew
        exact Or.inr ⟨[], [], _, rfl, .start, library ▸ .start, recorded⟩
      · exact absurd hold (hrecorded entry')
    · rcases List.mem_cons.mp hrecord with hnew | hold'
      · obtain ⟨rfl, -⟩ := Prod.mk.inj hnew
        exact absurd rfl (Design.IsLive.ne_nextModule (hw.isLive_iff.mpr ⟨e, hold⟩))
      · exact Or.inl ⟨hold, hold'⟩

end World

/-- The events tell what making a module does. -/
def Materializer.Tells (materialize : Materializer σ) (making : DefId → World σ → List WorldEvent) : Prop :=
  ∀ d (w : World σ), w.session.Coherent → w.Tells (making d w) ((materialize d).apply w).2

/-- The events tell what a call does. -/
def Caller.Tells (caller : Caller σ) (calls : FactoryId → CacheId → Args → Workspace σ → List CallEvent) : Prop :=
  ∀ f c args (w : Workspace σ), w.library.Happens (calls f c args w) ((caller f c args).apply w).2.library

/-! ### Placing an instance -/

namespace Build

/-- The step touches neither the library nor the modules. -/
abbrev RestsFrom (step : Build σ α) (w : World σ) : Prop :=
  step.Leads World.Rests (fun _ _ => True) w

theorem compile_rests {step : Compile α} {w : World σ}
    (modules : (step.apply w.session).2.modules = w.session.modules)
    (records : (step.apply w.session).2.records = w.session.records) : (compile step).RestsFrom w :=
  ⟨⟨rfl, modules ▸ List.Subset.refl _, records ▸ List.Subset.refl _⟩, fun _ _ => trivial⟩

theorem edit_rests (step : Edit α) (w : World σ) : (edit step).RestsFrom w :=
  ⟨⟨rfl, List.Subset.refl _, List.Subset.refl _⟩, fun _ _ => trivial⟩

theorem uniquifyInstanceName_rests (name : String) (w : World σ) :
    (compile (Compile.uniquifyInstanceName name)).RestsFrom w := by
  have hkeeps : ∀ s : Session, ((Compile.uniquifyInstanceName name).apply s).2.modules = s.modules ∧
      ((Compile.uniquifyInstanceName name).apply s).2.records = s.records := by
    intro s
    unfold Compile.uniquifyInstanceName
    simp only [apply_bind, apply_get]
    cases s.blocks <;> exact ⟨rfl, rfl⟩
  exact compile_rests (hkeeps w.session).1 (hkeeps w.session).2

theorem registerInstance_rests (name : String) (module : ModuleId) (op : OpId) (w : World σ) :
    (compile (Compile.registerInstance name module op)).RestsFrom w := by
  have hkeeps : ∀ s : Session, ((Compile.registerInstance name module op).apply s).2.modules = s.modules ∧
      ((Compile.registerInstance name module op).apply s).2.records = s.records := by
    intro s
    unfold Compile.registerInstance
    simp only [apply_bind, apply_get]
    cases s.design.scopes.insertionPoint? <;> exact ⟨rfl, rfl⟩
  exact compile_rests (hkeeps w.session).1 (hkeeps w.session).2

theorem recordInstance_rests (request : InstanceRequest) (name : String) (module : ModuleId) (op : OpId)
    (w : World σ) : (recordInstance request name module op).RestsFrom w := by
  have hrecords : ∀ w : World σ, RestsFrom (do
      let results ← edit (query (·.results op))
      let id ← compile (Compile.registerInstance name module op)
      return { id, name, definition := request.definition, op, results } : Build σ Instance) w :=
    fun w => (edit_rests _ w).bind fun _ w₁ _ _ =>
      (registerInstance_rests name module op w₁).bind fun _ w₂ _ _ => (leads_pure _ w₂).forget
  unfold recordInstance
  cases request.appId with
  | none => exact hrecords w
  | some appId => exact (edit_rests _ w).bind fun _ w₁ _ _ => hrecords w₁

theorem emitInstance_rests (request : InstanceRequest) (connections : List (PortSpec × Connection))
    (module : ModuleId) (name : String) (w : World σ) :
    (emitInstance request connections module name).RestsFrom w := by
  unfold emitInstance insertInstance
  refine (edit_rests _ w).bind fun inputs w₁ _ _ => ?_
  refine (definition_leads request.definition w₁).bind fun definition w₂ _ _ => ?_
  refine (edit_rests _ w₂).bind fun op w₃ _ _ => ?_
  exact (edit_rests _ w₃).bind fun _ w₄ _ _ => recordInstance_rests request name module op w₄

variable {materialize : Materializer σ} {making : DefId → World σ → List WorldEvent} {w : World σ}

/-- An instance that is refused before its module is asked for leaves everything as it was; otherwise it makes what
its module makes. -/
theorem placeInstance_tells (hmaking : materialize.Tells making) (request : InstanceRequest)
    (hw : w.session.Coherent) :
    w.Tells (placeEvents making request w) ((placeInstance materialize request).apply w).2 := by
  rw [placeInstance_eq]
  unfold placeEvents
  simp only [apply_bind, apply_definition]
  cases hd : w.workspace.library.getDefinition request.definition with
  | error e => exact (refl_of World.Rests w).tells
  | ok definition =>
      simp only [apply_get]
      by_cases hblock : w.session.hasBlock = true
      case neg =>
        simp only [hblock, if_false, apply_bind, apply_throw, false_and, Bool.false_eq_true]
        exact (refl_of World.Rests w).tells
      simp only [hblock, if_true, true_and, apply_bind, apply_ofOutcome]
      cases hbind : definition.bindInputs request.bindings with
      | error e => exact (refl_of World.Rests w).tells
      | ok connections =>
          have hmade := hmaking request.definition w hw
          simp only [Except.isOk, Except.toBool, if_true]
          rcases hmaterialize : (materialize request.definition).apply w with ⟨e | module, w₁⟩
          · rw [hmaterialize] at hmade
            exact hmade
          · rw [hmaterialize] at hmade
            have hemit : RestsFrom (do
                let name ← compile (Compile.uniquifyInstanceName (request.name.getD definition.instanceName))
                emitInstance request connections module name) w₁ :=
              (uniquifyInstanceName_rests _ w₁).bind fun name w₂ _ _ =>
                emitInstance_rests request connections module name w₂
            have hrests := hemit.state
            rw [apply_bind] at hrests
            exact hmade.rests hrests

end Build

/-! ### Running a routine -/

namespace Generation

variable {materialize : Materializer σ} {caller : Caller σ} {making : DefId → World σ → List WorldEvent}
  {calls : FactoryId → CacheId → Args → Workspace σ → List CallEvent}

theorem answer_tells (hmaking : materialize.Tells making) (hcalls : caller.Tells calls) (frame : Frame)
    (request : Request) {r : Running σ} (hr : r.world.session.Coherent) :
    r.world.Tells (answerEvents making calls request r.world)
      ((answer materialize caller frame request).apply r).2.world := by
  have hdrafts : ∀ {β : Type} {step : Generation σ β}, step.Leads Running.Drafts (fun _ _ => True) r →
      r.world.Tells [] (step.apply r).2.world :=
    fun h => (World.Drafts.rests h.state).tells
  have hreads : ∀ {β : Type} {step : Build σ β}, step.Leads World.Drafts (fun _ _ => True) r.world →
      r.world.Tells [] ((build step).apply r).2.world := fun h => hdrafts (build_leads h)
  cases request with
  | input port => exact hdrafts (input_leads frame port r)
  | inputAt index => exact hdrafts (inputAt_leads frame index r)
  | clock port => exact hdrafts (clock_leads frame port r)
  | set port value => exact hdrafts (set_leads frame port value r)
  | setAt index value => exact hdrafts (setAt_leads frame index value r)
  | constant type value => exact hdrafts (edit_leads (Edit.constant_leads type value _))
  | add lhs rhs => exact hdrafts (edit_leads (Edit.add_leads lhs rhs _))
  | register signal => exact hdrafts (edit_leads (Edit.register_leads signal _))
  | instantiate request => exact Build.placeInstance_tells hmaking request hr
  | outputOf placed port => exact hreads (outputOf_leads placed port r.world)
  | outputsOf placed => exact hreads (outputsOf_leads placed r.world)
  | call factory cache args => exact World.tells_of_happens (hcalls factory cache args r.world.workspace)
  | cacheSize cache => exact (refl_of World.Rests r.world).tells
  | nameOf d => exact hreads (Build.nameOf_leads d r.world)
  | inspect => exact hdrafts (inspect_leads materialize caller frame r)

theorem run_tells (hm : materialize.Sound) (hc : caller.Sound) (hmaking : materialize.Tells making)
    (hcalls : caller.Tells calls) (frame : Frame) (routine : Routine σ α) {r : Running σ}
    (hr : r.world.session.Coherent) :
    r.world.Tells (runEvents making calls materialize caller frame routine r)
      ((run materialize caller frame routine).apply r).2.world := by
  induction routine generalizing r with
  | done outcome => exact (refl_of World.Rests r.world).tells
  | ask request next ih =>
      have hworks := (answer_leads hm hc frame request hr).state
      exact (answer_tells hmaking hcalls frame request hr).trans (ih _ (World.Works.coherent hworks hr))
  | host update next ih =>
      let updated : World σ := { r.world with workspace.host := update r.world.workspace.host }
      have hhost : r.world.Tells [] updated :=
        World.Rests.tells ⟨rfl, List.Subset.refl _, List.Subset.refl _⟩
      exact hhost.trans (ih r.world.workspace.host (r := ⟨updated, r.outputs⟩) hr)

end Generation

/-! ### Making a module -/

namespace Build

variable {materialize : Materializer σ} {caller : Caller σ} {making : DefId → World σ → List WorldEvent}
  {calls : FactoryId → CacheId → Args → Workspace σ → List CallEvent} {d : DefId} {w : World σ}

theorem prepare_tells {w' : World σ} {frame : Frame} {routine : Routine σ Unit} (hw : w.session.Coherent)
    (enters : (prepare d).apply w = (.ok (frame, routine), w')) : w.Tells [.module d frame.module] w' := by
  obtain ⟨definition, m, design, entry, hd, -, -, fits, has, hcreate, henter⟩ := prepare_cases enters
  have recorded : w.workspace.library.Recorded d entry := by
    rcases Compile.createModule_cases definition w.session with ⟨e, _, he, _⟩ | ⟨m', _, entry', _, _, hentry, hok⟩
    · cases he.symm.trans hcreate
    · have hrecords := congrArg (·.2.records) (hok.symm.trans hcreate)
      obtain rfl : entry' = entry := (Prod.mk.inj (List.cons.inj hrecords).1).2
      exact ⟨definition, hd, hentry ▸ rfl⟩
  rcases enterBody_cases w.workspace hd fits has with
    ⟨e, _, _, _, he⟩ | ⟨generator, arguments, m', design', location, clock, -, -, -, -, -, -, hok⟩
  · cases he.symm.trans henter
  · obtain ⟨houtcome, rfl⟩ := Prod.mk.inj (hok.symm.trans henter)
    obtain ⟨rfl, -⟩ := Prod.mk.inj (Except.ok.inj houtcome)
    exact World.tells_of_enrolled hw recorded rfl rfl rfl

/-- Where no body is entered, a module that is made is a copy or external. -/
theorem materializeWith_refused_tells (hw : w.session.Coherent)
    (hrefused : ∀ frame routine w', (prepare d).apply w ≠ (.ok (frame, routine), w')) :
    w.Tells (makeEventsWith making calls materialize caller d w)
      ((materializeWith materialize caller d).apply w).2 := by
  have hevents : makeEventsWith making calls materialize caller d w =
      match w.session.moduleOf? d, ((materializeWith materialize caller d).apply w).2.session.moduleOf? d with
      | none, some id => [.module d id]
      | _, _ => [] := by
    unfold makeEventsWith
    rcases hprepare : (prepare d).apply w with ⟨e | ⟨frame, routine⟩, w'⟩
    · cases w.workspace.library.getDefinition d <;> rfl
    · exact absurd hprepare (hrefused frame routine w')
  have hsame : ∀ {w' : World σ}, w.Rests w' → w'.session.moduleOf? d = w.session.moduleOf? d →
      w.Tells (match w.session.moduleOf? d, w'.session.moduleOf? d with
        | none, some id => [.module d id]
        | _, _ => []) w' := by
    intro w' hrests hmodule
    rw [hmodule]
    cases w.session.moduleOf? d <;> exact hrests.tells
  rw [hevents]
  rcases hmade : (materializeWith materialize caller d).apply w with ⟨outcome, w'⟩
  rcases materializeWith_refused_cases hw hrefused hmade with
    rfl | ⟨design, warnings, -, rfl⟩ | ⟨definition, m, design, entry, hd, -, -, unbound, hentry, rfl⟩
  · exact hsame (refl_of World.Rests _) rfl
  · exact hsame ⟨rfl, List.Subset.refl _, List.Subset.refl _⟩ rfl
  · have hbound : (w.session.enroll d m design entry).moduleOf? d = some w.session.design.nextModule := by
      unfold Session.moduleOf? Session.enroll
      rw [List.lookup_cons_self]
    simp only [unbound, hbound]
    exact World.tells_of_enrolled hw ⟨definition, hd, hentry ▸ rfl⟩ rfl rfl rfl

/-- The module of a definition is made first, and whatever its routine has made follows. -/
theorem materializeWith_tells (hm : materialize.Sound) (hc : caller.Sound) (hmaking : materialize.Tells making)
    (hcalls : caller.Tells calls) :
    (materializeWith materialize caller).Tells (makeEventsWith making calls materialize caller) := by
  intro d w hw
  by_cases henters : ∃ frame routine w', (prepare d).apply w = (.ok (frame, routine), w')
  case neg =>
    push Not at henters
    exact materializeWith_refused_tells hw henters
  obtain ⟨frame, routine, entered, enters⟩ := henters
  obtain ⟨hworkspace, rfl, -, name, hopens⟩ := prepare_opens enters
  obtain ⟨definition, _, _, _, hd, _⟩ := prepare_cases enters
  let start : Running σ := ⟨entered, List.replicate definition.table.outputCount none⟩
  have hcoherent : start.world.session.Coherent := hw.opens (hopens _ (refl_of Library.Extends _))
  have hworks := (Generation.run_leads hm hc frame routine (r := start) hcoherent).state
  obtain ⟨found, hfound, -⟩ := hworks.library frame.definition definition (hworkspace ▸ hd)
  have hruns := Moment.runs_of_works hworks (prepare_runs enters)
  have hevents : makeEventsWith making calls materialize caller frame.definition w =
      [.module frame.definition frame.module] ++
        Generation.runEvents making calls materialize caller frame routine start := by
    unfold makeEventsWith
    rw [enters, hd]
    rfl
  rw [hevents, materializeWith_eq_conclude materialize caller enters hd]
  have hran := (prepare_tells hw enters).trans (Generation.run_tells hm hc hmaking hcalls frame routine hcoherent)
  exact hran.rests (conclude_leaves hruns.2 hfound _ _).rests

theorem call_tells (depth : Nat) : Caller.Tells (Supply.call depth : Caller σ) (Supply.callEvents depth) :=
  Supply.call_happens depth

theorem materializeWithin_tells (depth : Nat) :
    Materializer.Tells (materializeWithin depth : Materializer σ) (makeEvents depth) := by
  induction depth with
  | zero => exact fun d w _ => (refl_of World.Rests w).tells
  | succ depth ih =>
      exact materializeWith_tells (materializeWithin_sound depth) (call_sound depth) ih (call_tells depth)

theorem placeInstance_congr {materialize' : Materializer σ} {request : InstanceRequest}
    (h : (materialize request.definition).apply w = (materialize' request.definition).apply w) :
    (placeInstance materialize request).apply w = (placeInstance materialize' request).apply w := by
  simp only [placeInstance_eq, apply_bind, apply_definition]
  cases w.workspace.library.getDefinition request.definition with
  | error e => rfl
  | ok definition =>
      simp only [apply_get]
      by_cases hblock : w.session.hasBlock = true
      · simp only [hblock, if_true, apply_bind, apply_ofOutcome]
        cases definition.bindInputs request.bindings with
        | error e => rfl
        | ok connections => simp only [h]
      · simp only [hblock, if_false, apply_bind, apply_throw, Bool.false_eq_true]

theorem instantiate_apply (request : InstanceRequest) (w : World σ) :
    (instantiate request).apply w =
      (placeInstance (materializeWithin (nestingBound w.workspace.library)) request).apply w :=
  placeInstance_congr (materialize_apply request.definition w)

end Build

/-! ### Courses -/

namespace World.Course

variable {start w : World σ} {events : List WorldEvent}

theorem becomes (h : Course start events w) : start.Becomes w := by
  induction h with
  | start => exact .refl
  | library h course ih => exact ih.tail (.supply course.happens.extends)
  | make h depth d ih => exact ih.tail (.make (.within depth))
  | instantiate h request ih => exact ih.tail (.instantiate request)
  | enter h enters ih => exact ih.tail (.prepare enters)
  | answer h runs depth outputs request ih => exact ih.tail (.answer runs depth outputs request)
  | conclude h runs outputs ended ih => exact ih.tail (.conclude runs outputs ended)

/-- A routine that runs may place an instance. -/
theorem place (h : Course start events w) {frame : Frame} (runs : w.session.Runs frame) (depth : Nat)
    (request : InstanceRequest) : Course start (events ++ Build.placeEvents (Build.makeEvents depth) request w)
      ((Build.placeInstance (Build.materializeWithin depth) request).apply w).2 :=
  h.answer runs depth [] (.instantiate request)

/-- **The chronicle of a session tells when each module was made, and what its definition was then.** -/
theorem tells (h : Course start events w) (hstart : start.Regular) : start.Tells events w := by
  induction h with
  | start => exact (refl_of World.Rests start).tells
  | library h course ih => exact ih.trans (World.tells_of_happens course.happens)
  | make h depth d ih =>
      exact ih.trans (Build.materializeWithin_tells depth d _ (h.becomes.regular hstart).coherent)
  | @instantiate events w h request ih =>
      have hplaced := Build.placeInstance_tells
        (Build.materializeWithin_tells (Build.nestingBound w.workspace.library)) request
        (h.becomes.regular hstart).coherent
      rw [← Build.instantiate_apply] at hplaced
      exact ih.trans hplaced
  | enter h enters ih => exact ih.trans (Build.prepare_tells (h.becomes.regular hstart).coherent enters)
  | @answer events w h frame runs depth outputs request ih =>
      exact ih.trans (Generation.answer_tells (r := ⟨w, outputs⟩) (Build.materializeWithin_tells depth)
        (Build.call_tells depth) frame request (h.becomes.regular hstart).coherent)
  | @conclude events w h frame runs outputs ended ih =>
      have hregular := h.becomes.regular hstart
      obtain ⟨ds, ids, hds, hids⟩ := runs.exists_outer
      obtain ⟨definition, hd⟩ := hregular.defined frame.definition (by rw [hds]; exact List.mem_cons_self)
      exact ih.rests (Build.conclude_leaves runs.2 hd outputs ended).rests

end World.Course

end Wirework
