import Wirework.Proofs.Engine.Permanence
import Wirework.Proofs.Engine.Emitting
import Wirework.Proofs.Session.Naming

/-! # Instances have names of their own

However a session goes on, from outside and within nested generators, and whether these succeed or fail, the instances
in a body have pairwise different names (`instance_names_distinct`).

The name of an instance is taken from the innermost scope of names, constants are appended for its inputs, and then
the instance is appended to the innermost body, all without a generator running in between
(`Build.placeInstance_orderly`).  What generators do before that, down to any depth, leaves the scopes of the bodies
around them alone (`Build.materializeWith_orderly`).

A world is orderly if its session is coherent and its instances are named.  Every step of the engine keeps worlds
orderly; so do routines, by induction on their requests (`Generation.run_orderly`), and so does making modules, by
induction on the depth (`Build.materializeWithin_orderly`). -/

namespace Wirework

open Step

variable {σ α : Type}

/-! ### Orderly worlds -/

namespace World

/-- The session is coherent, and the instances in its bodies have names of their own. -/
structure Orderly (w : World σ) : Prop where
  coherent : w.session.Coherent
  named : w.session.Named w.workspace.library.IsImported

/-- The world is orderly afterwards if it was so before. -/
def StaysOrderly (w w' : World σ) : Prop :=
  w.Orderly → w'.Orderly

instance : IsPreorder (World σ) StaysOrderly where
  refl _ := id
  trans _ _ _ h h' := h' ∘ h

variable {w w' : World σ}

theorem Drafts.staysOrderly (h : w.Drafts w') : w.StaysOrderly w' := by
  obtain ⟨workspace, session⟩ := w'
  obtain ⟨rfl, design, warnings, hgrows, rfl⟩ := h
  intro hw
  obtain ⟨hcoherent, hnamed, -⟩ := hw.named.grows hw.coherent hgrows
  exact ⟨hcoherent.edits (.warn warnings), hnamed.distinct, hnamed.used⟩

theorem staysOrderly_of_extends {workspace : Workspace σ} (h : w.workspace.Extends workspace) :
    w.StaysOrderly { w with workspace } := by
  refine fun hw => ⟨hw.coherent, hw.named.mono ?_⟩
  rintro d ⟨definition, hd, himported⟩
  exact (Library.Extends.isImported_iff h hd).mpr himported

end World

def Materializer.Orderly (materialize : Materializer σ) : Prop :=
  ∀ d (w : World σ), w.StaysOrderly ((materialize d).apply w).2

/-! ### Placing an instance -/

namespace Build

section place

variable {materialize : Materializer σ} {request : InstanceRequest} {w : World σ}

theorem insertInstance_named {module : ModuleId} {name : String} {inputs : List ValueId} {parameters : AttributeMap}
    {outcome : Except BuildError Instance} {w' : World σ} (hw : w.Orderly) (spare : w.session.Spare name)
    (h : (insertInstance request module name inputs parameters).apply w = (outcome, w')) :
    w'.session.Named w'.workspace.library.IsImported := by
  rcases insertInstance_cases (fun _ => hw.coherent.building) h with
    ⟨-, rfl⟩ | ⟨id, m, callee, body, here, -, -, happ, ⟨-, rfl⟩ | ⟨-, rfl⟩⟩
  · exact hw.named
  · have hnamed := hw.named.place hw.coherent here (happ (attributesOf request)) rfl spare
    exact ⟨hnamed.distinct, hnamed.used⟩
  · exact hw.named.place hw.coherent here (happ .empty) rfl spare

/-- The steps that change the body keep it orderly, if the name is spare. -/
theorem emitInstance_named {connections : List (PortSpec × Connection)} {module : ModuleId} {name : String}
    {outcome : Except BuildError Instance} {w' : World σ} (hw : w.Orderly) (spare : w.session.Spare name)
    (h : (emitInstance request connections module name).apply w = (outcome, w')) :
    w'.session.Named w'.workspace.library.IsImported := by
  have hdrafts := (edit_drafts (leads_mapM (fun (entry : PortSpec × Connection) d =>
    inputValue_leads entry.1 entry.2 d) connections w.session.design)).state
  unfold emitInstance at h
  rw [apply_bind] at h
  generalize (edit (connections.mapM fun entry => inputValue entry.1 entry.2)).apply w = made at h hdrafts
  obtain ⟨e | inputs, w₁⟩ := made
  · obtain ⟨-, rfl⟩ := Prod.mk.inj h
    exact (hdrafts.staysOrderly hw).named
  · have hw₁ : w₁.Orderly := hdrafts.staysOrderly hw
    simp only [apply_bind, apply_definition] at h
    cases hd : w₁.workspace.library.getDefinition request.definition with
    | error e =>
        rw [hd] at h
        obtain ⟨-, rfl⟩ := Prod.mk.inj h
        exact hw₁.named
    | ok definition =>
        rw [hd] at h
        -- The constants for the inputs have not touched the names.
        have hspare : w₁.session.Spare name := by
          obtain ⟨workspace, session⟩ := w₁
          obtain ⟨-, design, warnings, hgrows, rfl⟩ := hdrafts
          exact (hw.named.grows hw.coherent hgrows).2.2 name spare
        exact insertInstance_named hw₁ hspare h

/-- Placing an instance keeps a world orderly: the name is taken from the scope of the body in which the instance
is put. -/
theorem placeInstance_orderly (hm : materialize.Sound) (ho : materialize.Orderly) (request : InstanceRequest)
    (w : World σ) : w.StaysOrderly ((placeInstance materialize request).apply w).2 := by
  intro hw
  refine ⟨(placeInstance_leads hm request hw.coherent).state.coherent hw.coherent, ?_⟩
  rcases hplace : (placeInstance materialize request).apply w with ⟨outcome, w'⟩
  cases hd : w.workspace.library.getDefinition request.definition with
  | error e =>
      rw [placeInstance_eq, apply_bind, apply_definition, hd] at hplace
      obtain ⟨-, rfl⟩ := Prod.mk.inj hplace
      exact hw.named
  | ok definition =>
      have hmade := ho request.definition w hw
      rcases placeInstance_cases hm hw.coherent hd hplace with
        ⟨-, rfl⟩ | ⟨connections, -, ⟨e, hfailed, -⟩ | ⟨module, w₁, block, outer, name, block', hok, hblocks, htaken,
          hemit⟩⟩
      · exact hw.named
      · rw [hfailed] at hmade
        exact hmade.named
      · rw [hok] at hmade
        obtain ⟨hnamed, hspare⟩ := hmade.named.take hblocks htaken
        let w₂ : World σ := { w₁ with session := { w₁.session with blocks := block' :: outer } }
        have hw₂ : w₂.Orderly := ⟨hmade.coherent.edits (.name hblocks), hnamed⟩
        exact emitInstance_named hw₂ hspare hemit

end place

end Build

/-! ### Running a routine -/

/-- The world of a running routine stays orderly. -/
def Running.StaysOrderly (r r' : Running σ) : Prop :=
  r.world.StaysOrderly r'.world

instance : IsPreorder (Running σ) Running.StaysOrderly where
  refl r := refl_of World.StaysOrderly r.world
  trans _ _ _ h h' := trans_of World.StaysOrderly h h'

namespace Generation

variable {materialize : Materializer σ} {caller : Caller σ}

theorem drafts_orderly {step : Generation σ α} {r : Running σ}
    (h : step.Leads Running.Drafts (fun _ _ => True) r) :
    step.Leads Running.StaysOrderly (fun _ _ => True) r :=
  h.mono (fun _ hdrafts => World.Drafts.staysOrderly hdrafts) fun _ _ _ h => h

theorem build_orderly {step : Build σ α} {r : Running σ} (h : r.world.StaysOrderly (step.apply r.world).2) :
    (build step).Leads Running.StaysOrderly (fun _ _ => True) r :=
  ⟨h, fun _ _ => trivial⟩

/-- Answering a request keeps the world orderly. -/
theorem answer_orderly (hm : materialize.Sound) (ho : materialize.Orderly) (hc : caller.Sound) (frame : Frame)
    (request : Request) (r : Running σ) :
    (answer materialize caller frame request).Leads Running.StaysOrderly (fun _ _ => True) r := by
  have hreads : ∀ {α : Type} {step : Build σ α},
      step.Leads World.StaysOrderly (fun _ _ => True) r.world →
        (build step).Leads Running.StaysOrderly (fun _ _ => True) r := build_leads
  cases request with
  | input port => exact input_leads frame port r
  | inputAt index => exact inputAt_leads frame index r
  | clock port => exact clock_leads frame port r
  | set port value => exact drafts_orderly (set_leads frame port value r)
  | setAt index value => exact drafts_orderly (setAt_leads frame index value r)
  | constant type value => exact drafts_orderly (edit_leads (Edit.constant_leads type value _))
  | add lhs rhs => exact drafts_orderly (edit_leads (Edit.add_leads lhs rhs _))
  | register signal => exact drafts_orderly (edit_leads (Edit.register_leads signal _))
  | instantiate request => exact build_orderly (Build.placeInstance_orderly hm ho request r.world)
  | outputOf placed port => exact hreads (outputOf_leads placed port r.world)
  | outputsOf placed => exact hreads (outputsOf_leads placed r.world)
  | call factory cache args =>
      exact build_orderly (World.staysOrderly_of_extends (hc factory cache args r.world.workspace).state)
  | cacheSize cache => exact (leads_get r).bind fun read r₁ _ _ => pure_leads _ r₁
  | nameOf d => exact hreads (Build.nameOf_leads d r.world)
  | inspect => exact inspect_leads materialize caller frame r

theorem run_orderly (hm : materialize.Sound) (ho : materialize.Orderly) (hc : caller.Sound) (frame : Frame)
    (routine : Routine σ α) (r : Running σ) :
    (run materialize caller frame routine).Leads Running.StaysOrderly (fun _ _ => True) r := by
  induction routine generalizing r with
  | done outcome => exact (leads_ofOutcome outcome r).forget
  | ask request next ih =>
      exact (answer_orderly hm ho hc frame request r).attempt.bind fun outcome r₁ _ _ => ih outcome r₁
  | host update next ih =>
      refine (leads_get r).bind fun read r₁ _ _ => ?_
      have hhost : (modify fun r : Running σ =>
          { r with world.workspace.host := update r.world.workspace.host } :
          Generation σ PUnit).Leads Running.StaysOrderly (fun _ _ => True) r₁ :=
        ⟨fun h => ⟨h.coherent, h.named⟩, fun _ _ => trivial⟩
      exact hhost.bind fun _ r₂ _ _ => ih _ r₂

end Generation

/-! ### Making modules -/

namespace Build

variable {materialize : Materializer σ} {caller : Caller σ} {d : DefId} {w : World σ}

theorem prepare_orderly {w' : World σ} {frame : Frame} {routine : Routine σ Unit}
    (enters : (prepare d).apply w = (.ok (frame, routine), w')) : w.StaysOrderly w' := by
  intro hw
  obtain ⟨hworkspace, -, -, name, hopens⟩ := prepare_opens enters
  have hopened := hopens _ (refl_of Library.Extends _)
  refine ⟨hw.coherent.opens hopened, ?_⟩
  rw [hworkspace]
  exact hw.named.opens hw.coherent hopened

theorem conclude_named {frame : Frame} (hw : w.Orderly) (here : w.session.here? = some frame.module)
    {definition : Definition (Routine σ Unit)}
    (hd : w.workspace.library.getDefinition frame.definition = .ok definition) (outputs : List (Option Signal))
    (ended : Except BuildError Unit) :
    ((conclude frame outputs ended).apply w).2.session.Named
      ((conclude frame outputs ended).apply w).2.workspace.library.IsImported := by
  rcases conclude_cases outputs ended here hd with ⟨values, design, ends, hok⟩ | ⟨e, he⟩
  · rw [hok]
    exact hw.named.finish hw.coherent ends frame.definition
  · rw [he]
    exact (hw.named.leave frame.definition).drop frame.definition definition.name frame.module

/-- What is left where no body is entered: nothing, an empty position, or a module that is a copy or external. -/
theorem materializeWith_refused_cases (hs : w.session.Coherent)
    (hrefused : ∀ frame routine w', (prepare d).apply w ≠ (.ok (frame, routine), w')) {w' : World σ}
    {outcome : Except BuildError ModuleId} (h : (materializeWith materialize caller d).apply w = (outcome, w')) :
    w' = w ∨
      (∃ design warnings, w.session.design.Takes none design ∧
        w' = { w with session := { w.session with design, warnings } }) ∨
      ∃ definition m design entry, w.workspace.library.getDefinition d = .ok definition ∧
        w.session.Fits definition.name m design entry ∧ (definition.isImported = true ∨ m.isExternal = true) ∧
        w.session.moduleOf? d = none ∧ entry = Compile.manifestEntry definition m.symbol w.session.config ∧
        w' = { w with session := w.session.enroll d m design entry } := by
  rcases materializeWith_cases materialize caller d w with
    ⟨e, he⟩ | ⟨id, -, -, hok⟩ | ⟨definition, hd, idle, unbound⟩
  · obtain ⟨-, rfl⟩ := Prod.mk.inj (he.symm.trans h)
    exact .inl rfl
  · obtain ⟨-, rfl⟩ := Prod.mk.inj (hok.symm.trans h)
    exact .inl rfl
  rw [materializeWith_unbound materialize caller hd idle unbound] at h
  simp only [prepare_unbound hd idle unbound] at hrefused
  rcases Compile.createModule_cases definition w.session with
    ⟨e, design, he, hdesign⟩ | ⟨m, design, entry, fits, has, hentry, hok⟩
  · rw [he] at h
    obtain ⟨-, rfl⟩ := Prod.mk.inj h
    rcases hdesign with rfl | htakes
    · exact .inl rfl
    · exact .inr (.inl ⟨design, w.session.warnings, htakes, rfl⟩)
  simp only [hok] at hrefused h
  by_cases hgenerator : definition.generator?.isSome = true
  · rw [if_pos hgenerator] at h
    rcases enterBody_cases w.workspace hd fits has with
      ⟨e, m', design', fits', he⟩ | ⟨_, _, _, _, _, _, _, _, _, _, _, _, hentered⟩
    · -- The module that could not be entered is taken back.
      obtain ⟨design₂, warnings, htakes, hdrop⟩ := Session.drop_enroll hs unbound fits' definition.name
      have hfill : (fillModule materialize caller d _).apply _ = _ := fillModule_refused idle hd he
      unfold Session.enroll at hfill
      rw [hfill] at h
      obtain ⟨-, rfl⟩ := Prod.mk.inj h
      exact .inr (.inl ⟨design₂, warnings, htakes, congrArg (World.mk w.workspace) hdrop⟩)
    · exact absurd hentered (hrefused _ _ _)
  · rw [if_neg hgenerator] at h
    obtain ⟨-, rfl⟩ := Prod.mk.inj h
    refine .inr (.inr ⟨definition, m, design, entry, hd, fits, ?_, unbound, hentry, rfl⟩)
    rcases has.kind with ⟨-, hcopied, -⟩ | ⟨-, -, hsome⟩
    · exact hcopied
    · exact absurd hsome hgenerator

theorem materializeWith_refused_named (hw : w.Orderly)
    (hrefused : ∀ frame routine w', (prepare d).apply w ≠ (.ok (frame, routine), w')) {w' : World σ}
    {outcome : Except BuildError ModuleId} (h : (materializeWith materialize caller d).apply w = (outcome, w')) :
    w'.session.Named w'.workspace.library.IsImported := by
  rcases materializeWith_refused_cases hw.coherent hrefused h with
    rfl | ⟨design, warnings, htakes, rfl⟩ | ⟨definition, m, design, entry, hd, fits, hcopied, -, -, rfl⟩
  · exact hw.named
  · exact hw.named.spoil hw.coherent htakes warnings
  · refine hw.named.enroll hw.coherent fits ?_
    refine hcopied.imp (fun himported => ⟨definition, hd, himported⟩) fun hexternal body hbody => ?_
    cases hbody.symm.trans (HwModule.body?_eq_none_of_isExternal hexternal)

/-- Making a module keeps a world orderly if it is so for the definitions that routines instantiate. -/
theorem materializeWith_orderly (hm : materialize.Sound) (ho : materialize.Orderly) (hc : caller.Sound) :
    (materializeWith materialize caller).Orderly := by
  intro d w hw
  refine ⟨(materializeWith_sound hm hc d w hw.coherent).works.coherent hw.coherent, ?_⟩
  by_cases henters : ∃ frame routine w', (prepare d).apply w = (.ok (frame, routine), w')
  · obtain ⟨frame, routine, w₁, enters⟩ := henters
    obtain ⟨hworkspace, rfl, -⟩ := prepare_opens enters
    obtain ⟨definition, _, _, _, hd, _⟩ := prepare_cases enters
    have hw₁ := prepare_orderly enters hw
    let start : Running σ := ⟨w₁, List.replicate definition.table.outputCount none⟩
    have hran := (Generation.run_orderly hm ho hc frame routine start).state hw₁
    have hworks : w₁.Works _ := (Generation.run_leads hm hc frame routine (r := start) hw₁.coherent).state
    rw [materializeWith_eq_conclude materialize caller enters hd]
    obtain ⟨found, hfound, -⟩ := hworks.library frame.definition definition (hworkspace ▸ hd)
    exact conclude_named hran (Moment.runs_of_works hworks (prepare_runs enters)).2 hfound _ _
  · push Not at henters
    exact materializeWith_refused_named hw henters rfl

theorem materializeWithin_orderly (depth : Nat) :
    Materializer.Orderly (materializeWithin depth : Materializer σ) := by
  induction depth with
  | zero => exact fun d w => refl_of World.StaysOrderly w
  | succ depth ih => exact materializeWith_orderly (materializeWithin_sound depth) ih (call_sound depth)

theorem materialize_orderly : Materializer.Orderly (Build.materialize : Materializer σ) := by
  intro d w
  rw [materialize_apply]
  exact materializeWithin_orderly _ d w

theorem Attempt.orderly {step : Build σ ModuleId} (h : Attempt d step) (w : World σ) :
    w.StaysOrderly (step.apply w).2 := by
  rcases h.apply_cases w with ⟨e, he⟩ | ⟨depth, hsame⟩
  · rw [he]
    exact refl_of World.StaysOrderly w
  · rw [hsame]
    exact materializeWithin_orderly depth d w

end Build

/-! ### Whole sessions -/

namespace World

variable {w w' : World σ}

theorem Advances.staysOrderly (h : w.Advances w') (hw : w.Regular) : w.StaysOrderly w' := by
  cases h with
  | supply grown => exact staysOrderly_of_extends grown
  | make attempt => exact attempt.orderly w
  | instantiate request =>
      exact Build.placeInstance_orderly Build.materialize_sound Build.materialize_orderly request w
  | prepare enters => exact Build.prepare_orderly enters
  | @answer frame runs depth outputs request =>
      exact (Generation.answer_orderly (Build.materializeWithin_sound depth) (Build.materializeWithin_orderly depth)
        (Build.call_sound depth) frame request ⟨w, outputs⟩).state
  | @conclude frame runs outputs ended =>
      obtain ⟨ds, _, hds, -⟩ := runs.exists_outer
      obtain ⟨definition, hd⟩ := hw.defined frame.definition (by rw [hds]; exact List.mem_cons_self)
      exact fun horderly => ⟨(Advances.regular (.conclude runs outputs ended) hw).coherent,
        Build.conclude_named horderly runs.2 hd outputs ended⟩

theorem Becomes.orderly {config : Config} {workspace : Workspace σ}
    (h : World.Becomes ⟨workspace, .ofConfig config⟩ w) : w.Orderly := by
  induction h with
  | refl => exact ⟨Session.coherent_ofConfig config, Session.named_ofConfig config _⟩
  | tail hsteps hstep ih => exact hstep.staysOrderly (Becomes.regular hsteps (regular_start workspace config)) ih

end World

/-! ### Names of instances -/

/-- Instances have names of their own within the bodies that generators have built, and these are recorded. -/
structure Session.InstancesNamed (imported : DefId → Prop) (s : Session) : Prop where
  /-- No two instances in the body of a module have the same name, unless it is a copy. -/
  distinct : ∀ id m, s.design.module? id = some m → (∀ d, s.moduleOf? d = some id → ¬ imported d) →
    (s.design.instanceNames id).Nodup
  /-- An instance is recorded with the name that its operation has, which is in the body of its parent. -/
  recorded : ∀ r ∈ s.instances, r.op ∈ s.design.opsIn r.parent ∧ ∃ op inputs parameters,
    s.design.op? r.op = some op ∧ op.operation = .instantiate r.module r.name inputs parameters

/-- **Instances in a body have names of their own.**  However a session goes on, whatever names its instances ask
for, within nested generators and across failures, no two instances in a body that a generator has built have the
same name, and the record of an instance has the name that its operation has. -/
theorem instance_names_distinct {config : Config} {workspace : Workspace σ} {w : World σ}
    (h : World.Becomes ⟨workspace, .ofConfig config⟩ w) :
    w.session.InstancesNamed w.workspace.library.IsImported := by
  have hs := h.orderly.coherent
  constructor
  case distinct =>
    intro id m hm horiginal
    obtain ⟨d, hmem⟩ := hs.isLive_iff.mp ⟨m, hm⟩
    exact h.orderly.named.distinct d id hmem (horiginal d (hs.moduleOf?_eq_some_iff.mpr hmem))
  case recorded =>
    intro r hr
    obtain ⟨-, hparent, op, inputs, parameters, hop, -, hoperation⟩ := (hs.placed r hr).1
    exact ⟨Design.mem_opsIn_iff.mpr hparent, op, inputs, parameters, hop, hoperation⟩

namespace Sample

/-- A module that asks for similar names, and in between for an instance that cannot be made. -/
def crowdedSpec (wire loose : DefId) : DefinitionSpec (Routine Unit Unit) where
  name := "Crowded"
  declarations := [
    ("y", .output (.bits 1)),
    ("build", .generator (do
      let bindings := [("a", .literal 1)]
      discard (Routine.instantiate { definition := wire, bindings, name := "u_1" })
      discard (Routine.instantiate { definition := wire, bindings, name := "u" })
      discard (Program.attempt (Routine.instantiate { definition := loose, name := "u" }))
      discard (Routine.instantiate { definition := wire, bindings, name := "u" })
      Routine.set "y" (.literal 0)) .unknown)]

/-- The three definitions, before any module has been made. -/
def vacant : World Unit :=
  let defined := (do
    let wire ← Supply.define wireSpec
    let loose ← Supply.define (looseSpec wire)
    Supply.define (crowdedSpec wire loose) : Supply Unit DefId).apply ⟨{}, ()⟩
  ⟨defined.2, .ofConfig {}⟩

/-- The world once the crowded module has been made. -/
def crowded : World Unit :=
  ((Build.materialize ⟨2⟩).apply vacant).2

end Sample

/-- The instance that cannot be made takes no name, and the last one gets the first number that is free. -/
theorem instance_names_distinct_crowded :
    Sample.crowded.session.InstancesNamed Sample.crowded.workspace.library.IsImported ∧
      Sample.crowded.session.design.instanceNames ⟨0⟩ = ["u_1", "u", "u_2"] ∧
      Sample.crowded.session.instances.map (·.name) = ["u_1", "u", "u_2"] := by
  have hmade : World.Becomes ⟨Sample.vacant.workspace, .ofConfig {}⟩ Sample.crowded :=
    .single (.make .materialize)
  exact ⟨instance_names_distinct hmade, by decide +kernel⟩

end Wirework
