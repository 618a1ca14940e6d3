import Wirework.Proofs.Engine.Making
import Wirework.Proofs.Session.Layers

/-! # Moments of a session

A moment is a world that a session can be in, between two calls from outside as well as within any number of nested
generators, between two requests of the innermost routine.  From one moment to the next leads a call, the entry into
the body of a module (`Build.prepare`), or the answer to a request; between any two of them the library may have been
extended and the host have changed.

At every moment the session is coherent (`Moment.coherent`), its modules suit their definitions (`Moment.suited`), and
it is layered unless it has modules of imported definitions (`Moment.layered`).

A definition is so materialized in three stages: its body is entered, its routine runs, and the body is left
(`Build.conclude`), whereby its module is finished or, if the routine has failed or an output has no value, taken out
of the session.  That the stages make up the whole is `Build.materializeWith_eq_conclude`; what the last of them does
to the session is `Build.conclude_cases`. -/

namespace Wirework

open Step

variable {σ : Type}

/-! ### Entering a body -/

namespace Build

/-- Makes the module of a definition and enters its body, up to the point where its routine runs: what the
routine works on, and the routine. -/
def prepare (d : DefId) : Build σ (Frame × Routine σ Unit) := do
  let definition ← definition d
  let session := (← get).session
  if session.isGenerating d then
    throw (.recursiveGeneration definition.name)
  if (session.moduleOf? d).isSome then
    throw (.alreadyGenerated definition.name)
  let id ← compile (Compile.createModule definition)
  compile (Compile.bindModule d id)
  compile (Compile.startGenerating d)
  enterBody d id

variable {d : DefId} {w w' : World σ} {frame : Frame} {routine : Routine σ Unit}

theorem prepare_unbound {definition : Definition (Routine σ Unit)}
    (hd : w.workspace.library.getDefinition d = .ok definition) (idle : d ∉ w.session.generating)
    (unbound : w.session.moduleOf? d = none) :
    (prepare d).apply w =
      match (Compile.createModule definition).apply w.session with
      | (.error e, s) => (.error e, { w with session := s })
      | (.ok id, s) => (enterBody d id).apply { w with
          session := { s with modules := (d, id) :: s.modules, generating := d :: s.generating } } := by
  have hidle := Session.isGenerating_eq_false_iff.mpr idle
  unfold prepare
  simp only [apply_bind, apply_definition, hd, apply_get, hidle, Bool.false_eq_true, if_false, unbound,
    Option.isSome_none, compile, apply_zoom]
  rcases (Compile.createModule definition).apply w.session with ⟨e | id, s⟩ <;> rfl

/-- What is known of a module whose body has been entered. -/
theorem prepare_cases (h : (prepare d).apply w = (.ok (frame, routine), w')) :
    ∃ definition m design entry, w.workspace.library.getDefinition d = .ok definition ∧
      d ∉ w.session.generating ∧ w.session.moduleOf? d = none ∧
      w.session.Fits definition.name m design entry ∧ Compile.InsertsAs definition m ∧
      (Compile.createModule definition).apply w.session = (.ok w.session.design.nextModule,
        { w.session.enroll d m design entry with modules := w.session.modules }) ∧
      (enterBody d w.session.design.nextModule).apply
        ⟨w.workspace, started w.session d m design entry⟩ = (.ok (frame, routine), w') := by
  obtain ⟨definition, hd, idle, unbound⟩ : ∃ definition, w.workspace.library.getDefinition d = .ok definition ∧
      d ∉ w.session.generating ∧ w.session.moduleOf? d = none := by
    unfold prepare at h
    simp only [apply_bind, apply_definition] at h
    cases hd : w.workspace.library.getDefinition d with
    | error e =>
        rw [hd] at h
        cases h
    | ok definition =>
        rw [hd] at h
        simp only [apply_get] at h
        by_cases hgenerating : w.session.isGenerating d = true
        · simp only [if_pos hgenerating, apply_bind, apply_throw] at h
          cases h
        simp only [if_neg hgenerating] at h
        cases hbound : w.session.moduleOf? d with
        | some id =>
            simp only [hbound, Option.isSome_some, if_true, apply_bind, apply_throw] at h
            cases h
        | none => exact ⟨definition, rfl, mt Session.isGenerating_iff.mpr hgenerating, rfl⟩
  rw [prepare_unbound hd idle unbound] at h
  rcases Compile.createModule_cases definition w.session with
    ⟨e, design, he, _⟩ | ⟨m, design, entry, fits, has, _, hok⟩
  · rw [he] at h
    cases h
  · rw [hok] at h
    exact ⟨definition, m, design, entry, hd, idle, unbound, fits, has, hok, h⟩

/-- The body of the module has been entered. -/
theorem prepare_opens (h : (prepare d).apply w = (.ok (frame, routine), w')) :
    w'.workspace = w.workspace ∧ frame.definition = d ∧ frame.module = w.session.design.nextModule ∧
      ∃ name, ∀ l, w.workspace.library.Extends l →
        w.session.Opens l.catalog d name w'.session := by
  obtain ⟨definition, m, design, entry, hd, idle, unbound, fits, has, _, henter⟩ := prepare_cases h
  rcases enterBody_cases w.workspace hd fits has with
    ⟨e, _, _, _, he⟩ |
    ⟨generator, arguments, m', design', location, clock, _, himported, fits', hbody, hsuits, hclock, hok⟩
  · rw [he] at henter
    cases henter
  · rw [hok] at henter
    obtain ⟨houtcome, rfl⟩ := Prod.mk.inj henter
    obtain ⟨rfl, rfl⟩ := Prod.mk.inj (Except.ok.inj houtcome)
    refine ⟨rfl, rfl, rfl, definition.name, fun l hl => ?_⟩
    refine .intro idle unbound ?_ fits' hbody (hl.catalog_suits hd hsuits) location clock
      (hl.clocks hd hclock)
    exact fun h => Bool.false_ne_true (himported.symm.trans ((hl.isImported_iff hd).mp h))

/-- Once a body has been entered, materializing its definition means running the routine in the world that
has been entered, and leaving the body with the outcome. -/
theorem materializeWith_of_prepare {materialize : Materializer σ} {caller : Caller σ}
    (h : (prepare d).apply w = (.ok (frame, routine), w')) :
    (materializeWith materialize caller d).apply w =
      match (execute materialize caller frame routine).apply w' with
      | (.ok ⟨⟩, w₂) => (.ok frame.module, { w₂ with session := w₂.session.leave d })
      | (.error e, w₂) => (do
          compile (Compile.discardModule d (← nameOf d) frame.module)
          throw e : Build σ ModuleId).apply { w₂ with session := w₂.session.leave d } := by
  obtain ⟨_, _, hmodule, _⟩ := prepare_opens h
  obtain ⟨definition, m, design, entry, hd, idle, unbound, fits, has, hcreate, henter⟩ :=
    prepare_cases h
  have hgenerator : definition.generator?.isSome = true := by
    rcases enterBody_cases w.workspace hd fits has with
      ⟨e, _, _, _, he⟩ | ⟨generator, _, _, _, _, _, hsome, _⟩
    · rw [he] at henter
      cases henter
    · rw [hsome]
      rfl
  have hfill : (fillModule materialize caller d w.session.design.nextModule).apply _ = _ :=
    fillModule_apply w.session.design.nextModule ⟨w.workspace, w.session.enroll d m design entry⟩
  have hstart : ({ w.session.enroll d m design entry with
      generating := d :: (w.session.enroll d m design entry).generating } : Session) =
      started w.session d m design entry := rfl
  have henroll : ({ w.session.enroll d m design entry with
      modules := (d, w.session.design.nextModule) :: w.session.modules } : Session) =
      w.session.enroll d m design entry := rfl
  simp only [hstart, generateBody_apply, henter] at hfill
  rw [materializeWith_unbound materialize caller hd idle unbound, hcreate]
  simp only [if_pos hgenerator, henroll, hfill, hmodule]
  rcases (execute materialize caller frame routine).apply w' with ⟨e | ⟨⟩, w₂⟩
  · simp only [Session.leave, apply_bind, compile, apply_zoom, Compile.discardModule_apply,
      apply_throw]
    cases (nameOf d).apply _ with
    | mk outcome w₃ => cases outcome <;> rfl
  · rfl

theorem prepare_of_isOk (h : ((prepare d).apply w).1.isOk = true) :
    ∃ frame routine, (prepare d).apply w = (.ok (frame, routine), ((prepare d).apply w).2) := by
  cases hok : ((prepare d).apply w).1 with
  | error e =>
      rw [hok] at h
      cases h
  | ok result => exact ⟨result.1, result.2, Prod.ext hok rfl⟩

theorem prepare_workspace (h : ((prepare d).apply w).1.isOk = true) :
    ((prepare d).apply w).2.workspace = w.workspace := by
  obtain ⟨frame, routine, hprepare⟩ := prepare_of_isOk h
  exact (prepare_opens hprepare).1

end Build

/-- The routine of the frame is the one that runs. -/
def Session.Runs (s : Session) (frame : Frame) : Prop :=
  s.generating.head? = some frame.definition ∧ s.here? = some frame.module

theorem Build.prepare_runs {d : DefId} {w w' : World σ} {frame : Frame} {routine : Routine σ Unit}
    (h : (prepare d).apply w = (.ok (frame, routine), w')) : w'.session.Runs frame := by
  obtain ⟨_, hdefinition, hmodule, name, hopens⟩ := prepare_opens h
  have hopened := hopens _ (refl_of Library.Extends _)
  refine ⟨?_, ?_⟩
  · rw [hopened.generating_eq, hdefinition]
    rfl
  · rw [hopened.here?_eq, hmodule]

/-! ### Attempts to make a module -/

namespace Build

/-- The ways in which the module of a definition can be asked for, from outside and by instances. -/
inductive Attempt (d : DefId) : Build σ ModuleId → Prop
  | materialize : Attempt d (materialize d)
  | within (depth : Nat) : Attempt d (materializeWithin depth d)
  | generate : Attempt d (generate d)

theorem materialize_apply (d : DefId) (w : World σ) :
    (materialize d).apply w = (materializeWithin (nestingBound w.workspace.library) d).apply w := by
  unfold materialize
  simp only [apply_bind, apply_get]

theorem materialize_sound : Materializer.Sound (materialize : Materializer σ) := by
  intro d w hs
  rw [materialize_apply]
  exact materializeWithin_sound _ d w hs

/-- Generating a definition is materializing it, or is refused. -/
theorem generate_cases (d : DefId) (w : World σ) :
    (∃ e, (generate d).apply w = (.error e, w)) ∨ (generate d).apply w = (materialize d).apply w := by
  unfold generate
  simp only [apply_bind, apply_definition]
  cases w.workspace.library.getDefinition d with
  | error e => exact Or.inl ⟨e, rfl⟩
  | ok definition =>
      by_cases hgenerator : definition.generator?.isNone = true
      · simp only [if_pos hgenerator, apply_bind, apply_throw]
        exact Or.inl ⟨_, rfl⟩
      by_cases hgenerating : w.session.isGenerating d = true
      · simp only [if_neg hgenerator, if_pos hgenerating, apply_bind, apply_get, apply_throw]
        exact Or.inl ⟨_, rfl⟩
      by_cases hbound : (w.session.moduleOf? d).isSome = true
      · simp only [if_neg hgenerator, if_neg hgenerating, if_pos hbound, apply_bind, apply_get,
          apply_throw]
        exact Or.inl ⟨_, rfl⟩
      simp only [if_neg hgenerator, if_neg hgenerating, if_neg hbound, apply_bind, apply_get]
      exact Or.inr trivial

theorem Attempt.apply_cases {d : DefId} {step : Build σ ModuleId} (h : Attempt d step) (w : World σ) :
    (∃ e, step.apply w = (.error e, w)) ∨ ∃ depth, step.apply w = (materializeWithin depth d).apply w := by
  cases h with
  | materialize => exact .inr ⟨_, materialize_apply d w⟩
  | within depth => exact .inr ⟨depth, rfl⟩
  | generate => exact (generate_cases d w).imp_right fun hsame => ⟨_, hsame.trans (materialize_apply d w)⟩

theorem Attempt.makes {d : DefId} {step : Build σ ModuleId} (h : Attempt d step) {w : World σ}
    (hs : w.session.Coherent) : w.Makes d (step.apply w).1 (step.apply w).2 := by
  rcases h.apply_cases w with ⟨e, he⟩ | ⟨depth, hsame⟩
  · rw [he]
    exact makes_refused d e w
  · rw [hsame]
    exact materializeWithin_sound depth d w hs

end Build

/-! ### Moments -/

/-- The worlds in which a session of the given settings can be. -/
inductive Moment (config : Config) : World σ → Prop
  | start (workspace : Workspace σ) : Moment config ⟨workspace, .ofConfig config⟩
  /-- Definitions are made, and the host changes. -/
  | supply {w : World σ} (h : Moment config w) {workspace : Workspace σ}
      (grown : w.workspace.Extends workspace) : Moment config { w with workspace }
  /-- A module is asked for, whether it can be made or not. -/
  | make {w : World σ} (h : Moment config w) {d : DefId} {step : Build σ ModuleId}
      (attempt : Build.Attempt d step) : Moment config (step.apply w).2
  /-- An instance is requested from outside of any routine. -/
  | instantiate {w : World σ} (h : Moment config w) (request : InstanceRequest) :
      Moment config ((Build.instantiate request).apply w).2
  /-- A body is entered, and its routine begins. -/
  | prepare {w : World σ} (h : Moment config w) {d : DefId}
      (enters : ((Build.prepare d).apply w).1.isOk = true) :
      Moment config ((Build.prepare d).apply w).2
  /-- A request of the running routine is answered. -/
  | answer {w : World σ} (h : Moment config w) {frame : Frame} (runs : w.session.Runs frame)
      (depth : Nat) (outputs : List (Option Signal)) (request : Request) :
      Moment config ((Generation.answer (Build.materializeWithin depth) (Supply.call depth) frame
        request).apply ⟨w, outputs⟩).2.world

namespace Moment

variable {config : Config} {w w' : World σ}

/-! ### What holds at every moment -/

/-- At every moment tables, design and running generators agree. -/
theorem coherent (h : Moment config w) : w.session.Coherent := by
  induction h with
  | start workspace => exact Session.coherent_ofConfig config
  | supply h grown ih => exact ih
  | make h attempt ih => exact (attempt.makes ih).works.coherent ih
  | instantiate h request ih =>
      exact (Build.placeInstance_leads Build.materialize_sound request ih).state.coherent ih
  | prepare h enters ih =>
      obtain ⟨frame, routine, happly⟩ := Build.prepare_of_isOk enters
      obtain ⟨_, _, _, name, hopens⟩ := Build.prepare_opens happly
      exact ih.opens (hopens _ (refl_of Library.Extends _))
  | @answer w h frame runs depth outputs request ih =>
      have hanswer := Generation.answer_leads (Build.materializeWithin_sound depth)
        (Build.call_sound depth) frame request (r := ⟨_, outputs⟩) ih
      exact World.Works.coherent hanswer.state ih

/-- At every moment the modules have the ports of the modules made for their definitions. -/
theorem suited (h : Moment config w) : w.session.Suited w.workspace.library.catalog := by
  induction h with
  | start workspace => exact Session.suited_ofConfig config _
  | supply h grown ih => exact ih.mono fun _ _ => Library.Extends.suits grown
  | make h attempt ih => exact (attempt.makes h.coherent).works.suited h.coherent ih
  | instantiate h request ih =>
      exact (Build.placeInstance_leads Build.materialize_sound request h.coherent).state.suited
        h.coherent ih
  | prepare h enters ih =>
      obtain ⟨frame, routine, happly⟩ := Build.prepare_of_isOk enters
      obtain ⟨hworkspace, _, _, name, hopens⟩ := Build.prepare_opens happly
      rw [hworkspace]
      exact ih.opens (hopens _ (refl_of Library.Extends _))
  | @answer w h frame runs depth outputs request ih =>
      have hanswer := Generation.answer_leads (Build.materializeWithin_sound depth)
        (Build.call_sound depth) frame request (r := ⟨_, outputs⟩) h.coherent
      exact World.Works.suited hanswer.state h.coherent ih

theorem layered_of_works {l : Library σ} (h : w.Works w') (hs : w.session.Coherent)
    (hl : w'.workspace.library.Extends l) (hnone : w'.session.NoneImported l.IsImported)
    (ih : ∀ l, w.workspace.library.Extends l → w.session.NoneImported l.IsImported →
      w.session.Layered) : w'.session.Layered := by
  have hdoes := h.session l hl
  have hlayered := ih l (trans_of Library.Extends h.library hl)
    (hnone.mono hdoes.keeps.modules_suffix)
  exact hdoes.layered hs hlayered hnone

/-- At every moment modules instantiate finished modules below them, unless some are imported. -/
theorem layered (h : Moment config w) {l : Library σ} (hl : w.workspace.library.Extends l)
    (hnone : w.session.NoneImported l.IsImported) : w.session.Layered := by
  induction h generalizing l with
  | start workspace => exact Session.layered_ofConfig config
  | supply h grown ih => exact ih (trans_of Library.Extends grown hl) hnone
  | make h attempt ih =>
      exact layered_of_works (attempt.makes h.coherent).works h.coherent hl hnone fun _ => ih
  | instantiate h request ih =>
      have hplace := Build.placeInstance_leads Build.materialize_sound request h.coherent
      exact layered_of_works hplace.state h.coherent hl hnone fun _ => ih
  | prepare h enters ih =>
      obtain ⟨frame, routine, happly⟩ := Build.prepare_of_isOk enters
      obtain ⟨hworkspace, _, _, name, hopens⟩ := Build.prepare_opens happly
      rw [hworkspace] at hl
      have hopened := hopens l hl
      refine (ih hl (hnone.mono ?_)).opens h.coherent hopened
      rw [hopened.modules_eq]
      exact List.suffix_cons _ _
  | @answer w h frame runs depth outputs request ih =>
      have hanswer := Generation.answer_leads (Build.materializeWithin_sound depth)
        (Build.call_sound depth) frame request (r := ⟨_, outputs⟩) h.coherent
      exact layered_of_works hanswer.state h.coherent hl hnone fun _ => ih

/-! ### Running a routine -/

theorem runs_of_works {frame : Frame} (h : w.Works w') (hruns : w.session.Runs frame) :
    w'.session.Runs frame := by
  have hkeeps := (h.session _ (refl_of Library.Extends _)).keeps
  unfold Session.Runs
  rw [hkeeps.generating_eq, hkeeps.here?_eq]
  exact hruns

/-- A routine that runs at a moment leads, request by request, to a moment. -/
theorem run {α : Type} {frame : Frame} (routine : Routine σ α) (depth : Nat)
    (h : Moment config w) (hruns : w.session.Runs frame) (outputs : List (Option Signal)) :
    Moment config ((Generation.run (Build.materializeWithin depth) (Supply.call depth) frame
      routine).apply ⟨w, outputs⟩).2.world := by
  induction routine generalizing w outputs with
  | done outcome => exact h
  | ask request next ih =>
      have hanswer := Generation.answer_leads (Build.materializeWithin_sound depth)
        (Build.call_sound depth) frame request (r := ⟨w, outputs⟩) h.coherent
      exact ih _ (h.answer hruns depth outputs request) (runs_of_works hanswer.state hruns) _
  | host update next ih =>
      have hgrown : w.workspace.Extends { w.workspace with host := update w.workspace.host } :=
        refl_of Library.Extends w.workspace.library
      exact ih _ (h.supply hgrown) hruns outputs

end Moment

/-! ## Ending a body -/

/-- The end of a routine that has come to an outcome: the last operation of the body, unless it has failed. -/
def Generation.terminate (frame : Frame) (ended : Except BuildError Unit) : Generation σ Unit := do
  ofOutcome ended
  Generation.finish frame

namespace Build

/-- Ends the body of a routine that has come to an outcome and assigned its outputs: what
`Build.materializeWith` does once the routine has run. -/
def conclude (frame : Frame) (outputs : List (Option Signal)) (ended : Except BuildError Unit) :
    Build σ ModuleId := do
  let outcome ← attempt (ofApply fun world =>
    let (outcome, running) := (Generation.terminate frame ended).apply ⟨world, outputs⟩
    (outcome, running.world))
  leaveBody
  compile (Compile.stopGenerating frame.definition)
  match outcome with
  | .ok () => return frame.module
  | .error e =>
    compile (Compile.discardModule frame.definition (← nameOf frame.definition) frame.module)
    throw e

section conclude

variable {frame : Frame} {outputs : List (Option Signal)} {ended : Except BuildError Unit}
  {w : World σ}

theorem conclude_apply :
    (conclude frame outputs ended).apply w =
      match (Generation.terminate frame ended).apply ⟨w, outputs⟩ with
      | (.ok ⟨⟩, r) => (.ok frame.module, { r.world with session := r.world.session.leave frame.definition })
      | (.error e, r) => (do
          compile (Compile.discardModule frame.definition (← nameOf frame.definition) frame.module)
          throw e : Build σ ModuleId).apply
            { r.world with session := r.world.session.leave frame.definition } := by
  unfold conclude
  simp only [apply_bind, apply_attempt, apply_ofApply, leaveBody_apply, compile, apply_zoom,
    Compile.stopGenerating, apply_modify]
  rcases (Generation.terminate frame ended).apply ⟨w, outputs⟩ with ⟨_ | ⟨⟩, r⟩
  · simp only [apply_bind, apply_zoom]
    rfl
  · rfl

/-- The body is finished with the values of its outputs, or its module is taken out of the session. -/
theorem conclude_cases (outputs : List (Option Signal)) (ended : Except BuildError Unit)
    (here : w.session.here? = some frame.module) {definition : Definition (Routine σ Unit)}
    (hd : w.workspace.library.getDefinition frame.definition = .ok definition) :
    (∃ values design, w.session.design.Appends frame.module (.output values) design ∧
      (conclude frame outputs ended).apply w = (.ok frame.module,
        { w with session := Session.leave { w.session with design } frame.definition })) ∨
      ∃ e, (conclude frame outputs ended).apply w = (.error e,
        ⟨w.workspace, (w.session.leave frame.definition).drop frame.definition definition.name
          frame.module⟩) := by
  let left : World σ := { w with session := w.session.leave frame.definition }
  have hdiscard := discard_apply (α := ModuleId) (w := left) hd frame.module
  rw [conclude_apply]
  cases ended with
  | error e => exact Or.inr ⟨e, hdiscard e⟩
  | ok _ =>
      rw [show (Generation.terminate frame (.ok ⟨⟩)).apply ⟨w, outputs⟩ =
        (Generation.finish frame).apply ⟨w, outputs⟩ from rfl]
      rcases Generation.finish_cases frame ⟨w, outputs⟩ with
        ⟨e, he⟩ | ⟨parent, values, design, hparent, happ, hok⟩
      · rw [he]
        exact Or.inr ⟨e, hdiscard e⟩
      · rw [hok]
        obtain rfl := Option.some.inj (here.symm.trans hparent)
        exact Or.inl ⟨values, design, happ, rfl⟩

end conclude

/-- Once a body has been entered, materializing its definition means running the routine and ending the
body. -/
theorem materializeWith_eq_conclude (materialize : Materializer σ) (caller : Caller σ) {d : DefId}
    {w w' : World σ} {frame : Frame} {routine : Routine σ Unit}
    (h : (prepare d).apply w = (.ok (frame, routine), w')) {definition : Definition (Routine σ Unit)}
    (hd : w.workspace.library.getDefinition d = .ok definition) :
    (materializeWith materialize caller d).apply w =
      match (Generation.run materialize caller frame routine).apply
        ⟨w', List.replicate definition.table.outputCount none⟩ with
      | (ended, r) => (conclude frame r.outputs ended).apply r.world := by
  obtain ⟨hworkspace, hframe, _⟩ := prepare_opens h
  rw [materializeWith_of_prepare h]
  unfold execute
  simp only [apply_bind, apply_definition, hworkspace, hframe, hd, apply_ofApply]
  rcases (Generation.run materialize caller frame routine).apply ⟨w', _⟩ with ⟨e | ⟨⟩, r⟩
  · simp only [conclude_apply, Generation.terminate, apply_bind, apply_ofOutcome, hframe]
  · simp only [conclude_apply, Generation.terminate, apply_bind, apply_ofOutcome, hframe]
    rcases (Generation.finish frame).apply r with ⟨_ | ⟨⟩, r'⟩ <;> rfl

end Build

end Wirework
