import Wirework.Proofs.Engine.Running
import Wirework.Proofs.Session.Creation

/-! # How modules are made

Materializing a definition does to the session what `Session.Does` says about making a module
(`Build.materializeWithin_sound`), to any depth of nesting: the module is begun and entered, its routine runs, which
makes other modules one level deeper, and the body is left with success or failure.

The steps of the engine are taken apart from the inside out.  For each there is one lemma that lists how it may end,
and the next one is proved from it:

* **Ending a body**  (`finish_cases`, `execute_cases`): the last operation is appended, or nothing is.
* **Beginning a body**  (`enterBody_cases`): the body is entered, or the module is left without having been entered.
* **Filling a module**  (`fillModule_apply`, `fillModule_refused`): a module whose body could not be built is taken
  back.
* **Materializing**  (`materializeWith_cases`, `materializeWith_unbound`): it is refused at once, the module is found,
  or it is made and filled.

The depth of nesting is what the last induction is on; a routine may make modules of one depth less. -/

namespace Wirework

open Step

variable {σ : Type}

/-! ### Ending a body -/

namespace Generation

theorem finish_apply {frame : Frame} {r : Running σ} {d : Definition (Routine σ Unit)}
    (hd : r.world.workspace.library.getDefinition frame.definition = .ok d) :
    (finish frame).apply r = if (unconnected d r.outputs).isEmpty = true then
        (edit (Edit.output (r.outputs.filterMap id))).apply r
      else (.error (.unconnectedOutput d.name (unconnected d r.outputs)), r) := by
  unfold finish ownDefinition build Build.definition Build.supply Supply.ask
  simp only [apply_bind, apply_zoom, apply_query, apply_get, hd]
  by_cases hall : (unconnected d r.outputs).isEmpty = true
  · simp only [if_pos hall]
  · simp only [if_neg hall, apply_bind, apply_throw]

/-- The end of a routine appends the last operation, or is refused and changes nothing. -/
theorem finish_cases (frame : Frame) (r : Running σ) :
    (∃ e, (finish frame).apply r = (.error e, r)) ∨
      ∃ parent values design, r.world.session.here? = some parent ∧
        r.world.session.design.Appends parent (.output values) design ∧
        (finish frame).apply r = (.ok ⟨⟩, { r with world.session.design := design }) := by
  cases hd : r.world.workspace.library.getDefinition frame.definition with
  | error e =>
      refine Or.inl ⟨e, ?_⟩
      unfold finish ownDefinition build Build.definition Build.supply Supply.ask
      simp only [apply_bind, apply_zoom, apply_query, hd]
  | ok d =>
      rw [finish_apply hd]
      by_cases hall : (unconnected d r.outputs).isEmpty = true
      · simp only [if_pos hall, edit, build, Build.edit, Build.compile, Compile.edit, apply_zoom,
          apply_mapError]
        rcases Edit.output_cases (r.outputs.filterMap id) r.world.session.design with
          ⟨e, he⟩ | ⟨parent, design, here, happ, hok⟩
        · rw [he]
          exact Or.inl ⟨.ir e, rfl⟩
        · rw [hok]
          exact Or.inr ⟨parent, _, design, here, happ, rfl⟩
      · exact Or.inl ⟨.unconnectedOutput d.name (unconnected d r.outputs), if_neg hall⟩

end Generation

namespace Build

variable {materialize : Materializer σ} {caller : Caller σ}

/-- Running a routine and ending its body, or failing on the way. -/
theorem execute_cases (hm : materialize.Sound) (hc : caller.Sound) (frame : Frame)
    (routine : Routine σ Unit) {w : World σ} (hw : w.session.Coherent) :
    (∃ e w', (execute materialize caller frame routine).apply w = (.error e, w') ∧ w.Works w') ∨
      ∃ w' parent values design, w.Works w' ∧ w'.session.here? = some parent ∧
        w'.session.design.Appends parent (.output values) design ∧
        (execute materialize caller frame routine).apply w =
          (.ok ⟨⟩, { w' with session.design := design }) := by
  unfold execute
  simp only [apply_bind, apply_definition, apply_ofApply]
  cases w.workspace.library.getDefinition frame.definition with
  | error e => exact Or.inl ⟨e, w, rfl, refl_of World.Works w⟩
  | ok d =>
      simp only
      have hleads := Generation.run_leads hm hc frame routine
        (r := ⟨w, List.replicate d.table.outputCount none⟩) hw
      have hworks := hleads.state
      rcases hrun : (Generation.run materialize caller frame routine).apply
        ⟨w, List.replicate d.table.outputCount none⟩ with ⟨e | a, r⟩
      · rw [hrun] at hworks
        exact Or.inl ⟨e, r.world, rfl, hworks⟩
      · rw [hrun] at hworks
        simp only
        rcases Generation.finish_cases frame r with ⟨e, he⟩ | ⟨parent, values, design, hrest⟩
        · rw [he]
          exact Or.inl ⟨e, r.world, rfl, hworks⟩
        · obtain ⟨here, happ, hok⟩ := hrest
          rw [hok]
          exact Or.inr ⟨r.world, parent, values, design, hworks, here, happ, rfl⟩

/-! ### Beginning a body -/

theorem not_imported_of_begun {definition : Definition (Routine σ Unit)} {m : HwModule}
    (h : Compile.InsertsAs definition m) (hm : m.kind = .generated none) :
    definition.isImported = false := by
  rcases h.kind with ⟨hsettled, _⟩ | ⟨_, himported, _⟩
  · unfold HwModule.IsSettled HwModule.isExternal HwModule.isComplete HwModule.body? at hsettled
    rw [hm] at hsettled
    rcases hsettled with h | h <;> cases h
  · exact himported

theorem pushInsertionPoint_apply {d : Design} {id : ModuleId} {m : HwModule} {body : Body}
    (hm : d.module? id = some m) (hbody : m.body? = some body) :
    (Edit.pushInsertionPoint id).apply d = (.ok ⟨⟩, { d with scopes := { d.scopes with
      insertionPoints := id :: d.scopes.insertionPoints } }) := by
  unfold Edit.pushInsertionPoint Edit.modifyScopes
  simp only [apply_bind, apply_query, Design.getModule_eq_ok_iff.mpr hm, hbody, Option.isNone_some,
    Bool.false_eq_true, if_false, apply_modify]

section enter

variable {s : Session} {d : DefId} {name : String} {m : HwModule} {design : Design}
  {entry : ManifestEntry} {definition : Definition (Routine σ Unit)}

/-- The session in which the body of a new module is about to be begun. -/
def started (s : Session) (d : DefId) (m : HwModule) (design : Design) (entry : ManifestEntry) :
    Session :=
  { s.enroll d m design entry with generating := d :: s.generating }

theorem fits_beginBody (fits : s.Fits name m design entry) :
    s.Fits name { m with kind := .generated (some { arguments := design.nextValues m.inputs.length }) }
      (design.beginBody s.design.nextModule m) entry :=
  ⟨fits.takes.begin rfl rfl rfl rfl, fits.symbol_eq, fits.valid, fits.entry_eq⟩

/-- The body of a module that has none yet is begun; it is entered unless the clock of the module has no block
argument. -/
theorem enterBody_apply (workspace : Workspace σ)
    (hd : workspace.library.getDefinition d = .ok definition) {generator : Generator (Routine σ Unit)}
    (hgenerator : definition.generator? = some generator) (fits : s.Fits name m design entry)
    (hkind : m.kind = .generated none) :
    let arguments := design.nextValues m.inputs.length
    let m' := { m with kind := .generated (some { arguments }) }
    let design' := design.beginBody s.design.nextModule m
    (enterBody d s.design.nextModule).apply ⟨workspace, started s d m design entry⟩ =
      match implicitClock definition arguments with
      | .error e => (.error e, ⟨workspace, started s d m' design' entry⟩)
      | .ok clock => (.ok (⟨d, s.design.nextModule, arguments⟩, generator.routine),
          ⟨workspace, (s.enroll d m' design' entry).enter d s.design.nextModule generator.location clock⟩) := by
  intro arguments m' design'
  have hbegin := Edit.addEntryBlock_apply fits.takes.module?_next hkind
  have hdesign : (started s d m design entry).design = design := rfl
  have hpush := pushInsertionPoint_apply (fits_beginBody fits).takes.module?_next rfl
  unfold enterBody
  simp only [apply_bind, apply_definition, hd, hgenerator, edit, compile, Compile.edit, apply_zoom,
    apply_mapError, hdesign, hbegin, Except.mapError, apply_ofOutcome]
  cases hclock : implicitClock definition arguments with
  | error e => rfl
  | ok clock =>
      simp only [Compile.pushBlock, apply_modify, apply_attempt, apply_zoom, apply_mapError, hpush,
        Edit.pushLocation, Edit.pushClock, Edit.modifyScopes, Except.mapError, apply_bind, apply_pure]
      rfl

/-- Without a generator, or if the design has no place for it, a body is not begun; otherwise its module has none
yet. -/
theorem enterBody_begins (workspace : Workspace σ) (hd : workspace.library.getDefinition d = .ok definition)
    (fits : s.Fits name m design entry) :
    (∃ e, (e = .noGenerator definition.name ∨ ∃ refused, e = .ir refused) ∧
        (enterBody d s.design.nextModule).apply ⟨workspace, started s d m design entry⟩ =
          (.error e, ⟨workspace, started s d m design entry⟩)) ∨
      ∃ generator, definition.generator? = some generator ∧ m.kind = .generated none := by
  have hdesign : (started s d m design entry).design = design := rfl
  cases hgenerator : definition.generator? with
  | none =>
      refine Or.inl ⟨.noGenerator definition.name, Or.inl rfl, ?_⟩
      unfold enterBody
      simp only [apply_bind, apply_definition, hd, hgenerator, apply_throw]
  | some generator =>
      rcases Edit.addEntryBlock_cases s.design.nextModule design with ⟨e, he⟩ | ⟨m₀, hm₀, hkind, -⟩
      · refine Or.inl ⟨.ir e, Or.inr ⟨e, rfl⟩, ?_⟩
        unfold enterBody
        simp only [apply_bind, apply_definition, hd, hgenerator, edit, compile, Compile.edit, apply_zoom,
          apply_mapError, hdesign, he]
        rfl
      · obtain rfl := Option.some.inj (fits.takes.module?_next.symm.trans hm₀)
        exact Or.inr ⟨generator, rfl, hkind⟩

/-- The body of a new module is entered, or the module is left without having been entered. -/
theorem enterBody_cases (workspace : Workspace σ)
    (hd : workspace.library.getDefinition d = .ok definition)
    (fits : s.Fits name m design entry) (has : Compile.InsertsAs definition m) :
    (∃ e m' design', s.Fits name m' design' entry ∧
        (enterBody d s.design.nextModule).apply ⟨workspace, started s d m design entry⟩ =
          (.error e, ⟨workspace, started s d m' design' entry⟩)) ∨
      ∃ generator arguments m' design' location clock, definition.generator? = some generator ∧
        definition.isImported = false ∧ s.Fits name m' design' entry ∧
        m'.body? = some { arguments } ∧ definition.Suits m' ∧
        implicitClock definition arguments = .ok clock ∧
        (enterBody d s.design.nextModule).apply ⟨workspace, started s d m design entry⟩ =
          (.ok (⟨d, s.design.nextModule, arguments⟩, generator.routine),
            ⟨workspace, (s.enroll d m' design' entry).enter d s.design.nextModule location clock⟩) := by
  rcases enterBody_begins workspace hd fits with ⟨e, -, he⟩ | ⟨generator, hgenerator, hkind⟩
  · exact Or.inl ⟨e, m, design, fits, he⟩
  · have fits' := fits_beginBody fits
    have happly := enterBody_apply workspace hd hgenerator fits hkind
    cases hclock : implicitClock definition (design.nextValues m.inputs.length) with
    | error e =>
        simp only [hclock] at happly
        exact Or.inl ⟨e, _, _, fits', happly⟩
    | ok clock =>
        simp only [hclock] at happly
        exact Or.inr ⟨generator, _, _, _, generator.location, clock, hgenerator, not_imported_of_begun has hkind, fits',
          rfl, ⟨has.suits.inputs, has.suits.outputs⟩, hclock, happly⟩

end enter

theorem leaveBody_apply (w : World σ) :
    leaveBody.apply w = (.ok ⟨⟩, { w with session := { w.session with
      design.scopes := w.session.design.scopes.leave
      blocks := w.session.blocks.tail } }) := by
  unfold leaveBody
  simp only [apply_bind, apply_discard, edit, compile, Compile.edit, apply_zoom, apply_mapError,
    Edit.popClock, Edit.popLocation, Edit.popInsertionPoint, Edit.modifyScopes, apply_get,
    apply_modify, apply_pure, Except.mapError, Except.map, Compile.popBlock]
  rfl

/-! ### Filling a module -/

section fill

variable {materialize : Materializer σ} {caller : Caller σ} {s : Session} {d : DefId}
  {m : HwModule} {design : Design} {entry : ManifestEntry} {definition : Definition (Routine σ Unit)}

theorem nameOf_apply {w : World σ} (hd : w.workspace.library.getDefinition d = .ok definition) :
    (nameOf d).apply w = (.ok definition.name, w) := by
  unfold nameOf
  simp only [apply_bind, apply_definition, hd, apply_pure]

theorem generateBody_apply (id : ModuleId) (w : World σ) :
    (generateBody materialize caller d id).apply w =
      match (enterBody d id).apply w with
      | (.error e, w₁) => (.error e, w₁)
      | (.ok (frame, routine), w₁) =>
        let (outcome, w₂) := (execute materialize caller frame routine).apply w₁
        (outcome, { w₂ with session := { w₂.session with
          design.scopes := w₂.session.design.scopes.leave
          blocks := w₂.session.blocks.tail } }) := by
  unfold generateBody
  simp only [apply_bind, apply_attempt, leaveBody_apply, apply_ofOutcome]
  rcases (enterBody d id).apply w with ⟨_ | _, _⟩ <;> rfl

/-- Filling a module: building its body and, if that fails, taking the module out of the session. -/
theorem fillModule_apply (id : ModuleId) (w : World σ) :
    (fillModule materialize caller d id).apply w =
      match (generateBody materialize caller d id).apply
        { w with session := { w.session with generating := d :: w.session.generating } } with
      | (.ok ⟨⟩, w') => (.ok ⟨⟩, { w' with session := { w'.session with
          generating := w'.session.generating.filter (· ≠ d) } })
      | (.error e, w') => (do
          compile (Compile.discardModule d (← nameOf d) id)
          throw e : Build σ Unit).apply { w' with session := { w'.session with
            generating := w'.session.generating.filter (· ≠ d) } } := by
  unfold fillModule
  simp only [apply_bind, compile, apply_zoom, Compile.startGenerating, Compile.stopGenerating,
    apply_modify, apply_attempt]
  rcases (generateBody materialize caller d id).apply
    { w with session := { w.session with generating := d :: w.session.generating } } with
    ⟨_ | ⟨⟩, _⟩ <;> simp only [apply_pure, apply_bind, apply_zoom]

theorem discard_apply {α : Type} {w : World σ} (hd : w.workspace.library.getDefinition d = .ok definition)
    (id : ModuleId) (e : BuildError) :
    (do
      compile (Compile.discardModule d (← nameOf d) id)
      throw e : Build σ α).apply w =
      (.error e, { w with session := w.session.drop d definition.name id }) := by
  simp only [apply_bind, nameOf_apply hd, compile, apply_zoom, Compile.discardModule_apply,
    apply_throw]

theorem fillModule_refused (idle : d ∉ s.generating) {workspace : Workspace σ}
    (hd : workspace.library.getDefinition d = .ok definition) {e : BuildError} {m' : HwModule} {design' : Design}
    (hrefused : (enterBody d s.design.nextModule).apply ⟨workspace, started s d m design entry⟩ =
      (.error e, ⟨workspace, started s d m' design' entry⟩)) :
    (fillModule materialize caller d s.design.nextModule).apply ⟨workspace, s.enroll d m design entry⟩ =
      (.error e, ⟨workspace, (s.enroll d m' design' entry).drop d definition.name s.design.nextModule⟩) := by
  have hstart : ({ s.enroll d m design entry with
      generating := d :: (s.enroll d m design entry).generating } : Session) =
      started s d m design entry := rfl
  have hstop : (started s d m' design' entry).generating.filter (· ≠ d) = s.generating :=
    Session.filter_idle idle
  rw [fillModule_apply, generateBody_apply]
  simp only [hstart, hrefused, hstop]
  exact discard_apply (w := ⟨workspace, s.enroll d m' design' entry⟩) hd _ e

theorem fillModule_makes (hm : materialize.Sound) (hc : caller.Sound) (hs : s.Coherent)
    (idle : d ∉ s.generating) (unbound : s.moduleOf? d = none) (workspace : Workspace σ)
    (hd : workspace.library.getDefinition d = .ok definition)
    (fits : s.Fits definition.name m design entry) (has : Compile.InsertsAs definition m) :
    ∃ outcome w', (fillModule materialize caller d s.design.nextModule).apply
        ⟨workspace, s.enroll d m design entry⟩ = (outcome, w') ∧
      World.Makes d (outcome.map fun _ => s.design.nextModule) ⟨workspace, s⟩ w' := by
  have hstart : ({ s.enroll d m design entry with
      generating := d :: (s.enroll d m design entry).generating } : Session) =
      started s d m design entry := rfl
  rcases enterBody_cases workspace hd fits has with
    ⟨e, m', design', fits', he⟩ |
    ⟨generator, arguments, m', design', location, clock, hgenerator, himported, fits', hbody, hsuits,
      hclock, hok⟩
  · -- The body could not be entered, and its module is the only thing to be taken back.
    obtain ⟨design'', warnings, htakes, hdrop⟩ := Session.drop_enroll hs unbound fits' definition.name
    refine ⟨.error e, ⟨workspace, { s with design := design'', warnings }⟩, ?_,
      refl_of Workspace.Extends workspace, fun l _ name _ => .spoilt d name htakes warnings⟩
    rw [fillModule_refused idle hd he, hdrop]
  · rw [fillModule_apply, generateBody_apply]
    simp only [hstart, hok]
    let s₁ := (s.enroll d m' design' entry).enter d s.design.nextModule location clock
    have hopens : ∀ l, workspace.library.Extends l → s.Opens l.catalog d definition.name s₁ := by
      intro l hl
      refine .intro idle unbound ?_ fits' hbody (hl.catalog_suits hd hsuits) location clock
        (hl.clocks hd hclock)
      exact fun h => Bool.false_ne_true (himported.symm.trans ((hl.isImported_iff hd).mp h))
    have hs₁ : s₁.Coherent := hs.opens (hopens _ (refl_of Library.Extends _))
    rcases execute_cases hm hc ⟨d, s.design.nextModule, arguments⟩ generator.routine
      (w := ⟨workspace, s₁⟩) hs₁ with
      ⟨e, w₂, hexecute, hworks⟩ | ⟨w₂, parent, values, design₂, hworks, here, happ, hexecute⟩
    · obtain ⟨definition₂, hd₂, _⟩ := hworks.library d definition hd
      rw [hexecute]
      refine ⟨.error e, ⟨w₂.workspace, (w₂.session.leave d).drop d definition₂.name
        s.design.nextModule⟩, ?_, hworks.library, fun l hl name hname => ?_⟩
      · exact discard_apply (w := ⟨w₂.workspace, w₂.session.leave d⟩) hd₂ _ e
      · have hl₀ := trans_of Library.Extends hworks.library hl
        obtain rfl := hname definition hd
        exact .discarded (hopens l hl₀) (hworks.session l hl) definition₂.name
    · rw [hexecute]
      refine ⟨.ok ⟨⟩, ⟨w₂.workspace, Session.leave { w₂.session with design := design₂ } d⟩, rfl,
        hworks.library, fun l hl name hname => ?_⟩
      have hl₀ := trans_of Library.Extends hworks.library hl
      have hparent : parent = s.design.nextModule := by
        have hkept := (hworks.session l hl).keeps.here?_eq.trans (hopens l hl₀).here?_eq
        exact Option.some.inj (here.symm.trans hkept)
      obtain rfl := hname definition hd
      exact .generated (hopens l hl₀) (hworks.session l hl) (hparent ▸ happ)

end fill

/-! ### Materializing -/

section materialize

variable {materialize : Materializer σ} {caller : Caller σ} {d : DefId}

theorem makes_refused (d : DefId) (e : BuildError) (w : World σ) : w.Makes d (.error e) w :=
  ⟨refl_of Workspace.Extends w.workspace, fun _ _ name _ => .refused d name⟩

section unbound

variable (materialize caller) {w : World σ} {definition : Definition (Routine σ Unit)}

/-- Materializing a definition is refused at once, or its module is found, or the definition has no module yet. -/
theorem materializeWith_cases (d : DefId) (w : World σ) :
    (∃ e, (materializeWith materialize caller d).apply w = (.error e, w)) ∨
      (∃ id, d ∉ w.session.generating ∧ w.session.moduleOf? d = some id ∧
        (materializeWith materialize caller d).apply w = (.ok id, w)) ∨
      ∃ definition, w.workspace.library.getDefinition d = .ok definition ∧ d ∉ w.session.generating ∧
        w.session.moduleOf? d = none := by
  unfold materializeWith
  simp only [apply_bind, apply_definition]
  cases hd : w.workspace.library.getDefinition d with
  | error e => exact .inl ⟨e, rfl⟩
  | ok definition =>
      simp only [apply_get]
      by_cases hgenerating : w.session.isGenerating d = true
      · simp only [if_pos hgenerating, apply_bind, apply_throw]
        exact .inl ⟨_, rfl⟩
      simp only [if_neg hgenerating]
      have idle := mt Session.isGenerating_iff.mpr hgenerating
      cases hbound : w.session.moduleOf? d with
      | some id => exact .inr (.inl ⟨id, idle, rfl, rfl⟩)
      | none => exact .inr (.inr ⟨definition, rfl, idle, rfl⟩)

/-- Materializing a definition that has no module yet: the module is made and, if there is a generator, filled. -/
theorem materializeWith_unbound (hd : w.workspace.library.getDefinition d = .ok definition)
    (idle : d ∉ w.session.generating) (unbound : w.session.moduleOf? d = none) :
    (materializeWith materialize caller d).apply w =
      match (Compile.createModule definition).apply w.session with
      | (.error e, s) => (.error e, { w with session := s })
      | (.ok id, s) =>
        let bound : World σ := { w with session := { s with modules := (d, id) :: s.modules } }
        if definition.generator?.isSome then
          match (fillModule materialize caller d id).apply bound with
          | (.ok ⟨⟩, w') => (.ok id, w')
          | (.error e, w') => (.error e, w')
        else (.ok id, bound) := by
  have hidle := Session.isGenerating_eq_false_iff.mpr idle
  unfold materializeWith
  simp only [apply_bind, apply_definition, hd, apply_get, hidle, Bool.false_eq_true, if_false, unbound, compile,
    apply_zoom]
  rcases (Compile.createModule definition).apply w.session with ⟨e | id, s⟩
  · rfl
  · simp only [Compile.bindModule, apply_modify]
    by_cases hgenerator : definition.generator?.isSome = true
    · simp only [if_pos hgenerator, apply_bind]
      rcases (fillModule materialize caller d id).apply _ with ⟨e | ⟨⟩, w'⟩ <;> rfl
    · simp only [if_neg hgenerator, apply_pure]

end unbound

/-- Materializing is sound if it is so for the definitions that routines instantiate. -/
theorem materializeWith_sound (hm : materialize.Sound) (hc : caller.Sound) :
    (materializeWith materialize caller).Sound := by
  intro d w hs
  have hkept := refl_of Workspace.Extends w.workspace
  rcases materializeWith_cases materialize caller d w with
    ⟨e, he⟩ | ⟨id, idle, hbound, hok⟩ | ⟨definition, hd, idle, unbound⟩
  · rw [he]
    exact makes_refused d e w
  · rw [hok]
    exact ⟨hkept, fun _ _ name _ => .known name idle hbound⟩
  rw [materializeWith_unbound materialize caller hd idle unbound]
  rcases Compile.createModule_cases definition w.session with
    ⟨e, design, he, hdesign⟩ | ⟨m, design, entry, fits, has, hentry, hok⟩
  · rw [he]
    refine ⟨hkept, fun _ _ name _ => ?_⟩
    rcases hdesign with rfl | htakes
    · exact .refused d name
    · exact .spoilt d name htakes w.session.warnings
  simp only [hok]
  by_cases hgenerator : definition.generator?.isSome = true
  · rw [if_pos hgenerator]
    obtain ⟨outcome, w', hfill, hmakes⟩ := fillModule_makes hm hc hs idle unbound w.workspace hd fits has
    unfold Session.enroll at hfill
    rw [hfill]
    cases outcome with
    | error e => exact hmakes
    | ok _ => exact hmakes
  · rw [if_neg hgenerator]
    refine ⟨hkept, fun l hl name hname => ?_⟩
    obtain rfl := hname definition hd
    obtain ⟨hsuits, ⟨hsettled, hcopied, _⟩ | ⟨_, _, hsome⟩, hdeclares⟩ := has
    · refine .leaf idle unbound fits hsettled (hcopied.imp_left (hl.isImported_iff hd).mpr)
        (hl.catalog_suits hd hsuits) fun declared hdeclared => hl.declares hd ?_
      rw [hentry]
      exact hdeclares declared hdeclared
    · exact absurd hsome hgenerator

end materialize

theorem call_sound (depth : Nat) : Caller.Sound (Supply.call depth : Caller σ) :=
  Supply.call_leads depth

/-- Materializing definitions is sound, however deep generations nest. -/
theorem materializeWithin_sound (depth : Nat) :
    Materializer.Sound (materializeWithin depth : Materializer σ) := by
  induction depth with
  | zero => exact fun d w _ => makes_refused d _ w
  | succ depth ih => exact materializeWith_sound ih (call_sound depth)

end Build

end Wirework
