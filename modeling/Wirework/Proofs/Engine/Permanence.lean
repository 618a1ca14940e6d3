import Mathlib.Logic.Relation
import Wirework.Proofs.Engine.Moments
import Wirework.Proofs.Engine.Guarantees
import Wirework.Proofs.Session.Moves
import Wirework.Proofs.Session.Outcomes

/-! # Finished modules stay

Once a definition has been materialized its module is there for good (`materialized_permanent`): whatever is
materialized, generated or placed later, and whether it succeeds or fails, materializing the definition answers with
the same module and does nothing else, and the module and the operations in its body are as they were.

A session goes on by single steps (`World.Advances`), from outside as well as within nested generators, whose bodies
may end in any way; so what has been materialized deep within a generator that fails later is covered.  Every step
changes at most the module that is being built and modules that are new (`World.Advances.persists`), and a finished
module is neither, however often the generators around it come and go.

A course of such steps is one of single changes of the tables, none of which contains another (`World.Becomes.goes`).
What every such change preserves therefore holds at every point of a session that has begun without modules
(`World.Becomes.induct`); the modules on clocks, on names, on numbers and on declared parameters start from there. -/

namespace Wirework

open Step

variable {σ : Type}

/-! ### Steps of a session -/

/-- A session goes on by one step. -/
inductive World.Advances : World σ → World σ → Prop
  /-- Definitions are made, and the host changes. -/
  | supply {w : World σ} {workspace : Workspace σ} (grown : w.workspace.Extends workspace) :
      Advances w { w with workspace }
  /-- A module is asked for, whether it can be made or not. -/
  | make {w : World σ} {d : DefId} {step : Build σ ModuleId} (attempt : Build.Attempt d step) :
      Advances w (step.apply w).2
  /-- An instance is requested from outside of any routine. -/
  | instantiate {w : World σ} (request : InstanceRequest) :
      Advances w ((Build.instantiate request).apply w).2
  /-- A body is entered, and its routine begins. -/
  | prepare {w w' : World σ} {d : DefId} {frame : Frame} {routine : Routine σ Unit}
      (enters : (Build.prepare d).apply w = (.ok (frame, routine), w')) : Advances w w'
  /-- A request of the running routine is answered. -/
  | answer {w : World σ} {frame : Frame} (runs : w.session.Runs frame) (depth : Nat)
      (outputs : List (Option Signal)) (request : Request) :
      Advances w ((Generation.answer (Build.materializeWithin depth) (Supply.call depth) frame
        request).apply ⟨w, outputs⟩).2.world
  /-- The running routine ends, and its module is finished or taken out of the session. -/
  | conclude {w : World σ} {frame : Frame} (runs : w.session.Runs frame)
      (outputs : List (Option Signal)) (ended : Except BuildError Unit) :
      Advances w ((Build.conclude frame outputs ended).apply w).2

/-- The session has gone on by any number of steps. -/
abbrev World.Becomes : World σ → World σ → Prop :=
  Relation.ReflTransGen World.Advances

/-- The session is coherent, and the definitions whose generators run are known. -/
structure World.Regular (w : World σ) : Prop where
  coherent : w.session.Coherent
  defined : ∀ d ∈ w.session.generating, ∃ definition, w.workspace.library.getDefinition d = .ok definition

/-- The module was made for the definition, and it is as it was in the session `s`. -/
structure Session.Persists (d : DefId) (id : ModuleId) (m : HwModule) (s s' : Session) : Prop where
  made : s'.MadeFor d id
  kept : s.BodyKept s' id m

namespace Session

variable {d e : DefId} {id j : ModuleId} {m : HwModule} {s s' s'' : Session}

theorem Persists.trans (h : Persists d id m s s') (h' : Persists d id m s' s'') : Persists d id m s s'' :=
  ⟨h'.made, h'.kept.1, fun body hbody o ho =>
    (h'.kept.2 body hbody o ho).trans (h.kept.2 body hbody o ho)⟩

theorem BodyKept.congr (hm : s.design.module? id = some m)
    (hmodule : s'.design.module? id = s.design.module? id) (hops : s'.design.ops = s.design.ops) :
    s.BodyKept s' id m :=
  ⟨hmodule.trans hm, fun _ _ o _ => by unfold Design.op?; rw [hops]⟩

/-! ### Single steps -/

/-- A change that binds modules only to other definitions leaves a finished module alone. -/
theorem Keeps.persists {own : Option ModuleId} {depth : Nat} (h : Keeps own depth s s') (hs : s.Coherent)
    (hs' : s'.Coherent) (made : s.MadeFor d id) (hm : s.design.module? id = some m)
    (hne : some id ≠ own) : Persists d id m s s' where
  made := by
    refine ⟨hs'.moduleOf?_eq_some_iff.mpr ?_, ?_⟩
    · exact h.modules_suffix.subset (hs.moduleOf?_eq_some_iff.mp made.1)
    · rw [h.generating_eq]
      exact made.2
  kept := h.body_kept hs hm hne

/-- So does entering the body of a new module. -/
theorem Opens.persists {catalog : Catalog} {name : String} (h : s.Opens catalog e name s')
    (hs : s.Coherent) (made : s.MadeFor d id) (hm : s.design.module? id = some m) : Persists d id m s s' := by
  have hunbound := h.unbound
  have hne : d ≠ e := by
    rintro rfl
    cases made.1.symm.trans hunbound
  constructor
  case made =>
    refine ⟨?_, ?_⟩
    · unfold moduleOf?
      rw [h.modules_eq, List.lookup_cons, beq_eq_false_iff_ne.mpr hne]
      exact made.1
    · rw [h.generating_eq]
      exact List.not_mem_cons_of_ne_of_not_mem hne made.2
  case kept =>
    cases h with
    | intro idle unbound original fits begun suits location clock =>
        refine ⟨(fits.takes.module?_old id (Design.IsLive.ne_nextModule ⟨m, hm⟩)).trans hm, ?_⟩
        intro body hbody o ho
        obtain ⟨op, hop, _⟩ := hs.owned.inside id m body hm hbody o ho
        rw [hop]
        exact fits.takes.op_old o op hop

theorem persists_leave (made : s.MadeFor d id) (hm : s.design.module? id = some m) :
    Persists d id m s (s.leave e) :=
  ⟨⟨made.1, fun hmem => made.2 (List.mem_of_mem_filter hmem)⟩, .congr hm rfl rfl⟩

theorem persists_drop (name : String) (made : s.MadeFor d id) (hm : s.design.module? id = some m)
    (hd : d ≠ e) (hid : id ≠ j) : Persists d id m s (s.drop e name j) := by
  constructor
  case made =>
    exact ⟨(lookup_filter_ne hd).trans made.1, made.2⟩
  case kept =>
    refine .congr hm ?_ rfl
    rw [module?_drop, if_neg hid]

theorem Runs.exists_outer {frame : Frame} (runs : s.Runs frame) :
    ∃ ds ids, s.generating = frame.definition :: ds ∧ s.points = frame.module :: ids := by
  obtain ⟨hd, hid⟩ := runs
  obtain ⟨ds, hds⟩ := List.head?_eq_some_iff.mp hd
  obtain ⟨ids, hids⟩ := List.head?_eq_some_iff.mp hid
  exact ⟨ds, ids, hds, hids⟩

end Session

namespace World

variable {w w' : World σ}

theorem Works.regular (h : w.Works w') (hw : w.Regular) : w'.Regular where
  coherent := h.coherent hw.coherent
  defined d hd := by
    rw [(h.session _ (refl_of Library.Extends _)).keeps.generating_eq] at hd
    obtain ⟨definition, hfound⟩ := hw.defined d hd
    obtain ⟨definition', hfound', _⟩ := h.library d definition hfound
    exact ⟨definition', hfound'⟩

/-- Works of a body, whichever it is, leave finished modules alone: the body is still being built. -/
theorem Works.persists (h : w.Works w') (hs : w.session.Coherent) {d : DefId} {id : ModuleId} {m : HwModule}
    (made : w.session.MadeFor d id) (hm : w.session.design.module? id = some m) :
    w.session.Persists d id m w'.session := by
  have hdoes := h.session _ (refl_of Library.Extends _)
  refine hdoes.keeps.persists hs (h.coherent hs) made hm fun here => ?_
  exact hs.not_mem_points made.made (Session.Coherent.mem_of_here? here.symm)

/-- Leaving the body of the running routine: it is finished, or its module is taken out of the session. -/
inductive Leaves (frame : Frame) (w : World σ) : World σ → Prop
  | finished {values : List ValueId} {design : Design}
      (ends : w.session.design.Appends frame.module (.output values) design) :
      Leaves frame w ⟨w.workspace, Session.leave { w.session with design } frame.definition⟩
  | discarded (name : String) :
      Leaves frame w
        ⟨w.workspace, (w.session.leave frame.definition).drop frame.definition name frame.module⟩

theorem Leaves.coherent {frame : Frame} (h : w.Leaves frame w') (hs : w.session.Coherent)
    (runs : w.session.Runs frame) : w'.session.Coherent := by
  obtain ⟨ds, ids, hds, hids⟩ := runs.exists_outer
  cases h with
  | finished ends => exact hs.finish hds hids ends
  | discarded name => exact hs.drop hds hids name

/-- Leaving a body leaves finished modules alone: the module that is left is another one, made for a definition whose
generator is running. -/
theorem Leaves.persists {frame : Frame} (h : w.Leaves frame w') (hs : w.session.Coherent)
    (runs : w.session.Runs frame) {d : DefId} {id : ModuleId} {m : HwModule} (made : w.session.MadeFor d id)
    (hm : w.session.design.module? id = some m) : w.session.Persists d id m w'.session := by
  obtain ⟨ds, ids, hds, hids⟩ := runs.exists_outer
  have hd : d ≠ frame.definition := by
    rintro rfl
    exact made.2 (by rw [hds]; exact List.mem_cons_self)
  have hid : id ≠ frame.module := by
    rintro rfl
    exact hs.not_mem_points made.made (by rw [hids]; exact List.mem_cons_self)
  cases h with
  | @finished values design ends =>
      have hkept := (Session.keeps_of_appends ends 1).body_kept hs hm fun he => hid (Option.some.inj he)
      have happended : Session.Persists d id m w.session { w.session with design } := ⟨made, hkept⟩
      exact happended.trans (Session.persists_leave made hkept.1)
  | discarded name =>
      have hleft := Session.persists_leave (e := frame.definition) made hm
      exact hleft.trans (Session.persists_drop name hleft.made hleft.kept.1 hd hid)

end World

theorem Build.conclude_leaves {frame : Frame} {w : World σ} (here : w.session.here? = some frame.module)
    {definition : Definition (Routine σ Unit)}
    (hd : w.workspace.library.getDefinition frame.definition = .ok definition) (outputs : List (Option Signal))
    (ended : Except BuildError Unit) : w.Leaves frame ((conclude frame outputs ended).apply w).2 := by
  rcases conclude_cases outputs ended here hd with ⟨values, design, ends, hok⟩ | ⟨e, he⟩
  · rw [hok]
    exact .finished ends
  · rw [he]
    exact .discarded definition.name

namespace World

variable {w w' : World σ}

/-- What a step does: it goes on with the body that is being built, or enters a body, or leaves one. -/
theorem Advances.cases (h : w.Advances w') (hw : w.Regular) :
    w.Works w' ∨
      (w'.workspace = w.workspace ∧ ∃ d definition name,
        w.workspace.library.getDefinition d = .ok definition ∧
          ∀ l, w.workspace.library.Extends l → w.session.Opens l.catalog d name w'.session) ∨
      ∃ frame, w.session.Runs frame ∧ w.Leaves frame w' := by
  cases h with
  | supply grown => exact Or.inl ⟨grown, fun _ _ => .rest w.session⟩
  | make attempt => exact Or.inl (attempt.makes hw.coherent).works
  | instantiate request =>
      exact Or.inl (Build.placeInstance_leads Build.materialize_sound request hw.coherent).state
  | @answer frame runs depth outputs request =>
      have hanswer := Generation.answer_leads (Build.materializeWithin_sound depth)
        (Build.call_sound depth) frame request (r := ⟨w, outputs⟩) hw.coherent
      exact Or.inl hanswer.state
  | @prepare _ d frame routine enters =>
      obtain ⟨definition, _, _, _, hd, _⟩ := Build.prepare_cases enters
      obtain ⟨hworkspace, _, _, name, hopens⟩ := Build.prepare_opens enters
      exact Or.inr (Or.inl ⟨hworkspace, d, definition, name, hd, hopens⟩)
  | @conclude frame runs outputs ended =>
      obtain ⟨ds, ids, hds, hids⟩ := runs.exists_outer
      obtain ⟨definition, hd⟩ := hw.defined frame.definition (by rw [hds]; exact List.mem_cons_self)
      exact Or.inr (Or.inr ⟨frame, runs, Build.conclude_leaves runs.2 hd outputs ended⟩)

theorem Advances.library (h : w.Advances w') (hw : w.Regular) : w.workspace.Extends w'.workspace := by
  rcases h.cases hw with hworks | ⟨hworkspace, -⟩ | ⟨frame, -, hleaves⟩
  · exact hworks.library
  · rw [hworkspace]
    exact refl_of Workspace.Extends w.workspace
  · cases hleaves <;> exact refl_of Workspace.Extends w.workspace

theorem Advances.regular (h : w.Advances w') (hw : w.Regular) : w'.Regular := by
  have hs := hw.coherent
  rcases h.cases hw with hworks | ⟨hworkspace, d, definition, name, hd, hopens⟩ | ⟨frame, runs, hleaves⟩
  · exact hworks.regular hw
  · have hopens := hopens _ (refl_of Library.Extends _)
    refine ⟨hs.opens hopens, fun e he => ?_⟩
    rw [hopens.generating_eq] at he
    rw [hworkspace]
    rcases List.mem_cons.mp he with rfl | he
    · exact ⟨definition, hd⟩
    · exact hw.defined e he
  · refine ⟨hleaves.coherent hs runs, fun e he => ?_⟩
    cases hleaves <;> exact hw.defined e (List.mem_of_mem_filter he)

/-- A step leaves finished modules alone. -/
theorem Advances.persists (h : w.Advances w') (hw : w.Regular) {d : DefId} {id : ModuleId} {m : HwModule}
    (made : w.session.MadeFor d id) (hm : w.session.design.module? id = some m) :
    w.session.Persists d id m w'.session := by
  have hs := hw.coherent
  rcases h.cases hw with hworks | ⟨-, e, _, name, -, hopens⟩ | ⟨frame, runs, hleaves⟩
  · exact hworks.persists hs made hm
  · exact (hopens _ (refl_of Library.Extends _)).persists hs made hm
  · exact hleaves.persists hs runs made hm

/-! ### Courses of steps -/

theorem Becomes.regular (h : w.Becomes w') (hw : w.Regular) : w'.Regular := by
  induction h with
  | refl => exact hw
  | tail _ hstep ih => exact hstep.regular ih

theorem Becomes.library (h : w.Becomes w') (hw : w.Regular) : w.workspace.Extends w'.workspace := by
  induction h with
  | refl => exact refl_of Workspace.Extends w.workspace
  | tail hsteps hstep ih =>
      exact trans_of Workspace.Extends ih (hstep.library (Becomes.regular hsteps hw))

/-- However a session goes on, finished modules are left alone. -/
theorem Becomes.persists (h : w.Becomes w') (hw : w.Regular) {d : DefId} {id : ModuleId} {m : HwModule}
    (made : w.session.MadeFor d id) (hm : w.session.design.module? id = some m) :
    w.session.Persists d id m w'.session := by
  induction h with
  | refl => exact ⟨made, .congr hm rfl rfl⟩
  | tail hsteps hstep ih =>
      exact ih.trans (hstep.persists (Becomes.regular hsteps hw) ih.made ih.kept.1)

/-- A routine runs step by step. -/
theorem becomes_run {frame : Frame} (routine : Routine σ Unit) (depth : Nat) (hw : w.Regular)
    (runs : w.session.Runs frame) (outputs : List (Option Signal)) :
    w.Becomes ((Generation.run (Build.materializeWithin depth) (Supply.call depth) frame routine).apply
      ⟨w, outputs⟩).2.world := by
  induction routine generalizing w outputs with
  | done outcome => exact .refl
  | ask request next ih =>
      have hanswer := Generation.answer_leads (Build.materializeWithin_sound depth)
        (Build.call_sound depth) frame request (r := ⟨w, outputs⟩) hw.coherent
      exact .head (.answer runs depth outputs request)
        (ih _ (Works.regular hanswer.state hw) (Moment.runs_of_works hanswer.state runs) _)
  | host update next ih =>
      let workspace : Workspace σ := { w.workspace with host := update w.workspace.host }
      have hgrown : w.workspace.Extends workspace := refl_of Library.Extends w.workspace.library
      exact .head (.supply hgrown)
        (ih w.workspace.host (w := ⟨workspace, w.session⟩) ⟨hw.coherent, hw.defined⟩ runs outputs)

/-- Materializing a definition whose body can be entered takes single steps: the body is entered, the requests
of the routine are answered one after another, and the body is left. -/
theorem becomes_materialize {d : DefId} {frame : Frame} {routine : Routine σ Unit} (hw : w.Regular)
    (enters : (Build.prepare d).apply w = (.ok (frame, routine), w')) (depth : Nat) :
    ∃ w₂, w.Advances w' ∧ w'.Becomes w₂ ∧
      w₂.Advances ((Build.materializeWithin (depth + 1) d).apply w).2 := by
  have henter : w.Advances w' := .prepare enters
  have runs := Build.prepare_runs enters
  obtain ⟨definition, _, _, _, hd, _⟩ := Build.prepare_cases enters
  have hmaterialize := Build.materializeWith_eq_conclude
    (Build.materializeWithin depth) (Supply.call depth) enters hd
  let outputs : List (Option Signal) := List.replicate definition.table.outputCount none
  have hsteps := becomes_run routine depth (henter.regular hw) runs outputs
  have hworks := (Generation.run_leads (Build.materializeWithin_sound depth) (Build.call_sound depth) frame
    routine (r := ⟨w', outputs⟩) (henter.regular hw).coherent).state
  have hlast : ((Build.materializeWithin (depth + 1) d).apply w).2 =
      ((Build.materializeWith (Build.materializeWithin depth) (Supply.call depth) d).apply w).2 := rfl
  rw [hlast, hmaterialize]
  exact ⟨_, henter, hsteps, .conclude (Moment.runs_of_works hworks runs) _ _⟩

end World

/-! ### Permanence -/

namespace Build

variable {d : DefId} {id : ModuleId} {w : World σ} {definition : Definition (Routine σ Unit)}

theorem materializeWithin_of_made (made : w.session.MadeFor d id)
    (hd : w.workspace.library.getDefinition d = .ok definition) (depth : Nat) :
    (materializeWithin (depth + 1) d).apply w = (.ok id, w) := by
  have hidle := Session.isGenerating_eq_false_iff.mpr made.2
  unfold materializeWithin materializeWith
  simp only [apply_bind, apply_definition, hd, apply_get, hidle, Bool.false_eq_true, if_false, made.1,
    apply_pure]

theorem materialize_of_made (made : w.session.MadeFor d id)
    (hd : w.workspace.library.getDefinition d = .ok definition) :
    (materialize d).apply w = (.ok id, w) := by
  rw [materialize_apply]
  exact materializeWithin_of_made made hd (w.workspace.library.definitions.size + 4095)

theorem generate_of_made (made : w.session.MadeFor d id)
    (hd : w.workspace.library.getDefinition d = .ok definition)
    (hgenerator : definition.generator?.isSome = true) :
    (generate d).apply w = (.error (.alreadyGenerated definition.name), w) := by
  have hidle := Session.isGenerating_eq_false_iff.mpr made.2
  have hnone : definition.generator?.isNone = false := by
    rw [← Option.not_isSome, hgenerator]
    rfl
  unfold generate
  simp only [apply_bind, apply_definition, hd, hnone, Bool.false_eq_true, if_false, apply_get, hidle, made.1,
    Option.isSome_some, if_true, apply_throw]

theorem definition_of_materializeWithin {depth : Nat}
    (made : ((materializeWithin depth d).apply w).1 = .ok id) :
    ∃ definition, w.workspace.library.getDefinition d = .ok definition := by
  cases depth with
  | zero => cases made
  | succ depth =>
      unfold materializeWithin materializeWith at made
      simp only [apply_bind, apply_definition] at made
      cases hd : w.workspace.library.getDefinition d with
      | error e =>
          rw [hd] at made
          cases made
      | ok definition => exact ⟨definition, rfl⟩

theorem Attempt.exists_definition {step : Build σ ModuleId} (attempt : Attempt d step)
    (made : (step.apply w).1 = .ok id) :
    ∃ definition, w.workspace.library.getDefinition d = .ok definition := by
  rcases attempt.apply_cases w with ⟨e, he⟩ | ⟨depth, hsame⟩
  · rw [he] at made
    cases made
  · rw [hsame] at made
    exact definition_of_materializeWithin made

end Build

/-- The world `w'` has the module that was made for the definition in the world `w`. -/
structure World.Permanent (d : DefId) (id : ModuleId) (w w' : World σ) : Prop where
  /-- Materializing the definition answers with the module and does nothing. -/
  materialize : (Build.materialize d).apply w' = (.ok id, w')
  /-- So do instances, at any depth. -/
  within : ∀ depth, (Build.materializeWithin (depth + 1) d).apply w' = (.ok id, w')
  /-- A generator is not run again. -/
  generate : ∀ definition, w'.workspace.library.getDefinition d = .ok definition →
    definition.generator?.isSome = true →
      (Build.generate d).apply w' = (.error (.alreadyGenerated definition.name), w')
  /-- The module is live, with the symbol, ports, attributes and body it had, -/
  module : ∃ m, w.session.design.module? id = some m ∧ w'.session.design.module? id = some m
  /-- and so are the operations of its body, with their operands, results and attributes. -/
  operations : ∀ m body, w.session.design.module? id = some m → m.body? = some body → ∀ o ∈ body.ops,
    ∃ op, w.session.design.op? o = some op ∧ w'.session.design.op? o = some op

/-- **Materialized modules are permanent.**  In every session, once a definition has been materialized, its
module is what it is answered with for good, and neither the module nor its body ever changes, whatever the
session does from then on. -/
theorem materialized_permanent {config : Config} {workspace : Workspace σ} {w w' : World σ} {d : DefId}
    {id : ModuleId} {step : Build σ ModuleId} (before : World.Becomes ⟨workspace, .ofConfig config⟩ w)
    (attempt : Build.Attempt d step) (made : (step.apply w).1 = .ok id)
    (after : World.Becomes (step.apply w).2 w') : World.Permanent d id (step.apply w).2 w' := by
  have hstart : World.Regular (σ := σ) ⟨workspace, .ofConfig config⟩ :=
    ⟨Session.coherent_ofConfig config, fun d hd => absurd hd List.not_mem_nil⟩
  have hw := before.regular hstart
  have hw₁ := World.Advances.regular (.make attempt) hw
  -- The attempt has made the module of the definition.
  obtain ⟨_, _, hdoes⟩ := (attempt.makes hw.coherent).does
  rw [made] at hdoes
  have hmade := hdoes.madeFor hw.coherent
  obtain ⟨m, hm⟩ := hw₁.coherent.isLive_of_made hmade.made
  obtain ⟨hmade', hkept, hops⟩ := after.persists hw₁ hmade hm
  obtain ⟨definition, hd⟩ := attempt.exists_definition made
  obtain ⟨definition₁, hd₁, _⟩ := (attempt.makes hw.coherent).library d definition hd
  obtain ⟨definition', hd', _⟩ := after.library hw₁ d definition₁ hd₁
  constructor
  case materialize => exact Build.materialize_of_made hmade' hd'
  case within => exact Build.materializeWithin_of_made hmade' hd'
  case generate => exact fun found hfound => Build.generate_of_made hmade' hfound
  case module => exact ⟨m, hm, hkept⟩
  case operations =>
    intro m' body hm' hbody o ho
    obtain rfl := Option.some.inj (hm.symm.trans hm')
    obtain ⟨op, hop, _⟩ := hw₁.coherent.owned.inside id m body hm hbody o ho
    exact ⟨op, hop, (hops body hbody o ho).trans hop⟩

namespace Sample

/-- The careful module has materialized the wire. -/
def wired : World Unit :=
  ((Build.materializeWithin 3 ⟨0⟩).apply world).2

/-- Then the loose module has failed within the careful one, and the careful one as well. -/
def abandoned : World Unit :=
  ((Build.conclude ⟨⟨2⟩, ⟨0⟩, []⟩ [none] (.ok ⟨⟩)).apply ((Build.materializeWithin 3 ⟨1⟩).apply wired).2).2

end Sample

/-- The module of the wire is all that is left of the careful module, and it is permanent. -/
theorem materialized_permanent_wire :
    ((Build.materializeWithin 3 ⟨0⟩).apply Sample.world).1 = .ok ⟨1⟩ ∧
      Sample.abandoned.session.modules = [(⟨0⟩, ⟨1⟩)] ∧
      World.Permanent ⟨0⟩ ⟨1⟩ Sample.wired Sample.abandoned := by
  have hmade : ((Build.materializeWithin 3 ⟨0⟩).apply Sample.world).1 = .ok ⟨1⟩ := by decide +kernel
  have hruns : ((Build.materializeWithin 3 ⟨1⟩).apply Sample.wired).2.session.Runs ⟨⟨2⟩, ⟨0⟩, []⟩ := by
    unfold Session.Runs
    decide +kernel
  obtain ⟨frame, routine, hprepare⟩ := Build.prepare_of_isOk
    (d := ⟨2⟩) (w := ⟨Sample.workspace, .ofConfig {}⟩) (by decide +kernel)
  refine ⟨hmade, by decide +kernel, ?_⟩
  exact materialized_permanent (.single (.prepare hprepare)) (.within 3) hmade
    (.tail (.single (.make (.within 3))) (.conclude hruns _ _))

/-! ## Courses as single changes -/

namespace World

variable {σ : Type} {w w' : World σ}

theorem regular_start (workspace : Workspace σ) (config : Config) :
    Regular ⟨workspace, .ofConfig config⟩ :=
  ⟨Session.coherent_ofConfig config, fun _ hd => absurd hd List.not_mem_nil⟩

theorem Advances.goes (h : w.Advances w') (hw : w.Regular) {l : Library σ}
    (hl : w'.workspace.library.Extends l) : Session.Goes l.catalog w.session w'.session := by
  rcases h.cases hw with hworks | ⟨hworkspace, d, definition, name, hd, hopens⟩ | ⟨frame, runs, hleaves⟩
  · exact (hworks.session l hl).goes
  · rw [hworkspace] at hl
    exact .single (.enter (hopens l hl))
  · obtain ⟨ds, ids, hds, hids⟩ := runs.exists_outer
    cases hleaves with
    | finished ends => exact .single (.finish hds hids ends)
    | discarded name => exact .single (.discard hds hids name)

/-- However a session goes on, it goes on by single changes. -/
theorem Becomes.goes (h : w.Becomes w') (hw : w.Regular) {l : Library σ}
    (hl : w'.workspace.library.Extends l) : Session.Goes l.catalog w.session w'.session := by
  induction h with
  | refl => exact .refl
  | tail hsteps hstep ih =>
      have hregular := Becomes.regular hsteps hw
      have hextends : Library.Extends _ l := trans_of Library.Extends (hstep.library hregular) hl
      exact (ih hextends).trans (hstep.goes hregular hl)

/-- What holds of a session without modules and is preserved by every change holds at every point of a
session. -/
theorem Becomes.induct {config : Config} {workspace : Workspace σ} {I : Session → Prop}
    (h : World.Becomes ⟨workspace, .ofConfig config⟩ w) (first : I (.ofConfig config))
    (step : ∀ s s', s.Coherent → I s → s.Moves w.workspace.library.catalog s' → I s') :
    w.session.Coherent ∧ I w.session :=
  (h.goes (regular_start workspace config) (refl_of Library.Extends _)).induct
    (Session.coherent_ofConfig config) first step

theorem Becomes.config_eq {config : Config} {workspace : Workspace σ}
    (h : World.Becomes ⟨workspace, .ofConfig config⟩ w) : w.session.config = config :=
  (h.induct (I := fun s => s.config = config) rfl fun _ _ _ hconfig hmoves => hmoves.config_eq.trans hconfig).2

theorem Becomes.hasBlock {config : Config} {workspace : Workspace σ}
    (h : World.Becomes ⟨workspace, .ofConfig config⟩ w) {frame : Frame} (runs : w.session.Runs frame) :
    w.session.hasBlock = true := by
  obtain ⟨-, hlength⟩ := h.induct (I := fun s => s.blocks.length = s.points.length) rfl
    fun _ _ _ hs hmoves => hmoves.blocks_length hs
  obtain ⟨_, _, -, hids⟩ := runs.exists_outer
  rw [hids, List.length_cons] at hlength
  unfold Session.hasBlock
  cases hblocks : w.session.blocks with
  | nil =>
      rw [hblocks] at hlength
      cases hlength
  | cons block outer => rfl

/-- However a session goes on, its modules have headers that suit their definitions. -/
theorem Becomes.suited (h : w.Becomes w') (hw : w.Regular)
    (hsuited : w.session.Suited w.workspace.library.catalog) :
    w'.session.Suited w'.workspace.library.catalog := by
  induction h with
  | refl => exact hsuited
  | @tail w₁ w₂ hsteps hstep ih =>
      have hregular := Becomes.regular hsteps hw
      have hs := hregular.coherent
      rcases hstep.cases hregular with hworks | ⟨hworkspace, d, _, name, -, hopens⟩ | ⟨frame, runs, hleaves⟩
      · exact hworks.suited hs ih
      · rw [hworkspace]
        exact ih.opens (hopens _ (refl_of Library.Extends _))
      · obtain ⟨ds, ids, hds, hids⟩ := runs.exists_outer
        cases hleaves with
        | finished ends => exact ih.keeps (List.Subset.refl _) (Session.keeps_of_appends ends 1).header?_eq
        | discarded name =>
            have hrunning := hs.stacked.running
            rw [hds, hids] at hrunning
            exact ih.discard hs (List.forall₂_cons.mp hrunning).1 name

end World

end Wirework
