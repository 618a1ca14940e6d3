import Wirework.Proofs.Design.Emission
import Wirework.Proofs.Engine.Moments
import Wirework.Proofs.Session.Agreement

/-! # What the engine guarantees

Four guarantees, for every moment of a session and for every attempt to make a module, whatever routines run and fail
in it.

* The tables of the session agree (`tables_agree`).
* The hierarchy is sound unless modules are imported (`hierarchy_sound`): modules instantiate settled modules only,
  and the design can be written at any time.
* A failed attempt is undone (`failed_attempt_undone`), whatever other attempts have failed within it.
* The scopes and the bodies there were are restored (`attempt_restores_scopes`).

The first two are read off what holds of a session at every moment, the last two off what an attempt may do and what
it leaves alone.  Three definitions of which each instantiates the next serve as a sample: the loose one fails while
the careful one is being built. -/

namespace Wirework

variable {σ : Type}

/-! ### Sample definitions -/

namespace Sample

/-- A module that passes its input on. -/
def wireSpec : DefinitionSpec (Routine σ Unit) where
  name := "Wire"
  declarations := [
    ("a", .plainInput (.bits 1)),
    ("y", .output (.bits 1)),
    ("build", .generator (do Routine.set "y" (.signal (← Routine.input "a"))) .unknown)]

/-- A module that places an instance and leaves its output unassigned. -/
def looseSpec (wire : DefId) : DefinitionSpec (Routine σ Unit) where
  name := "Loose"
  declarations := [
    ("y", .output (.bits 1)),
    ("build", .generator (do
      discard (Routine.instantiate { definition := wire, bindings := [("a", .literal 1)] })) .unknown)]

/-- A module that goes on after a failure, with a constant in place of the missing signal. -/
def carefulSpec (loose : DefId) : DefinitionSpec (Routine σ Unit) where
  name := "Careful"
  declarations := [
    ("y", .output (.bits 1)),
    ("build", .generator (do
      discard (Program.attempt (Routine.instantiate { definition := loose }))
      Routine.set "y" (.literal 0)) .unknown)]

/-- The three definitions, each instantiated by the next one. -/
def workspace : Workspace Unit :=
  ((do
    let wire ← Supply.define wireSpec
    let loose ← Supply.define (looseSpec wire)
    Supply.define (carefulSpec loose) : Supply Unit DefId).apply ⟨{}, ()⟩).2

/-- The world in which the routine of the careful module begins. -/
def world : World Unit :=
  ((Build.prepare ⟨2⟩).apply ⟨workspace, .ofConfig {}⟩).2

theorem moment_world : Moment {} world :=
  (Moment.start workspace).prepare (by decide +kernel)

/-- The careful module has been given an instance of the wire. -/
def wiredWorld : World Unit :=
  ((Build.instantiate { definition := ⟨0⟩, bindings := [("a", .literal 1)] }).apply world).2

/-- The loose module has failed after that. -/
def failedWorld : World Unit :=
  ((Build.materializeWithin 3 ⟨1⟩).apply wiredWorld).2

theorem moment_failedWorld : Moment {} failedWorld :=
  (moment_world.instantiate _).make (.within 3)

end Sample

/-! ### Agreement of the tables -/

section guarantees

variable {config : Config} {w : World σ}

/-- At every moment the tables of the session agree with each other and with the design. -/
theorem tables_agree (h : Moment config w) : w.session.TablesAgree :=
  h.coherent.tablesAgree

/-- The loose module has failed with the instance in it, and the instance in the careful module, which is still
being built, has stayed. -/
theorem tables_agree_after_failure :
    ((Build.materializeWithin 3 ⟨1⟩).apply Sample.wiredWorld).1 = .error (.unconnectedOutput "Loose" ["y"]) ∧
      Sample.failedWorld.session.modules = [(⟨0⟩, ⟨1⟩), (⟨2⟩, ⟨0⟩)] ∧
      Sample.failedWorld.session.instances = [⟨⟨0⟩, "Wire", ⟨1⟩, ⟨0⟩, ⟨2⟩⟩] ∧
      Sample.failedWorld.session.TablesAgree :=
  ⟨by decide +kernel, by decide +kernel, by decide +kernel, tables_agree Sample.moment_failedWorld⟩

/-! ### Soundness of the hierarchy -/

/-- Modules instantiate settled modules only, and the design can be written at any time. -/
structure Session.HierarchySound (s : Session) : Prop where
  /-- Every instance in a body is one of a live module that is external or complete. -/
  instances : ∀ id m body o op c name inputs parameters, s.design.module? id = some m →
    m.body? = some body → o ∈ body.ops → s.design.op? o = some op →
      op.operation = .instantiate c name inputs parameters →
        ∃ callee, s.design.module? c = some callee ∧ callee.IsSettled
  /-- No module instantiates itself, directly or through others. -/
  acyclic : ∀ id, ¬ Relation.TransGen s.design.Instantiates id id
  written : ∃ text, s.text = .ok text
  /-- Unless generators are running, every live module is external or complete. -/
  settled : s.generating = [] → ∀ id m, s.design.module? id = some m → m.IsSettled

/-- At every moment of a session without modules of imported definitions the hierarchy is sound. -/
theorem hierarchy_sound (h : Moment config w)
    (hnone : w.session.NoneImported w.workspace.library.IsImported) : w.session.HierarchySound := by
  have hs := h.coherent
  have hlayered := h.layered (refl_of Library.Extends _) hnone
  obtain ⟨rank, hrank⟩ := hlayered.ranked
  have hranked : ∀ a b, w.session.design.Instantiates a b → rank b < rank a := by
    rintro a b ⟨m, hm, hb⟩
    exact hrank a m hm b hb
  constructor
  case instances =>
    intro id m body o op c name inputs parameters hm hbody ho hop hoperation
    have hc : c ∈ w.session.design.callees m :=
      Design.mem_callees.mpr ⟨body, o, op, hbody, ho, hop, by rw [hoperation]; rfl⟩
    obtain ⟨⟨callee, hcallee⟩, hfinished⟩ := hlayered.finished id m hm c hc
    exact ⟨callee, hcallee, hs.stacked.settled c callee hcallee hfinished⟩
  case acyclic => exact Design.acyclic_of_ranked hranked
  case written =>
    refine Design.text_of_ranked ?_ hranked
    rintro a b ⟨m, hm, hb⟩
    exact (hlayered.finished a m hm b hb).1
  case settled =>
    intro hidle id m hm
    refine hs.stacked.settled id m hm ?_
    have hpoints : w.session.points = [] := by
      have hlength := hs.stacked.running.length_eq
      rw [hidle] at hlength
      exact List.eq_nil_of_length_eq_zero hlength.symm
    rw [hpoints]
    exact List.not_mem_nil

/-- The careful module is still being built, and holds an instance of the wire, when the loose module has failed. -/
theorem hierarchy_sound_after_failure :
    Sample.failedWorld.session.generating = [⟨2⟩] ∧
      (Sample.failedWorld.session.design.module? ⟨0⟩).map Sample.failedWorld.session.design.callees = some [⟨1⟩] ∧
      Sample.failedWorld.session.HierarchySound := by
  refine ⟨by decide +kernel, by decide +kernel, hierarchy_sound Sample.moment_failedWorld ?_⟩
  exact fun d id _ => Library.not_isImported (by decide +kernel) d

/-! ### Failed attempts -/

/-- The module is as it was, with the operations in its body. -/
def Session.BodyKept (s s' : Session) (id : ModuleId) (m : HwModule) : Prop :=
  s'.design.module? id = some m ∧
    ∀ body, m.body? = some body → ∀ o ∈ body.ops, s'.design.op? o = s.design.op? o

/-- Nothing refers to the module. -/
structure Session.Forgotten (s : Session) (id : ModuleId) : Prop where
  module : s.design.module? id = none
  record : s.record? id = none
  instances : ∀ r ∈ s.instances, r.parent ≠ id ∧ r.module ≠ id

/-- The world `w'` after an attempt to make the module of a definition in the world `w` has failed. -/
structure World.Undoes (d : DefId) (w w' : World σ) : Prop where
  /-- The definition has no module, unless it had one. -/
  definition : w'.session.moduleOf? d = w.session.moduleOf? d
  /-- Live modules are still live, with the same symbol, signature and body. -/
  kept : ∀ id m, w.session.design.module? id = some m → w.session.BodyKept w'.session id m
  /-- The module begun by the attempt is gone. -/
  forgotten : ∀ definition id s, w.workspace.library.getDefinition d = .ok definition →
    (Compile.createModule definition).apply w.session = (.ok id, s) → w'.session.Forgotten id
  /-- The symbol reserved by the attempt is free. -/
  symbol_free : ∀ definition symbol, w.workspace.library.getDefinition d = .ok definition →
    ((Compile.reserveSymbol definition.name).apply w.session).1 = .ok symbol →
      w'.session.symbols.contains symbol = false
  /-- Modules that have been added are settled and belong to other definitions. -/
  others : ∀ id m, w'.session.design.module? id = some m → w.session.design.module? id = none →
    (m.isExternal = true ∨ m.isComplete = true) ∧
      ∃ d', d' ≠ d ∧ w'.session.moduleOf? d' = some id

theorem Session.Coherent.forgotten {s : Session} (h : s.Coherent) {id : ModuleId}
    (hid : ¬ s.design.IsLive id) : s.Forgotten id where
  module := by
    cases hm : s.design.module? id with
    | none => rfl
    | some m => exact absurd ⟨m, hm⟩ hid
  record := by
    cases hrecord : s.record? id with
    | none => rfl
    | some entry => exact absurd ((h.tablesAgree.records_keys id).mp ⟨entry, hrecord⟩) hid
  instances r hr := by
    obtain ⟨hcallee, ⟨m, _, hparent, _⟩, _⟩ := (h.placed r hr).1
    refine ⟨?_, ?_⟩
    · rintro rfl
      exact hid ⟨m, hparent⟩
    · rintro rfl
      exact hid hcallee

/-- A failed attempt to make the module of a definition is undone, whatever other attempts have failed
within it. -/
theorem failed_attempt_undone (h : Moment config w) {d : DefId} {step : Build σ ModuleId}
    (attempt : Build.Attempt d step) {e : BuildError} (failed : (step.apply w).1 = .error e) :
    w.Undoes d (step.apply w).2 := by
  have hs := h.coherent
  obtain ⟨name, hname, hdoes⟩ := (attempt.makes hs).does
  rw [failed] at hdoes
  have hs' := hdoes.coherent hs
  obtain ⟨hdefinition, hdead, hsymbol⟩ := hdoes.failed
  constructor
  case definition => exact hdefinition
  case kept => exact fun id m hm => hdoes.keeps.body_kept hs hm (Option.some_ne_none id)
  case forgotten =>
    intro definition id s hd hcreate
    rcases Compile.createModule_cases definition w.session with
      ⟨e, _, he, _⟩ | ⟨_, _, _, _, _, _, hok⟩
    · rw [he] at hcreate
      cases hcreate
    · rw [hok] at hcreate
      obtain rfl := Except.ok.inj (Prod.mk.inj hcreate).1
      exact hs'.forgotten hdead
  case symbol_free =>
    intro definition symbol hd hreserve
    obtain rfl := hname definition hd
    obtain rfl : (w.session.symbols.uniquify definition.name).1 = symbol := Except.ok.inj hreserve
    unfold NameScope.contains
    simpa using hsymbol
  case others =>
    intro id m hm hnone
    refine hdoes.failed_others hs hm ?_
    rintro ⟨m', hm'⟩
    rw [hnone] at hm'
    cases hm'

/-- The loose module fails, after having placed an instance of the wire and while the careful module is
being built. -/
theorem failed_attempt_undone_in_routine :
    ((Build.materializeWithin 3 ⟨1⟩).apply Sample.world).1 =
        .error (.unconnectedOutput "Loose" ["y"]) ∧
      Sample.world.Undoes ⟨1⟩ ((Build.materializeWithin 3 ⟨1⟩).apply Sample.world).2 := by
  have hfailed : ((Build.materializeWithin 3 ⟨1⟩).apply Sample.world).1 =
      .error (.unconnectedOutput "Loose" ["y"]) := by decide +kernel
  exact ⟨hfailed, failed_attempt_undone Sample.moment_world (.within 3) hfailed⟩

/-! ### Scopes and bodies -/

/-- Scopes, running generators and bodies are as they were. -/
structure Session.Restores (s s' : Session) : Prop where
  insertionPoints : s'.design.scopes.insertionPoints = s.design.scopes.insertionPoints
  locations : s'.design.scopes.locations = s.design.scopes.locations
  clocks : s'.design.scopes.clocks = s.design.scopes.clocks
  /-- The scopes of instance names, with the names in use in each. -/
  blocks : s'.blocks = s.blocks
  generating : s'.generating = s.generating
  bodies : ∀ id m, s.design.module? id = some m → s.BodyKept s' id m

/-- An attempt to make a module restores scopes, running generators and the bodies there were, whether it
succeeds or fails. -/
theorem attempt_restores_scopes (h : Moment config w) {d : DefId} {step : Build σ ModuleId}
    (attempt : Build.Attempt d step) : w.session.Restores (step.apply w).2.session := by
  have hs := h.coherent
  obtain ⟨name, _, hdoes⟩ := (attempt.makes hs).does
  have hkeeps := hdoes.keeps
  constructor
  case insertionPoints => rw [hkeeps.scopes_eq]
  case locations => rw [hkeeps.scopes_eq]
  case clocks => rw [hkeeps.scopes_eq]
  case blocks => exact hkeeps.blocks_eq
  case generating => exact hkeeps.generating_eq
  case bodies => exact fun id m hm => hdoes.keeps.body_kept hs hm (Option.some_ne_none id)

/-- The careful module is being built in scopes of its own, which the failure of the loose module within it
leaves in place. -/
theorem attempt_restores_scopes_in_routine :
    Sample.world.session.generating = [⟨2⟩] ∧ Sample.world.session.blocks.length = 1 ∧
      Sample.world.session.Restores
        ((Build.materializeWithin 3 ⟨1⟩).apply Sample.world).2.session :=
  ⟨by decide +kernel, by decide +kernel,
    attempt_restores_scopes Sample.moment_world (.within 3)⟩

end guarantees

end Wirework
