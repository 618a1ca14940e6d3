import Wirework.Proofs.Engine.Permanence
import Wirework.Proofs.Session.Clocking

/-! # The clocks of registers

A register takes the clock in scope, and a body may be built within others that have clocks, between generations that
end well or badly.  All the same, the registers of a module have the clock of its definition and no other
(`registers_use_own_clock`): the block argument of the only input in the role of a clock, if there is a single one
(`implicitClock_of_sole`).  A module without such an input, or with several, has no registers, and any register its
routine asks for is refused (`register_refused`).

For modules that have been made this is read off the clocks of bodies, which every change of a session keeps apart;
for a routine that runs, the clock in scope is that of the body it builds (`clock_of_runs`).  The sample has a module
without a clock built, and failing, within one that has a clock. -/

namespace Wirework

open Step

variable {σ : Type}

theorem Generation.edit_refused {α : Type} {step : Edit α} {w : World σ} {e : IrError}
    (h : step.apply w.session.design = (.error e, w.session.design)) (outputs : List (Option Signal)) :
    (Generation.edit step).apply ⟨w, outputs⟩ = (.error (.ir e), ⟨w, outputs⟩) := by
  unfold Generation.edit Generation.build
  simp only [apply_zoom, Build.edit_apply_error h]

namespace Build

section clock

variable {ρ : Type} {definition : Definition ρ} {arguments : List ValueId} {clock : Option Clock}

/-- The clock of a body is the block argument of the only input in the role of a clock. -/
theorem implicitClock_of_sole (hscanned : definition.Scanned)
    (h : implicitClock definition arguments = .ok clock) {port : PortSpec} {i : Nat}
    (sole : definition.interface.inRole .clock = [port]) (hport : definition.inputs[i]? = some port) :
    ∃ value, arguments[i]? = some value ∧ clock = some ⟨value⟩ := by
  have hclocks : definition.interface.clocks = [port.name] := by
    unfold Interface.clocks Interface.roleNames
    rw [sole, List.map_singleton, List.mergeSort_singleton]
  have hinput : definition.input? port.name = some port :=
    hscanned.input?_eq_some_iff.mpr ⟨List.mem_of_getElem? hport, rfl⟩
  unfold implicitClock at h
  simp only [hclocks, hinput, hscanned.index_of_input hport] at h
  cases hvalue : arguments[i]? with
  | none =>
      rw [hvalue] at h
      cases h
  | some value =>
      rw [hvalue] at h
      exact ⟨value, rfl, (Except.ok.inj h).symm⟩

theorem implicitClock_of_not_sole (h : implicitClock definition arguments = .ok clock)
    (unclear : (definition.interface.inRole .clock).length ≠ 1) : clock = none := by
  have hlength : definition.interface.clocks.length ≠ 1 := by
    unfold Interface.clocks Interface.roleNames
    rwa [List.length_mergeSort, List.length_map]
  unfold implicitClock at h
  split at h
  case h_1 hclocks => exact absurd (congrArg List.length hclocks) hlength
  case h_2 => exact (Except.ok.inj h).symm

end clock

theorem register_refused {frame : Frame} {materialize : Materializer σ} {caller : Caller σ} {w : World σ}
    (hclock : w.session.design.scopes.clock? = none) (outputs : List (Option Signal)) (input : Signal) :
    (Generation.answer materialize caller frame (.register input)).apply ⟨w, outputs⟩ =
      (.error (.ir .noAmbientClock), ⟨w, outputs⟩) := by
  have hregister : (Edit.register input).apply w.session.design =
      (.error .noAmbientClock, w.session.design) := by
    unfold Edit.register
    simp only [apply_bind, apply_get, hclock, apply_throw]
  exact Generation.edit_refused hregister outputs

end Build

/-- Some register in the body of the module has the clock; the body has the given block arguments. -/
def Design.Registers (d : Design) (id : ModuleId) (arguments : List ValueId) (clock : ValueId) : Prop :=
  ∃ m body o op input, d.module? id = some m ∧ m.body? = some body ∧ body.arguments = arguments ∧
    o ∈ body.ops ∧ d.op? o = some op ∧ op.operation = .register input clock

/-- Registers in the module of the definition have the clock of the definition. -/
structure World.ClocksOwn (w : World σ) (d : DefId) (definition : Definition (Routine σ Unit)) : Prop where
  /-- If there is exactly one clock, it is the block argument at the position of the port. -/
  sole : ∀ (port : PortSpec) (i : Nat), definition.interface.inRole .clock = [port] →
    definition.inputs[i]? = some port →
      ∀ (id : ModuleId) (arguments : List ValueId) (clock : ValueId), w.session.moduleOf? d = some id →
        w.session.design.Registers id arguments clock → arguments[i]? = some clock
  /-- Otherwise there are no registers, -/
  unclocked : (definition.interface.inRole .clock).length ≠ 1 →
    ∀ id arguments clock, w.session.moduleOf? d = some id → ¬ w.session.design.Registers id arguments clock
  /-- and none can be made while the routine of the definition runs. -/
  refused : (definition.interface.inRole .clock).length ≠ 1 →
    ∀ frame depth outputs input, w.session.Runs frame → frame.definition = d →
      (Generation.answer (Build.materializeWithin depth) (Supply.call depth) frame (.register input)).apply
        ⟨w, outputs⟩ = (.error (.ir .noAmbientClock), ⟨w, outputs⟩)

namespace Session.Clocked

variable {s : Session} {l : Library σ} {d : DefId} {definition : Definition (Routine σ Unit)}

theorem clock_of_registers (h : s.Clocked l.catalog) (hd : l.getDefinition d = .ok definition)
    (original : ¬ l.IsImported d) {id : ModuleId} (hid : s.moduleOf? d = some id) {arguments : List ValueId}
    {value : ValueId} (hregisters : s.design.Registers id arguments value) :
    Build.implicitClock definition arguments = .ok (some ⟨value⟩) := by
  obtain ⟨m, body, o, op, input, hm, hbody, rfl, ho, hop, hoperation⟩ := hregisters
  obtain ⟨clock, m', body', hm', hbody', ⟨found, hfound, hclock⟩, htimed⟩ :=
    h.timed d id m body (mem_of_lookup hid) original hm hbody
  obtain rfl := Option.some.inj (hm.symm.trans hm')
  obtain rfl := Option.some.inj (hbody.symm.trans hbody')
  obtain rfl := Except.ok.inj (hfound.symm.trans hd)
  obtain ⟨op', hop', hclockedBy⟩ := htimed o ho
  obtain rfl := Option.some.inj (hop.symm.trans hop')
  rw [hoperation] at hclockedBy
  rw [hclock, show clock = some ⟨value⟩ from hclockedBy]

theorem clock_of_runs (h : s.Clocked l.catalog) (hs : s.Coherent) {frame : Frame} (runs : s.Runs frame)
    (hd : l.getDefinition frame.definition = .ok definition) :
    ∃ arguments, Build.implicitClock definition arguments = .ok s.design.scopes.clock? := by
  obtain ⟨ds, ids, hds, hids⟩ := runs.exists_outer
  obtain ⟨hmem, _⟩ := hs.outer hds hids
  obtain ⟨d, clock, clocks, hclocks, hmem', htimed, _⟩ := h.outer hs hids
  obtain rfl := hs.roster.definition_inj hmem hmem'
  obtain ⟨_, body, _, _, ⟨found, hfound, hclock⟩, _⟩ := htimed
  obtain rfl := Except.ok.inj (hfound.symm.trans hd)
  unfold Scopes.clock?
  rw [hclocks]
  exact ⟨body.arguments, hclock⟩

end Session.Clocked

theorem World.Becomes.clocked {config : Config} {workspace : Workspace σ} {w : World σ}
    (h : World.Becomes ⟨workspace, .ofConfig config⟩ w) :
    w.session.Coherent ∧ w.session.Clocked w.workspace.library.catalog :=
  h.induct (I := fun s => s.Clocked w.workspace.library.catalog) (Session.clocked_ofConfig config _)
    fun _ _ hs hclocked hmoves => hclocked.moves hs hmoves

/-- **Registers use the clock of their own module.**  However a session has gone on, and however generations nest,
succeed and fail: if the definition of a module that is not imported has exactly one clock, every register in its body
has the block argument of that input as its clock; if it has none or several, its body has no register, and every
request for one is refused for want of a clock while its routine runs. -/
theorem registers_use_own_clock {config : Config} {workspace : Workspace σ} {w : World σ}
    (h : World.Becomes ⟨workspace, .ofConfig config⟩ w) {d : DefId}
    {spec : DefinitionSpec (Routine σ Unit)} {original definition : Definition (Routine σ Unit)}
    (made : Definition.ofSpec spec = .ok original) (alike : original.Alike definition)
    (hd : w.workspace.library.getDefinition d = .ok definition) (generated : definition.isImported = false) :
    w.ClocksOwn d definition := by
  have hscanned := alike.scanned (Definition.ofSpec_eq_ok made).1
  obtain ⟨hs, hclocked⟩ := h.clocked
  have horiginal : ¬ w.workspace.library.IsImported d := fun himported =>
    Bool.false_ne_true (generated.symm.trans
      (((refl_of Library.Extends w.workspace.library).isImported_iff hd).mp himported))
  constructor
  case sole =>
    intro port i sole hport id arguments value hid hregisters
    have hclock := hclocked.clock_of_registers hd horiginal hid hregisters
    obtain ⟨value', hvalue, heq⟩ := Build.implicitClock_of_sole hscanned hclock sole hport
    rw [hvalue, Clock.mk.inj (Option.some.inj heq)]
  case unclocked =>
    intro unclear id arguments value hid hregisters
    have hclock := hclocked.clock_of_registers hd horiginal hid hregisters
    cases Build.implicitClock_of_not_sole hclock unclear
  case refused =>
    rintro unclear frame depth outputs input runs rfl
    obtain ⟨arguments, hclock⟩ := hclocked.clock_of_runs hs runs hd
    exact Build.register_refused (Build.implicitClock_of_not_sole hclock unclear) outputs input

/-! ### A module without a clock within one with a clock -/

namespace Sample

/-- A module that has no clock but asks for a register. -/
def bareSpec : DefinitionSpec (Routine Unit Unit) where
  name := "Bare"
  declarations := [
    ("y", .output (.uint 8)),
    ("build", .generator (do
      let c ← Routine.constant (.uint 8) 1
      Routine.set "y" (.signal (← Routine.register c))) .unknown)]

/-- A module that makes a register after an instance of the other module has failed. -/
def delaySpec : DefinitionSpec (Routine Unit Unit) where
  name := "Delay"
  declarations := [
    ("d", .plainInput (.uint 8)),
    ("clk", .clock),
    ("q", .output (.uint 8)),
    ("build", .generator (do
      discard (Program.attempt (Routine.instantiate { definition := ⟨0⟩ }))
      Routine.set "q" (.signal (← Routine.register (← Routine.input "d")))) .unknown)]

/-- The two definitions. -/
def delayWorkspace : Workspace Unit :=
  ((Supply.define delaySpec).apply ((Supply.define bareSpec).apply ⟨{}, ()⟩).2).2

/-- The world in which the routine of the module without a clock begins, within the body of the other. -/
def nested : World Unit :=
  ((Build.prepare ⟨0⟩).apply ((Build.prepare ⟨1⟩).apply ⟨delayWorkspace, .ofConfig {}⟩).2).2

/-- The world in which the module with a clock has been made. -/
def delayed : World Unit :=
  ((Build.materialize ⟨1⟩).apply ⟨delayWorkspace, .ofConfig {}⟩).2

theorem becomes_nested : World.Becomes ⟨delayWorkspace, .ofConfig {}⟩ nested := by
  obtain ⟨_, _, houter⟩ := Build.prepare_of_isOk (d := ⟨1⟩) (w := ⟨delayWorkspace, .ofConfig {}⟩)
    (by decide +kernel)
  obtain ⟨_, _, hinner⟩ := Build.prepare_of_isOk (d := ⟨0⟩)
    (w := ((Build.prepare ⟨1⟩).apply ⟨delayWorkspace, .ofConfig {}⟩).2) (by decide +kernel)
  exact .tail (.single (.prepare houter)) (.prepare hinner)

theorem delayed_registers : delayed.session.design.Registers ⟨0⟩ [⟨0⟩, ⟨1⟩] ⟨1⟩ := by
  have hbody : (delayed.session.design.module? ⟨0⟩).bind (·.body?) =
      some { arguments := [⟨0⟩, ⟨1⟩], ops := #[⟨1⟩, ⟨2⟩], terminated := true } := by decide +kernel
  have hop : (delayed.session.design.op? ⟨1⟩).map (·.operation) = some (.register ⟨0⟩ ⟨1⟩) := by
    decide +kernel
  obtain ⟨m, hm, hbody⟩ := Option.bind_eq_some_iff.mp hbody
  obtain ⟨op, hop, hoperation⟩ := Option.map_eq_some_iff.mp hop
  exact ⟨m, _, ⟨1⟩, op, ⟨0⟩, hm, hbody, rfl, by simp, hop, hoperation⟩

end Sample

/-- While the module without a clock is built there is a clock outside of it, but none for its register.  Once it has
failed, the register of the module around it has the clock that is the second argument of its body. -/
theorem registers_use_own_clock_nested :
    Sample.nested.session.design.scopes.clocks = [none, some ⟨⟨1⟩⟩] ∧
      (Generation.answer (Build.materializeWithin 3) (Supply.call 3) ⟨⟨0⟩, ⟨1⟩, []⟩
        (.register ⟨⟨2⟩, .uint 8⟩)).apply ⟨Sample.nested, [none]⟩ =
          (.error (.ir .noAmbientClock), ⟨Sample.nested, [none]⟩) ∧
      Sample.delayed.session.design.Registers ⟨0⟩ [⟨0⟩, ⟨1⟩] ⟨1⟩ ∧
      ∃ definition, Sample.delayed.workspace.library.getDefinition ⟨1⟩ = .ok definition ∧
        Sample.delayed.ClocksOwn ⟨1⟩ definition := by
  have hruns : Sample.nested.session.Runs ⟨⟨0⟩, ⟨1⟩, []⟩ := by
    unfold Session.Runs
    decide +kernel
  have hdelayed : World.Becomes ⟨Sample.delayWorkspace, .ofConfig {}⟩ Sample.delayed :=
    .single (.make .materialize)
  refine ⟨by decide +kernel, ?_, Sample.delayed_registers, ?_⟩
  · have hdefine := (Supply.define_leads Sample.delaySpec ((Supply.define Sample.bareSpec).apply ⟨{}, ()⟩).2).state
    obtain ⟨original, definition, made, alike, hd⟩ := Supply.exists_defined (d := ⟨0⟩)
      (by decide +kernel) (trans_of Workspace.Extends hdefine
        (Sample.becomes_nested.library (World.regular_start _ _)))
    have hroles : (Definition.ofSpec Sample.bareSpec).map (fun d => (d.interface.inRole .clock).length) =
        .ok 0 := by decide +kernel
    have hclocks := registers_use_own_clock Sample.becomes_nested made alike hd (alike.isImported_eq made)
    refine hclocks.refused ?_ _ 3 [none] _ hruns rfl
    obtain ⟨parameters, rfl⟩ := alike.exists_parameters
    rw [made] at hroles
    exact fun hsole => Nat.zero_ne_one ((Except.ok.inj hroles).symm.trans hsole)
  · obtain ⟨original, definition, made, alike, hd⟩ := Supply.exists_defined (d := ⟨1⟩)
      (by decide +kernel) (hdelayed.library (World.regular_start _ _))
    exact ⟨definition, hd, registers_use_own_clock hdelayed made alike hd (alike.isImported_eq made)⟩

end Wirework
