import Wirework.Proofs.Independence.Drafting

/-! # How a module is begun

What happens before the routine of a definition runs depends on the definition alone.

* If its name is invalid there is no module (`Build.materializeWith_invalid`).
* If it has no generator its module is external (`Build.materializeWith_external`).
* If the clock of the module has no input the module is taken back (`Build.materializeWith_unclocked`).
* Otherwise the body is entered, with the draft that the definition prescribes (`Build.prepare_apply`).

Each of these is an equation that says what the session is afterwards, up to symbols and positions, which depend on
what has been made before. -/

namespace Wirework

open Step

variable {ρ σ : Type}

/-! ### The clock of a module -/

/-- Position of the input that is the clock of the module. -/
def Definition.clockPosition? (d : Definition ρ) : Option Nat :=
  match d.interface.clocks with
  | [name] => (d.input? name).map (·.index)
  | _ => none

/-- If the module has a clock, there is an input for it. -/
def Definition.Clocked (d : Definition ρ) : Prop :=
  ∀ position ∈ d.clockPosition?, position < d.inputs.length

namespace Build

variable {definition : Definition ρ} {arguments : List ValueId}

theorem implicitClock_eq (definition : Definition ρ) (arguments : List ValueId) :
    implicitClock definition arguments =
      match definition.clockPosition? with
      | none => .ok none
      | some position =>
        match arguments[position]? with
        | some value => .ok (some ⟨value⟩)
        | none => .error (.engine (.portIndex position)) := by
  unfold implicitClock Definition.clockPosition?
  rcases definition.interface.clocks with _ | ⟨name, _ | ⟨_, _⟩⟩
  case cons.nil =>
    dsimp only
    cases definition.input? name <;> rfl
  case nil => rfl
  case cons.cons => rfl

theorem implicitClock_ok (hlength : arguments.length = definition.inputs.length) (h : definition.Clocked) :
    ∃ clock, implicitClock definition arguments = .ok clock ∧
      Option.Rel (fun (clock : Clock) position => arguments[position]? = some clock.value) clock
        definition.clockPosition? := by
  rw [implicitClock_eq]
  cases hposition : definition.clockPosition? with
  | none => exact ⟨none, rfl, .none⟩
  | some position =>
      have hvalue := List.getElem?_eq_getElem (hlength ▸ h position hposition)
      simp only [hvalue]
      exact ⟨_, rfl, .some hvalue⟩

theorem implicitClock_refused (hlength : arguments.length = definition.inputs.length)
    (h : ¬ definition.Clocked) : ∃ e, implicitClock definition arguments = .error e := by
  obtain ⟨position, hnot⟩ := not_forall.mp h
  obtain ⟨hposition, hle⟩ := Classical.not_imp.mp hnot
  rw [implicitClock_eq, Option.mem_def.mp hposition]
  simp only [List.getElem?_eq_none (hlength ▸ Nat.le_of_not_lt hle)]
  exact ⟨_, rfl⟩

end Build

/-! ### The body that is entered -/

/-- The draft of a body that has just been entered. -/
def Definition.draft (d : Definition ρ) (location : Location) : Draft where
  types := d.inputPorts.map (·.type)
  clock := d.clockPosition?
  location

section entering

variable {s : Session} {d : DefId} {name symbol : String} {m : HwModule} {design : Design} {entry : ManifestEntry}

theorem length_arguments (design : Design) {definition : Definition ρ}
    (hm : m = Compile.plainModule definition symbol) :
    (design.nextValues m.inputs.length).length = definition.inputs.length := by
  rw [Design.length_nextValues, hm, Compile.plainModule_inputs]
  exact List.length_map _

/-- A body that has just been entered is as its definition prescribes. -/
theorem Session.Drafted.begin {definition : Definition ρ} (hm : m = Compile.plainModule definition symbol)
    (fits : s.Fits name m design entry) (location : Location) {clock : Option Clock}
    (hclock : Option.Rel (fun (clock : Clock) position =>
      (design.nextValues m.inputs.length)[position]? = some clock.value) clock definition.clockPosition?) :
    let arguments := design.nextValues m.inputs.length
    let m' := { m with kind := .generated (some { arguments }) }
    Session.Drafted ((s.enroll d m' (design.beginBody s.design.nextModule m) entry).enter d s.design.nextModule location
      clock) definition ⟨d, s.design.nextModule, arguments⟩ arguments (definition.draft location) := by
  intro arguments m'
  have hinputs : m.inputs = definition.inputPorts := by
    rw [hm, Compile.plainModule_inputs]
  have hself : (design.beginBody s.design.nextModule m).module? s.design.nextModule = some m' := by
    rw [Design.module?_beginBody, if_pos rfl, fits.takes.module?_next]
    rfl
  constructor
  case here => rfl
  case body =>
    refine ⟨m', #[], hself, ?_, rfl, .nil arguments⟩
    change m.header = (Compile.plainModule definition m.symbol).header
    rw [hm, Compile.plainModule_symbol]
  case values =>
    have htypes : (definition.draft location).types = m.inputs.map (·.type) := by
      rw [hinputs]
      rfl
    have hlocals := Design.Locals.begin design s.design.nextModule m
    rw [htypes]
    exact { hlocals with }
  case arguments => exact length_arguments design hm
  case clock => exact hclock
  case location => rfl
  case names => exact ⟨s.blocks, rfl⟩

end entering

namespace Build

section attempt

variable (materialize : Materializer σ) (caller : Caller σ) {d : DefId} {w : World σ}
  {definition : Definition (Routine σ Unit)}

section

variable (hd : w.workspace.library.getDefinition d = .ok definition) (idle : d ∉ w.session.generating)
  (unbound : w.session.moduleOf? d = none)
include hd idle unbound

theorem materializeWith_invalid (hvalid : ¬ Name.isValid definition.name = true) :
    (materializeWith materialize caller d).apply w = (.error (.invalidName definition.name), w) := by
  rw [materializeWith_unbound materialize caller hd idle unbound, Compile.createModule_refused hvalid]

variable (hs : w.session.Coherent) (hplain : definition.image = none)
  (hvalid : Name.isValid definition.name = true)
include hs hplain hvalid

theorem materializeWith_external (hgenerator : definition.generator? = none) :
    ∃ m design entry, m = Compile.plainModule definition (w.session.symbols.uniquify definition.name).1 ∧
      w.session.Fits definition.name m design entry ∧
      (materializeWith materialize caller d).apply w =
        (.ok w.session.design.nextModule, { w with session := w.session.enroll d m design entry }) := by
  obtain ⟨m, design, entry, hm, fits, hcreate⟩ := Compile.createModule_plain hs hplain hvalid
  refine ⟨m, design, entry, hm, fits, ?_⟩
  rw [materializeWith_unbound materialize caller hd idle unbound, hcreate]
  simp only [hgenerator, Option.isSome_none, Bool.false_eq_true, if_false]
  rfl

/-- A module whose clock has no input is taken back, and leaves nothing but its position. -/
theorem materializeWith_unclocked {generator : Generator (Routine σ Unit)}
    (hgenerator : definition.generator? = some generator) (hclocked : ¬ definition.Clocked) :
    ∃ e design warnings, w.session.design.Takes none design ∧
      (materializeWith materialize caller d).apply w =
        (.error e, { w with session := { w.session with design, warnings } }) := by
  obtain ⟨m, design, entry, hm, fits, hcreate⟩ := Compile.createModule_plain hs hplain hvalid
  obtain ⟨e, he⟩ := implicitClock_refused (length_arguments design hm) hclocked
  have hkind : m.kind = .generated none := by
    rw [hm]
    unfold Compile.plainModule
    rw [hgenerator]
  have henter := enterBody_apply w.workspace hd hgenerator fits hkind
  simp only [he] at henter
  have fits' := fits_beginBody fits
  obtain ⟨design', warnings, htakes, hdrop⟩ := Session.drop_enroll hs unbound fits' definition.name
  have hfill : (fillModule materialize caller d _).apply _ = _ := fillModule_refused idle hd henter
  refine ⟨e, design', warnings, htakes, ?_⟩
  rw [materializeWith_unbound materialize caller hd idle unbound, hcreate]
  simp only [hgenerator, Option.isSome_some, if_true]
  unfold Session.enroll at hfill hdrop
  rw [hfill, hdrop]

/-- Otherwise the body is entered. -/
theorem prepare_apply {generator : Generator (Routine σ Unit)} (hgenerator : definition.generator? = some generator)
    (hclocked : definition.Clocked) :
    ∃ frame w', (prepare d).apply w = (.ok (frame, generator.routine), w') ∧
      w'.session.Drafted definition frame frame.arguments (definition.draft generator.location) := by
  obtain ⟨m, design, entry, hm, fits, hcreate⟩ := Compile.createModule_plain hs hplain hvalid
  obtain ⟨clock, hok, hclock⟩ := implicitClock_ok (length_arguments design hm) hclocked
  have hkind : m.kind = .generated none := by
    rw [hm]
    unfold Compile.plainModule
    rw [hgenerator]
  have henter := enterBody_apply w.workspace hd hgenerator fits hkind
  simp only [hok] at henter
  have hdrafted := Session.Drafted.begin (d := d) hm fits generator.location hclock
  refine ⟨⟨d, w.session.design.nextModule, design.nextValues m.inputs.length⟩, ⟨w.workspace, _⟩, ?_, hdrafted⟩
  rw [prepare_unbound hd idle unbound, hcreate]
  exact henter

end

end attempt

end Build

end Wirework
