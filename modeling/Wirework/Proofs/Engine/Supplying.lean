import Wirework.Proofs.Engine.Binding
import Wirework.Proofs.Engine.Rejecting
import Wirework.Proofs.Engine.Permanence

/-! # What an instance and its bindings put into a body

The inputs of an instance are supplied in the order of the ports, whatever the order of the bindings: a signal by its
value, and a number or nothing at all by a constant that is appended for it (`Design.Supplied`).  After these
constants comes the instance, and these operations are all that the body gains (`Build.emitInstance_supplied`).

`instances_wired` puts this together with what is known of bindings that are refused, for every generator that runs in
a session: which lists of bindings are refused and with which error, what an instance is wired to that is placed, and
that another order of the same bindings comes to the same. -/

namespace Wirework

open Step

variable {σ : Type}

/-! ### Inputs that are supplied -/

namespace Design

/-- The inputs of an instance are supplied in turn: a signal by its value, and any other connection by the next of
the constants. -/
inductive Supplied (d : Design) : List (PortSpec × Connection) → List OpId → List ValueId → Prop
  | nil : Supplied d [] [] []
  | signal {port : PortSpec} {s : Signal} {connections : List (PortSpec × Connection)} {constants : List OpId}
      {inputs : List ValueId} (rest : Supplied d connections constants inputs) :
      Supplied d ((port, .signal s) :: connections) constants (s.value :: inputs)
  | number {port : PortSpec} {connection : Connection} {number : Int} {o : OpId} {v : ValueId}
      {connections : List (PortSpec × Connection)} {constants : List OpId} {inputs : List ValueId}
      (stands : connection.number? = some number) (holds : d.Holds o port.type number v)
      (rest : Supplied d connections constants inputs) :
      Supplied d ((port, connection) :: connections) (o :: constants) (v :: inputs)

variable {d d' : Design} {id : ModuleId}

theorem Supplied.retained {connections : List (PortSpec × Connection)} {constants : List OpId}
    {inputs : List ValueId} (h : d.Supplied connections constants inputs) (hr : d.Retains d') :
    d'.Supplied connections constants inputs := by
  induction h with
  | nil => exact .nil
  | signal rest ih => exact .signal ih
  | number stands holds rest ih => exact .number stands (holds.retained hr) ih

end Design

namespace Build

open Design

variable {d : Design} {id : ModuleId}

/-- The inputs of an instance are supplied one after the other, and what is appended for them is gained by the
body. -/
theorem inputValues_supplied (h : d.Building id) {connections : List (PortSpec × Connection)}
    (accepted : ∀ entry ∈ connections, entry.2.Accepted entry.1) :
    ∃ inputs constants d', (connections.mapM fun (port, connection) => inputValue port connection).apply d =
        (.ok inputs, d') ∧ AddsConstants id d d' ∧ d'.Supplied connections constants inputs ∧
      ∀ d₀ added, BodyGains d₀ d id added → BodyGains d₀ d' id (added ++ constants) := by
  induction connections generalizing d with
  | nil =>
      refine ⟨[], [], d, by rw [List.mapM_nil, apply_pure], .refl, .nil, fun d₀ added hgains => ?_⟩
      rwa [List.append_nil]
  | cons entry connections ih =>
      obtain ⟨port, connection⟩ := entry
      have hrest := fun entry hentry => accepted entry (List.mem_cons_of_mem (port, connection) hentry)
      cases hnumber : connection.number? with
      | none =>
          cases connection with
          | literal | absent => cases hnumber
          | signal s =>
              obtain ⟨inputs, constants, d', happly, hadds, hsupplied, hgains⟩ := ih h hrest
              have hvalue : (inputValue port (.signal s)).apply d = (.ok s.value, d) := rfl
              refine ⟨s.value :: inputs, constants, d', ?_, hadds, .signal hsupplied, hgains⟩
              rw [List.mapM_cons]
              simp only [apply_bind, hvalue, happly, apply_pure]
      | some number =>
          obtain ⟨v, c, d₁, hvalue, happ, hholds, -⟩ := inputValue_number h
            (accepted (port, connection) List.mem_cons_self) hnumber
          have hadd : AddsConstants id d d₁ := .single ⟨c, happ⟩
          obtain ⟨inputs, constants, d', happly, hadds, hsupplied, hgains⟩ := ih (hadd.building h) hrest
          refine ⟨v :: inputs, d.nextOp :: constants, d', ?_, hadd.trans hadds,
            .number hnumber (hholds.retained hadds.retains) hsupplied, fun d₀ added hgained => ?_⟩
          · rw [List.mapM_cons]
            simp only [apply_bind, hvalue, happly, apply_pure]
          · rw [List.append_cons]
            exact hgains d₀ _ (hgained.appends happ rfl)

/-! ### The instance after its inputs -/

/-- What changes the body when an instance is placed: constants for its inputs, and the instance itself. -/
theorem emitInstance_supplied {request : InstanceRequest} {connections : List (PortSpec × Connection)}
    {module : ModuleId} {name : String} {w w' : World σ} {placed : Instance}
    (hbuilding : w.session.design.Building id) (accepted : ∀ entry ∈ connections, entry.2.Accepted entry.1)
    (h : (emitInstance request connections module name).apply w = (.ok placed, w')) {d₀ : Design}
    {added : List OpId} (gained : BodyGains d₀ w.session.design id added) :
    ∃ constants inputs op parameters, BodyGains d₀ w'.session.design id (added ++ constants ++ [placed.op]) ∧
      w'.session.design.Supplied connections constants inputs ∧
      w'.session.design.op? placed.op = some op ∧ op.operation = .instantiate module name inputs parameters := by
  obtain ⟨inputs, constants, d, happly, hadds, hsupplied, hgains⟩ := inputValues_supplied hbuilding accepted
  let w₁ : World σ := { w with session := { w.session with design := d } }
  have hbuilding₁ : w₁.session.design.Building id := hadds.building hbuilding
  unfold emitInstance at h
  rw [apply_bind, edit_apply_ok happly] at h
  obtain ⟨definition, w₂, hdefinition, h⟩ := apply_bind_eq_ok_iff.mp h
  obtain ⟨hd, rfl⟩ := Prod.mk.inj hdefinition
  have hbuilding₂ : ∀ here, w₁.session.here? = some here → w₁.session.design.Building here := fun _ here =>
    Option.some.inj (hbuilding₁.here.symm.trans here) ▸ hbuilding₁
  rcases insertInstance_cases hbuilding₂ h with
    ⟨⟨_, ⟨⟩⟩, -⟩ | ⟨parent, m, callee, body, here, -, -, happ, ⟨houtcome, rfl⟩ | ⟨⟨_, ⟨⟩⟩, -⟩⟩
  obtain rfl := Except.ok.inj houtcome
  obtain rfl : parent = id := Option.some.inj (here.symm.trans hbuilding₁.here)
  have happended := happ (attributesOf request)
  exact ⟨constants, inputs, _, _, (hgains d₀ added gained).appends happended rfl,
    hsupplied.retained happended.retains, d.op?_append_next parent body _ _ _ _, rfl⟩

/-! ### Placed instances -/

/-- The instance of the definition has been put into the body of the module, after a constant for each of its inputs
that is not bound to a signal, and it is wired to the ports of the definition. -/
structure Wires (request : InstanceRequest) (definition : Definition (Routine σ Unit)) (id : ModuleId)
    (w : World σ) (placed : Instance) (w' : World σ) : Prop where
  definition_eq : placed.definition = request.definition
  wires : ∃ connections constants op operands,
    List.Forall₂ (fun port entry => entry.1 = port ∧ (port.name, entry.2) ∈ request.bindings) definition.inputs
      connections ∧
    w.session.design.BodyGains w'.session.design id (constants ++ [placed.op]) ∧
    w'.session.design.Supplied connections constants operands ∧
    placed.Wired definition.inputPorts definition.outputPorts request.bindings w' op operands

section placed

variable {materialize : Materializer σ} {request : InstanceRequest} {w w' : World σ}
  {definition : Definition (Routine σ Unit)}

/-- An instance that is placed, of a definition whose module has just the ports of the definition. -/
theorem placeInstance_wires (hm : materialize.Sound) (hw : w.session.Coherent)
    (hsuited : w.session.Suited w.workspace.library.catalog) (here : w.session.here? = some id)
    (hd : w.workspace.library.getDefinition request.definition = .ok definition) (exposes : definition.Exposes)
    {placed : Instance} (h : (placeInstance materialize request).apply w = (.ok placed, w')) :
    Wires request definition id w placed w' := by
  have hbuilding := hw.building here
  obtain ⟨_, _, hlive, _, _⟩ := hbuilding.unfinished
  have hleads := placeInstance_leads hm request hw
  have hworks := hleads.state
  have hplaces := hleads.result placed (congrArg Prod.fst h)
  rw [h] at hworks hplaces
  obtain ⟨op, operands, hwired⟩ := hplaces.wired hworks (hworks.suited hw hsuited) hd exposes
  have hmakes := hm request.definition w hw
  obtain ⟨hleaves, -, here₁⟩ := hmakes.spares hw ⟨_, hlive⟩
  rcases placeInstance_cases hm hw hd h with
    ⟨⟨_, ⟨⟩⟩, -⟩ | ⟨connections, hbind, ⟨_, -, ⟨⟩⟩ | ⟨module, w₁, _, outer, name, block', hmade, -, -, hemit⟩⟩
  have hworks₁ := hmakes.works
  rw [hmade] at hleaves here₁ hworks₁
  have hw₁ := hworks₁.coherent hw
  have hbuilding₁ : w₁.session.design.Building id := hw₁.building (here₁.trans here)
  have hgained : w.session.design.BodyGains w₁.session.design id [] := hleaves.gains_nil hw hbuilding
  obtain ⟨constants, inputs, found, parameters, hgains, hsupplied, hop, hoperation⟩ :=
    emitInstance_supplied (w := { w₁ with session := { w₁.session with blocks := block' :: outer } }) hbuilding₁
      (fun entry hentry => Definition.accepted_of_bindInputs exposes.scanned hbind hentry) hemit hgained
  -- The operands of the wired operation are the inputs that have been supplied.
  obtain ⟨module', parameters', _, _, hoperation', _⟩ := hwired.callee
  obtain rfl := Option.some.inj (hop.symm.trans hwired.found)
  obtain ⟨-, -, rfl, -⟩ := Operation.instantiate.inj (hoperation.symm.trans hoperation')
  exact ⟨hplaces.1, connections, constants, found, inputs, (Definition.bindInputs_eq_ok hbind).2.2, hgains,
    hsupplied, hwired⟩

end placed

end Build

/-! ### Instances in a running generator -/

/-- What becomes of instances of the definition that are requested in the body of the module: how they are wired
if they are placed, and when they are refused. -/
structure World.WiresInstances (depth : Nat) (definition : Definition (Routine σ Unit)) (id : ModuleId)
    (w : World σ) (request : InstanceRequest) : Prop where
  placed : ∀ placed w', (Build.placeInstance (Build.materializeWithin depth) request).apply w = (.ok placed, w') →
    Build.Wires request definition id w placed w'
  /-- The order of the bindings does not matter. -/
  reordered : ∀ bindings, request.bindings.Perm bindings →
    ((Build.placeInstance (Build.materializeWithin depth) { request with bindings }).apply w).2 =
        ((Build.placeInstance (Build.materializeWithin depth) request).apply w).2 ∧
      ((Build.placeInstance (Build.materializeWithin depth) { request with bindings }).apply w).1.toOption =
        ((Build.placeInstance (Build.materializeWithin depth) request).apply w).1.toOption
  misbound : definition.Misbinds request.bindings →
    ∃ e, (Build.placeInstance (Build.materializeWithin depth) request).apply w = (.error e, w) ∧
      ∀ module ports, e ≠ .missingInput module ports
  /-- Inputs that are left without a connection are named, in the order of the ports. -/
  missing : ¬ definition.Misbinds request.bindings → definition.missing request.bindings ≠ [] →
    (Build.placeInstance (Build.materializeWithin depth) request).apply w =
      (.error (.missingInput definition.name (definition.missing request.bindings)), w)

/-- **Instances are wired as their bindings say.**  Whatever generator is running, an instance of a definition that
is not imported, if it is placed, adds to the body just a constant for each input that is bound to a number or to
nothing and then its own operation, whose operands and results stand at the positions of the ports.  The order of
the bindings makes no difference.  Bindings that are not what the definition asks for are refused before anything
has happened, and inputs without a connection are named in the order of the ports. -/
theorem instances_wired {config : Config} {workspace : Workspace σ} {w : World σ}
    (h : World.Becomes ⟨workspace, .ofConfig config⟩ w) {frame : Frame} (runs : w.session.Runs frame)
    {spec : DefinitionSpec (Routine σ Unit)} {original definition : Definition (Routine σ Unit)}
    (made : Definition.ofSpec spec = .ok original) (alike : original.Alike definition)
    (native : definition.isImported = false) {request : InstanceRequest}
    (hd : w.workspace.library.getDefinition request.definition = .ok definition) (depth : Nat) :
    w.WiresInstances depth definition frame.module request := by
  have hregular := World.Becomes.regular h (World.regular_start workspace config)
  have hsuited := World.Becomes.suited h (World.regular_start workspace config) (Session.suited_ofConfig config _)
  have hscanned := alike.scanned (Definition.ofSpec_eq_ok made).1
  have himage : definition.image = none := by
    unfold Definition.isImported at native
    exact Option.isNone_iff_eq_none.mp (Option.isSome_eq_false_iff.mp native)
  have hexposes : definition.Exposes :=
    ⟨hscanned, by rw [Definition.moduleInputs, himage]; rfl, by rw [Definition.moduleOutputs, himage]; rfl⟩
  have hrefused : ∀ {e}, definition.bindInputs request.bindings = .error e →
      (Build.placeInstance (Build.materializeWithin depth) request).apply w = (.error e, w) :=
    fun he => Build.placeInstance_refused hd (World.Becomes.hasBlock h runs) he
  refine ⟨fun placed w' hplaced => ?_, fun bindings hperm => Build.placeInstance_perm hperm, fun hfault => ?_,
    fun hgood hmissing => ?_⟩
  · exact Build.placeInstance_wires (Build.materializeWithin_sound depth) hregular.coherent hsuited runs.2 hd
      hexposes hplaced
  · rcases definition.bindInputs_cases hscanned request.bindings with
      ⟨-, e, he, hother⟩ | ⟨hgood, -⟩ | ⟨hgood, -⟩
    · exact ⟨e, hrefused he, hother⟩
    · exact absurd hfault hgood
    · exact absurd hfault hgood
  · rcases definition.bindInputs_cases hscanned request.bindings with
      ⟨hfault, -⟩ | ⟨-, -, he⟩ | ⟨-, hnone, -⟩
    · exact absurd hfault hgood
    · exact hrefused he
    · exact absurd hnone hmissing

/-! ### A gate without signals -/

namespace Sample

/-- The request for a gate with a number for its first input and nothing for its second, bound in the other
order. -/
def loose : InstanceRequest :=
  { definition := ⟨0⟩, bindings := [("b", .absent), ("a", .literal 5)] }

theorem becomes_borrowing : World.Becomes ⟨gateWorkspace, .ofConfig {}⟩ borrowing := by
  obtain ⟨_, _, henters⟩ := Build.prepare_of_isOk (d := ⟨2⟩)
    (w := ((Build.materialize ⟨1⟩).apply ⟨gateWorkspace, .ofConfig {}⟩).2) (by decide +kernel)
  exact .tail (.single (.make .materialize)) (.prepare henters)

end Sample

/-- A gate that is requested by the borrower without any signal gets a constant for the number and a zero. -/
theorem instances_wired_loose :
    (∃ definition, Sample.borrowing.WiresInstances 2 definition ⟨1⟩ Sample.loose) ∧
      Sample.operations ((Build.placeInstance (Build.materializeWithin 2) Sample.loose).apply
          Sample.borrowing).2 ⟨1⟩ =
        [.constant ⟨5, .uint 8, by decide⟩, .constant ⟨0, .uint 8, by decide⟩,
          .instantiate ⟨2⟩ "Gate" [⟨1⟩, ⟨2⟩] .empty] := by
  have hruns : Sample.borrowing.session.Runs ⟨⟨2⟩, ⟨1⟩, []⟩ := by
    unfold Session.Runs
    decide +kernel
  obtain ⟨original, definition, made, alike, hd⟩ := Sample.exists_gate
  have hd : Sample.borrowing.workspace.library.getDefinition Sample.loose.definition = .ok definition := hd
  exact ⟨⟨definition, instances_wired Sample.becomes_borrowing hruns made alike (alike.isImported_eq made) hd 2⟩,
    by decide +kernel⟩

end Wirework
