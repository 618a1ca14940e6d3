import Wirework.Proofs.Engine.Moments

/-! # How instances are wired

An instance is wired to ports by their names if its operands and results stand at the positions of these ports
(`Instance.Wired`).  Every instance that is placed at a moment of a session is wired to the ports of its definition,
provided the module made for the definition has just these ports (`Build.Places.wired`).

That is so for the definition that copies a module, as long as no port of the module is private
(`import_exposes_ports`).  A private port is left out of the interface while the copied module has it, and the outputs
after it are taken for one another (`import_hides_port`).

Both are said of instances however they are placed, from outside or by a routine that runs (`Build.Placing`); the
sample is a splitter whose first output is private or not. -/

namespace Wirework

open Step

variable {σ : Type}

/-! ### Wired instances -/

/-- The operation `op` of the instance is wired to the ports by their names, with the operands
`operands`. -/
structure Instance.Wired (placed : Instance) (inputs outputs : List Port)
    (bindings : List (String × Connection)) (w : World σ) (op : Op) (operands : List ValueId) :
    Prop where
  found : w.session.design.op? placed.op = some op
  /-- The operation is an instance of the module made for the definition, which has just these ports. -/
  callee : ∃ module parameters callee, w.session.MadeFor placed.definition module ∧
    op.operation = .instantiate module placed.name operands parameters ∧
      w.session.design.module? module = some callee ∧
      callee.inputs = inputs ∧ callee.outputs = outputs
  /-- What is bound is an input. -/
  bound : ∀ binding ∈ bindings,
    ∃ (i : Nat) (port : Port), inputs[i]? = some port ∧ port.name = binding.1
  /-- A signal bound to an input is the operand at the position of the port. -/
  input : ∀ (i : Nat) (port : Port) (signal : Signal), inputs[i]? = some port →
    (port.name, .signal signal) ∈ bindings → operands[i]? = some signal.value
  /-- The signal of an output is from now on the result at the position of the port. -/
  output : ∀ (i : Nat) (port : Port), outputs[i]? = some port → ∃ value, op.results[i]? = some value ∧
    ∀ w' : World σ, w.workspace.Extends w'.workspace →
      (Build.outputOf placed port.name).apply w' = (.ok ⟨value, port.type⟩, w')

namespace Build

theorem outputOf_apply {placed : Instance} {port : String} {w : World σ}
    {definition : Definition (Routine σ Unit)} {spec : PortSpec} {signal : Signal}
    (hd : w.workspace.library.getDefinition placed.definition = .ok definition)
    (hport : definition.output? port = some spec)
    (hsignal : placed.results[spec.index]? = some signal) :
    (outputOf placed port).apply w = (.ok signal, w) := by
  unfold outputOf
  simp only [apply_bind, apply_definition, hd, hport, hsignal, apply_pure]

section places

variable {request : InstanceRequest} {w w' : World σ} {placed : Instance}
  {definition : Definition (Routine σ Unit)}

theorem input_of_binding (hscanned : definition.Scanned)
    {connections : List (PortSpec × Connection)}
    (hbind : definition.bindInputs request.bindings = .ok connections)
    {binding : String × Connection} (hmem : binding ∈ request.bindings) :
    ∃ (i : Nat) (port : Port), definition.inputPorts[i]? = some port ∧ port.name = binding.1 := by
  obtain ⟨_, hknown, _⟩ := Definition.bindInputs_eq_ok hbind
  obtain ⟨spec, hspec⟩ := Option.isSome_iff_exists.mp (hknown _ (List.mem_map_of_mem hmem))
  obtain ⟨hmem, hname⟩ := hscanned.input?_eq_some_iff.mp hspec
  obtain ⟨i, hi⟩ := List.mem_iff_getElem?.mp hmem
  exact ⟨i, ⟨spec.name, spec.type⟩, by rw [Definition.inputPorts, List.getElem?_map, hi]; rfl, hname⟩

theorem operand_of_binding {connections : List (PortSpec × Connection)} {operands : List ValueId}
    (hbind : definition.bindInputs request.bindings = .ok connections)
    (hfed : List.Forall₂ (fun entry v => entry.2.Feeds v) connections operands) {i : Nat}
    {port : Port} {signal : Signal} (hport : definition.inputPorts[i]? = some port)
    (hbound : (port.name, .signal signal) ∈ request.bindings) :
    operands[i]? = some signal.value := by
  obtain ⟨hnodup, _, hconnections⟩ := Definition.bindInputs_eq_ok hbind
  obtain ⟨spec, hspec, rfl⟩ := Option.map_eq_some_iff.mp (List.getElem?_map ▸ hport)
  obtain ⟨entry, hentry, _, hmem⟩ := exists_getElem?_of_forall₂ hconnections hspec
  obtain ⟨v, hv, hfeeds⟩ := exists_getElem?_of_forall₂ hfed hentry
  have hsignal := congrArg Prod.snd (List.inj_on_of_nodup_map hnodup hmem hbound rfl)
  rw [hv, hfeeds signal hsignal]

theorem outputOf_of_result (hscanned : definition.Scanned)
    (hd : w.workspace.library.getDefinition placed.definition = .ok definition) {i : Nat}
    {port : Port} {signal : Signal} (hport : definition.outputPorts[i]? = some port)
    (hsignal : placed.results[i]? = some signal) (hextends : w.workspace.Extends w'.workspace) :
    (outputOf placed port.name).apply w' = (.ok signal, w') := by
  obtain ⟨spec, hspec, rfl⟩ := Option.map_eq_some_iff.mp (List.getElem?_map ▸ hport)
  have hindex := hscanned.index_of_output hspec
  have hfound : definition.output? spec.name = some spec :=
    hscanned.output?_eq_some_iff.mpr ⟨List.mem_of_getElem? hspec, rfl⟩
  obtain ⟨found, hfound', halike⟩ := hextends _ _ hd
  obtain ⟨parameters, rfl⟩ := halike.exists_parameters
  exact outputOf_apply hfound' hfound (hindex ▸ hsignal)

theorem suits_of_madeFor (hworks : w.Works w')
    (hsuited : w'.session.Suited w'.workspace.library.catalog) {d : DefId} {module : ModuleId}
    (hd : w.workspace.library.getDefinition d = .ok definition)
    (hmade : w'.session.MadeFor d module) {callee : HwModule}
    (hcallee : w'.session.design.module? module = some callee) : definition.Suits callee := by
  obtain ⟨header, hheader, found, hfound, hsuits⟩ := hsuited _ _ (mem_of_lookup hmade.1)
  obtain ⟨found', hfound', halike⟩ := hworks.library _ _ hd
  obtain rfl := Except.ok.inj (hfound.symm.trans hfound')
  obtain ⟨parameters, rfl⟩ := halike.exists_parameters
  obtain ⟨m, hm, rfl⟩ := Design.header?_eq_some_iff.mp hheader
  obtain rfl := Option.some.inj (hm.symm.trans hcallee)
  exact ⟨hsuits.inputs, hsuits.outputs⟩

theorem callee_of_madeFor (hworks : w.Works w')
    (hsuited : w'.session.Suited w'.workspace.library.catalog) {d : DefId} {module : ModuleId}
    (hd : w.workspace.library.getDefinition d = .ok definition) (hexposes : definition.Exposes)
    (hmade : w'.session.MadeFor d module) {callee : HwModule}
    (hcallee : w'.session.design.module? module = some callee) :
    callee.inputs = definition.inputPorts ∧ callee.outputs = definition.outputPorts := by
  have hsuits := suits_of_madeFor hworks hsuited hd hmade hcallee
  exact ⟨hsuits.inputs.trans hexposes.inputs, hsuits.outputs.trans hexposes.outputs⟩

/-- An instance that has been placed is wired to the ports of its definition. -/
theorem Places.wired (h : Places request w placed w') (hworks : w.Works w')
    (hsuited : w'.session.Suited w'.workspace.library.catalog)
    (hd : w.workspace.library.getDefinition request.definition = .ok definition)
    (hexposes : definition.Exposes) :
    ∃ op operands, placed.Wired definition.inputPorts definition.outputPorts request.bindings w' op
      operands := by
  obtain ⟨hhandle, definition₀, connections, module, operands, hd₀, hbind, hmade, hfed, hrealizes⟩ := h
  obtain rfl := Except.ok.inj (hd₀.symm.trans hd)
  obtain ⟨op, parameters, hop, hoperation, hresults⟩ := hrealizes.op
  obtain ⟨callee, hcallee, _, htypes⟩ := hrealizes.callee
  obtain ⟨hinputs, houtputs⟩ := callee_of_madeFor hworks hsuited hd hexposes hmade hcallee
  refine ⟨op, operands, hop,
    ⟨module, parameters, callee, hhandle ▸ hmade, hoperation, hcallee, hinputs, houtputs⟩,
    fun binding hmem => input_of_binding hexposes.scanned hbind hmem,
    fun i port signal hport hbound => operand_of_binding hbind hfed hport hbound,
    fun i port hport => ?_⟩
  have htype : (placed.results.map (·.type))[i]? = some port.type := by
    rw [htypes, houtputs, List.getElem?_map, hport]
    rfl
  obtain ⟨signal, hsignal, hsignaltype⟩ := Option.map_eq_some_iff.mp (List.getElem?_map ▸ htype)
  refine ⟨signal.value, ?_, fun w'' hextends => ?_⟩
  · rw [hresults, List.getElem?_map, hsignal]
    rfl
  · rw [← hsignaltype]
    exact outputOf_of_result hexposes.scanned (hhandle ▸ hd) hport hsignal
      (trans_of Workspace.Extends hworks.library hextends)

end places

/-- The ways in which an instance can be placed, from outside and by a routine. -/
inductive Placing (request : InstanceRequest) : Build σ Instance → Prop
  | instantiate : Placing request (instantiate request)
  | within (depth : Nat) : Placing request (placeInstance (materializeWithin depth) request)

theorem Placing.exists_materializer {request : InstanceRequest} {step : Build σ Instance}
    (h : Placing request step) :
    ∃ materialize : Materializer σ, materialize.Sound ∧ step = placeInstance materialize request := by
  cases h with
  | instantiate => exact ⟨materialize, materialize_sound, rfl⟩
  | within depth => exact ⟨materializeWithin depth, materializeWithin_sound depth, rfl⟩

theorem Placing.leads {request : InstanceRequest} {step : Build σ Instance}
    (h : Placing request step) {w : World σ} (hw : w.session.Coherent) :
    step.Leads World.Works (Places request w) w := by
  obtain ⟨materialize, hm, rfl⟩ := h.exists_materializer
  exact placeInstance_leads hm request hw

end Build

/-! ### Imported modules -/

/-- **Imported modules are seen as they are.**  The definition that copies a live module has the ports of the
module, in the same order and with the same types, just if none of these ports is private.  Every instance of
it that is placed at a moment of a session, from outside or by a routine, is then wired to these ports by their
names. -/
theorem import_exposes_ports {d : Design} {id : ModuleId} {m : HwModule}
    (hm : d.module? id = some m) {imported : Definition (Routine σ Unit)}
    (himport : Definition.ofModule d id = .ok imported) :
    (imported.inputPorts = m.inputs ∧ imported.outputPorts = m.outputs ↔
      ∀ port ∈ m.inputs ++ m.outputs, Name.isPrivate port.name = false) ∧
    ((∀ port ∈ m.inputs ++ m.outputs, Name.isPrivate port.name = false) →
      ∀ (config : Config) (w w' : World σ) (request : InstanceRequest)
        (definition : Definition (Routine σ Unit)) (step : Build σ Instance) (placed : Instance),
        Moment config w → w.workspace.library.getDefinition request.definition = .ok definition →
          imported.Alike definition → Build.Placing request step →
            step.apply w = (.ok placed, w') →
              ∃ op operands, placed.Wired m.inputs m.outputs request.bindings w' op operands) := by
  obtain ⟨hports, hexposed⟩ := Definition.ports_of_module hm himport
  refine ⟨hports, fun hpublic => ?_⟩
  obtain ⟨hinputs, houtputs⟩ := hports.mpr hpublic
  obtain ⟨hscanned, hmoduleInputs, hmoduleOutputs⟩ := hexposed hinputs houtputs
  intro config w w' request definition step placed hw hd halike hplacing happly
  have hscanned := halike.scanned hscanned
  obtain ⟨parameters, rfl⟩ := halike.exists_parameters
  have hleads := hplacing.leads hw.coherent
  have hworks := hleads.state
  have hplaces := hleads.result placed (congrArg Prod.fst happly)
  rw [happly] at hworks hplaces
  have hwired := hplaces.wired hworks (hworks.suited hw.coherent hw.suited) hd
    ⟨hscanned, hmoduleInputs, hmoduleOutputs⟩
  rw [← hinputs, ← houtputs]
  exact hwired

/-! ### A splitter -/

namespace Sample

/-- An external module that splits its input; the name of its first output is given. -/
def splitter (first : String) : HwModule where
  symbol := "Split"
  inputs := [⟨"a", .bits 2⟩]
  outputs := [⟨first, .bits 1⟩, ⟨"y", .bits 1⟩]
  attributes := .empty
  kind := .external []
  location := .unknown

/-- The design that has nothing but the splitter. -/
def splitDesign (first : String) : Design :=
  { modules := #[some (splitter first)] }

/-- A module whose routine passes the second output of a splitter on. -/
def secondSpec (split : DefId) : DefinitionSpec (Routine Unit Unit) where
  name := "Second"
  declarations := [
    ("a", .plainInput (.bits 2)),
    ("q", .output (.bits 1)),
    ("build", .generator (do
      let a ← Routine.input "a"
      let placed ← Routine.instantiate { definition := split, bindings := [("a", .signal a)] }
      Routine.set "q" (.signal (← Routine.outputOf placed "y"))) .unknown)]

/-- The definition that copies the splitter, and that of the module which instantiates it. -/
def splitWorkspace (first : String) : Workspace Unit :=
  ((do
    let split ← Supply.importModule (splitDesign first) ⟨0⟩
    Supply.define (secondSpec split) : Supply Unit DefId).apply ⟨{}, ()⟩).2

/-- The world in which the routine begins. -/
def splitWorld (first : String) : World Unit :=
  ((Build.prepare ⟨1⟩).apply ⟨splitWorkspace first, .ofConfig {}⟩).2

/-- The request of the routine. -/
def splitRequest : InstanceRequest :=
  { definition := ⟨0⟩, bindings := [("a", .signal ⟨⟨0⟩, .bits 2⟩)] }

/-- The instance that the routine places. -/
def splitInstance : Instance :=
  { id := ⟨0⟩, name := "Split", definition := ⟨0⟩, op := ⟨0⟩
    results := [⟨⟨1⟩, .bits 1⟩, ⟨⟨2⟩, .bits 1⟩] }

/-- The imported definition is the one that the routine instantiates. -/
theorem exists_splitter (first : String)
    (himport : ((Supply.importModule (splitDesign first) ⟨0⟩ : Supply Unit DefId).apply
      ⟨{}, ()⟩).1 = .ok ⟨0⟩)
    (henters : ((Build.prepare ⟨1⟩).apply ⟨splitWorkspace first, .ofConfig {}⟩).1.isOk = true) :
    ∃ imported definition, Definition.ofModule (splitDesign first) ⟨0⟩ = .ok imported ∧
      (splitWorld first).workspace.library.getDefinition ⟨0⟩ = .ok definition ∧
      imported.Alike definition := by
  have happly := apply_eq_of_ok himport
  obtain ⟨imported, hmodule, hfound⟩ := Supply.importModule_eq_ok happly
  have hextends := (Supply.define_leads (secondSpec ⟨0⟩) _).state _ _ hfound
  have hdefined : splitWorkspace first = ((Supply.define (secondSpec ⟨0⟩)).apply
      ((Supply.importModule (splitDesign first) ⟨0⟩).apply ⟨{}, ()⟩).2).2 := by
    unfold splitWorkspace
    rw [apply_bind, happly]
  obtain ⟨definition, hd, halike⟩ := hextends
  refine ⟨imported, definition, hmodule, ?_, halike⟩
  unfold splitWorld
  rw [Build.prepare_workspace henters, hdefined]
  exact hd

end Sample

/-- The routine finds the outputs of a splitter at their positions. -/
theorem import_exposes_ports_splitter :
    ∃ (imported : Definition (Routine Unit Unit)) (w' : World Unit) (op : Op)
      (operands : List ValueId), Definition.ofModule (Sample.splitDesign "x") ⟨0⟩ = .ok imported ∧
        imported.outputPorts = [⟨"x", .bits 1⟩, ⟨"y", .bits 1⟩] ∧
        (Build.placeInstance (Build.materializeWithin 2) Sample.splitRequest).apply
          (Sample.splitWorld "x") = (.ok Sample.splitInstance, w') ∧
        Sample.splitInstance.Wired [⟨"a", .bits 2⟩] [⟨"x", .bits 1⟩, ⟨"y", .bits 1⟩]
          Sample.splitRequest.bindings w' op operands := by
  have henters : ((Build.prepare ⟨1⟩).apply
      ⟨Sample.splitWorkspace "x", .ofConfig {}⟩).1.isOk = true := by decide +kernel
  obtain ⟨imported, definition, himport, hd, halike⟩ :=
    Sample.exists_splitter "x" (by decide +kernel) henters
  have hplaced : ((Build.placeInstance (Build.materializeWithin 2) Sample.splitRequest).apply
      (Sample.splitWorld "x")).1 = .ok Sample.splitInstance := by decide +kernel
  have hlive : (Sample.splitDesign "x").module? ⟨0⟩ = some (Sample.splitter "x") := rfl
  obtain ⟨hports, hwired⟩ := import_exposes_ports hlive himport
  have hpublic : ∀ port ∈ (Sample.splitter "x").inputs ++ (Sample.splitter "x").outputs,
      Name.isPrivate port.name = false := by decide +kernel
  obtain ⟨op, operands, hop⟩ := hwired hpublic {} _ _ Sample.splitRequest definition _ _
    ((Moment.start _).prepare henters) hd halike (.within 2) (apply_eq_of_ok hplaced)
  exact ⟨imported, _, op, operands, himport, (hports.mpr hpublic).2, apply_eq_of_ok hplaced, hop⟩

/-- A splitter with a private output: the definition has only the other one, as its first output, and the
routine that asks for it gets the result of the private one. -/
theorem import_hides_port :
    ∃ (imported : Definition (Routine Unit Unit)) (w' : World Unit) (op : Op),
      Definition.ofModule (Sample.splitDesign "_x") ⟨0⟩ = .ok imported ∧
        (Sample.splitter "_x").outputs = [⟨"_x", .bits 1⟩, ⟨"y", .bits 1⟩] ∧
        imported.outputPorts = [⟨"y", .bits 1⟩] ∧
        (∃ definition, (Sample.splitWorld "_x").workspace.library.getDefinition ⟨0⟩ =
          .ok definition ∧ imported.Alike definition) ∧
        Moment {} (Sample.splitWorld "_x") ∧
        (Build.placeInstance (Build.materializeWithin 2) Sample.splitRequest).apply
          (Sample.splitWorld "_x") = (.ok Sample.splitInstance, w') ∧
        w'.session.design.op? Sample.splitInstance.op = some op ∧ op.results = [⟨1⟩, ⟨2⟩] ∧
        (Build.outputOf Sample.splitInstance "y").apply w' = (.ok ⟨⟨1⟩, .bits 1⟩, w') := by
  have henters : ((Build.prepare ⟨1⟩).apply
      ⟨Sample.splitWorkspace "_x", .ofConfig {}⟩).1.isOk = true := by decide +kernel
  obtain ⟨imported, definition, himport, hd, halike⟩ :=
    Sample.exists_splitter "_x" (by decide +kernel) henters
  have hplaced : ((Build.placeInstance (Build.materializeWithin 2) Sample.splitRequest).apply
      (Sample.splitWorld "_x")).1 = .ok Sample.splitInstance := by decide +kernel
  have happly := apply_eq_of_ok hplaced
  obtain ⟨m, _, hm, _, hscanned, _, houtputs⟩ := Definition.ofModule_eq_ok himport
  obtain rfl : Sample.splitter "_x" = m := Option.some.inj hm
  have hports : imported.outputPorts = [⟨"y", .bits 1⟩] := houtputs.trans (by decide +kernel)
  have hmoment : Moment {} (Sample.splitWorld "_x") := (Moment.start _).prepare henters
  have hworks := (Build.placeInstance_leads (Build.materializeWithin_sound 2) Sample.splitRequest
    hmoment.coherent).state
  rw [happly] at hworks
  obtain ⟨op, hop, hresults⟩ := Option.map_eq_some_iff.mp (show
    (((Build.placeInstance (Build.materializeWithin 2) Sample.splitRequest).apply
      (Sample.splitWorld "_x")).2.session.design.op? ⟨0⟩).map (·.results) = some [⟨1⟩, ⟨2⟩] by
    decide +kernel)
  refine ⟨imported, _, op, himport, rfl, hports, ⟨definition, hd, halike⟩, hmoment, happly, hop,
    hresults, ?_⟩
  have hscanned := halike.scanned hscanned
  obtain ⟨parameters, rfl⟩ := halike.exists_parameters
  exact Build.outputOf_of_result hscanned hd (congrArg (·[0]?) hports) rfl hworks.library

end Wirework
