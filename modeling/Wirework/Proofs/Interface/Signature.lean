import Wirework.Definition
import Wirework.Proofs.Design.Depiction
import Wirework.Proofs.Interface.Scanning

/-! # Signatures of definitions

The definition that copies a module has the ports of that module which are not private, in the same order and with the
same types (`Definition.ofModule_eq_ok`).  The module made for such a definition has the ports of the image instead
(`Definition.Suits`), so the two signatures agree just if no port is private (`Definition.ports_of_module`).

What is used of a definition later is that its interface has been read off declarations and its table drawn up from it
(`Definition.Scanned`).  Ports are then found by their names, at the positions they have in the interface
(`Scanned.input?_eq_some_iff`, `Scanned.output?_eq_some_iff`).

The same is said of parameters: an external module declares those of the image, if there is one, and otherwise those
that are recorded with it (`Definition.Declares`). -/

namespace Wirework

variable {ρ : Type}

namespace Definition

variable {d : Definition ρ}

/-! ### Ports of a definition -/

/-- The interface of the definition has been read off declarations, and the table drawn up from it. -/
structure Scanned (d : Definition ρ) : Prop where
  interface : ∃ members, d.interface.Reads members
  table : d.table = .ofInterface d.interface

namespace Scanned

variable {name : String} {port : PortSpec} {k : Nat}

theorem index_of_input (h : d.Scanned) (hport : d.inputs[k]? = some port) : port.index = k :=
  let ⟨_, hreads⟩ := h.interface
  hreads.index_eq .input hport

theorem index_of_output (h : d.Scanned) (hport : d.outputs[k]? = some port) : port.index = k :=
  let ⟨_, hreads⟩ := h.interface
  hreads.index_eq .output hport

theorem input?_eq_some_iff (h : d.Scanned) :
    d.input? name = some port ↔ port ∈ d.inputs ∧ port.name = name := by
  obtain ⟨members, hreads⟩ := h.interface
  unfold input?
  rw [h.table, Option.bind_eq_some_iff]
  simp only [hreads.inputIndex?_eq_some_iff]
  constructor
  · rintro ⟨k, ⟨port', hport', hname⟩, hport⟩
    obtain rfl := Option.some.inj (hport'.symm.trans hport)
    exact ⟨List.mem_of_getElem? hport, hname⟩
  · rintro ⟨hmem, hname⟩
    obtain ⟨k, hk⟩ := List.mem_iff_getElem?.mp hmem
    exact ⟨k, ⟨port, hk, hname⟩, hk⟩

theorem output?_eq_some_iff (h : d.Scanned) :
    d.output? name = some port ↔ port ∈ d.outputs ∧ port.name = name := by
  obtain ⟨members, hreads⟩ := h.interface
  unfold output?
  rw [h.table, Option.bind_eq_some_iff]
  simp only [hreads.outputIndex?_eq_some_iff]
  constructor
  · rintro ⟨k, ⟨port', hport', hname⟩, hport⟩
    obtain rfl := Option.some.inj (hport'.symm.trans hport)
    exact ⟨List.mem_of_getElem? hport, hname⟩
  · rintro ⟨hmem, hname⟩
    obtain ⟨k, hk⟩ := List.mem_iff_getElem?.mp hmem
    exact ⟨k, ⟨port, hk, hname⟩, hk⟩

end Scanned

theorem ofSpec_eq_ok {spec : DefinitionSpec ρ} (h : ofSpec spec = .ok d) :
    d.Scanned ∧ d.interface.Reads (Interface.publicMembers spec.declarations) ∧
      d.image = spec.image := by
  unfold ofSpec at h
  by_cases hname : Name.isValid spec.name = true
  · rw [if_pos hname] at h
    obtain ⟨i, hi, h⟩ := bind_eq_ok_iff.mp h
    have hreads := Interface.ofDeclarations_reads hi
    cases h
    exact ⟨⟨⟨_, hreads⟩, rfl⟩, hreads, rfl⟩
  · rw [if_neg hname] at h
    cases h

theorem ofSpec_parameters {spec : DefinitionSpec ρ} (h : ofSpec spec = .ok d) :
    d.parameters = none := by
  unfold ofSpec at h
  by_cases hname : Name.isValid spec.name = true
  · rw [if_pos hname] at h
    obtain ⟨i, _, h⟩ := bind_eq_ok_iff.mp h
    rw [← Except.ok.inj h]
  · rw [if_neg hname] at h
    cases h

/-! ### Imported modules -/

/-- The ports that are not private. -/
def publicPorts (ports : List Port) : List Port :=
  ports.filter fun port => !Name.isPrivate port.name

theorem publicPorts_eq_self {ports : List Port} :
    publicPorts ports = ports ↔ ∀ port ∈ ports, Name.isPrivate port.name = false := by
  unfold publicPorts
  rw [List.filter_eq_self]
  simp only [Bool.not_eq_true']

/-- The port declared for an input of an existing module, not numbered yet. -/
def importedInputPort (port : Port) : PortSpec :=
  ⟨port.name, .input, 0, port.type, if port.type = .clock then .clock else .plain⟩

/-- The port declared for an output of an existing module, not numbered yet. -/
def importedOutputPort (port : Port) : PortSpec :=
  ⟨port.name, .output, 0, port.type, .plain⟩

theorem declaredPorts_importSpec (image : ModuleImage) :
    Interface.declaredPorts (Interface.publicMembers (importSpec (ρ := ρ) image).declarations) =
      (publicPorts image.inputs).map importedInputPort ++
        (publicPorts image.outputs).map importedOutputPort := by
  have hinput : (fun member : String × Declaration ρ => member.2.port? member.1) ∘ importedInput =
      some ∘ importedInputPort := by
    funext port
    simp only [Function.comp_apply, importedInput, importedInputPort]
    by_cases hclock : port.type = .clock
    · rw [if_pos hclock, if_pos hclock, hclock]
      rfl
    · rw [if_neg hclock, if_neg hclock]
      rfl
  have houtput : (fun member : String × Declaration ρ => member.2.port? member.1) ∘
      (fun port : Port => (port.name, .output port.type)) = some ∘ importedOutputPort := rfl
  unfold Interface.declaredPorts Interface.publicMembers importSpec
  rw [List.filter_append, List.filterMap_append, List.filter_map, List.filter_map,
    List.filterMap_map, List.filterMap_map, hinput, houtput, List.filterMap_eq_map,
    List.filterMap_eq_map]
  rfl

theorem inputPorts_of_reads {members : List (String × Declaration ρ)}
    (h : d.interface.Reads members) : d.inputPorts =
      ((Interface.declaredPorts members).filter (·.direction = .input)).map fun port =>
        ⟨port.name, port.type⟩ := by
  rw [← h.toward_eq .input, List.map_map]
  rfl

theorem outputPorts_of_reads {members : List (String × Declaration ρ)}
    (h : d.interface.Reads members) : d.outputPorts =
      ((Interface.declaredPorts members).filter (·.direction = .output)).map fun port =>
        ⟨port.name, port.type⟩ := by
  rw [← h.toward_eq .output, List.map_map]
  rfl

theorem isPrivate_of_mem_inputPorts {spec : DefinitionSpec ρ} (h : ofSpec spec = .ok d) {port : Port}
    (hport : port ∈ d.inputPorts) : Name.isPrivate port.name = false := by
  rw [inputPorts_of_reads (ofSpec_eq_ok h).2.1] at hport
  obtain ⟨declared, hdeclared, rfl⟩ := List.mem_map.mp hport
  obtain ⟨member, hmember, hdeclares⟩ := List.mem_filterMap.mp (List.mem_of_mem_filter hdeclared)
  have hpublic := List.of_mem_filter hmember
  rw [Declaration.name_of_port? hdeclares]
  rwa [Bool.not_eq_true'] at hpublic

theorem Scanned.inputPorts_nodup (h : d.Scanned) : (d.inputPorts.map (·.name)).Nodup := by
  obtain ⟨_, hreads⟩ := h.interface
  unfold inputPorts
  rw [List.map_map]
  exact hreads.names_nodup .input

theorem inputPorts_of_importSpec {image : ModuleImage} (h : ofSpec (importSpec image) = .ok d) :
    d.inputPorts = publicPorts image.inputs := by
  rw [inputPorts_of_reads (ofSpec_eq_ok h).2.1, declaredPorts_importSpec]
  simp [List.filter_map, Function.comp_def, importedInputPort, importedOutputPort]

theorem outputPorts_of_importSpec {image : ModuleImage} (h : ofSpec (importSpec image) = .ok d) :
    d.outputPorts = publicPorts image.outputs := by
  rw [outputPorts_of_reads (ofSpec_eq_ok h).2.1, declaredPorts_importSpec]
  simp [List.filter_map, Function.comp_def, importedInputPort, importedOutputPort]

/-- The definition of a live module has its image and those of its ports that are not private, in the same
order and with the same types. -/
theorem ofModule_eq_ok {design : Design} {id : ModuleId} (h : ofModule design id = .ok d) :
    ∃ m contents, design.module? id = some m ∧ d.image = some (m.imageWith contents) ∧ d.Scanned ∧
      d.inputPorts = publicPorts m.inputs ∧ d.outputPorts = publicPorts m.outputs := by
  unfold ofModule at h
  cases himage : design.image id with
  | error e =>
      rw [himage] at h
      cases h
  | ok image =>
      rw [himage] at h
      obtain ⟨m, contents, hm, rfl⟩ := Design.exists_imageWith himage
      obtain ⟨hscanned, _, hd⟩ := ofSpec_eq_ok h
      exact ⟨m, contents, hm, hd, hscanned, inputPorts_of_importSpec h, outputPorts_of_importSpec h⟩

/-! ### Modules of definitions -/

/-- The inputs of the module made for a definition: those of the image, if there is one. -/
def moduleInputs (d : Definition ρ) : List Port :=
  (d.image.map (·.inputs)).getD d.inputPorts

/-- The outputs of the module made for a definition: those of the image, if there is one. -/
def moduleOutputs (d : Definition ρ) : List Port :=
  (d.image.map (·.outputs)).getD d.outputPorts

/-- The module has the ports of the module made for a definition. -/
structure Suits (d : Definition ρ) (m : HwModule) : Prop where
  inputs : m.inputs = d.moduleInputs
  outputs : m.outputs = d.moduleOutputs

theorem suits_of_image {m : HwModule} {image : ModuleImage} (h : d.image = some image)
    (inputs : m.inputs = image.inputs) (outputs : m.outputs = image.outputs) : d.Suits m where
  inputs := by rw [inputs, moduleInputs, h]; rfl
  outputs := by rw [outputs, moduleOutputs, h]; rfl

theorem suits_of_ports {m : HwModule} (h : d.image = none) (inputs : m.inputs = d.inputPorts)
    (outputs : m.outputs = d.outputPorts) : d.Suits m where
  inputs := by rw [inputs, moduleInputs, h]; rfl
  outputs := by rw [outputs, moduleOutputs, h]; rfl

/-- Declarations of parameters with the names and kinds of the values. -/
def declarationsOf (values : AttributeMap) : List ParameterDecl :=
  values.entries.map fun (name, value) => ⟨name, value.kindName⟩

/-- Just the parameters that are declared have values, and these are of the kinds declared. -/
def MeetsDeclarations (values : AttributeMap) (declared : List ParameterDecl) : Prop :=
  List.Forall₂ (fun parameter entry => parameter.name = entry.1 ∧ parameter.kind = entry.2.kindName) declared
    values.entries

theorem meetsDeclarations_of_eq {values : AttributeMap} {declared : List ParameterDecl}
    (h : declarationsOf values = declared) : MeetsDeclarations values declared := by
  unfold MeetsDeclarations
  rw [← h, declarationsOf, List.forall₂_map_left_iff]
  exact List.forall₂_same.mpr fun _ _ => ⟨rfl, rfl⟩

/-- The external module made for the definition declares the parameters: those of the image, if there is one,
and those of the values recorded with the module otherwise. -/
def Declares (d : Definition ρ) (recorded : AttributeMap) (declared : List ParameterDecl) : Prop :=
  match d.image with
  | some image => image.contents = .external declared
  | none => declared = declarationsOf recorded

/-- The module made for the definition has just the ports of the interface. -/
structure Exposes (d : Definition ρ) : Prop where
  scanned : d.Scanned
  inputs : d.moduleInputs = d.inputPorts
  outputs : d.moduleOutputs = d.outputPorts

theorem image_eq_none (native : d.isImported = false) : d.image = none :=
  Option.isNone_iff_eq_none.mp (Option.isSome_eq_false_iff.mp native)

theorem Scanned.exposes (h : d.Scanned) (plain : d.image = none) : d.Exposes where
  scanned := h
  inputs := by rw [moduleInputs, plain]; rfl
  outputs := by rw [moduleOutputs, plain]; rfl

/-- The definition of a live module exposes it just if no port of the module is private. -/
theorem ports_of_module {design : Design} {id : ModuleId} {m : HwModule}
    (hm : design.module? id = some m) (himport : ofModule design id = .ok d) :
    (d.inputPorts = m.inputs ∧ d.outputPorts = m.outputs ↔
      ∀ port ∈ m.inputs ++ m.outputs, Name.isPrivate port.name = false) ∧
    (d.inputPorts = m.inputs → d.outputPorts = m.outputs → d.Exposes) := by
  obtain ⟨m', contents, hm', himage, hscanned, hinputs, houtputs⟩ := ofModule_eq_ok himport
  obtain rfl := Option.some.inj (hm'.symm.trans hm)
  constructor
  · rw [hinputs, houtputs, publicPorts_eq_self, publicPorts_eq_self, List.forall_mem_append]
  · intro hinputs houtputs
    refine ⟨hscanned, ?_, ?_⟩
    · rw [moduleInputs, himage, hinputs]
      rfl
    · rw [moduleOutputs, himage, houtputs]
      rfl

end Definition

end Wirework
