import Wirework.Definition
import Wirework.Design.Printer
import Wirework.Name

/-! # Compilation sessions

A session owns a design and remembers the single module made for each definition.  Beside the design it keeps the
definitions whose generators are running, the symbols in use, the instance names in use within each running generator,
the instances placed so far and a manifest record for each module.

The steps in `Compile` make, record and discard modules and register instances.  None of them runs a generator, so
each changes the tables in one go: a module is either made, with its symbol, its record and its entry, or it is
discarded with all of these. -/

namespace Wirework

/-- An instance placed by a session. -/
structure InstanceRecord where
  id : InstanceId
  name : String
  /-- The instantiated module. -/
  module : ModuleId
  /-- The module that contains the instance. -/
  parent : ModuleId
  op : OpId
deriving DecidableEq, Repr

/-- What a session warns of. -/
inductive Warning where
  /-- An output was assigned a second time. -/
  | outputReassigned (port module : String)
  /-- A module was removed because its generation failed. -/
  | discarded (module : String)
deriving DecidableEq, Repr

def Warning.text : Warning → String
  | outputReassigned port module => s!"Output '{port}' of module '{module}' reassigned"
  | discarded module => s!"Discarding module '{module}' after failed generation"

/-- State of a compilation session. -/
structure Session where
  design : Design := {}
  config : Config := {}
  /-- The module of every materialized definition. -/
  modules : List (DefId × ModuleId) := []
  /-- Definitions whose generator is running. -/
  generating : List DefId := []
  /-- Module symbols in use. -/
  symbols : NameScope := {}
  /-- Instance names in use, one scope for each running generator, innermost first. -/
  blocks : List NameScope := []
  instances : List InstanceRecord := []
  records : List (ModuleId × ManifestEntry) := []
  warnings : List Warning := []
deriving DecidableEq

namespace Session

def ofConfig (config : Config) : Session :=
  { config }

/-! ### Views -/

def moduleOf? (s : Session) (d : DefId) : Option ModuleId :=
  s.modules.lookup d

/-- The generator of the definition is running. -/
def isGenerating (s : Session) (d : DefId) : Bool :=
  s.generating.contains d

theorem isGenerating_iff {s : Session} {d : DefId} : s.isGenerating d = true ↔ d ∈ s.generating :=
  List.contains_iff_mem

theorem isGenerating_eq_false_iff {s : Session} {d : DefId} : s.isGenerating d = false ↔ d ∉ s.generating := by
  rw [← Bool.not_eq_true, isGenerating_iff]

def hasBlock (s : Session) : Bool :=
  !s.blocks.isEmpty

def instancesIn (s : Session) (parent : ModuleId) : List InstanceRecord :=
  s.instances.filter (·.parent = parent)

def record? (s : Session) (id : ModuleId) : Option ManifestEntry :=
  s.records.lookup id

def recordOfSymbol? (s : Session) (symbol : String) : Option ManifestEntry :=
  (s.records.find? fun entry => entry.2.symbol = symbol).map (·.2)

/-- Records of all live modules in the order of their creation. -/
def manifest (s : Session) : List ManifestEntry :=
  s.design.liveModules.filterMap fun (id, _) => s.record? id

def text (s : Session) : Except PrintError String :=
  s.design.text

end Session

/-! ## Changing a session -/

/-- A step of a compilation session. -/
abbrev Compile := Step BuildError Session

namespace Compile

open Step

variable {α ρ : Type}

def edit (step : Edit α) : Compile α :=
  (step.mapError .ir).zoom (·.design) fun design s => { s with design }

/-! ### Names -/

/-- Takes a module symbol close to the given name into use. -/
def reserveSymbol (name : String) : Compile String := do
  let s ← get
  let (symbol, symbols) := s.symbols.uniquify name
  set { s with symbols }
  return symbol

def releaseSymbol (symbol : String) : Compile Unit :=
  modify fun s => { s with symbols := s.symbols.release symbol }

/-- Takes an instance name close to the given one into use within the innermost generator. -/
def uniquifyInstanceName (name : String) : Compile String := do
  let s ← get
  match s.blocks with
  | [] => throw .noActiveScope
  | block :: outer =>
    let (fresh, block) := block.uniquify name
    set { s with blocks := block :: outer }
    return fresh

def pushBlock : Compile Unit :=
  modify fun s => { s with blocks := .empty :: s.blocks }

/-- Closes the innermost scope of instance names. -/
def popBlock : Compile Unit :=
  modify fun s => { s with blocks := s.blocks.tail }

/-! ### Modules -/

/-- Attributes that every module of a definition has: the attribute group and the parameters. -/
def sharedAttributes (d : Definition ρ) : AttributeMap :=
  let attributes := d.interface.attributes.getD .empty
  match d.parameters with
  | some key => attributes.insert "parameters" key.toAttribute
  | none => attributes

/-- Attributes of a module with a generator. Its output file is named after the definition, unless
the definition declares attributes of its own. -/
def generatedAttributes (d : Definition ρ) : AttributeMap :=
  match d.interface.attributes with
  | some _ => sharedAttributes d
  | none => (sharedAttributes d).insert "output_file" (.str (d.baseName ++ ".sv"))

/-- Output file of modules implemented elsewhere. -/
def externalOutputFile : String :=
  "external_modules.sv"

/-- Attributes of a module without generator. -/
def externalAttributes (d : Definition ρ) : AttributeMap :=
  ((sharedAttributes d).insert "verilogName" (.str d.name)).insert "output_file"
    (.str externalOutputFile)

/-- Parameters that a module without generator declares. -/
def externalParameters (d : Definition ρ) : List ParameterDecl :=
  match d.parameters with
  | some key => key.values.entries.map fun (name, value) => ⟨name, value.kindName⟩
  | none => []

/-- Adds the module of a definition to the design: a copy of its image, a module whose body is to be
generated, or an external module. -/
def insertModule (d : Definition ρ) (symbol : String) : Edit ModuleId :=
  match d.image, d.generator? with
  | some image, _ => Edit.importImage image symbol
  | none, some generator =>
    Edit.newModule symbol d.inputPorts d.outputPorts (generatedAttributes d) generator.location
  | none, none =>
    Edit.newExternalModule symbol d.inputPorts d.outputPorts (externalParameters d)
      (externalAttributes d) .unknown

/-- Manifest record of the module of a definition. -/
def manifestEntry (d : Definition ρ) (symbol : String) (config : Config) : ManifestEntry where
  symbol
  metadata := d.recordedMetadata config
  parameters := (d.parameters.map (·.values)).getD .empty
  constants := d.constantValues

/-- Makes the module of a definition, under a symbol close to its name, and records it. -/
def createModule (d : Definition ρ) : Compile ModuleId := do
  unless Name.isValid d.name do
    throw (.invalidName d.name)
  let symbol ← reserveSymbol d.name
  match ← attempt (edit (insertModule d symbol)) with
  | .error e =>
    releaseSymbol symbol
    throw e
  | .ok id =>
    modify fun s => { s with records := (id, manifestEntry d symbol s.config) :: s.records }
    return id

/-- Remembers the module made for a definition. -/
def bindModule (d : DefId) (id : ModuleId) : Compile Unit :=
  modify fun s => { s with modules := (d, id) :: s.modules }

/-- Notes that the generator of a definition runs from now on. -/
def startGenerating (d : DefId) : Compile Unit :=
  modify fun s => { s with generating := d :: s.generating }

/-- Notes that the generator of a definition runs no longer. -/
def stopGenerating (d : DefId) : Compile Unit :=
  modify fun s => { s with generating := s.generating.filter (· ≠ d) }

def warn (warning : Warning) : Compile Unit :=
  modify fun s => { s with warnings := s.warnings ++ [warning] }

/-- Removes everything made for a definition whose generation failed. -/
def discardModule (d : DefId) (name : String) (id : ModuleId) : Compile Unit := do
  warn (.discarded name)
  modify fun s => { s with
    modules := s.modules.filter (·.1 ≠ d)
    records := s.records.filter (·.1 ≠ id)
    instances := s.instances.filter (·.parent ≠ id) }
  match ← edit (Edit.eraseModule id) with
  | some m => releaseSymbol m.symbol
  | none => return ()

/-! ### Instances -/

/-- Records an instance inside the module being generated. -/
def registerInstance (name : String) (module : ModuleId) (op : OpId) : Compile InstanceId := do
  let s ← get
  let some parent := s.design.scopes.insertionPoint? | throw .noActiveScope
  let id : InstanceId := ⟨s.instances.length⟩
  let record : InstanceRecord := { id, name, module, parent, op }
  set { s with instances := s.instances ++ [record] }
  return id

end Compile

end Wirework
