import Wirework.Design.Edit
import Wirework.Interface
import Wirework.Parameters

/-! # Module definitions

A definition is the interface of a module together with its generator, if it has one, or with the image of an existing
module.  Definitions without either stand for modules implemented elsewhere.  With a definition goes descriptive
information, which ends up in the records of a manifest; blanks are left out of the exported documents.

Definitions, parameterization functions, caches and the instances registered by a session stand in tables and are
known by their positions, each kind by a handle of its own. -/

namespace Wirework

/-! ## Settings of a session -/

/-- What happens when a generator assigns an output a second time. -/
inductive ReassignPolicy where
  /-- The later assignment wins. -/
  | allow
  /-- The later assignment wins with a warning. -/
  | warn
  /-- The later assignment is an error. -/
  | deny
deriving DecidableEq, Repr

/-- The policy of a name. -/
def ReassignPolicy.ofText (text : String) : Except BuildError ReassignPolicy :=
  match text with
  | "allow" => .ok allow
  | "warn" => .ok warn
  | "deny" => .ok deny
  | _ => .error (.configuration (.unknownPolicy text))

/-- Where the sources of a design come from. -/
structure Provenance where
  repo : Option String := none
  commitHash : Option String := none
deriving DecidableEq, Repr

/-- Settings of a session. -/
structure Config where
  reassign : ReassignPolicy := .warn
  /-- Blank metadata are filled in when a module is made. -/
  autoMetadata : Bool := true
  /-- The origin to fill in; `none` when it cannot be determined. -/
  provenance : Option Provenance := some {}
deriving DecidableEq, Repr

/-! ## Metadata and manifests -/

/-- Descriptive information about a module. -/
structure Metadata where
  name : Option String := none
  repo : Option String := none
  commitHash : Option String := none
  version : Option String := none
  summary : Option String := none
  misc : AttributeMap := .empty
deriving DecidableEq

/-- Member of an exported object, left out when there is nothing to export. -/
def optionalMember (name : String) (value : Option Json) : List (String × Json) :=
  (value.map fun json => (name, json)).toList

/-- Member for a dictionary, left out when the dictionary is empty. -/
def dictMember (name : String) (entries : AttributeMap) : List (String × Json) :=
  optionalMember name (if entries.isEmpty then none else some (Attribute.dict entries).toJson)

def Metadata.toJson (m : Metadata) : Json :=
  .obj (optionalMember "name" (m.name.map .str) ++ optionalMember "repo" (m.repo.map .str)
    ++ optionalMember "commit_hash" (m.commitHash.map .str)
    ++ optionalMember "version" (m.version.map .str)
    ++ optionalMember "summary" (m.summary.map .str) ++ dictMember "misc" m.misc)

/-- Record of a module made by a session. -/
structure ManifestEntry where
  symbol : String
  metadata : Option Metadata
  parameters : AttributeMap
  constants : AttributeMap
deriving DecidableEq

def ManifestEntry.toJson (e : ManifestEntry) : Json :=
  .obj (("symbol", .str e.symbol) :: optionalMember "metadata" (e.metadata.map (·.toJson))
    ++ dictMember "parameters" e.parameters ++ dictMember "constants" e.constants)

/-- The records of a manifest as a JSON array. -/
def manifestJson (entries : List ManifestEntry) : Json :=
  .arr (entries.map (·.toJson))

/-! ## Handles -/

/-- Identity of a definition. -/
structure DefId where
  index : Nat
deriving DecidableEq, Repr

/-- Identity of a parameterization function. -/
structure FactoryId where
  index : Nat
deriving DecidableEq, Repr

/-- Identity of a cache of parameterized definitions. -/
structure CacheId where
  index : Nat
deriving DecidableEq, Repr

/-- Identifies an instance registered in a session. -/
structure InstanceId where
  index : Nat
deriving DecidableEq, Repr

/-! ## Module definitions -/

/-- What a definition is made from. -/
structure DefinitionSpec (ρ : Type) where
  name : String
  declarations : List (String × Declaration ρ) := []
  moduleName : Option String := none
  instanceName : Option String := none
  doc : Option String := none
  metadata : Option Metadata := none
  image : Option ModuleImage := none

/-- A module definition with routines of type `ρ`. -/
structure Definition (ρ : Type) where
  baseName : String
  moduleName : Option String
  instanceNameOverride : Option String
  doc : Option String
  metadata : Option Metadata
  interface : Interface ρ
  table : PortTable
  /-- The module that is copied into every session the definition is used in. -/
  image : Option ModuleImage
  /-- Set when the definition is made by a parameterization function. -/
  parameters : Option ParameterKey := none

namespace Definition

variable {ρ : Type}

/-! ### Making definitions -/

/-- The definition of a specification, whose name must be valid. -/
def ofSpec (spec : DefinitionSpec ρ) : Except BuildError (Definition ρ) := do
  unless Name.isValid spec.name do
    throw (.invalidName spec.name)
  let interface ← Interface.ofDeclarations spec.name spec.declarations
  return {
    baseName := spec.name, moduleName := spec.moduleName
    instanceNameOverride := spec.instanceName, doc := spec.doc, metadata := spec.metadata
    interface, table := .ofInterface interface, image := spec.image }

/-- Declaration of an input port of an existing module: clocks take the role of a clock. -/
def importedInput (port : Port) : String × Declaration ρ :=
  (port.name, if port.type = .clock then .clock else .plainInput port.type)

/-- The specification of a definition that copies an existing module. -/
def importSpec (image : ModuleImage) : DefinitionSpec ρ where
  name := image.symbol
  moduleName := some image.symbol
  declarations := image.inputs.map importedInput
    ++ image.outputs.map fun port => (port.name, .output port.type)
  image := some image

/-- The definition that copies a live module of a design, body included. -/
def ofModule (d : Design) (id : ModuleId) : Except BuildError (Definition ρ) :=
  match d.image id with
  | .ok image => ofSpec (importSpec image)
  | .error e => .error (.ir e)

/-! ### Views -/

def inputs (d : Definition ρ) : List PortSpec :=
  d.interface.inputs

def outputs (d : Definition ρ) : List PortSpec :=
  d.interface.outputs

def input? (d : Definition ρ) (name : String) : Option PortSpec :=
  (d.table.inputIndex? name).bind fun index => d.inputs[index]?

def output? (d : Definition ρ) (name : String) : Option PortSpec :=
  (d.table.outputIndex? name).bind fun index => d.outputs[index]?

/-- The generator that builds the body. -/
def generator? (d : Definition ρ) : Option (Generator ρ) :=
  d.interface.generator?

/-- The definition copies an existing module. -/
def isImported (d : Definition ρ) : Bool :=
  d.image.isSome

/-- Name of the module made for the definition. A parameterized definition with a generator appends
its parameters to its base name; an explicit name takes precedence. -/
def name (d : Definition ρ) : String :=
  match d.moduleName with
  | some name => name
  | none =>
    match d.parameters with
    | some key => if d.generator?.isSome then key.moduleName d.baseName else d.baseName
    | none => d.baseName

/-- Name of instances that are given none. -/
def instanceName (d : Definition ρ) : String :=
  d.instanceNameOverride.getD d.baseName

/-- Input ports as they stand in the signature of a module. -/
def inputPorts (d : Definition ρ) : List Port :=
  d.inputs.map fun port => ⟨port.name, port.type⟩

/-- Output ports as they stand in the signature of a module. -/
def outputPorts (d : Definition ρ) : List Port :=
  d.outputs.map fun port => ⟨port.name, port.type⟩

def constantValues (d : Definition ρ) : AttributeMap :=
  ⟨d.interface.constants.entries.map fun (name, constant) => (name, constant.value)⟩

/-! ### Metadata -/

/-- The origin filled in where neither repository nor commit is given. -/
def withProvenance (m : Metadata) (config : Config) : Metadata :=
  if m.repo.isNone && m.commitHash.isNone then
    match config.provenance with
    | some p => { m with repo := p.repo, commitHash := p.commitHash }
    | none => m
  else m

/-- Metadata recorded for a module: those of the definition with the blanks filled in, if the
session does so. -/
def recordedMetadata (d : Definition ρ) (config : Config) : Option Metadata :=
  if config.autoMetadata then
    let m := d.metadata.getD {}
    some (withProvenance
      { m with name := m.name <|> some d.baseName, summary := m.summary <|> d.doc } config)
  else d.metadata

end Definition

end Wirework
