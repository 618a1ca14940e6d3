import Wirework.BuildError
import Wirework.Name

/-! # Interfaces of modules

The named members of a module definition are declarations: ports, constants, a group of free-form attributes and the
generator that builds the body.  Generators are kept abstract here; `ρ` is the type of their routines.

The interface of a module is read off its declarations (`Interface.ofDeclarations`): ports are numbered per direction
in the order of their declaration, and members whose names begin with an underscore are skipped.  Names have to be
distinct, and there is at most one generator and one attribute group.

A `PortTable` finds the ports of an interface by name.  It is drawn up once for each definition, by entering one port
after the other. -/

namespace Wirework

/-! ## Declarations -/

/-- Special meaning of an input port. -/
inductive PortRole where
  | plain
  | clock
  | reset
deriving DecidableEq, Repr

/-- Direction of a port. -/
inductive Direction where
  | input
  | output
deriving DecidableEq, Repr

/-- A port of a definition. -/
structure PortSpec where
  name : String
  direction : Direction
  /-- Position among the ports of the same direction. -/
  index : Nat
  type : HwType
  role : PortRole
deriving DecidableEq, Repr

/-- The generator of a definition and where it was declared. -/
structure Generator (ρ : Type) where
  name : String
  routine : ρ
  location : Location

/-- A constant of a definition. -/
structure ConstantSpec where
  name : String
  value : Attribute
  type : HwType
deriving DecidableEq

/-- An entry of the attribute group. -/
inductive AttributeEntry where
  /-- A bare name, recorded as a unit attribute. -/
  | flag (name : String)
  | value (name : String) (content : Attribute)
deriving DecidableEq

def AttributeEntry.toPair : AttributeEntry → String × Attribute
  | flag name => (name, .unit)
  | value name content => (name, content)

/-- A named member of a module definition. -/
inductive Declaration (ρ : Type) where
  | input (type : HwType) (role : PortRole)
  | output (type : HwType)
  | generator (routine : ρ) (location : Location)
  | constant (value : Attribute) (type : HwType)
  | attributes (entries : List AttributeEntry)

namespace Declaration

variable {ρ : Type}

def clock : Declaration ρ :=
  input .clock .clock

/-- A reset input, one bit wide. -/
def reset : Declaration ρ :=
  input (.bits 1) .reset

/-- An input without special meaning. -/
def plainInput (type : HwType) : Declaration ρ :=
  input type .plain

def roleText : PortRole → String
  | .plain => "Plain"
  | .clock => "Clock"
  | .reset => "Reset"

/-- Written form of a declaration; an attribute group has none. -/
def text? : Declaration ρ → Option String
  | input type role => some ("Input(" ++ type.text ++ ", " ++ roleText role ++ ")")
  | output type => some ("Output(" ++ type.text ++ ")")
  | generator _ location => some ("Generator(" ++ location.text ++ ")")
  | constant value type => some ("Constant(" ++ value.text ++ " : " ++ type.text ++ ")")
  | attributes _ => none

end Declaration

/-! ## Interfaces -/

/-- The members of a module definition, sorted by what they are. -/
structure Interface (ρ : Type) where
  /-- Ports in the order of their declaration. -/
  ports : List PortSpec := []
  generators : Dict (Generator ρ) := .empty
  constants : Dict ConstantSpec := .empty
  /-- The attribute group, if one is declared. -/
  attributes : Option AttributeMap := none

namespace Interface

variable {ρ : Type}

def inputs (i : Interface ρ) : List PortSpec :=
  i.ports.filter (·.direction = .input)

def outputs (i : Interface ρ) : List PortSpec :=
  i.ports.filter (·.direction = .output)

def inRole (i : Interface ρ) (role : PortRole) : List PortSpec :=
  i.inputs.filter (·.role = role)

/-- Names of the ports in a role, sorted. -/
def roleNames (i : Interface ρ) (role : PortRole) : List String :=
  ((i.inRole role).map (·.name)).mergeSort (fun a b => decide (a ≤ b))

/-- Names of the clocks, sorted. -/
def clocks (i : Interface ρ) : List String :=
  i.roleNames .clock

/-- Names of the resets, sorted. -/
def resets (i : Interface ρ) : List String :=
  i.roleNames .reset

/-- The generator of the module, if it has one. -/
def generator? (i : Interface ρ) : Option (Generator ρ) :=
  i.generators.values.head?

/-! ### Reading declarations -/

/-- The number a constant stands for; a truth value stands for 0 or 1. -/
def constantValue? : Attribute → Option Int
  | .int value => some value
  | .bool value => some (if value then 1 else 0)
  | _ => none

/-- A constant is a number that fits its type. -/
def checkConstant (module name : String) (value : Attribute) (type : HwType) :
    Except BuildError Unit :=
  match constantValue? value with
  | none => .error (.configuration (.constantKind name module value))
  | some number =>
    if type.Fits number then .ok ()
    else .error (.configuration (.constantRange name module type value))

/-- Adds a declared member to the interface. -/
def addMember (module name : String) (i : Interface ρ) :
    Declaration ρ → Except BuildError (Interface ρ)
  | .input type role =>
    if role = .clock ∧ type ≠ .clock then
      .error (.configuration (.clockPortType name module type))
    else
      .ok { i with ports := i.ports ++ [⟨name, .input, i.inputs.length, type, role⟩] }
  | .output type =>
    .ok { i with ports := i.ports ++ [⟨name, .output, i.outputs.length, type, .plain⟩] }
  | .generator routine location =>
    .ok { i with generators := i.generators.insert name ⟨name, routine, location⟩ }
  | .constant value type => do
    checkConstant module name value type
    return { i with constants := i.constants.insert name ⟨name, value, type⟩ }
  | .attributes entries =>
    match i.attributes with
    | some _ => .error (.duplicateDeclaration module name)
    | none => .ok { i with attributes := some (.ofList (entries.map (·.toPair))) }

/-- Adds declarations to the interface, given the names seen so far. -/
def addMembers (module : String) :
    List (String × Declaration ρ) → List String → Interface ρ → Except BuildError (Interface ρ)
  | [], _, i => return i
  | (name, declaration) :: rest, seen, i =>
    if Name.isPrivate name then addMembers module rest seen i
    else if name ∈ seen then throw (.duplicateDeclaration module name)
    else do
      let i ← i.addMember module name declaration
      addMembers module rest (name :: seen) i

/-- The interface that the declarations of a module describe. -/
def ofDeclarations (module : String) (declarations : List (String × Declaration ρ)) :
    Except BuildError (Interface ρ) := do
  let i ← addMembers module declarations [] {}
  if 1 < i.generators.size then
    throw (.multipleGenerators module i.generators.names)
  return i

end Interface

/-! ## Port tables -/

/-- The positions of ports by name, and the positions of the clocks. -/
structure PortTable where
  inputs : Dict Nat
  outputs : Dict Nat
  clocks : List Nat
deriving DecidableEq, Repr

namespace PortTable

variable {ρ : Type}

/-- Enters ports one after the other under their names. -/
def indices (ports : List PortSpec) : Dict Nat :=
  .ofList (ports.map fun port => (port.name, port.index))

def ofInterface (i : Interface ρ) : PortTable where
  inputs := indices i.inputs
  outputs := indices i.outputs
  clocks := (i.inRole .clock).map (·.index)

def inputIndex? (t : PortTable) (name : String) : Option Nat :=
  t.inputs.find? name

def outputIndex? (t : PortTable) (name : String) : Option Nat :=
  t.outputs.find? name

def isClock (t : PortTable) (index : Nat) : Bool :=
  t.clocks.contains index

def inputCount (t : PortTable) : Nat :=
  t.inputs.size

def outputCount (t : PortTable) : Nat :=
  t.outputs.size

end PortTable

end Wirework
