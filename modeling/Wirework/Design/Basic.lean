import Wirework.Attribute

/-! # Designs

A design holds three tables: modules, operations and values.  A module is known by its position in the module table
and by its symbol; an erased module leaves its position empty.  The body of a module lists operations of the operation
table, whose operands and results are values of the value table.  Positions are never given out twice, so an
identifier that has become stale is recognised.

Beside the tables stand the scopes: where operations are inserted, which source location they get and which clock
registers use.  Each is a stack, and what is innermost counts.

A step that builds a design may be refused with an `IrError`; the errors name the module, the value or the port that
they are about. -/

namespace Wirework

/-! ## Source locations -/

/-- A place in a source file. -/
structure Location where
  file : String
  line : Nat
  column : Nat
deriving DecidableEq, Repr

namespace Location

def unknown : Location :=
  ⟨"-", 0, 0⟩

/-- Written form: file, line and column separated by colons. -/
def text (loc : Location) : String :=
  loc.file ++ ":" ++ toString loc.line ++ ":" ++ toString loc.column

end Location

/-! ## Tables and scopes -/

/-! ### Identifiers -/

/-- Position of a module in the module table. -/
structure ModuleId where
  index : Nat
deriving DecidableEq, Repr

/-- Position of an operation in the operation table. -/
structure OpId where
  index : Nat
deriving DecidableEq, Repr

/-- Position of a value in the value table. -/
structure ValueId where
  index : Nat
deriving DecidableEq, Repr

/-! ### Values and signals -/

/-- Where a value comes from. -/
inductive ValueSource where
  /-- The block argument for an input port of a module. -/
  | argument (module : ModuleId) (index : Nat)
  /-- A result of an operation. -/
  | result (op : OpId) (index : Nat)
deriving DecidableEq, Repr

/-- An entry of the value table. -/
structure Value where
  type : HwType
  source : ValueSource
deriving DecidableEq, Repr

/-- A value together with the type its user takes it to have. -/
structure Signal where
  value : ValueId
  type : HwType
deriving DecidableEq, Repr

/-- A value that is used as a clock. -/
structure Clock where
  value : ValueId
deriving DecidableEq, Repr

def Clock.signal (clock : Clock) : Signal :=
  ⟨clock.value, .clock⟩

/-! ### Operations -/

/-- An operation over references to modules (`μ`) and to values (`ν`). In a design these are
positions in its tables; in a detached copy they are symbols and positions in the copy. -/
inductive Operation (μ ν : Type) where
  /-- A constant number. -/
  | constant (value : Constant)
  /-- Sum of two values of one type, wrapping around. -/
  | add (lhs rhs : ν)
  /-- A register that takes over its input at the clock. -/
  | register (input clock : ν)
  /-- An instance of a module. -/
  | instantiate (module : μ) (name : String) (inputs : List ν) (parameters : AttributeMap)
  /-- The end of a body, with the values of the output ports. -/
  | output (values : List ν)
deriving DecidableEq

namespace Operation

variable {μ μ' ν ν' : Type}

/-- The values an operation uses, in order. -/
def operands : Operation μ ν → List ν
  | constant _ => []
  | add lhs rhs => [lhs, rhs]
  | register input clock => [input, clock]
  | instantiate _ _ inputs _ => inputs
  | output values => values

/-- The operation ends its body. -/
def isTerminator : Operation μ ν → Bool
  | output _ => true
  | _ => false

/-- The module an operation instantiates. -/
def callee? : Operation μ ν → Option μ
  | instantiate module _ _ _ => some module
  | _ => none

/-- Replaces the references of an operation: its operands in order, then the module. -/
def traverse {m : Type → Type} [Monad m] (onModule : μ → m μ') (onValue : ν → m ν') :
    Operation μ ν → m (Operation μ' ν')
  | constant value => return constant value
  | add lhs rhs => return add (← onValue lhs) (← onValue rhs)
  | register input clock => return register (← onValue input) (← onValue clock)
  | instantiate module name inputs parameters => do
    let inputs ← inputs.mapM onValue
    return instantiate (← onModule module) name inputs parameters
  | output values => return output (← values.mapM onValue)

end Operation

/-- An entry of the operation table. -/
structure Op where
  /-- The module whose body holds the operation. -/
  parent : ModuleId
  operation : Operation ModuleId ValueId
  results : List ValueId
  attributes : AttributeMap
  location : Location
deriving DecidableEq

/-! ### Modules -/

/-- A port in the signature of a module. -/
structure Port where
  name : String
  type : HwType
deriving DecidableEq, Repr

/-- A parameter of an external module, with the kind of attribute it takes. -/
structure ParameterDecl where
  name : String
  kind : String
deriving DecidableEq, Repr

/-- The body of a module. -/
structure Body where
  /-- One block argument for each input port. -/
  arguments : List ValueId
  /-- The operations in the order of their insertion. -/
  ops : Array OpId := #[]
  /-- The last operation has been inserted. -/
  terminated : Bool := false
deriving DecidableEq, Repr

/-- How a module is implemented. -/
inductive ModuleKind where
  /-- By a body, which may not have been begun yet. -/
  | generated (body : Option Body)
  /-- Outside of the design. -/
  | external (parameters : List ParameterDecl)
deriving DecidableEq, Repr

/-- A module of a design. -/
structure HwModule where
  symbol : String
  inputs : List Port
  outputs : List Port
  attributes : AttributeMap
  kind : ModuleKind
  location : Location
deriving DecidableEq

namespace HwModule

/-- The module is implemented outside of the design. -/
def isExternal (m : HwModule) : Bool :=
  match m.kind with
  | .external _ => true
  | .generated _ => false

/-- The body of the module, once it has been begun. -/
def body? (m : HwModule) : Option Body :=
  match m.kind with
  | .generated body => body
  | .external _ => none

/-- The module has a body that is terminated. -/
def isComplete (m : HwModule) : Bool :=
  m.body?.any (·.terminated)

end HwModule

/-! ### Scopes -/

/-- The nested scopes of construction, innermost first. -/
structure Scopes where
  insertionPoints : List ModuleId := []
  locations : List Location := []
  /-- An entry without a clock hides the clocks outside of it. -/
  clocks : List (Option Clock) := []
deriving DecidableEq, Repr

namespace Scopes

/-- The module whose body receives operations. -/
def insertionPoint? (s : Scopes) : Option ModuleId :=
  s.insertionPoints.head?

/-- The location given to operations. -/
def location (s : Scopes) : Location :=
  s.locations.head?.getD .unknown

/-- The clock of registers that name none. -/
def clock? (s : Scopes) : Option Clock :=
  s.clocks.head?.join

end Scopes

/-! ### The design -/

/-- Modules, operations and values, and the scopes of construction. -/
structure Design where
  modules : Array (Option HwModule) := #[]
  ops : Array Op := #[]
  values : Array Value := #[]
  scopes : Scopes := {}
deriving DecidableEq

namespace Design

def empty : Design := {}

/-- The module at a position, unless it has been erased. -/
def module? (d : Design) (id : ModuleId) : Option HwModule :=
  d.modules[id.index]?.join

/-- The live modules in the order of their creation. -/
def liveModules (d : Design) : List (ModuleId × HwModule) :=
  d.modules.toList.zipIdx.filterMap fun (slot, index) => slot.map fun m => (⟨index⟩, m)

def find? (d : Design) (symbol : String) : Option ModuleId :=
  (d.liveModules.find? fun entry => entry.2.symbol = symbol).map (·.1)

def op? (d : Design) (id : OpId) : Option Op :=
  d.ops[id.index]?

def value? (d : Design) (id : ValueId) : Option Value :=
  d.values[id.index]?

/-- The recorded type of a value. -/
def typeOf? (d : Design) (id : ValueId) : Option HwType :=
  (d.value? id).map (·.type)

/-- The module whose body defines a value. -/
def owner? (d : Design) (id : ValueId) : Option ModuleId :=
  (d.value? id).bind fun value =>
    match value.source with
    | .argument module _ => some module
    | .result op _ => (d.op? op).map (·.parent)

end Design

/-! ## Errors -/

/-- Why a step of design construction is refused. -/
inductive IrError where
  /-- The text is no valid name. -/
  | invalidName (name : String)
  /-- There is no such live module. -/
  | invalidModule (id : ModuleId)
  /-- There is no such value. -/
  | invalidValue (id : ValueId)
  /-- There is no such operation, or it has no such result. -/
  | invalidOp (id : OpId)
  /-- A live module has the symbol already. -/
  | moduleNameConflict (symbol : String)
  /-- External modules have no body. -/
  | externalModuleBody (symbol : String)
  /-- The body has been begun before. -/
  | bodyAlreadyExists (symbol : String)
  /-- Nothing can follow the last operation of a body. -/
  | bodyTerminated (symbol : String)
  /-- There is no body to insert into. -/
  | noInsertionPoint
  /-- An operand belongs to the body of another module. -/
  | foreignValue (module : String)
  /-- The module has no body, or its body is not terminated. -/
  | incompleteModule (symbol : String)
  /-- No live module has the symbol. -/
  | unknownModule (symbol : String)
  /-- A register needs a clock and none is in scope. -/
  | noAmbientClock
  /-- The number does not fit the type. -/
  | constantOutOfRange (value : Int) (type : HwType)
  /-- The operands of a sum have different types. -/
  | operandTypeMismatch (lhs rhs : HwType)
  /-- Clocks cannot be added. -/
  | nonArithmeticType (type : HwType)
  /-- An instance has too few or too many inputs. -/
  | instanceInputCount (name module : String) (expected found : Nat)
  /-- An input of an instance has the wrong type. -/
  | instanceInputType (name module port : String) (expected found : HwType)
  /-- A module is given too few or too many output values. -/
  | outputCount (module : String) (expected found : Nat)
  /-- An output value has the wrong type. -/
  | outputType (module port : String) (expected found : HwType)
deriving DecidableEq, Repr

namespace IrError

/-- Description of the error for the user. -/
def message : IrError → String
  | invalidName name => s!"Invalid name '{name}'"
  | invalidModule _ => "Invalid module ID"
  | invalidValue _ => "Invalid value ID"
  | invalidOp _ => "Invalid operation ID"
  | moduleNameConflict symbol => s!"Module name conflict: '{symbol}'"
  | externalModuleBody symbol => s!"External module '{symbol}' cannot have a body"
  | bodyAlreadyExists symbol => s!"Module '{symbol}' already has a body"
  | bodyTerminated symbol => s!"Body of module '{symbol}' is already terminated"
  | noInsertionPoint =>
    "No insertion point - operations can only be created inside a module body"
  | foreignValue module => s!"Value used in module '{module}' belongs to another module"
  | incompleteModule symbol => s!"Module '{symbol}' has no complete body"
  | unknownModule symbol => s!"Unknown module '{symbol}'"
  | noAmbientClock => "No clock in scope"
  | constantOutOfRange value type => s!"Constant {value} does not fit in type '{type.text}'"
  | operandTypeMismatch lhs rhs =>
    s!"Operand types do not match: '{lhs.text}' and '{rhs.text}'"
  | nonArithmeticType type => s!"Operation requires an arithmetic type, got '{type.text}'"
  | instanceInputCount name module expected found =>
    s!"Instance '{name}' of '{module}' expects {expected} inputs, got {found}"
  | instanceInputType name _ port expected found =>
    s!"Incompatible type on input '{port}' of instance '{name}': expected '{expected.text}', "
      ++ s!"got '{found.text}'"
  | outputCount module expected found =>
    s!"Module '{module}' has {expected} outputs, got {found} output values"
  | outputType module port expected found =>
    s!"Incompatible type on output '{port}' of module '{module}': expected '{expected.text}', "
      ++ s!"got '{found.text}'"

end IrError

end Wirework
