import Wirework.Design.Basic
import Wirework.Name
import Wirework.Step

/-! # Building a design

* **Reading.**  Look-ups that report what is missing, the results of operations as signals, and the check of an
  operation against the signatures it refers to (`Design.verify`).  Of an instance only the operands are compared
  with the callee; its results are as whoever inserts it says.
* **Building.**  The steps in `Edit`.  A step may be refused; the design it leaves behind is then part of the outcome
  as well, so that the absence of effects can be stated and proved.  Operations go to the body at the innermost
  insertion point.  An operation may only use values of the body it is inserted into, and nothing follows the
  operation that ends a body.
* **Copying.**  An image is a copy of a module that no longer belongs to a design.  Its operations refer to values by
  their position in the image, block arguments first and then results in order, and to modules by symbol, so it can be
  inserted into any design that has modules of those symbols.  `Edit.importImage` makes the module first and then
  copies the operations one by one; if one of them is refused the module is erased again. -/

namespace Wirework

/-! ## Reading a design -/

namespace Design

def getModule (d : Design) (id : ModuleId) : Except IrError HwModule :=
  match d.module? id with
  | some m => .ok m
  | none => .error (.invalidModule id)

def getOp (d : Design) (id : OpId) : Except IrError Op :=
  match d.op? id with
  | some op => .ok op
  | none => .error (.invalidOp id)

def getValue (d : Design) (id : ValueId) : Except IrError Value :=
  match d.value? id with
  | some value => .ok value
  | none => .error (.invalidValue id)

/-! ### Results -/

/-- A value as a signal of its recorded type. -/
def signal (d : Design) (id : ValueId) : Except IrError Signal := do
  let value ← d.getValue id
  return ⟨id, value.type⟩

def result (d : Design) (id : OpId) (index : Nat) : Except IrError Signal := do
  let op ← d.getOp id
  match op.results[index]? with
  | some value => d.signal value
  | none => throw (.invalidOp id)

def results (d : Design) (id : OpId) : Except IrError (List Signal) := do
  let op ← d.getOp id
  op.results.mapM d.signal

/-! ### Verification -/

/-- An input of an instance has the type of its port. -/
def verifyInput (d : Design) (name : String) (callee : HwModule) (port : Port) (input : ValueId) :
    Except IrError Unit := do
  let found := (← d.getValue input).type
  if found ≠ port.type then
    throw (.instanceInputType name callee.symbol port.name port.type found)

/-- The inputs of an instance match the ports of its module in number and in type. -/
def verifyInstance (d : Design) (module : ModuleId) (name : String) (inputs : List ValueId) :
    Except IrError Unit := do
  unless Name.isValid name do
    throw (.invalidName name)
  let callee ← d.getModule module
  unless callee.inputs.length = inputs.length do
    throw (.instanceInputCount name callee.symbol callee.inputs.length inputs.length)
  (callee.inputs.zip inputs).forM fun (port, input) => d.verifyInput name callee port input

/-- Checks an operation against the signatures it refers to. -/
def verify (d : Design) (id : OpId) : Except IrError Unit := do
  let op ← d.getOp id
  op.operation.operands.forM fun value => discard (d.getValue value)
  match op.operation with
  | .instantiate module name inputs _ => d.verifyInstance module name inputs
  | _ => return ()

end Design

/-! ## Building a design -/

/-- A step of design construction. -/
abbrev Edit := Step IrError Design

namespace Edit

open Step

/-! ### Scopes -/

def modifyScopes (f : Scopes → Scopes) : Edit Unit :=
  modify fun d => { d with scopes := f d.scopes }

/-- Inserts at the end of the body of a module from now on. -/
def pushInsertionPoint (id : ModuleId) : Edit Unit := do
  let m ← query (·.getModule id)
  if m.body?.isNone then
    throw .noInsertionPoint
  modifyScopes fun s => { s with insertionPoints := id :: s.insertionPoints }

/-- Leaves the innermost insertion point, and names it if there was one. -/
def popInsertionPoint : Edit (Option ModuleId) := do
  let popped := (← get).scopes.insertionPoint?
  modifyScopes fun s => { s with insertionPoints := s.insertionPoints.tail }
  return popped

/-- Gives a location to the operations inserted from now on. -/
def pushLocation (location : Location) : Edit Unit :=
  modifyScopes fun s => { s with locations := location :: s.locations }

/-- Leaves the innermost location, and names it if there was one. -/
def popLocation : Edit (Option Location) := do
  let popped := (← get).scopes.locations.head?
  modifyScopes fun s => { s with locations := s.locations.tail }
  return popped

/-- Sets the clock of registers that name none; `none` leaves them without a clock. -/
def pushClock (clock : Option Clock) : Edit Unit :=
  modifyScopes fun s => { s with clocks := clock :: s.clocks }

/-- Leaves the innermost clock entry, and names its clock if it had one. -/
def popClock : Edit (Option Clock) := do
  let popped := (← get).scopes.clock?
  modifyScopes fun s => { s with clocks := s.clocks.tail }
  return popped

/-! ### Modules -/

/-- Adds a module under a symbol that is valid and that no live module has. -/
def addModule (m : HwModule) : Edit ModuleId := do
  let d ← get
  unless Name.isValid m.symbol do
    throw (.invalidName m.symbol)
  if (d.find? m.symbol).isSome then
    throw (.moduleNameConflict m.symbol)
  set { d with modules := d.modules.push (some m) }
  return ⟨d.modules.size⟩

/-- Adds a module whose body is still to be generated. -/
def newModule (symbol : String) (inputs outputs : List Port) (attributes : AttributeMap)
    (location : Location) : Edit ModuleId :=
  addModule { symbol, inputs, outputs, attributes, kind := .generated none, location }

/-- Adds a module that is implemented outside of the design. -/
def newExternalModule (symbol : String) (inputs outputs : List Port)
    (parameters : List ParameterDecl) (attributes : AttributeMap) (location : Location) :
    Edit ModuleId :=
  addModule { symbol, inputs, outputs, attributes, kind := .external parameters, location }

/-- Removes a module, and returns it if it was live. The operations of its body stay in the
table. -/
def eraseModule (id : ModuleId) : Edit (Option HwModule) := do
  let d ← get
  set { d with modules := d.modules.setIfInBounds id.index none }
  return d.module? id

def setBody (id : ModuleId) (body : Body) : Edit Unit :=
  modify fun d => { d with
    modules := d.modules.modify id.index (Option.map fun m => { m with kind := .generated body }) }

/-- Adds values of the given types to the value table. -/
def newValues (types : List HwType) (source : Nat → ValueSource) : Edit (List ValueId) := do
  let d ← get
  set { d with values := d.values ++ types.mapIdx fun index type => Value.mk type (source index) }
  return (List.range types.length).map fun index => ⟨d.values.size + index⟩

/-- Begins the body of a module, with one block argument for each input port. -/
def addEntryBlock (id : ModuleId) : Edit (List ValueId) := do
  let m ← query (·.getModule id)
  match m.kind with
  | .external _ => throw (.externalModuleBody m.symbol)
  | .generated (some _) => throw (.bodyAlreadyExists m.symbol)
  | .generated none =>
    let arguments ← newValues (m.inputs.map (·.type)) (.argument id)
    setBody id { arguments }
    return arguments

/-! ### Inserting operations -/

/-- An operand is a value of the body it is used in. -/
def checkOperand (parent : ModuleId) (value : ValueId) : Edit Unit := do
  let d ← get
  match d.owner? value with
  | none => throw (.invalidValue value)
  | some owner =>
    unless owner = parent do
      let m ← query (·.getModule parent)
      throw (.foreignValue m.symbol)

/-- Appends an operation to the body of a module. -/
def appendOp (parent : ModuleId) (operation : Operation ModuleId ValueId)
    (resultTypes : List HwType) (attributes : AttributeMap) (location : Location) : Edit OpId := do
  operation.operands.forM (checkOperand parent)
  let m ← query (·.getModule parent)
  let some body := m.body? | throw .noInsertionPoint
  if body.terminated then
    throw (.bodyTerminated m.symbol)
  let id : OpId := ⟨(← get).ops.size⟩
  setBody parent { body with ops := body.ops.push id, terminated := operation.isTerminator }
  let results ← newValues resultTypes (.result id)
  modify fun d => { d with ops := d.ops.push { parent, operation, results, attributes, location } }
  return id

/-- Appends an operation at the innermost insertion point. -/
def insertOp (operation : Operation ModuleId ValueId) (resultTypes : List HwType)
    (location? : Option Location) : Edit OpId := do
  let scopes := (← get).scopes
  let some parent := scopes.insertionPoint? | throw .noInsertionPoint
  appendOp parent operation resultTypes .empty (location?.getD scopes.location)

/-- Inserts an operation with one result of the given type. -/
def insertValue (operation : Operation ModuleId ValueId) (type : HwType) : Edit Signal := do
  let op ← insertOp operation [type] none
  query (·.result op 0)

/-- Inserts a constant of the given type, which it has to fit. -/
def constant (type : HwType) (value : Int) : Edit Signal := do
  let some c := Constant.ofInt? type value | throw (.constantOutOfRange value type)
  insertValue (.constant c) type

/-- Inserts an all-zero constant of the given type. -/
def zero (type : HwType) : Edit Signal :=
  insertValue (.constant (.zero type)) type

/-- Inserts the sum of two signals of one arithmetic type. -/
def add (lhs rhs : Signal) : Edit Signal := do
  unless lhs.type = rhs.type do
    throw (.operandTypeMismatch lhs.type rhs.type)
  unless lhs.type.isArithmetic do
    throw (.nonArithmeticType lhs.type)
  insertValue (.add lhs.value rhs.value) lhs.type

/-- Inserts a register with an explicit clock. -/
def registerWith (input : Signal) (clock : Clock) : Edit Signal :=
  insertValue (.register input.value clock.value) input.type

/-- Inserts a register with the clock in scope. -/
def register (input : Signal) : Edit Signal := do
  let some clock := (← get).scopes.clock? | throw .noAmbientClock
  registerWith input clock

/-- Inserts an instance of a module. Its inputs are checked by `Design.verify`. -/
def instantiate (module : ModuleId) (name : String) (inputs : List ValueId)
    (parameters : AttributeMap) (location : Location) : Edit OpId := do
  let m ← query (·.getModule module)
  insertOp (.instantiate module name inputs parameters) (m.outputs.map (·.type)) location

def setAttribute (id : OpId) (name : String) (value : Attribute) : Edit Unit := do
  let d ← get
  let op ← query (·.getOp id)
  let op := { op with attributes := op.attributes.insert name value }
  set { d with ops := d.ops.setIfInBounds id.index op }

/-- An output value has the type of its port. -/
def checkOutput (symbol : String) (port : Port) (value : Signal) : Edit Unit :=
  unless port.type = value.type do
    throw (.outputType symbol port.name port.type value.type)

/-- Ends the body at the innermost insertion point with the values of its output ports. -/
def output (values : List Signal) : Edit Unit := do
  let some parent := (← get).scopes.insertionPoint? | throw .noInsertionPoint
  let m ← query (·.getModule parent)
  unless m.outputs.length = values.length do
    throw (.outputCount m.symbol m.outputs.length values.length)
  (m.outputs.zip values).forM fun (port, value) => checkOutput m.symbol port value
  discard (insertOp (.output (values.map (·.value))) [] none)

end Edit

/-! ## Detached copies of modules -/

/-- An operation of an image. -/
structure ImageOp where
  operation : Operation String Nat
  resultTypes : List HwType
  attributes : AttributeMap
  location : Location
deriving DecidableEq

/-- What an image holds beside the signature. -/
inductive ImageContents where
  | external (parameters : List ParameterDecl)
  | body (ops : List ImageOp)
deriving DecidableEq

/-- A copy of a module detached from its design. -/
structure ModuleImage where
  symbol : String
  inputs : List Port
  outputs : List Port
  attributes : AttributeMap
  location : Location
  contents : ImageContents
deriving DecidableEq

namespace ModuleImage

/-- The operations of the copied body; none for an external module. -/
def ops (image : ModuleImage) : List ImageOp :=
  match image.contents with
  | .external _ => []
  | .body ops => ops

/-- The copied module is implemented outside of the design. -/
def isExternal (image : ModuleImage) : Bool :=
  match image.contents with
  | .external _ => true
  | .body _ => false

/-- Symbols of the instantiated modules, in the order of their instances. -/
def callees (image : ModuleImage) : List String :=
  image.ops.filterMap (·.operation.callee?)

end ModuleImage

/-! ### Taking an image -/

namespace Design

/-- Position of a value in the image. -/
def imageValue (locals : List ValueId) (value : ValueId) : Except IrError Nat :=
  match locals.idxOf? value with
  | some position => .ok position
  | none => .error (.invalidValue value)

def imageCallee (d : Design) (id : ModuleId) : Except IrError String := do
  return (← d.getModule id).symbol

/-- Copies operations, given the values numbered so far. -/
def imageOps (d : Design) : List OpId → List ValueId → Except IrError (List ImageOp)
  | [], _ => return []
  | id :: rest, locals => do
    let op ← d.getOp id
    let operation ← op.operation.traverse d.imageCallee (imageValue locals)
    let resultTypes ← op.results.mapM fun value => return (← d.getValue value).type
    let ops ← d.imageOps rest (locals ++ op.results)
    return { operation, resultTypes, attributes := op.attributes, location := op.location } :: ops

/-- A detached copy of a module, which must be external or complete. -/
def image (d : Design) (id : ModuleId) : Except IrError ModuleImage := do
  let m ← d.getModule id
  let contents ← match m.kind with
    | .external parameters => pure (.external parameters)
    | .generated (some body) =>
      if body.terminated then .body <$> d.imageOps body.ops.toList body.arguments
      else throw (.incompleteModule m.symbol)
    | .generated none => throw (.incompleteModule m.symbol)
  return {
    symbol := m.symbol, inputs := m.inputs, outputs := m.outputs, attributes := m.attributes
    location := m.location, contents }

end Design

/-! ### Inserting an image -/

namespace Edit

open Step

/-- The value of the design at a position of the image. -/
def importedValue (locals : List ValueId) (position : Nat) : Edit ValueId :=
  match locals[position]? with
  | some value => pure value
  | none => throw (.invalidValue ⟨position⟩)

/-- The live module that an image instantiates. -/
def importedCallee (symbol : String) : Edit ModuleId := do
  match (← get).find? symbol with
  | some id => return id
  | none => throw (.unknownModule symbol)

/-- Appends the operations of an image to a body, given the values numbered so far. -/
def importOps (parent : ModuleId) : List ImageOp → List ValueId → Edit Unit
  | [], _ => return ()
  | op :: rest, locals => do
    let operation ← op.operation.traverse importedCallee (importedValue locals)
    let id ← appendOp parent operation op.resultTypes op.attributes op.location
    query (·.verify id)
    let inserted ← query (·.getOp id)
    importOps parent rest (locals ++ inserted.results)

/-- Fills a new module with the body of an image. -/
def importBody (id : ModuleId) (symbol : String) (ops : List ImageOp) : Edit Unit := do
  importOps id ops (← addEntryBlock id)
  unless ((← get).module? id).any (·.isComplete) do
    throw (.incompleteModule symbol)

/-- Inserts a copy of an image under a symbol. Instantiated modules are looked up by symbol. A copy
that fails is removed again. -/
def importImage (image : ModuleImage) (symbol : String) : Edit ModuleId := do
  match image.contents with
  | .external parameters =>
    newExternalModule symbol image.inputs image.outputs parameters image.attributes image.location
  | .body ops =>
    let id ← newModule symbol image.inputs image.outputs image.attributes image.location
    tryCatch (importBody id symbol ops) fun e => do
      discard (eraseModule id)
      throw e
    return id

end Edit

end Wirework
