import Wirework.Library
import Wirework.Session

/-! # Answering routines

The engine works on a library and a session at once, a `World`; both keep their own steps, which are brought together
here.

* **Placing instances.**  All connections of an instance are checked against the definition before anything is made or
  inserted.  Then the module of the definition is made, numbers become constants and unconnected inputs zeros, in the
  order of the ports, and the instance itself is inserted and registered.
* **Ports.**  While a routine runs, the inputs of its module are readable as signals and its outputs are assignable.
  An output that is assigned a second time is treated as the policy of the session says; at the end every output must
  have a value.

How the module of a definition is made is left open here: the steps take it as an argument, and the recursion is tied
in the module on materializing. -/

namespace Wirework

/-! ## Worlds -/

/-- A library with its host, and the session that is being compiled. -/
structure World (σ : Type) where
  workspace : Workspace σ
  session : Session := {}

/-- A step of the engine. -/
abbrev Build (σ : Type) := Step BuildError (World σ)

/-- How the module of a definition is made. -/
abbrev Materializer (σ : Type) := DefId → Build σ ModuleId

namespace Build

open Step

variable {σ α : Type}

def supply (step : Supply σ α) : Build σ α :=
  step.zoom (·.workspace) fun workspace w => { w with workspace }

def compile (step : Compile α) : Build σ α :=
  step.zoom (·.session) fun session w => { w with session }

def edit (step : Edit α) : Build σ α :=
  compile (Compile.edit step)

def definition (d : DefId) : Build σ (Definition (Routine σ Unit)) :=
  supply (Supply.ask (·.getDefinition d))

def nameOf (d : DefId) : Build σ String := do
  return (← definition d).name

end Build

/-! ## Placing instances -/

namespace Definition

variable {ρ : Type}

/-! ### Checking connections -/

/-- The first name that repeats an earlier one, given the names seen so far. -/
def firstRepeated : List String → List String → Option String
  | _, [] => none
  | seen, name :: rest => if name ∈ seen then some name else firstRepeated (name :: seen) rest

/-- A connection suits the port of its name. Only modules without generator can have inputs left
unconnected. -/
def checkBinding (d : Definition ρ) (name : String) (connection : Connection) :
    Except BuildError Unit :=
  match d.input? name with
  | none => .error (.portResolution d.name name)
  | some port =>
    if connection = .absent ∧ d.generator?.isSome then .error (.absentInput d.name name)
    else connection.check d.name port

/-- Names of the inputs without a connection, in the order of the ports. -/
def unboundInputs (d : Definition ρ) (bindings : List (String × Connection)) : List String :=
  (d.inputs.map (·.name)).filter fun name => (bindings.lookup name).isNone

/-- The connection of every input, in the order of the ports. -/
def bindInputs (d : Definition ρ) (bindings : List (String × Connection)) :
    Except BuildError (List (PortSpec × Connection)) := do
  let names := bindings.map (·.1)
  if let some name := firstRepeated [] names then
    throw (.duplicateBinding d.name name)
  if let some name := names.find? fun name => (d.input? name).isNone then
    throw (.portResolution d.name name)
  bindings.forM fun (name, connection) => d.checkBinding name connection
  unless (d.unboundInputs bindings).isEmpty do
    throw (.missingInput d.name (d.unboundInputs bindings))
  return d.inputs.filterMap fun port =>
    (bindings.lookup port.name).map fun connection => (port, connection)

/-- Parameters written on the instances of a module: those of a module without generator. -/
def instanceParameters (d : Definition ρ) : AttributeMap :=
  if d.generator?.isSome then .empty else (d.parameters.map (·.values)).getD .empty

end Definition

namespace Build

open Step

variable {σ : Type}

/-! ### Building an instance -/

/-- The value of an input: a number becomes a constant and an unconnected input a zero. -/
def inputValue (port : PortSpec) : Connection → Edit ValueId
  | .signal s => return s.value
  | .literal value => return (← Edit.constant port.type value).value
  | .absent => return (← Edit.zero port.type).value

/-- Places an instance in the module being generated, given how modules are made. -/
def placeInstance (materialize : Materializer σ) (request : InstanceRequest) :
    Build σ Instance := do
  let d ← definition request.definition
  unless (← get).session.hasBlock do
    throw .noActiveScope
  let connections ← ofOutcome (d.bindInputs request.bindings)
  let module ← materialize request.definition
  let name ← compile (Compile.uniquifyInstanceName (request.name.getD d.instanceName))
  let inputs ← edit (connections.mapM fun (port, connection) => inputValue port connection)
  let parameters := (← definition request.definition).instanceParameters
  let op ← edit (Edit.instantiate module name inputs parameters request.location)
  edit (query (·.verify op))
  if let some appId := request.appId then
    edit (Edit.setAttribute op "appid" appId.toAttribute)
  let results ← edit (query (·.results op))
  let id ← compile (Compile.registerInstance name module op)
  return { id, name, definition := request.definition, op, results }

/-- The signal of an output port of an instance. -/
def outputOf (placed : Instance) (port : String) : Build σ Signal := do
  let d ← definition placed.definition
  match d.output? port with
  | none => throw (.portResolution d.name port)
  | some spec =>
    match placed.results[spec.index]? with
    | some signal => return signal
    | none => throw (.engine (.portIndex spec.index))

/-- The output ports of an instance with their signals. -/
def outputsOf (placed : Instance) : Build σ (List (String × Signal)) := do
  let d ← definition placed.definition
  return (d.outputs.map (·.name)).zip placed.results

end Build

/-! ## Ports of a running generator -/

/-- The module that a routine builds. -/
structure Frame where
  definition : DefId
  module : ModuleId
  /-- The block arguments of the module, one for each input port. -/
  arguments : List ValueId
deriving DecidableEq, Repr

/-- The state of a running routine: the world, and the value of each output so far. -/
structure Running (σ : Type) where
  world : World σ
  outputs : List (Option Signal)

/-- A step of a running routine. -/
abbrev Generation (σ : Type) := Step BuildError (Running σ)

namespace Generation

open Step

variable {σ α : Type}

def build (step : Build σ α) : Generation σ α :=
  step.zoom (·.world) fun world r => { r with world }

def edit (step : Edit α) : Generation σ α :=
  build (Build.edit step)

def ownDefinition (frame : Frame) : Generation σ (Definition (Routine σ Unit)) :=
  build (Build.definition frame.definition)

/-- The module has no such port. -/
def unknownPort (d : Definition (Routine σ Unit)) (port : String) : Generation σ α :=
  throw (.portResolution d.name port)

/-- How a position is written where a port name is expected. -/
def positionText (index : Nat) : String :=
  "#" ++ toString index

/-! ### Inputs -/

/-- The block argument of an input. -/
def argument (frame : Frame) (index : Nat) : Generation σ ValueId :=
  match frame.arguments[index]? with
  | some value => return value
  | none => throw (.engine (.portIndex index))

def inputAt (frame : Frame) (index : Nat) : Generation σ Signal := do
  let d ← ownDefinition frame
  let some port := d.inputs[index]? | unknownPort d (positionText index)
  let value ← argument frame index
  return if d.table.isClock index then (Clock.mk value).signal else ⟨value, port.type⟩

def input (frame : Frame) (port : String) : Generation σ Signal := do
  let d ← ownDefinition frame
  let some index := d.table.inputIndex? port | unknownPort d port
  inputAt frame index

/-- The clock of an input port, which must be in the role of a clock. -/
def clock (frame : Frame) (port : String) : Generation σ Clock := do
  let d ← ownDefinition frame
  let some index := d.table.inputIndex? port | unknownPort d port
  unless d.table.isClock index do
    throw (.configuration (.notAClock port d.name))
  return ⟨← argument frame index⟩

/-! ### Outputs -/

/-- The signal of a connection to an output; a number becomes a constant. -/
def outputSignal (port : PortSpec) : Connection → Edit (Option Signal)
  | .signal s => return some s
  | .literal value => return some (← Edit.constant port.type value)
  | .absent => return none

/-- Assigns the output at a position. -/
def setAt (frame : Frame) (index : Nat) (value : Connection) : Generation σ Unit := do
  let d ← ownDefinition frame
  let some port := d.outputs[index]? | unknownPort d (positionText index)
  if value = .absent then
    throw (.configuration (.absentOutput port.name d.name))
  ofOutcome (value.check d.name port)
  let some present := (← get).outputs[index]? | throw (.engine (.portIndex index))
  let policy := (← get).world.session.config.reassign
  if present.isSome ∧ policy = .deny then
    throw (.outputReassigned d.name port.name)
  let signal ← edit (outputSignal port value)
  if present.isSome ∧ policy = .warn then
    build (Build.compile (Compile.warn (.outputReassigned port.name d.name)))
  modify fun r => { r with outputs := r.outputs.set index signal }

def set (frame : Frame) (port : String) (value : Connection) : Generation σ Unit := do
  let d ← ownDefinition frame
  let some index := d.table.outputIndex? port | unknownPort d port
  setAt frame index value

/-- Names of the outputs without a value, in the order of the ports. -/
def unconnected (d : Definition (Routine σ Unit)) (outputs : List (Option Signal)) :
    List String :=
  (d.outputs.zip outputs).filterMap fun (port, signal) =>
    if signal.isNone then some port.name else none

/-- Ends the body with the values of the outputs, all of which must have been assigned. -/
def finish (frame : Frame) : Generation σ Unit := do
  let d ← ownDefinition frame
  let outputs := (← get).outputs
  unless (unconnected d outputs).isEmpty do
    throw (.unconnectedOutput d.name (unconnected d outputs))
  edit (Edit.output (outputs.filterMap id))

/-! ### Running a routine -/

/-- Answers a request of a routine, given how modules are made and how functions are called. -/
def answer (materialize : Materializer σ) (caller : Caller σ) (frame : Frame) :
    (request : Request) → Generation σ request.Answer
  | .input port => input frame port
  | .inputAt index => inputAt frame index
  | .clock port => clock frame port
  | .set port value => set frame port value
  | .setAt index value => setAt frame index value
  | .constant type value => edit (Edit.constant type value)
  | .add lhs rhs => edit (Edit.add lhs rhs)
  | .register signal => edit (Edit.register signal)
  | .instantiate request => build (Build.placeInstance materialize request)
  | .outputOf placed port => build (Build.outputOf placed port)
  | .outputsOf placed => build (Build.outputsOf placed)
  | .call factory cache args => build (Build.supply (caller factory cache args))
  | .cacheSize cache => return (← get).world.workspace.library.cacheSize cache
  | .nameOf d => build (Build.nameOf d)
  | .inspect => do
    let d ← ownDefinition frame
    return ⟨d.name, frame.definition, frame.module, (← get).world.session⟩

/-- Runs a routine. -/
def run (materialize : Materializer σ) (caller : Caller σ) (frame : Frame) :
    Routine σ α → Generation σ α
  | .done outcome => ofOutcome outcome
  | .ask request next => do
    let outcome ← attempt (answer materialize caller frame request)
    run materialize caller frame (next outcome)
  | .host update next => do
    let state := (← get).world.workspace.host
    modify fun r => { r with world.workspace.host := update r.world.workspace.host }
    run materialize caller frame (next state)

end Generation

end Wirework
