import Wirework.Engine.Ports

/-! # Materializing definitions

The module of a definition is made on first use and remembered. If the definition has a generator,
its routine builds the body with a fresh scope of instance names, the location of the generator and
the clock of the module; all of these are left again when the routine ends. A definition whose
generation fails leaves nothing of its own behind.

Routines materialize what they instantiate, so generations nest. They nest no deeper than there are
definitions, since no definition is generated while it is being generated; as routines can make new
definitions without end, a bound is laid down all the same. -/

namespace Wirework

namespace Build

open Step

variable {σ : Type}

/-! ### Generating a body -/

/-- The clock of a module: that of its only input in the role of a clock. -/
def implicitClock {ρ : Type} (d : Definition ρ) (arguments : List ValueId) :
    Except BuildError (Option Clock) :=
  match d.interface.clocks with
  | [name] =>
    match d.input? name with
    | none => .ok none
    | some port =>
      match arguments[port.index]? with
      | some value => .ok (some ⟨value⟩)
      | none => .error (.engine (.portIndex port.index))
  | _ => .ok none

/-- Runs a routine and ends the body it has built. -/
def execute (materialize : Materializer σ) (caller : Caller σ) (frame : Frame)
    (routine : Routine σ Unit) : Build σ Unit := do
  let d ← definition frame.definition
  let outputs := List.replicate d.table.outputCount none
  let generation : Generation σ Unit := do
    Generation.run materialize caller frame routine
    Generation.finish frame
  ofApply fun world =>
    let (outcome, running) := generation.apply ⟨world, outputs⟩
    (outcome, running.world)

/-- Begins the body of the module of a definition and enters its scopes: what its routine works on, and
the routine. -/
def enterBody (d : DefId) (id : ModuleId) : Build σ (Frame × Routine σ Unit) := do
  let definition ← definition d
  let some generator := definition.generator? | throw (.noGenerator definition.name)
  let arguments ← edit (Edit.addEntryBlock id)
  let clock ← ofOutcome (implicitClock definition arguments)
  compile Compile.pushBlock
  match ← attempt (edit (Edit.pushInsertionPoint id)) with
  | .error e =>
    compile Compile.popBlock
    throw e
  | .ok () =>
    edit (Edit.pushLocation generator.location)
    edit (Edit.pushClock clock)
    return (⟨d, id, arguments⟩, generator.routine)

/-- Leaves the scopes of a body, the innermost first. -/
def leaveBody : Build σ Unit := do
  discard (edit Edit.popClock)
  discard (edit Edit.popLocation)
  discard (edit Edit.popInsertionPoint)
  compile Compile.popBlock

/-- Builds the body of the module of a definition. -/
def generateBody (materialize : Materializer σ) (caller : Caller σ) (d : DefId) (id : ModuleId) :
    Build σ Unit := do
  let (frame, routine) ← enterBody d id
  let outcome ← attempt (execute materialize caller frame routine)
  leaveBody
  ofOutcome outcome

/-! ### Making modules -/

/-- Builds the body of a new module, and removes the module again if that fails. -/
def fillModule (materialize : Materializer σ) (caller : Caller σ) (d : DefId) (id : ModuleId) :
    Build σ Unit := do
  compile (Compile.startGenerating d)
  let outcome ← attempt (generateBody materialize caller d id)
  compile (Compile.stopGenerating d)
  match outcome with
  | .ok () => return ()
  | .error e =>
    compile (Compile.discardModule d (← nameOf d) id)
    throw e

/-- The module of a definition, given how the definitions it instantiates are materialized. -/
def materializeWith (materialize : Materializer σ) (caller : Caller σ) : Materializer σ := fun d => do
  let definition ← definition d
  let session := (← get).session
  if session.isGenerating d then
    throw (.recursiveGeneration definition.name)
  match session.moduleOf? d with
  | some id => return id
  | none =>
    let id ← compile (Compile.createModule definition)
    compile (Compile.bindModule d id)
    if definition.generator?.isSome then
      fillModule materialize caller d id
    return id

/-- The module of a definition, with generations nested at most to the given depth. -/
def materializeWithin : Nat → Materializer σ
  | 0 => fun _ => throw (.engine .nestingTooDeep)
  | depth + 1 => materializeWith (materializeWithin depth) (Supply.call depth)

/-- How many levels of nesting there may be beyond the number of definitions. -/
def nestingAllowance : Nat :=
  4096

/-- How deep generations and calls may nest in a library. -/
def nestingBound (library : Library σ) : Nat :=
  library.definitions.size + nestingAllowance

/-- The module of a definition; it is made on first use. -/
def materialize (d : DefId) : Build σ ModuleId := do
  materializeWithin (nestingBound (← get).workspace.library) d

/-- Makes the module of a definition that has a generator and no module yet. -/
def generate (d : DefId) : Build σ ModuleId := do
  let definition ← definition d
  if definition.generator?.isNone then
    throw (.noGenerator definition.name)
  let session := (← get).session
  if session.isGenerating d then
    throw (.recursiveGeneration definition.name)
  if (session.moduleOf? d).isSome then
    throw (.alreadyGenerated definition.name)
  materialize d

/-- Places an instance outside of any routine. -/
def instantiate (request : InstanceRequest) : Build σ Instance :=
  placeInstance materialize request

end Build

def Supply.callFactory {σ : Type} (f : FactoryId) (c : CacheId) (args : Args) :
    Supply σ DefId := do
  Supply.call (Build.nestingBound (← get).library) f c args

end Wirework
