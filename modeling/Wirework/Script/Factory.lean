import Wirework.Script.Bench

/-! # Scripts

A script is a list of steps over named variables.  It computes signals, assigns outputs and places instances; steps
that fail end the script unless they are tried.  Variables keep their values when a tried step fails.

The body of a scripted function reads arguments, calls other functions and then returns a definition: one that has a
name already, or a new one that depends on the arguments. -/

namespace Wirework

/-! ## Scripted generators -/

namespace Script

/-! ### Scripts -/

/-- An expression whose value is a signal. -/
inductive Expr where
  | input (port : String)
  | inputAt (index : Nat)
  | clock (port : String)
  | named (name : String)
  /-- A signal that some script has exported. -/
  | global (name : String)
  /-- An output port of an instance. -/
  | output (placed port : String)
  | constant (type : HwType) (value : Int)
  | add (lhs rhs : Expr)
  | register (input : Expr)

/-- What a script supplies for a port. -/
inductive Wire where
  | absent
  | literal (value : Int)
  | signal (e : Expr)

/-- A step of a script. -/
inductive Step where
  /-- Gives the value of an expression to a variable. -/
  | assign (name : String) (e : Expr)
  /-- Gives a signal a name that all scripts know. -/
  | publish (name : String) (e : Expr)
  | set (port : String) (value : Wire)
  | setAt (index : Nat) (value : Wire)
  /-- Assigns several outputs, after all values have been computed. -/
  | setOutputs (values : List (String × Wire))
  /-- Places an instance of a definition and notes it. -/
  | place (name definition : String) (bindings : List (String × Wire))
      (instanceName : Option String) (appId : Option AppId)
  /-- Notes a signal. -/
  | note (e : Expr)
  | call (call : NamedCall)
  /-- Fails with the given text. -/
  | fail (text : String)
  /-- Runs steps, notes how they end and goes on. -/
  | attempt (steps : List Step)
  | iterate (count : Nat) (steps : List Step)
  /-- Notes what can be seen of the session. -/
  | snapshot

/-! ### Running scripts -/

/-- The variables of a script. -/
structure Variables where
  signals : List (String × Signal) := []
  instances : List (String × Instance) := []

/-- A part of a script at run time: a routine that keeps its variables also when it fails. -/
abbrev Exec := ExceptT BuildError (StateT Variables (Routine Bench))

namespace Exec

variable {α : Type}

def ofRoutine (routine : Routine Bench α) : Exec α :=
  ExceptT.mk fun state => do
    let outcome ← routine.attempt
    return (outcome, state)

/-- The outcome of a part of a script. -/
def attempt (exec : Exec α) : Exec (Except BuildError α) :=
  ExceptT.mk do
    let outcome ← exec.run
    return .ok outcome

def note (n : Note) : Exec Unit :=
  ofRoutine (Program.updateHost (Bench.note n))

/-- Runs a part of a script a number of times. -/
def times : Nat → Exec Unit → Exec Unit
  | 0, _ => return ()
  | count + 1, exec => do
    exec
    times count exec

end Exec

open Exec (ofRoutine)

/-- Computes an expression, its parts from left to right. -/
def Expr.eval : Expr → Exec Signal
  | input port => ofRoutine (Routine.input port)
  | inputAt index => ofRoutine (Routine.inputAt index)
  | clock port => ofRoutine do return (← Routine.clock port).signal
  | named name => do MonadExcept.ofExcept (Bench.named (← get).signals name)
  | global name => ofRoutine do
    Program.ofOutcome (Bench.named (← Program.readHost).signals name)
  | output placed port => do
    let placed ← MonadExcept.ofExcept (Bench.named (← get).instances placed)
    ofRoutine (Routine.outputOf placed port)
  | constant type value => ofRoutine (Routine.constant type value)
  | add lhs rhs => do
    let lhs ← lhs.eval
    let rhs ← rhs.eval
    ofRoutine (Routine.add lhs rhs)
  | register e => do
    let signal ← e.eval
    ofRoutine (Routine.register signal)

/-- Computes what is supplied for a port. -/
def Wire.eval : Wire → Exec Connection
  | absent => return .absent
  | literal value => return .literal value
  | signal e => return .signal (← e.eval)

/-- Computes what is supplied for several ports, in order. -/
def evalAll (wires : List (String × Wire)) : Exec (List (String × Connection)) :=
  wires.mapM fun (port, wire) => return (port, ← wire.eval)

/-- Places an instance of a named definition and notes it. -/
def placeInstance (name definition : String) (bindings : List (String × Connection))
    (instanceName : Option String) (appId : Option AppId) : Exec Unit := do
  let (placed, note) ← ofRoutine do
    let d ← Program.ofOutcome (Bench.named (← Program.readHost).definitions definition)
    let placed ← Routine.instantiate { definition := d, bindings, name := instanceName, appId }
    let definitionName ← Routine.nameOf d
    let outputs ← Routine.outputsOf placed
    return (placed, Note.placed placed definitionName outputs)
  modify fun v => { v with instances := Bench.assign name placed v.instances }
  Exec.note note

mutual

/-- Runs a step. -/
def Step.run : Step → Exec Unit
  | .assign name e => do
    let signal ← e.eval
    modify fun v => { v with signals := Bench.assign name signal v.signals }
  | .publish name e => do
    let signal ← e.eval
    ofRoutine (Program.updateHost (Bench.setSignal name signal))
  | .set port value => do
    let connection ← value.eval
    ofRoutine (Routine.set port connection)
  | .setAt index value => do
    let connection ← value.eval
    ofRoutine (Routine.setAt index connection)
  | .setOutputs values => do
    let connections ← evalAll values
    ofRoutine (Routine.setOutputs connections)
  | .place name definition bindings instanceName appId => do
    let connections ← evalAll bindings
    placeInstance name definition connections instanceName appId
  | .note e => do Exec.note (.signal (← e.eval))
  | .call call => ofRoutine do discard (call.perform : Routine Bench CallResult)
  | .fail text => throw (.configuration (.reported text))
  | .attempt steps => do
    let outcome ← Exec.attempt (runAll steps)
    Exec.note (.tried outcome)
  | .iterate count steps => Exec.times count (runAll steps)
  | .snapshot => do
    let view ← ofRoutine Routine.inspect
    Exec.note (.shown (.ofView view))

/-- Runs steps in order, up to the first that fails. -/
def runAll : List Step → Exec Unit
  | [] => return ()
  | step :: rest => do
    step.run
    runAll rest

end

def routine (steps : List Step) : Routine Bench Unit := do
  let (outcome, _) ← (runAll steps).run {}
  Program.ofOutcome outcome

end Script

/-! ## Scripted parameterization functions -/

namespace Script

/-- How an argument is read. -/
inductive Accessor where
  | int
  | unsigned (bits : Nat)
  | bool
  | str
  | type
  /-- The argument as it is, if there is one. -/
  | get
deriving DecidableEq, Repr

/-- Reads an argument; a type is given by its written form. -/
def Accessor.read (b : BoundArgs) (name : String) : Accessor → Except BuildError (Option Attribute)
  | int => return some (.int (← b.int name))
  | unsigned bits => return some (.int (← b.unsigned bits name))
  | bool => return some (.bool (← b.bool name))
  | str => return some (.str (← b.str name))
  | type => return some (.str (← b.type name).text)
  | get => return b.find? name

/-- What a scripted function returns. -/
inductive Result where
  /-- A definition that has a name. -/
  | existing (name : String)
  /-- A new definition. -/
  | define (spec : BoundArgs → Except BuildError (DefinitionSpec (Routine Bench Unit)))

/-- The body of a scripted function. -/
structure FactoryScript where
  uses : List (Accessor × String) := []
  calls : List (BoundArgs → Except BuildError NamedCall) := []
  /-- Text to fail with after the calls. -/
  failure : Option String := none
  result : Result

namespace FactoryScript

def use (bound : BoundArgs) (accessor : Accessor) (name : String) : Recipe Bench Unit := do
  let value ← Program.ofOutcome (accessor.read bound name)
  Program.updateHost (Bench.note (.used name value))

def callOther (bound : BoundArgs) (call : BoundArgs → Except BuildError NamedCall) :
    Recipe Bench Unit := do
  let call ← Program.ofOutcome (call bound)
  discard (call.perform : Recipe Bench CallResult)

/-- The body of a scripted function that is called by the given handle. -/
def recipe (script : FactoryScript) (f : FactoryId) (bound : BoundArgs) : Recipe Bench DefId := do
  Program.updateHost (Bench.countRun f)
  script.uses.forM fun (accessor, name) => use bound accessor name
  script.calls.forM (callOther bound)
  if let some text := script.failure then
    throw (.configuration (.reported text))
  match script.result with
  | .existing name =>
    Program.ofOutcome (Bench.named (← Program.readHost).definitions name)
  | .define spec => Recipe.define (← Program.ofOutcome (spec bound))

end FactoryScript

/-- Adds a scripted function to the library and names it. -/
def addFactory (name function : String) (formals : List Formal)
    (script : FactoryScript) : Supply Bench Signature := do
  let signature ← Step.ofOutcome (Signature.ofFormals function formals)
  let f : FactoryId := ⟨(← get).library.factories.size⟩
  let (_, library) := (← get).library.addFactory { signature, body := script.recipe f }
  set { library, host := (← get).host.setFactory name f : Workspace Bench }
  return signature

end Script

end Wirework
