import Wirework.Session

/-! # Generator routines

A routine builds the body of a module.  It reads the input ports, computes with signals, places instances of other
definitions and assigns the output ports; all of this it asks of the engine that runs it.

Routines are programs.  A program asks requests of its environment, one after the other, and goes on with each answer
or with the error that took its place.  It may also read and change a state of its host, which the environment does
not touch.  Programs are finite trees, so running one always ends, and what holds of all runs is proved by induction
on the tree.

What can be supplied for a port is a `Connection`: a signal, a number that becomes a constant of the type of the port,
or nothing at all. -/

namespace Wirework

/-! ## Connections -/

/-- What is supplied for a port. -/
inductive Connection where
  | signal (signal : Signal)
  /-- A number, to be made a constant of the type of the port. -/
  | literal (value : Int)
  /-- The port is left unconnected on purpose. -/
  | absent
deriving DecidableEq, Repr

namespace Connection

/-- A truth value stands for the number 0 or 1. -/
def ofBool (value : Bool) : Connection :=
  literal (if value then 1 else 0)

/-- The connection suits the port of a module: a signal has its type, and a number fits it. -/
def check (module : String) (port : PortSpec) : Connection → Except BuildError Unit
  | signal s =>
    if s.type = port.type then .ok ()
    else .error (.typeMismatch module port.name port.type s.type)
  | literal value =>
    if port.type.Fits value then .ok ()
    else .error (.ir (.constantOutOfRange value port.type))
  | absent => .ok ()

end Connection

/-! ## Programs -/

/-- A program that asks requests of type `ρ`, changes host states of type `σ` and ends with a result
of type `α` or with an error. -/
inductive Program (ρ : Type) (Answer : ρ → Type) (σ α : Type) where
  /-- The program has ended. -/
  | done (outcome : Except BuildError α)
  /-- Asks a request and goes on with its outcome. -/
  | ask (request : ρ) (next : Except BuildError (Answer request) → Program ρ Answer σ α)
  /-- Changes the host state and goes on with the state before the change. -/
  | host (update : σ → σ) (next : σ → Program ρ Answer σ α)

namespace Program

variable {ρ : Type} {Answer : ρ → Type} {σ α β : Type}

/-- Goes on after a program with its result; an error ends both. -/
def bind : Program ρ Answer σ α → (α → Program ρ Answer σ β) → Program ρ Answer σ β
  | done (.ok a), f => f a
  | done (.error e), _ => done (.error e)
  | ask request next, f => ask request fun answer => (next answer).bind f
  | host update next, f => host update fun s => (next s).bind f

/-- Goes on after a program with its error, if it ends with one. -/
def recover : Program ρ Answer σ α → (BuildError → Program ρ Answer σ α) → Program ρ Answer σ α
  | done (.ok a), _ => done (.ok a)
  | done (.error e), f => f e
  | ask request next, f => ask request fun answer => (next answer).recover f
  | host update next, f => host update fun s => (next s).recover f

instance : Monad (Program ρ Answer σ) where
  pure a := done (.ok a)
  bind := bind

instance : MonadExceptOf BuildError (Program ρ Answer σ) where
  throw e := done (.error e)
  tryCatch := recover

/-- The program with the given outcome. -/
def ofOutcome (outcome : Except BuildError α) : Program ρ Answer σ α :=
  done outcome

/-- Asks a request; an error ends the program. -/
def request (r : ρ) : Program ρ Answer σ (Answer r) :=
  ask r done

/-- Goes on after a program whether it ends with an error or not. -/
def attempt (program : Program ρ Answer σ α) : Program ρ Answer σ (Except BuildError α) :=
  (program.bind fun a => done (.ok (.ok a))).recover fun e => done (.ok (.error e))

def readHost : Program ρ Answer σ σ :=
  host id fun s => done (.ok s)

def updateHost (f : σ → σ) : Program ρ Answer σ Unit :=
  host f fun _ => done (.ok ())

end Program

/-! ## Routines -/

/-- Identifier of an instance for the application, attached to the instance operation. -/
structure AppId where
  name : String
  index : Option Nat := none
deriving DecidableEq, Repr

/-- The identifier as a dictionary. -/
def AppId.toAttribute (id : AppId) : Attribute :=
  let entries : AttributeMap := Dict.empty.insert "name" (.str id.name)
  match id.index with
  | some index => .dict (entries.insert "index" (.int index))
  | none => .dict entries

/-- A definition to be instantiated and the connections of its input ports. -/
structure InstanceRequest where
  definition : DefId
  bindings : List (String × Connection) := []
  /-- Name of the instance; by default that of the definition. -/
  name : Option String := none
  appId : Option AppId := none
  location : Location := .unknown
deriving DecidableEq

/-- A placed instance of a definition. -/
structure Instance where
  id : InstanceId
  name : String
  definition : DefId
  op : OpId
  /-- The results of the instance operation. -/
  results : List Signal
deriving DecidableEq, Repr

/-- What a routine can see of the session it runs in. -/
structure View where
  /-- Name of the definition whose routine runs. -/
  name : String
  definition : DefId
  /-- The module being generated. -/
  module : ModuleId
  session : Session

/-- What a routine asks of the engine. -/
inductive Request where
  /-- The signal of an input port. -/
  | input (port : String)
  /-- The signal of the input port at a position. -/
  | inputAt (index : Nat)
  /-- The clock of an input port in the role of a clock. -/
  | clock (port : String)
  /-- Assigns an output port. -/
  | set (port : String) (value : Connection)
  /-- Assigns the output port at a position. -/
  | setAt (index : Nat) (value : Connection)
  | constant (type : HwType) (value : Int)
  | add (lhs rhs : Signal)
  /-- A register with the clock of the module. -/
  | register (input : Signal)
  /-- Places an instance of a definition. -/
  | instantiate (request : InstanceRequest)
  /-- The signal of an output port of an instance. -/
  | outputOf (placed : Instance) (port : String)
  /-- The output ports of an instance with their signals. -/
  | outputsOf (placed : Instance)
  /-- Calls a parameterization function. -/
  | call (factory : FactoryId) (cache : CacheId) (args : Args)
  /-- Number of definitions in a cache. -/
  | cacheSize (cache : CacheId)
  /-- Name of a definition. -/
  | nameOf (definition : DefId)
  /-- The session the routine runs in. -/
  | inspect

/-- What a request is answered with. -/
def Request.Answer : Request → Type
  | input _ => Signal
  | inputAt _ => Signal
  | clock _ => Clock
  | set _ _ => Unit
  | setAt _ _ => Unit
  | constant _ _ => Signal
  | add _ _ => Signal
  | register _ => Signal
  | instantiate _ => Instance
  | outputOf _ _ => Signal
  | outputsOf _ => List (String × Signal)
  | call _ _ _ => DefId
  | cacheSize _ => Nat
  | nameOf _ => String
  | inspect => View

/-- A routine on host states of type `σ`. -/
abbrev Routine (σ : Type) := Program Request Request.Answer σ

namespace Routine

variable {σ : Type}

def input (port : String) : Routine σ Signal :=
  Program.request (Request.input port)

/-- The signal of the input port at a position. -/
def inputAt (index : Nat) : Routine σ Signal :=
  Program.request (Request.inputAt index)

/-- The clock of an input port in the role of a clock. -/
def clock (port : String) : Routine σ Clock :=
  Program.request (Request.clock port)

def set (port : String) (value : Connection) : Routine σ Unit :=
  Program.request (Request.set port value)

def setAt (index : Nat) (value : Connection) : Routine σ Unit :=
  Program.request (Request.setAt index value)

/-- Assigns several output ports in order, up to the first that is refused. -/
def setOutputs (values : List (String × Connection)) : Routine σ Unit :=
  values.forM fun (port, value) => set port value

def constant (type : HwType) (value : Int) : Routine σ Signal :=
  Program.request (Request.constant type value)

def add (lhs rhs : Signal) : Routine σ Signal :=
  Program.request (Request.add lhs rhs)

def register (input : Signal) : Routine σ Signal :=
  Program.request (Request.register input)

def instantiate (request : InstanceRequest) : Routine σ Instance :=
  Program.request (Request.instantiate request)

/-- The signal of an output port of an instance. -/
def outputOf (placed : Instance) (port : String) : Routine σ Signal :=
  Program.request (Request.outputOf placed port)

/-- The output ports of an instance with their signals. -/
def outputsOf (placed : Instance) : Routine σ (List (String × Signal)) :=
  Program.request (Request.outputsOf placed)

def call (factory : FactoryId) (cache : CacheId) (args : Args) : Routine σ DefId :=
  Program.request (Request.call factory cache args)

def cacheSize (cache : CacheId) : Routine σ Nat :=
  Program.request (Request.cacheSize cache)

def nameOf (definition : DefId) : Routine σ String :=
  Program.request (Request.nameOf definition)

def inspect : Routine σ View :=
  Program.request Request.inspect

end Routine

end Wirework
