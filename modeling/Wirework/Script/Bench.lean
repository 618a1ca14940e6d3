import Wirework.Engine.Materialize

/-! # Benches

Scripts refer to definitions, functions, caches and signals by name.  A bench keeps these names, counts how often the
body of each function has run, and collects what scripts note.

Scripts call parameterization functions by name, within routines, within the bodies of other functions and from
outside.  The call itself is the same everywhere, so it is written once for all three. -/

namespace Wirework

/-! ## Benches -/

/-- What a script sees of the session it runs in. -/
structure Snapshot where
  /-- Name of the definition whose generator runs. -/
  name : String
  module : ModuleId
  insertionPoint : Option ModuleId
  clock : Option ValueId
  hasBlock : Bool
  generating : Bool
  symbols : List String
  /-- Names of the instances in the module being generated. -/
  instances : List String
deriving DecidableEq

/-- The parts of a view that scripts show. -/
def Snapshot.ofView (v : View) : Snapshot where
  name := v.name
  module := v.module
  insertionPoint := v.session.design.scopes.insertionPoint?
  clock := v.session.design.scopes.clock?.map (·.value)
  hasBlock := v.session.hasBlock
  generating := v.session.isGenerating v.definition
  symbols := v.session.design.liveModules.map (·.2.symbol)
  instances := (v.session.instancesIn v.module).map (·.name)

/-- What a script notes while it runs. -/
inductive Note where
  /-- An instance was placed. -/
  | placed (placed : Instance) (definition : String) (outputs : List (String × Signal))
  | signal (signal : Signal)
  /-- Steps that may fail have ended. -/
  | tried (outcome : Except BuildError Unit)
  | shown (snapshot : Snapshot)
  /-- A function has read an argument. -/
  | used (parameter : String) (value : Option Attribute)
  /-- A call has failed: the runs of the function so far, and the size of a named cache. -/
  | callFailed (factory : String) (runs : Nat) (cached : Option Nat)

/-- Names known to scripts, and what scripts have noted. -/
structure Bench where
  definitions : List (String × DefId) := []
  factories : List (String × FactoryId) := []
  caches : List String := []
  signals : List (String × Signal) := []
  /-- One entry for each run of the body of a function. -/
  runs : List FactoryId := []
  notes : List Note := []

namespace Bench

def assign {α : Type} (name : String) (value : α) (entries : List (String × α)) :
    List (String × α) :=
  (name, value) :: entries.filter (·.1 ≠ name)

def named {α : Type} (entries : List (String × α)) (name : String) : Except BuildError α :=
  match entries.lookup name with
  | some value => .ok value
  | none => .error (.engine (.unknownName name))

def setDefinition (name : String) (d : DefId) (b : Bench) : Bench :=
  { b with definitions := assign name d b.definitions }

def setFactory (name : String) (f : FactoryId) (b : Bench) : Bench :=
  { b with factories := assign name f b.factories }

def setSignal (name : String) (signal : Signal) (b : Bench) : Bench :=
  { b with signals := assign name signal b.signals }

def note (n : Note) (b : Bench) : Bench :=
  { b with notes := b.notes ++ [n] }

def countRun (f : FactoryId) (b : Bench) : Bench :=
  { b with runs := f :: b.runs }

def runsOf (b : Bench) (f : FactoryId) : Nat :=
  b.runs.count f

/-- Makes sure that a cache has a handle. -/
def mention (cache : Option String) (b : Bench) : Bench :=
  match cache with
  | none => b
  | some name => if name ∈ b.caches then b else { b with caches := b.caches ++ [name] }

/-- The handle of a cache; the one without a name is the first. -/
def cacheId (b : Bench) : Option String → CacheId
  | none => ⟨0⟩
  | some name => ⟨b.caches.idxOf name + 1⟩

/-- The alphabetically first name of a definition. -/
def firstNameOf? (b : Bench) (d : DefId) : Option String :=
  ((b.definitions.filter (·.2 = d)).map (·.1)).mergeSort (fun a b => decide (a ≤ b)) |>.head?

end Bench

/-! ## Calls by name -/

/-- A call of a function by name. -/
structure NamedCall where
  factory : String
  /-- The cache; without a name it is the one shared by all. -/
  cache : Option String := none
  args : Args := {}
  /-- Name given to the definition that the call returns. -/
  result : String
deriving DecidableEq

/-- What a call has returned. -/
structure CallResult where
  definition : DefId
  /-- The first name that the definition had before. -/
  knownAs : Option String
deriving DecidableEq, Repr

/-- Programs and steps that can call functions and have a bench. -/
class CallSite (m : Type → Type) where
  readBench : m Bench
  updateBench : (Bench → Bench) → m Unit
  callFactory : FactoryId → CacheId → Args → m DefId
  cacheSize : CacheId → m Nat

instance : CallSite (Routine Bench) where
  readBench := Program.readHost
  updateBench := Program.updateHost
  callFactory := Routine.call
  cacheSize := Routine.cacheSize

instance : CallSite (Recipe Bench) where
  readBench := Program.readHost
  updateBench := Program.updateHost
  callFactory := Recipe.call
  cacheSize := Recipe.cacheSize

instance : CallSite (Supply Bench) where
  readBench := do return (← get).host
  updateBench f := modify fun w => { w with host := f w.host }
  callFactory := Supply.callFactory
  cacheSize cache := do return (← get).library.cacheSize cache

namespace NamedCall

variable {m : Type → Type} [Monad m] [MonadExceptOf BuildError m] [CallSite m]

/-- Notes that a call has failed. -/
def noteFailure (call : NamedCall) (f : FactoryId) (cache : CacheId) : m Unit := do
  let size ← CallSite.cacheSize cache
  CallSite.updateBench fun b =>
    b.note (.callFailed call.factory (b.runsOf f) (call.cache.map fun _ => size))

/-- Calls the function and names the definition it returns. A call that fails is noted. -/
def perform (call : NamedCall) : m CallResult := do
  CallSite.updateBench (Bench.mention call.cache)
  let bench ← CallSite.readBench
  let f ← MonadExcept.ofExcept (Bench.named bench.factories call.factory)
  let cache := bench.cacheId call.cache
  let definition ← tryCatch (CallSite.callFactory f cache call.args) fun e => do
    noteFailure call f cache
    throw e
  let knownAs := (← CallSite.readBench).firstNameOf? definition
  CallSite.updateBench (Bench.setDefinition call.result definition)
  return { definition, knownAs }

end NamedCall

end Wirework
