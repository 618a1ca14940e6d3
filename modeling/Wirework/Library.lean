import Wirework.Engine.Routine

/-! # Libraries

A library holds definitions, the parameterization functions that make definitions, and the caches that remember what
was made.  A parameterization function is a program: it may define modules and call other functions, itself included.

A call binds its arguments, forms the parameter key and looks it up in the cache.  Only if nothing is found does the
body of the function run; what it returns is given the key as its parameters and enters the cache, unless the body
itself has made an entry for the key, which then stays.  The parameters are a part of the definition, so a body that
returns a definition which has been returned before gives that one other parameters. -/

namespace Wirework

/-- What a parameterization function asks of the library it runs in. -/
inductive FactoryRequest (σ : Type) where
  /-- Makes a definition. -/
  | define (spec : DefinitionSpec (Routine σ Unit))
  /-- Calls a parameterization function. -/
  | call (factory : FactoryId) (cache : CacheId) (args : Args)
  /-- Number of definitions in a cache. -/
  | cacheSize (cache : CacheId)

def FactoryRequest.Answer {σ : Type} : FactoryRequest σ → Type
  | define _ => DefId
  | call _ _ _ => DefId
  | cacheSize _ => Nat

/-- The body of a parameterization function, on host states of type `σ`. -/
abbrev Recipe (σ : Type) := Program (FactoryRequest σ) FactoryRequest.Answer σ

namespace Recipe

variable {σ : Type}

def define (spec : DefinitionSpec (Routine σ Unit)) : Recipe σ DefId :=
  Program.request (FactoryRequest.define spec)

def call (factory : FactoryId) (cache : CacheId) (args : Args) : Recipe σ DefId :=
  Program.request (FactoryRequest.call factory cache args)

def cacheSize (cache : CacheId) : Recipe σ Nat :=
  Program.request (FactoryRequest.cacheSize cache)

end Recipe

/-- A function that makes definitions from arguments. -/
structure Factory (σ : Type) where
  signature : Signature
  body : BoundArgs → Recipe σ DefId

/-- A definition in a cache, under the function and the parameters it was made for. -/
structure CacheEntry where
  cache : CacheId
  factory : FactoryId
  key : ParameterKey
  definition : DefId
deriving DecidableEq

/-- Definitions, parameterization functions and what the caches remember, the latest first. A cache
that nothing has been put into is empty. -/
structure Library (σ : Type) where
  definitions : Array (Definition (Routine σ Unit)) := #[]
  factories : Array (Factory σ) := #[]
  cached : List CacheEntry := []

namespace Library

variable {σ : Type}

def getDefinition (l : Library σ) (d : DefId) :
    Except BuildError (Definition (Routine σ Unit)) :=
  match l.definitions[d.index]? with
  | some definition => .ok definition
  | none => .error (.engine .unknownDefinition)

/-- The parameterization function of a handle. -/
def getFactory (l : Library σ) (f : FactoryId) : Except BuildError (Factory σ) :=
  match l.factories[f.index]? with
  | some factory => .ok factory
  | none => .error (.engine .unknownFactory)

def cacheEntries (l : Library σ) (c : CacheId) : List CacheEntry :=
  l.cached.filter (·.cache = c)

/-- The definition that a cache remembers for a function and parameters. -/
def cached? (l : Library σ) (c : CacheId) (f : FactoryId) (key : ParameterKey) : Option DefId :=
  ((l.cacheEntries c).find? fun entry => entry.factory = f ∧ entry.key = key).map (·.definition)

def cacheSize (l : Library σ) (c : CacheId) : Nat :=
  (l.cacheEntries c).length

def addDefinition (l : Library σ) (definition : Definition (Routine σ Unit)) : DefId × Library σ :=
  (⟨l.definitions.size⟩, { l with definitions := l.definitions.push definition })

def addFactory (l : Library σ) (factory : Factory σ) : FactoryId × Library σ :=
  (⟨l.factories.size⟩, { l with factories := l.factories.push factory })

/-- Sets the parameters of a definition. -/
def setParameters (l : Library σ) (d : DefId) (key : ParameterKey) : Library σ :=
  { l with definitions := l.definitions.modify d.index fun definition =>
      { definition with parameters := some key } }

/-- Puts a definition into a cache. -/
def remember (l : Library σ) (entry : CacheEntry) : Library σ :=
  { l with cached := entry :: l.cached }

end Library

/-! ## Calling parameterization functions -/

/-- A library together with the state of its host. -/
structure Workspace (σ : Type) where
  library : Library σ := {}
  host : σ

/-- A step on a library and its host. -/
abbrev Supply (σ : Type) := Step BuildError (Workspace σ)

/-- How a function is called: by its handle, a cache and arguments. -/
abbrev Caller (σ : Type) := FactoryId → CacheId → Args → Supply σ DefId

namespace Supply

open Step

variable {σ α : Type}

def ask (read : Library σ → Except BuildError α) : Supply σ α :=
  query fun w => read w.library

def modifyLibrary (f : Library σ → Library σ) : Supply σ Unit :=
  modify fun w => { w with library := f w.library }

def define (spec : DefinitionSpec (Routine σ Unit)) : Supply σ DefId := do
  let definition ← ofOutcome (Definition.ofSpec spec)
  let (d, library) := (← get).library.addDefinition definition
  modifyLibrary fun _ => library
  return d

/-- Makes a definition that copies a live module of a design. -/
def importModule (design : Design) (id : ModuleId) : Supply σ DefId := do
  let definition ← ofOutcome (Definition.ofModule design id)
  let (d, library) := (← get).library.addDefinition definition
  modifyLibrary fun _ => library
  return d

/-! ### Running a function body -/

/-- Answers a request of a function body. -/
def answer (caller : Caller σ) : (request : FactoryRequest σ) → Supply σ request.Answer
  | .define spec => define spec
  | .call factory cache args => caller factory cache args
  | .cacheSize cache => return (← get).library.cacheSize cache

/-- Runs a function body. -/
def run (caller : Caller σ) : Recipe σ α → Supply σ α
  | .done outcome => ofOutcome outcome
  | .ask request next => do
    let outcome ← attempt (answer caller request)
    run caller (next outcome)
  | .host update next => do
    let state := (← get).host
    modify fun w => { w with host := update w.host }
    run caller (next state)

/-! ### Calls -/

/-- Runs the body of a function for a key that is not in the cache, and caches the result. -/
def build (caller : Caller σ) (f : FactoryId) (c : CacheId) (factory : Factory σ)
    (bound : BoundArgs) : Supply σ DefId := do
  let d ← run caller (factory.body bound)
  modifyLibrary (·.setParameters d bound.key)
  match (← get).library.cached? c f bound.key with
  | some present => return present
  | none =>
    modifyLibrary (·.remember ⟨c, f, bound.key, d⟩)
    return d

/-- Calls a function, given how its body calls others. -/
def callWith (caller : Caller σ) : Caller σ := fun f c args => do
  let factory ← ask (·.getFactory f)
  let bound ← ofOutcome (factory.signature.bind args)
  match (← get).library.cached? c f bound.key with
  | some present => return present
  | none => build caller f c factory bound

/-- Calls a function; calls are nested at most to the given depth. -/
def call : Nat → Caller σ
  | 0 => fun _ _ _ => throw (.engine .nestingTooDeep)
  | depth + 1 => callWith (call depth)

end Supply

end Wirework
