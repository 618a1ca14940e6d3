import Wirework.Engine.Materialize

/-! # Demonstration designs

Three small designs: an adder, a register chain and an adder tree with a probe.  The adders and chains are
parameterized by their width, so all places of use share one definition.  The tree adds four inputs in pairs; the
probe at its root is implemented elsewhere and has its enable left open. -/

namespace Wirework.Demo

variable {σ : Type}

/-! ### Parameterized definitions -/

def adderRoutine : Routine σ Unit := do
  let a ← Routine.input "a"
  let b ← Routine.input "b"
  Routine.set "sum" (.signal (← Routine.add a b))

/-- A combinational adder of the given width. -/
def adderSpec (width : Nat) : DefinitionSpec (Routine σ Unit) where
  name := "Adder"
  doc := some "Wrapping unsigned adder"
  declarations := [
    ("a", .plainInput (.uint width)),
    ("b", .plainInput (.uint width)),
    ("sum", .output (.uint width)),
    ("build", .generator adderRoutine .unknown)]

/-- A signal delayed by a number of registers. -/
def delayed : Nat → Signal → Routine σ Signal
  | 0, signal => return signal
  | stages + 1, signal => do delayed stages (← Routine.register signal)

def pipelineRoutine (stages : Nat) : Routine σ Unit := do
  let q ← delayed stages (← Routine.input "d")
  Routine.set "q" (.signal q)

/-- A register chain of the given width and length. -/
def pipelineSpec (width stages : Nat) : DefinitionSpec (Routine σ Unit) where
  name := "Pipeline"
  doc := some "Register chain"
  declarations := [
    ("clk", .clock),
    ("d", .plainInput (.bits width)),
    ("q", .output (.bits width)),
    ("build", .generator (pipelineRoutine stages) .unknown)]

/-- Makes adders of a width. -/
def adderFactory : Except BuildError (Factory σ) := do
  return {
    signature := ← Signature.ofFormals "make_adder" [.named "width" none]
    body := fun args => do
      let width ← Program.ofOutcome (args.unsigned 32 "width")
      Recipe.define (adderSpec width) }

/-- Makes register chains of a width and a length, which is two by default. -/
def pipelineFactory : Except BuildError (Factory σ) := do
  return {
    signature := ← Signature.ofFormals "make_pipeline"
      [.named "width" none, .named "stages" (some (.int 2))]
    body := fun args => do
      let width ← Program.ofOutcome (args.unsigned 32 "width")
      let stages ← Program.ofOutcome (args.unsigned 32 "stages")
      Recipe.define (pipelineSpec width stages) }

/-- A probe implemented elsewhere, with an optional enable. -/
def probeSpec (width : Nat) : DefinitionSpec (Routine σ Unit) where
  name := "DebugProbe"
  instanceName := some "probe"
  declarations := [("en", .plainInput (.bits 1)), ("value", .plainInput (.uint width))]

/-! ### Adder -/

/-- Body of a module around one adder. -/
def adderTopRoutine (adder : DefId) : Routine σ Unit := do
  let x ← Routine.input "x"
  let y ← Routine.input "y"
  let placed ← Routine.instantiate
    { definition := adder, bindings := [("a", .signal x), ("b", .signal y)] }
  Routine.set "z" (.signal (← Routine.outputOf placed "sum"))

/-- A module around one adder. -/
def adderTopSpec (adder : DefId) (width : Nat) : DefinitionSpec (Routine σ Unit) where
  name := "AdderTop"
  declarations := [
    ("x", .plainInput (.uint width)),
    ("y", .plainInput (.uint width)),
    ("z", .output (.uint width)),
    ("build", .generator (adderTopRoutine adder) .unknown)]

/-! ### Register chain -/

/-- Body of a module around one register chain. -/
def pipelineTopRoutine (pipeline : DefId) : Routine σ Unit := do
  let clk ← Routine.clock "clk"
  let d ← Routine.input "d"
  let placed ← Routine.instantiate {
    definition := pipeline
    name := some "delay"
    bindings := [("clk", .signal clk.signal), ("d", .signal d)] }
  Routine.set "q" (.signal (← Routine.outputOf placed "q"))

/-- A module around one register chain. -/
def pipelineTopSpec (pipeline : DefId) (width : Nat) : DefinitionSpec (Routine σ Unit) where
  name := "PipelineTop"
  declarations := [
    ("clk", .clock),
    ("d", .plainInput (.bits width)),
    ("q", .output (.bits width)),
    ("build", .generator (pipelineTopRoutine pipeline) .unknown)]

/-! ### Adder tree -/

/-- Adds signals in pairs; the adders are numbered from the given index on. -/
def addPairs (adder : DefId) : Nat → List Signal → Routine σ (List Signal)
  | index, a :: b :: rest => do
    let placed ← Routine.instantiate {
      definition := adder
      appId := some { name := "add", index := some index }
      bindings := [("a", .signal a), ("b", .signal b)] }
    let sum ← Routine.outputOf placed "sum"
    return sum :: (← addPairs adder (index + 1) rest)
  | _, rest => return rest

/-- Body of a tree of adders over four inputs, with a probe at its root. -/
def treeTopRoutine (adder probe : DefId) : Routine σ Unit := do
  let leaves ← (List.range 4).mapM Routine.inputAt
  let halves ← addPairs adder 0 leaves
  let roots ← addPairs adder halves.length halves
  roots.forM fun root => do
    discard (Routine.instantiate {
      definition := probe, bindings := [("en", .absent), ("value", .signal root)] })
    Routine.set "sum" (.signal root)

/-- A tree of adders over four inputs, with a probe at its root. -/
def treeTopSpec (adder probe : DefId) (width : Nat) : DefinitionSpec (Routine σ Unit) where
  name := "AdderTree"
  declarations := [
    ("a0", .plainInput (.uint width)),
    ("a1", .plainInput (.uint width)),
    ("a2", .plainInput (.uint width)),
    ("a3", .plainInput (.uint width)),
    ("sum", .output (.uint width)),
    ("build", .generator (treeTopRoutine adder probe) .unknown)]

/-! ### Building -/

/-- The cache that the demonstration designs share. -/
def cache : CacheId :=
  ⟨0⟩

/-- Adds a parameterization function to the library. -/
def addFactory (factory : Except BuildError (Factory σ)) : Supply σ FactoryId := do
  let (f, library) := (← get).library.addFactory (← Step.ofOutcome factory)
  Supply.modifyLibrary fun _ => library
  return f

/-- Makes the definition at the root of a demonstration design. -/
def top (design : String) (width : Nat) : Supply σ DefId := do
  let adders ← addFactory adderFactory
  let pipelines ← addFactory pipelineFactory
  match design with
  | "adder" =>
    let adder ← Supply.callFactory adders cache { positional := [.int width] }
    Supply.define (adderTopSpec adder width)
  | "pipeline" =>
    let pipeline ← Supply.callFactory pipelines cache
      { positional := [.int width], keyword := [("stages", .int 3)] }
    Supply.define (pipelineTopSpec pipeline width)
  | "tree" =>
    let adder ← Supply.callFactory adders cache { positional := [.int width] }
    let probe ← Supply.define (probeSpec width)
    Supply.define (treeTopSpec adder probe width)
  | _ => throw (.configuration (.unknownDesign design))

def build (design : String) (width : Nat) : Build σ Unit := do
  discard (Build.materialize (← Build.supply (top design width)))

/-- The session in which a demonstration design has been built from nothing. -/
def compile (config : Config) (design : String) (width : Nat) : Except BuildError Session :=
  match (build design width).apply ⟨⟨{}, ()⟩, .ofConfig config⟩ with
  | (.ok _, world) => .ok world.session
  | (.error e, _) => .error e

end Wirework.Demo
