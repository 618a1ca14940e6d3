import Wirework.Design.Basic

/-! # Text of a design

A design is written module by module, instantiated modules before the modules that instantiate them.  The hierarchy is
the graph with an edge from each live module to every live module it instantiates; a depth-first search from each live
module gives an order in which every module comes after all that it instantiates, unless the hierarchy has a cycle.

Block arguments are named after their ports and results after their place in the value table. -/

namespace Wirework

/-! ## Instantiation hierarchy -/

/-- A graph of modules. Both lists are in the order of discovery and without repetition. -/
structure Hierarchy where
  nodes : List ModuleId
  edges : List (ModuleId × ModuleId)
deriving DecidableEq, Repr

namespace Design

/-- The modules instantiated in the body of a module, in the order of their instances. -/
def callees (d : Design) (m : HwModule) : List ModuleId :=
  match m.body? with
  | none => []
  | some body => body.ops.toList.filterMap fun id => (d.op? id).bind (·.operation.callee?)

/-- The edges of the hierarchy with repetitions. -/
def instantiations (d : Design) : List (ModuleId × ModuleId) :=
  d.liveModules.flatMap fun (id, m) =>
    ((d.callees m).filter fun callee => (d.module? callee).isSome).map fun callee => (id, callee)

/-- The instantiation graph of the live modules. -/
def hierarchy (d : Design) : Hierarchy where
  nodes := d.liveModules.map (·.1)
  edges := d.instantiations.foldl
    (fun edges edge => if edge ∈ edges then edges else edges ++ [edge]) []

end Design

namespace Hierarchy

/-- The modules a module instantiates, in the order of their first instances. -/
def children (h : Hierarchy) (id : ModuleId) : List ModuleId :=
  h.edges.filterMap fun edge => if edge.1 = id then some edge.2 else none

/-- Progress of a depth-first search. -/
structure Search where
  /-- Modules that have been reached. -/
  discovered : List ModuleId := []
  /-- Modules that have been left, the latest first. -/
  finished : List ModuleId := []
deriving DecidableEq, Repr

/-- Visits a module and, the last first, the modules it instantiates, down to the given depth. -/
def visit (h : Hierarchy) : Nat → Search → ModuleId → Search
  | 0, s, _ => s
  | depth + 1, s, id =>
    if id ∈ s.discovered then s
    else
      let s := { s with discovered := id :: s.discovered }
      let s := (h.children id).reverse.foldl (h.visit depth) s
      { s with finished := id :: s.finished }

/-- The modules in the order in which a depth-first search from each of them leaves them. No path of
modules that are reached for the first time is longer than their number. -/
def finishOrder (h : Hierarchy) : List ModuleId :=
  (h.nodes.foldl (h.visit (h.nodes.length + 1)) {}).finished.reverse

/-- Every module comes after the modules it instantiates. -/
def respects (h : Hierarchy) (order : List ModuleId) : Bool :=
  h.edges.all fun (parent, child) => order.idxOf child < order.idxOf parent

/-- An order in which every module comes after the modules it instantiates, unless there is a
cycle. -/
def order? (h : Hierarchy) : Option (List ModuleId) :=
  if h.respects h.finishOrder then some h.finishOrder else none

end Hierarchy

/-! ## Text -/

/-- Why a design has no text. -/
inductive PrintError where
  /-- A module to be written has been erased. -/
  | invalidModule (id : ModuleId)
  /-- A module instantiates itself, directly or through others. -/
  | cyclicHierarchy
deriving DecidableEq, Repr

def PrintError.message : PrintError → String
  | invalidModule _ => "Invalid module ID"
  | cyclicHierarchy => "Module hierarchy contains a cycle"

namespace Design

def commaList (items : List String) : String :=
  ", ".intercalate items

/-- Items in angle brackets, nothing if there are none. -/
def angleList (items : List String) : String :=
  if items.isEmpty then "" else "<" ++ commaList items ++ ">"

def attributesText (attributes : AttributeMap) : String :=
  (Attribute.dict attributes).text

def parametersText (parameters : AttributeMap) : String :=
  angleList (parameters.entries.map fun (name, value) => name ++ ": " ++ value.text)

/-- Name of a value within the text of a module. -/
def valueName (d : Design) (m : HwModule) (value : ValueId) : String :=
  let number := "%" ++ toString value.index
  match d.value? value with
  | some ⟨_, .argument _ index⟩ =>
    match m.inputs[index]? with
    | some port => "%" ++ port.name
    | none => number
  | _ => number

def valueNames (d : Design) (m : HwModule) (values : List ValueId) : String :=
  commaList (values.map (d.valueName m))

/-! ### Operations -/

/-- Text of an instance, whose module must be live. -/
def instanceText (d : Design) (m callee : HwModule) (name : String) (inputs : List ValueId)
    (parameters : AttributeMap) : String :=
  let inputTexts := (callee.inputs.zip inputs).map fun (port, value) =>
    port.name ++ ": " ++ d.valueName m value
  let outputTexts := callee.outputs.map fun port => port.name ++ ": " ++ port.type.text
  "hw.instance \"" ++ name ++ "\" @" ++ callee.symbol ++ parametersText parameters
    ++ "(" ++ commaList inputTexts ++ ") -> (" ++ commaList outputTexts ++ ")"

/-- Text of an operation without its results and attributes. -/
def operationText (d : Design) (m : HwModule) :
    Operation ModuleId ValueId → Except PrintError String
  | .constant c => return "hw.constant " ++ c.text
  | .add lhs rhs => return "comb.add " ++ d.valueNames m [lhs, rhs]
  | .register input clock => return "seq.compreg " ++ d.valueNames m [input, clock]
  | .instantiate module name inputs parameters =>
    match d.module? module with
    | some callee => return d.instanceText m callee name inputs parameters
    | none => throw (.invalidModule module)
  | .output values => return "hw.output " ++ d.valueNames m values

/-- Line of an operation: its results, the operation and its attributes. -/
def opText (d : Design) (m : HwModule) (op : Op) : Except PrintError String := do
  let results := if op.results.isEmpty then "" else d.valueNames m op.results ++ " = "
  let attributes := if op.attributes.isEmpty then "" else " " ++ attributesText op.attributes
  return "  " ++ results ++ (← d.operationText m op.operation) ++ attributes ++ "\n"

/-! ### Modules -/

/-- Ports of a signature: inputs with the sign of a value, outputs with their bare names. -/
def portTexts (m : HwModule) : List String :=
  (m.inputs.map fun port => "in %" ++ port.name ++ ": " ++ port.type.text)
    ++ m.outputs.map fun port => "out " ++ port.name ++ ": " ++ port.type.text

/-- Ports and attributes of a module. -/
def signatureText (m : HwModule) : String :=
  let attributes :=
    if m.attributes.isEmpty then "" else " attributes " ++ attributesText m.attributes
  "(" ++ commaList (portTexts m) ++ ")" ++ attributes

/-- Lines of the operations in a body. -/
def bodyText (d : Design) (m : HwModule) (body : Body) : Except PrintError String := do
  let lines ← (body.ops.toList.filterMap d.op?).mapM (d.opText m)
  return String.join lines

/-- Text of a module. -/
def moduleText (d : Design) (id : ModuleId) : Except PrintError String := do
  let some m := d.module? id | throw (.invalidModule id)
  match m.kind with
  | .external parameters =>
    let parameterTexts := parameters.map fun p => p.name ++ ": " ++ p.kind
    return "hw.module.extern @" ++ m.symbol ++ angleList parameterTexts ++ signatureText m ++ "\n"
  | .generated body =>
    let lines ← match body with
      | some body => d.bodyText m body
      | none => pure ""
    return "hw.module @" ++ m.symbol ++ signatureText m ++ " \x7b\n" ++ lines ++ "\x7d\n"

/-- Text of a design: its modules, instantiated ones first, separated by blank lines. -/
def text (d : Design) : Except PrintError String := do
  let some order := d.hierarchy.order? | throw .cyclicHierarchy
  return "\n".intercalate (← order.mapM d.moduleText)

end Design

end Wirework
