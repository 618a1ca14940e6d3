import Wirework.Proofs.Design.Importing
import Wirework.Session

/-! # What happens to a session

`Does catalog task s s'` says that carrying out a task takes the session `s` to `s'`.  There are two
kinds of tasks: to make the module of a definition, and to go on with the body at the insertion point.
Either contains the other, to any depth, since making a module goes on with its body and going on with a
body makes the modules of its instances; and at any depth a task may fail.

The relation mentions neither definitions nor routines.  Of a definition it only asks what a catalog knows:
whether it is imported, since such a definition is given a body that no routine has built, which ports its
module may have, which clock its body has, and which parameters its module declares. -/

namespace Wirework

namespace Scopes

def enter (s : Scopes) (id : ModuleId) (location : Location) (clock : Option Clock) : Scopes :=
  ⟨id :: s.insertionPoints, location :: s.locations, clock :: s.clocks⟩

/-- The scopes outside the body at the insertion point. -/
def leave (s : Scopes) : Scopes :=
  ⟨s.insertionPoints.tail, s.locations.tail, s.clocks.tail⟩

end Scopes

namespace Session

/-- The modules whose bodies are being built, innermost first. -/
def points (s : Session) : List ModuleId :=
  s.design.scopes.insertionPoints

/-- The module whose body is being built at the moment. -/
def here? (s : Session) : Option ModuleId :=
  s.design.scopes.insertionPoint?

/-- The module was made for the definition, whose generator is not running. -/
def MadeFor (s : Session) (d : DefId) (id : ModuleId) : Prop :=
  s.moduleOf? d = some id ∧ d ∉ s.generating

/-- The module was made for a definition whose generator is not running. -/
def Made (s : Session) (id : ModuleId) : Prop :=
  ∃ d, s.moduleOf? d = some id ∧ d ∉ s.generating

theorem MadeFor.made {s : Session} {d : DefId} {id : ModuleId} (h : s.MadeFor d id) : s.Made id :=
  ⟨d, h⟩

/-! ### Changes -/

/-- The session with a new module for a definition, given the design that has it. -/
def enroll (s : Session) (d : DefId) (m : HwModule) (design : Design) (entry : ManifestEntry) :
    Session :=
  { s with
    design
    symbols := ⟨m.symbol :: s.symbols.used⟩
    records := (s.design.nextModule, entry) :: s.records
    modules := (d, s.design.nextModule) :: s.modules }

/-- The session inside the body of a module. -/
def enter (s : Session) (d : DefId) (id : ModuleId) (location : Location) (clock : Option Clock) :
    Session :=
  { s with
    design.scopes := s.design.scopes.enter id location clock
    generating := d :: s.generating
    blocks := .empty :: s.blocks }

/-- The session outside the body at the insertion point. -/
def leave (s : Session) (d : DefId) : Session :=
  { s with
    design.scopes := s.design.scopes.leave
    generating := s.generating.filter (· ≠ d)
    blocks := s.blocks.tail }

/-- The session without the module of a definition whose generation has failed. -/
def drop (s : Session) (d : DefId) (name : String) (id : ModuleId) : Session :=
  { s with
    design.modules := s.design.modules.setIfInBounds id.index none
    modules := s.modules.filter (·.1 ≠ d)
    records := s.records.filter (·.1 ≠ id)
    instances := s.instances.filter (·.parent ≠ id)
    symbols := match s.design.module? id with
      | some m => s.symbols.release m.symbol
      | none => s.symbols
    warnings := s.warnings ++ [.discarded name] }

/-- The new module `m` of the design suits a definition of the given name. -/
structure Fits (s : Session) (name : String) (m : HwModule) (design : Design)
    (entry : ManifestEntry) : Prop where
  takes : s.design.Takes (some m) design
  symbol_eq : m.symbol = (s.symbols.uniquify name).1
  valid : Name.isValid name = true
  entry_eq : entry.symbol = m.symbol

/-! ### Activities -/

/-- What is asked of definitions. -/
structure Catalog where
  /-- The definition copies an existing module. -/
  imported : DefId → Prop
  /-- Its module may have the header. -/
  suits : DefId → HwModule → Prop
  /-- Its body has the clock, if it has the block arguments. -/
  clocks : DefId → List ValueId → Option Clock → Prop
  /-- Its module declares the parameters, if it is external and the values are recorded with it. -/
  declares : DefId → AttributeMap → List ParameterDecl → Prop

/-- The module of a definition has been made, and its body has been begun and entered. -/
inductive Opens (catalog : Catalog) (d : DefId) (name : String) (s : Session) : Session → Prop
  | intro {m : HwModule} {design : Design} {entry : ManifestEntry} {arguments : List ValueId}
      (idle : d ∉ s.generating) (unbound : s.moduleOf? d = none) (original : ¬ catalog.imported d)
      (fits : s.Fits name m design entry) (begun : m.body? = some { arguments })
      (suits : catalog.suits d m.header) (location : Location) (clock : Option Clock)
      (clocked : catalog.clocks d arguments clock) :
      Opens catalog d name s
        ((s.enroll d m design entry).enter d s.design.nextModule location clock)

section opens

variable {catalog : Catalog} {d : DefId} {name : String} {s s' : Session}

theorem Opens.unbound (h : s.Opens catalog d name s') : s.moduleOf? d = none := by
  cases h; assumption

theorem Opens.generating_eq (h : s.Opens catalog d name s') :
    s'.generating = d :: s.generating := by
  cases h; rfl

theorem Opens.config_eq (h : s.Opens catalog d name s') : s'.config = s.config := by
  cases h; rfl

theorem Opens.modules_eq (h : s.Opens catalog d name s') :
    s'.modules = (d, s.design.nextModule) :: s.modules := by
  cases h; rfl

theorem Opens.here?_eq (h : s.Opens catalog d name s') : s'.here? = some s.design.nextModule := by
  cases h; rfl

theorem Opens.points_eq (h : s.Opens catalog d name s') :
    s'.points = s.design.nextModule :: s.points := by
  cases h with
  | intro idle unbound original fits begun suits location clock =>
      exact congrArg (s.design.nextModule :: ·) (congrArg Scopes.insertionPoints fits.takes.scopes_eq)

end opens

/-- What the routine of the body at the insertion point does without making a module. -/
inductive Edits (s : Session) : Session → Prop
  /-- Appends an operation, which may be an instance of a module that has been made. -/
  | append {parent : ModuleId} {operation : Operation ModuleId ValueId} {design : Design}
      (here : s.here? = some parent) (appends : s.design.Appends parent operation design)
      (goesOn : operation.isTerminator = false)
      (callee : ∀ c, operation.callee? = some c → s.Made c)
      (clocked : operation.ClockedBy s.design.scopes.clock?) :
      Edits s { s with design }
  | annotate {parent : ModuleId} {id : OpId} {op : Op} (here : s.here? = some parent)
      (found : s.design.op? id = some op) (own : op.parent = parent) (attributes : AttributeMap) :
      Edits s { s with design := s.design.annotate id op attributes }
  /-- Takes an instance name into use. -/
  | name {block block' : NameScope} {outer : List NameScope} (blocks : s.blocks = block :: outer) :
      Edits s { s with blocks := block' :: outer }
  /-- Records an instance that has been appended. -/
  | register {record : InstanceRecord} {op : Op} {m : HwModule} {body : Body}
      (here : s.here? = some record.parent)
      (found : s.design.op? record.op = some op) (own : op.parent = record.parent)
      (instantiates : ∃ inputs parameters,
        op.operation = .instantiate record.module record.name inputs parameters)
      (parent : s.design.module? record.parent = some m) (begun : m.body? = some body)
      (inside : record.op ∈ body.ops) (callee : s.Made record.module)
      (numbered : record.id = ⟨s.instances.length⟩) :
      Edits s { s with instances := s.instances ++ [record] }
  | warn (warnings : List Warning) :
      Edits s { s with warnings }

theorem Edits.modules_eq {s s' : Session} (h : s.Edits s') : s'.modules = s.modules := by
  cases h <;> rfl

/-- A task: to make the module of a definition of the given name, with the given outcome, or to go on
with the body at the insertion point. -/
inductive Task where
  | make (d : DefId) (name : String) (outcome : Option ModuleId)
  | fill

/-- Carrying out a task takes one session to another. -/
inductive Does (catalog : Catalog) : Task → Session → Session → Prop
  | refused {s : Session} (d : DefId) (name : String) :
      Does catalog (.make d name none) s s
  /-- The module could not be begun; all that is left of it is its empty position. -/
  | spoilt {s : Session} {design : Design} (d : DefId) (name : String)
      (takes : s.design.Takes none design) (warnings : List Warning) :
      Does catalog (.make d name none) s { s with design, warnings }
  | known {s : Session} {d : DefId} {id : ModuleId} (name : String) (idle : d ∉ s.generating)
      (bound : s.moduleOf? d = some id) :
      Does catalog (.make d name (some id)) s s
  /-- The module needs no routine. -/
  | leaf {s : Session} {d : DefId} {name : String} {m : HwModule} {design : Design}
      {entry : ManifestEntry} (idle : d ∉ s.generating) (unbound : s.moduleOf? d = none)
      (fits : s.Fits name m design entry) (settled : m.IsSettled)
      (copied : catalog.imported d ∨ m.isExternal = true) (suits : catalog.suits d m.header)
      (declares : ∀ declared, m.kind = .external declared →
        catalog.declares d entry.parameters declared) :
      Does catalog (.make d name (some s.design.nextModule)) s (s.enroll d m design entry)
  | generated {s s₁ s₂ : Session} {d : DefId} {name : String} {values : List ValueId}
      {design : Design} (opens : s.Opens catalog d name s₁) (fill : Does catalog .fill s₁ s₂)
      (ends : s₂.design.Appends s.design.nextModule (.output values) design) :
      Does catalog (.make d name (some s.design.nextModule)) s ({ s₂ with design }.leave d)
  | discarded {s s₁ s₂ : Session} {d : DefId} {name : String} (opens : s.Opens catalog d name s₁)
      (fill : Does catalog .fill s₁ s₂) (current : String) :
      Does catalog (.make d name none) s ((s₂.leave d).drop d current s.design.nextModule)
  | rest (s : Session) : Does catalog .fill s s
  | edit {s s₁ s₂ : Session} (fill : Does catalog .fill s s₁) (edits : s₁.Edits s₂) :
      Does catalog .fill s s₂
  | nested {s s₁ s₂ : Session} {d : DefId} {name : String} {outcome : Option ModuleId}
      (fill : Does catalog .fill s s₁) (make : Does catalog (.make d name outcome) s₁ s₂) :
      Does catalog .fill s s₂

end Session

end Wirework
