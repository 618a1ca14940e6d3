import Wirework.BuildError
import Wirework.Name

/-! # Parameters

A parameterization function declares its parameters, some of them with defaults.  A call supplies arguments by
position and by keyword; binding gives every parameter its value or says why that is impossible.

The parameters of a definition, by name, form its key.  Equal parameters make equal keys, in whatever order they were
given; parameters with private names are left out.  A key also gives a definition its name: the base name followed by
each parameter. -/

namespace Wirework

/-! ## Parameter keys -/

/-- The parameters that set a definition apart from others of the same function. -/
structure ParameterKey where
  values : AttributeMap := .empty
deriving DecidableEq

namespace ParameterKey

def ofList (parameters : List (String × Attribute)) : ParameterKey :=
  ⟨.ofList parameters⟩

/-- The parameters as a dictionary. -/
def toAttribute (key : ParameterKey) : Attribute :=
  .dict key.values

def text (key : ParameterKey) : String :=
  key.toAttribute.text

/-! ### Names of parameterized modules -/

/-- Text of a parameter within a name: a string as it is, all else in its written form. -/
def valueText : Attribute → String
  | .str s => s
  | value => value.text

/-- The parameters as they stand in a name, sorted by their text. -/
def nameParts (key : ParameterKey) : List String :=
  (key.values.entries.map fun (name, value) => name ++ valueText value).mergeSort
    (fun a b => decide (a ≤ b))

/-- Name of the module that a function makes of these parameters, such as `Adder_width8`. -/
def moduleName (base : String) (key : ParameterKey) : String :=
  Name.sanitize ("_".intercalate (base :: key.nameParts))

end ParameterKey

/-! ## Binding of arguments -/

/-- A parameter as it is declared. -/
inductive Formal where
  | named (name : String) (default : Option Attribute)
  /-- Takes all further arguments by position or by keyword, which is not allowed. -/
  | variadic (name : String)
deriving DecidableEq

/-- The parameters of a function, with their defaults, in order. -/
structure Signature where
  function : String
  parameters : List (String × Option Attribute)
deriving DecidableEq

namespace Signature

/-- Names of the parameters. -/
def names (s : Signature) : List String :=
  s.parameters.map (·.1)

/-- Adds declared parameters to a signature. -/
def addFormals (s : Signature) : List Formal → Except BuildError Signature
  | [] => return s
  | .named name default :: rest =>
    if name ∈ s.names then throw (.configuration (.duplicateParameter name s.function))
    else addFormals { s with parameters := s.parameters ++ [(name, default)] } rest
  | .variadic name :: _ => throw (.invalidParameterSignature s.function name)

/-- The signature with the declared parameters, which must have distinct names. -/
def ofFormals (function : String) (formals : List Formal) : Except BuildError Signature :=
  addFormals ⟨function, []⟩ formals

end Signature

/-- The arguments of a call. -/
structure Args where
  positional : List Attribute := []
  keyword : List (String × Attribute) := []
deriving DecidableEq

/-- Arguments by the names of their parameters, defaults filled in. -/
structure BoundArgs where
  function : String
  values : AttributeMap
deriving DecidableEq

/-! ### Binding -/

namespace Signature

def refuse {α : Type} (s : Signature) (fault : ArgumentFault) : Except BuildError α :=
  .error (.invalidArguments s.function fault)

/-- Adds the arguments given by keyword. -/
def bindKeywords (s : Signature) :
    List (String × Attribute) → AttributeMap → Except BuildError AttributeMap
  | [], values => return values
  | (name, value) :: rest, values =>
    if name ∉ s.names then s.refuse (.unexpectedKeyword name)
    else if values.contains name then s.refuse (.multipleValues name)
    else s.bindKeywords rest (values.insert name value)

/-- Parameters that have neither a value nor a default. -/
def missing (s : Signature) (values : AttributeMap) : List String :=
  s.parameters.filterMap fun (name, default) =>
    if values.contains name || default.isSome then none else some name

/-- Adds the defaults of the parameters that have no value. -/
def addDefaults (s : Signature) (values : AttributeMap) : AttributeMap :=
  s.parameters.foldl
    (fun values (name, default) =>
      match default with
      | some value => if values.contains name then values else values.insert name value
      | none => values)
    values

/-- Gives every parameter its value. -/
def bind (s : Signature) (args : Args) : Except BuildError BoundArgs := do
  if s.parameters.length < args.positional.length then
    s.refuse (.tooManyPositional s.parameters.length args.positional.length)
  let values ← s.bindKeywords args.keyword (.ofList (s.names.zip args.positional))
  let missing := s.missing values
  unless missing.isEmpty do
    s.refuse (.missing missing)
  return ⟨s.function, s.addDefaults values⟩

end Signature

/-! ### Access -/

namespace BoundArgs

def find? (b : BoundArgs) (name : String) : Option Attribute :=
  b.values.find? name

/-- The arguments that tell definitions apart: all but the private ones. -/
def key (b : BoundArgs) : ParameterKey :=
  ⟨b.values.filterNames fun name => !Name.isPrivate name⟩

def refuse {α : Type} (b : BoundArgs) (fault : ArgumentFault) : Except BuildError α :=
  .error (.invalidArguments b.function fault)

/-- The argument of a name, in the view of its kind. -/
def view {α : Type} (b : BoundArgs) (name : String) (expected : ArgumentKind)
    (read : Attribute → Option α) : Except BuildError α :=
  match b.find? name with
  | none => b.refuse (.noArgument name)
  | some value =>
    match read value with
    | some a => .ok a
    | none => b.refuse (.wrongKind name expected value)

def int (b : BoundArgs) (name : String) : Except BuildError Int :=
  b.view name .integer Attribute.int?

/-- An integer argument in the range of unsigned numbers with the given number of bits. -/
def unsigned (b : BoundArgs) (bits : Nat) (name : String) : Except BuildError Nat := do
  let value ← b.int name
  if (HwType.uint bits).Fits value then return value.toNat
  else b.refuse (.outOfRange name value)

def bool (b : BoundArgs) (name : String) : Except BuildError Bool :=
  b.view name .boolean Attribute.bool?

def str (b : BoundArgs) (name : String) : Except BuildError String :=
  b.view name .string Attribute.str?

def type (b : BoundArgs) (name : String) : Except BuildError HwType :=
  b.view name .type Attribute.type?

end BoundArgs

end Wirework
