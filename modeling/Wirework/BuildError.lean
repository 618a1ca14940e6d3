import Wirework.Design.Basic

/-! # Errors of declaring and generating modules

What can be wrong with declarations, with arguments, with settings and with the body that a routine builds.  An error
has the data that its message names, and the message is made from these data only.

An `EngineFault` is an error of another sort: it stands for a look-up that has no answer although it should, such as
that of a port at its own index.  None of them comes up in a session. -/

namespace Wirework

/-- The kind of value an argument is asked for. -/
inductive ArgumentKind where
  | integer
  | boolean
  | string
  | type
deriving DecidableEq, Repr

/-- The kind with its article. -/
def ArgumentKind.text : ArgumentKind → String
  | integer => "an integer"
  | boolean => "a boolean"
  | string => "a string"
  | type => "a type"

/-- What is wrong with the arguments of a call. -/
inductive ArgumentFault where
  /-- There are more arguments by position than parameters. -/
  | tooManyPositional (declared given : Nat)
  /-- A keyword names no parameter. -/
  | unexpectedKeyword (name : String)
  /-- A parameter is given twice. -/
  | multipleValues (name : String)
  /-- Parameters without default are not given. -/
  | missing (names : List String)
  /-- The function has no such parameter. -/
  | noArgument (name : String)
  /-- The argument is of another kind. -/
  | wrongKind (name : String) (expected : ArgumentKind) (found : Attribute)
  /-- The argument is no number of the asked width. -/
  | outOfRange (name : String) (value : Int)
deriving DecidableEq

namespace ArgumentFault

/-- The fault in words. -/
def text : ArgumentFault → String
  | tooManyPositional declared given =>
    s!"takes {declared} positional arguments but {given} were given"
  | unexpectedKeyword name => s!"unexpected keyword argument '{name}'"
  | multipleValues name => s!"multiple values for argument '{name}'"
  | missing names => "missing required arguments: " ++ ", ".intercalate names
  | noArgument name => s!"no argument named '{name}'"
  | wrongKind name expected found =>
    s!"argument '{name}' must be {expected.text}, got {found.text}"
  | outOfRange name value => s!"argument '{name}' out of range: {value}"

end ArgumentFault

/-- What is wrong with a declaration or a setting. -/
inductive ConfigurationFault where
  /-- An output of the module being generated cannot be left without a value. -/
  | absentOutput (port module : String)
  /-- The port is used as a clock and is none. -/
  | notAClock (port module : String)
  /-- A port in the role of a clock has another type. -/
  | clockPortType (port module : String) (type : HwType)
  /-- The value of a constant is no number. -/
  | constantKind (name module : String) (value : Attribute)
  /-- The value of a constant does not fit its type. -/
  | constantRange (name module : String) (type : HwType) (value : Attribute)
  /-- A parameterization function declares a parameter twice. -/
  | duplicateParameter (name function : String)
  /-- There is no such policy for assigning an output twice. -/
  | unknownPolicy (text : String)
  /-- There is no such demonstration design. -/
  | unknownDesign (name : String)
  /-- A fault that a generator or a parameterization function reports itself. -/
  | reported (text : String)
deriving DecidableEq

namespace ConfigurationFault

/-- The fault in words. -/
def text : ConfigurationFault → String
  | absentOutput port module => s!"Output '{port}' of module '{module}' cannot be left absent"
  | notAClock port module => s!"Port '{port}' of module '{module}' is not a clock"
  | clockPortType port module type =>
    s!"Clock port '{port}' of module '{module}' must have clock type, got {type.text}"
  | constantKind name module value =>
    s!"Constant '{name}' of module '{module}' must be an integer, got {value.text}"
  | constantRange name module type value =>
    s!"Constant '{name}' of module '{module}' does not fit type {type.text}: {value.text}"
  | duplicateParameter name function =>
    s!"Duplicate parameter '{name}' in module parameterization function '{function}'"
  | unknownPolicy text =>
    s!"Unknown reassignment policy '{text}' (expected allow, warn or deny)"
  | unknownDesign name => s!"Unknown design '{name}'"
  | reported text => text

end ConfigurationFault

/-- A reference into a table that has no such entry, or nesting beyond every bound. -/
inductive EngineFault where
  | unknownDefinition
  | unknownFactory
  | unknownName (name : String)
  | portIndex (index : Nat)
  | nestingTooDeep
deriving DecidableEq, Repr

namespace EngineFault

/-- The fault in words. -/
def text : EngineFault → String
  | unknownDefinition => "Unknown definition"
  | unknownFactory => "Unknown parameterization function"
  | unknownName name => s!"Unknown name '{name}'"
  | portIndex index => s!"No port at index {index}"
  | nestingTooDeep => "Definitions are nested too deeply"

end EngineFault

/-- Why declaring, generating or instantiating a module is refused. -/
inductive BuildError where
  | portResolution (module port : String)
  | typeMismatch (module port : String) (expected found : HwType)
  | missingInput (module : String) (ports : List String)
  | unconnectedOutput (module : String) (ports : List String)
  | absentInput (module port : String)
  | outputReassigned (module port : String)
  | multipleGenerators (module : String) (generators : List String)
  | noGenerator (module : String)
  | invalidParameterSignature (function parameter : String)
  | invalidArguments (function : String) (fault : ArgumentFault)
  | configuration (fault : ConfigurationFault)
  | duplicateDeclaration (module name : String)
  | duplicateBinding (module port : String)
  | noActiveScope
  | alreadyGenerated (module : String)
  | recursiveGeneration (module : String)
  | invalidName (name : String)
  | ir (error : IrError)
  | engine (fault : EngineFault)
deriving DecidableEq

namespace BuildError

def nameList (names : List String) : String :=
  ", ".intercalate names

/-- Description of the error for the user. -/
def message : BuildError → String
  | portResolution module port => s!"Port '{port}' not found in module '{module}'"
  | typeMismatch module port expected found =>
    s!"Wrong type on port '{port}' of module '{module}': expected '{expected.text}', "
      ++ s!"got '{found.text}'"
  | missingInput module ports =>
    s!"Missing input signals for ports of module '{module}': {nameList ports}"
  | unconnectedOutput module ports =>
    s!"Unconnected outputs in module '{module}': {nameList ports}"
  | absentInput module port =>
    s!"Port '{port}' of module '{module}' cannot be absent "
      ++ "(disconnected ports are only allowed on extern modules)"
  | outputReassigned module port =>
    s!"Output '{port}' of module '{module}' assigned more than once"
  | multipleGenerators module generators =>
    s!"Module '{module}' declares multiple generators: {nameList generators}"
  | noGenerator module => s!"Module '{module}' has no generator"
  | invalidParameterSignature function parameter =>
    s!"Module parameterization function '{function}' cannot declare variadic parameter "
      ++ s!"'{parameter}'"
  | invalidArguments function fault => s!"Invalid arguments to '{function}': {fault.text}"
  | configuration fault => fault.text
  | duplicateDeclaration module name =>
    s!"Duplicate declaration '{name}' in module '{module}'"
  | duplicateBinding module port => s!"Port '{port}' of module '{module}' bound more than once"
  | noActiveScope => "Modules can only be instantiated inside a generator"
  | alreadyGenerated module => s!"Module '{module}' has already been generated"
  | recursiveGeneration module =>
    s!"Module '{module}' is instantiated while it is being generated"
  | invalidName name => s!"Invalid name '{name}'"
  | ir error => error.message
  | engine fault => fault.text

end BuildError

end Wirework
