import Wirework.Demo

/-! # Command line

The command line chooses a demonstration design, its width, what is printed and where to.  Options are read from left
to right; each may be given once, and the first that is wrong decides.

Arguments are taken apart one by one (`Argument`) and read into what has been given so far (`Reading`); in the end
there is a `Command` or a `UsageError`.  What a run comes to is an `Outcome`: a text to print, a file to write, or an
error with its exit status.  All of this is computed; only the outcome is performed. -/

namespace Wirework.CommandLine

/-- What is printed of a design. -/
inductive Emission where
  | ir
  | manifest
deriving DecidableEq, Repr

/-- The options of a run. -/
structure Options where
  design : String := "adder"
  width : Nat := 8
  emission : Emission := .ir
  /-- The file to write to; without one the text is printed. -/
  output : Option String := none
  reassign : ReassignPolicy := .warn
  autoMetadata : Bool := true
  /-- The repository that modules are said to come from. -/
  repository : Option String := none
deriving DecidableEq, Repr

/-- What the command line asks for. -/
inductive Command where
  | build (options : Options)
  | showVersion
  | showHelp
deriving DecidableEq, Repr

/-- What is wrong with a command line. -/
inductive UsageError where
  | unexpectedArgument (argument : String)
  | unexpectedValue (option : String)
  | missingValue (option : String)
  | repeated (option : String)
  | invalidValue (option value : String)
deriving DecidableEq, Repr

/-- Description of the error for the user. -/
def UsageError.message : UsageError → String
  | unexpectedArgument argument => s!"unexpected argument '{argument}' found"
  | unexpectedValue option => s!"unexpected value for '{option}' found; no more were expected"
  | missingValue option => s!"a value is required for '{option}' but none was supplied"
  | repeated option => s!"the argument '{option}' cannot be used multiple times"
  | invalidValue option value => s!"invalid value '{value}' for '{option}'"

/-! ### Options and flags -/

/-- Options that take a value. -/
inductive ValueOption where
  | design
  | width
  | emit
  | output
  | reassign
  | git
deriving DecidableEq, Repr

/-- Flags, which take none. -/
inductive Flag where
  | noMetadata
  | help
  | version
deriving DecidableEq, Repr

/-- An option or a flag. -/
inductive Switch where
  | option (o : ValueOption)
  | flag (f : Flag)
deriving DecidableEq, Repr

/-- Long name of a switch. -/
def Switch.name : Switch → String
  | option .design => "--design"
  | option .width => "--width"
  | option .emit => "--emit"
  | option .output => "--output"
  | option .reassign => "--reassign"
  | option .git => "--git"
  | flag .noMetadata => "--no-metadata"
  | flag .help => "--help"
  | flag .version => "--version"

/-- All switches. -/
def Switch.all : List Switch :=
  [.option .design, .option .width, .option .emit, .option .output, .option .reassign,
    .option .git, .flag .noMetadata, .flag .help, .flag .version]

def Switch.ofName? (name : String) : Option Switch :=
  Switch.all.find? (·.name = name)

/-- The switch of a letter. -/
def Switch.ofLetter? : Char → Option Switch
  | 'd' => some (.option .design)
  | 'w' => some (.option .width)
  | 'e' => some (.option .emit)
  | 'o' => some (.option .output)
  | 'h' => some (.flag .help)
  | 'V' => some (.flag .version)
  | _ => none

/-! ### Values -/

/-- A decimal number with an optional sign in front. -/
def readNumber? (text : String) : Option Nat :=
  let digits := match text.toList with
    | '+' :: rest => rest
    | cs => cs
  if digits.isEmpty || !digits.all Name.isDigit then none
  else some (digits.foldl (fun n c => 10 * n + (c.toNat - '0'.toNat)) 0)

/-- The options with a value filled in, unless the value is none for the option. -/
def Options.set? (options : Options) (o : ValueOption) (value : String) : Option Options :=
  match o with
  | .design =>
    if value ∈ ["adder", "pipeline", "tree"] then some { options with design := value } else none
  | .width =>
    match readNumber? value with
    | some width => if 1 ≤ width ∧ width ≤ 64 then some { options with width } else none
    | none => none
  | .emit =>
    match value with
    | "ir" => some { options with emission := .ir }
    | "manifest" => some { options with emission := .manifest }
    | _ => none
  | .output => some { options with output := some value }
  | .reassign =>
    match ReassignPolicy.ofText value with
    | .ok reassign => some { options with reassign }
    | .error _ => none
  | .git => some { options with repository := some value }

/-! ### Reading arguments -/

/-- Progress of reading: the options so far and the switches given. -/
structure Reading where
  options : Options := {}
  given : List Switch := []

/-- Notes that a switch is given, which may happen once. -/
def Reading.give (r : Reading) (s : Switch) : Except UsageError Reading :=
  if s ∈ r.given then .error (.repeated s.name) else .ok { r with given := s :: r.given }

def Reading.take (r : Reading) (o : ValueOption) (value : String) : Except UsageError Reading := do
  let r ← r.give (.option o)
  match r.options.set? o value with
  | some options => return { r with options }
  | none => throw (.invalidValue (Switch.option o).name value)

/-- A single argument, taken apart. -/
inductive Argument where
  | flag (f : Flag)
  /-- An option with its value. -/
  | withValue (o : ValueOption) (value : String)
  /-- An option whose value is the next argument. -/
  | awaiting (o : ValueOption)
  | wrong (e : UsageError)
deriving DecidableEq, Repr

/-- An argument that begins with two hyphens, without these. -/
def Argument.ofLong (text : List Char) : Argument :=
  let name := "--" ++ String.ofList (text.takeWhile (· ≠ '='))
  match Switch.ofName? name, text.dropWhile (· ≠ '=') with
  | some (.option o), [] => awaiting o
  | some (.option o), _ :: value => withValue o (String.ofList value)
  | some (.flag f), [] => flag f
  | some (.flag _), _ :: _ => wrong (.unexpectedValue name)
  | none, _ => wrong (.unexpectedArgument name)

/-- A letter after a hyphen, and what follows it in the same argument. The flags that have a letter end
the reading, so nothing that follows them counts. -/
def Argument.ofLetter (c : Char) (rest : List Char) : Argument :=
  match Switch.ofLetter? c, rest with
  | some (.flag f), _ => flag f
  | some (.option o), [] => awaiting o
  | some (.option o), '=' :: value => withValue o (String.ofList value)
  | some (.option o), value => withValue o (String.ofList value)
  | none, _ => wrong (.unexpectedArgument (String.ofList ['-', c]))

/-- An argument taken apart. -/
def Argument.ofText (text : String) : Argument :=
  match text.toList with
  | '-' :: '-' :: long => ofLong long
  | '-' :: c :: rest => ofLetter c rest
  | _ => wrong (.unexpectedArgument text)

/-- An argument that stands for itself where a value is awaited. -/
def isValue (text : String) : Bool :=
  match text.toList with
  | '-' :: _ :: _ => false
  | _ => true

/-- Takes a flag; one that asks for a text ends the reading. -/
def Reading.takeFlag (r : Reading) : Flag → Except UsageError (Reading ⊕ Command)
  | .help => .ok (.inr .showHelp)
  | .version => .ok (.inr .showVersion)
  | .noMetadata => do
    let r ← r.give (.flag .noMetadata)
    return .inl { r with options := { r.options with autoMetadata := false } }

/-- Reads arguments from left to right. -/
def Reading.read (r : Reading) : List String → Except UsageError Command
  | [] => return .build r.options
  | ["--"] => return .build r.options
  | "--" :: argument :: _ => throw (.unexpectedArgument argument)
  | text :: rest =>
    match Argument.ofText text, rest with
    | .wrong e, _ => throw e
    | .flag f, rest => do
      match ← r.takeFlag f with
      | .inl r => r.read rest
      | .inr command => return command
    | .withValue o value, rest => do (← r.take o value).read rest
    | .awaiting o, [] => throw (.missingValue (Switch.option o).name)
    | .awaiting o, value :: rest => do
      if isValue value then (← r.take o value).read rest
      else throw (.missingValue (Switch.option o).name)

/-- What the arguments of the command line ask for. -/
def parse (arguments : List String) : Except UsageError Command :=
  ({} : Reading).read arguments

/-! ### Running -/

/-- Why a run fails. -/
inductive RunError where
  | build (e : BuildError)
  | print (e : PrintError)
deriving DecidableEq

def RunError.message : RunError → String
  | build e => e.message
  | print e => e.message

/-- Settings of the session of a run. The origin of a repository is asked of no other program, so it
stays undetermined. -/
def Options.config (options : Options) : Config where
  reassign := options.reassign
  autoMetadata := options.autoMetadata
  provenance := if options.repository.isSome then none else some {}

/-- The text that is printed of a session. -/
def Emission.text (session : Session) : Emission → Except RunError String
  | ir => session.text.mapError .print
  | manifest => .ok ((manifestJson session.manifest).pretty ++ "\n")

def Options.text (options : Options) : Except RunError String := do
  let session ← (Demo.compile options.config options.design options.width).mapError .build
  options.emission.text session

def versionText : String :=
  "hgen 0.1.0\n"

/-- A short guide to the options. -/
def helpText : String :=
  "Usage: hgen [OPTIONS]\n\nOptions:\n"
    ++ "  -d, --design <design>      Demonstration design to build: adder, pipeline or tree\n"
    ++ "  -w, --width <width>        Data width of the design, 1 to 64\n"
    ++ "  -e, --emit <emit>          What to print: ir or manifest\n"
    ++ "  -o, --output <output>      File to write to\n"
    ++ "      --reassign <reassign>  Outputs assigned more than once: allow, warn or deny\n"
    ++ "      --no-metadata          Do not fill in module metadata automatically\n"
    ++ "      --git <git>            Repository that the modules come from\n"
    ++ "  -h, --help                 Print help\n"
    ++ "  -V, --version              Print version\n"

/-- What a run of the program does. -/
inductive Outcome where
  /-- Prints a text. -/
  | print (text : String)
  /-- Creates a file and writes a text to it. -/
  | write (file text : String)
  /-- Fails after a file, if one is named, has been created. -/
  | fail (error : RunError) (file : Option String)
  /-- Refuses the command line. -/
  | refuse (error : UsageError)
deriving DecidableEq

/-- The outcome of a run with the given options. -/
def Options.outcome (options : Options) : Outcome :=
  match options.text, options.output with
  | .error e, file => .fail e file
  | .ok text, some file => .write file text
  | .ok text, none => .print text

/-- The outcome of a run with the given arguments. -/
def outcome (arguments : List String) : Outcome :=
  match parse arguments with
  | .error e => .refuse e
  | .ok .showVersion => .print versionText
  | .ok .showHelp => .print helpText
  | .ok (.build options) => options.outcome

end Wirework.CommandLine
