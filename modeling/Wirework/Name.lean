/-! # Names

The symbols of modules and instances are ASCII identifiers.  `Name.isValid` recognises them, and `Name.sanitize` turns
any text into words of letters and digits joined by single underscores.

A `NameScope` remembers the names in use and hands out fresh ones: the requested name if it is free, and otherwise the
first of `name_1`, `name_2`, … that is.  Nothing bounds that search but the number of names in use. -/

namespace Wirework

namespace Name

def isLetter (c : Char) : Bool :=
  ('a' ≤ c && c ≤ 'z') || ('A' ≤ c && c ≤ 'Z')

def isDigit (c : Char) : Bool :=
  '0' ≤ c && c ≤ '9'

def isWordChar (c : Char) : Bool :=
  isLetter c || isDigit c

/-! ### Validity -/

def isInitial (c : Char) : Bool :=
  isLetter c || c == '_'

def isSubsequent (c : Char) : Bool :=
  isWordChar c || c == '_'

/-- A name is a letter or underscore followed by letters, digits and underscores. -/
def isValid (name : String) : Bool :=
  match name.toList with
  | [] => false
  | c :: rest => isInitial c && rest.all isSubsequent

/-- Names that begin with an underscore are private to their declaration. -/
def isPrivate (name : String) : Bool :=
  match name.toList with
  | [] => false
  | c :: _ => c == '_'

/-! ### Sanitizing -/

/-- Characters that are dropped before words are formed, so that they do not separate words. -/
def isDropped (c : Char) : Bool :=
  c ∈ ['!', '>', '[', ']', ',', '"']

/-- The maximal runs of letters and digits, in order. -/
def words : List Char → List (List Char)
  | [] => []
  | c :: rest =>
    if isWordChar c then (c :: rest.takeWhile isWordChar) :: words (rest.dropWhile isWordChar)
    else words rest
termination_by cs => cs.length
decreasing_by
  · have := (List.dropWhile_sublist (l := rest) isWordChar).length_le
    simp only [List.length_cons]; omega
  · simp

/-- Words joined by single underscores, as characters. -/
def joinWords (ws : List (List Char)) : List Char :=
  List.intercalate ['_'] ws

/-- The words of a text, after dropping brackets, commas and quotes, joined by underscores. -/
def sanitize (text : String) : String :=
  String.ofList (joinWords (words (text.toList.filter fun c => !isDropped c)))

end Name

/-! ## Fresh names -/

/-- The names in use within a scope. -/
structure NameScope where
  used : List String := []
deriving DecidableEq, Repr

namespace NameScope

def empty : NameScope := {}

def contains (scope : NameScope) (name : String) : Bool :=
  scope.used.contains name

/-- The `n`-th spelling tried for a name: the name itself, then the name with a counter. -/
def candidate (name : String) : Nat → String
  | 0 => name
  | n + 1 => name ++ "_" ++ toString (n + 1)

/-- The first counter whose spelling is free. As there are more counters to try than names in use,
the search succeeds. -/
def firstFree (scope : NameScope) (name : String) : Nat :=
  ((List.range (scope.used.length + 1)).find?
    fun n => !scope.contains (candidate name n)).getD (scope.used.length + 1)

/-- Takes a fresh name close to the requested one into use. -/
def uniquify (scope : NameScope) (name : String) : String × NameScope :=
  let fresh := candidate name (scope.firstFree name)
  (fresh, { scope with used := fresh :: scope.used })

def release (scope : NameScope) (name : String) : NameScope :=
  { scope with used := scope.used.filter (· ≠ name) }

end NameScope

end Wirework
