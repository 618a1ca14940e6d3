import Wirework.HwType
import Wirework.Text

/-! # Dictionaries and attributes

A dictionary has entries by name and keeps them in the order of their names.  Inserting keeps the order and favours
the later of two entries of one name, so two dictionaries built from the same entries are equal whatever order the
entries came in.

Attributes are the compile-time values attached to modules and operations, and the arguments that definitions are
parameterized with.  They have a total order, a written form and a form as a JSON document; lists and dictionaries of
attributes are attributes again, and each function on them comes as a mutual recursion over the three. -/

namespace Wirework

/-! ## Dictionaries -/

/-- Entries in increasing order of their names. -/
structure Dict (α : Type) where
  entries : List (String × α) := []
deriving DecidableEq, Repr

namespace Dict

variable {α β : Type}

def empty : Dict α := {}

def isEmpty (d : Dict α) : Bool :=
  d.entries.isEmpty

def size (d : Dict α) : Nat :=
  d.entries.length

/-- The names with an entry, in order. -/
def names (d : Dict α) : List String :=
  d.entries.map (·.1)

/-- The values, in the order of their names. -/
def values (d : Dict α) : List α :=
  d.entries.map (·.2)

def find? (d : Dict α) (name : String) : Option α :=
  d.entries.lookup name

def contains (d : Dict α) (name : String) : Bool :=
  (d.find? name).isSome

/-- Puts an entry in its place, in favour of an older one of the same name. -/
def insertEntry (name : String) (value : α) : List (String × α) → List (String × α)
  | [] => [(name, value)]
  | entry :: rest =>
    if name < entry.1 then (name, value) :: entry :: rest
    else if name = entry.1 then (name, value) :: rest
    else entry :: insertEntry name value rest

/-- Adds an entry, in favour of an older one of the same name. -/
def insert (d : Dict α) (name : String) (value : α) : Dict α :=
  ⟨insertEntry name value d.entries⟩

/-- Collects entries; of two with one name the later stays. -/
def ofList (entries : List (String × α)) : Dict α :=
  entries.foldl (fun d entry => d.insert entry.1 entry.2) empty

/-- The entries whose names satisfy a test. -/
def filterNames (d : Dict α) (keep : String → Bool) : Dict α :=
  ⟨d.entries.filter fun entry => keep entry.1⟩

/-- Names are strictly increasing. -/
def Sorted (d : Dict α) : Prop :=
  d.entries.Pairwise fun a b => a.1 < b.1

end Dict

/-! ## Attributes -/

/-- Compile-time value attached to an operation. -/
inductive Attribute where
  /-- An attribute that is only present. -/
  | unit
  | bool (value : Bool)
  | int (value : Int)
  | str (value : String)
  | type (value : HwType)
  | list (items : List Attribute)
  | dict (entries : Dict Attribute)

namespace Attribute

/-! ### Views -/

/-- Name of the kind of attribute, as it stands in parameter declarations. -/
def kindName : Attribute → String
  | unit => "none"
  | bool _ => "i1"
  | int _ => "i64"
  | str _ => "string"
  | type _ => "type"
  | list _ => "array"
  | dict _ => "dict"

/-- The number of an integer attribute. -/
def int? : Attribute → Option Int
  | int value => some value
  | _ => none

def bool? : Attribute → Option Bool
  | bool value => some value
  | _ => none

def str? : Attribute → Option String
  | str value => some value
  | _ => none

def type? : Attribute → Option HwType
  | type value => some value
  | _ => none

/-! ### Order

Attributes of different kinds are ordered by kind, lists and dictionaries entry by entry. -/

/-- Place of the kind in the order of attributes. -/
def kindRank : Attribute → Nat
  | unit => 0
  | bool _ => 1
  | int _ => 2
  | str _ => 3
  | type _ => 4
  | list _ => 5
  | dict _ => 6

mutual

/-- The total order of attributes. -/
def compare : Attribute → Attribute → Ordering
  | bool a, bool b => Ord.compare a b
  | int a, int b => Ord.compare a b
  | str a, str b => Ord.compare a b
  | type a, type b => a.compare b
  | list a, list b => compareLists a b
  | dict ⟨a⟩, dict ⟨b⟩ => compareEntries a b
  | a, b => Ord.compare a.kindRank b.kindRank

/-- Lists are compared lexicographically. -/
def compareLists : List Attribute → List Attribute → Ordering
  | [], [] => .eq
  | [], _ :: _ => .lt
  | _ :: _, [] => .gt
  | a :: as, b :: bs => (compare a b).then (compareLists as bs)

/-- Dictionaries are compared as lists of entries, each by its name and then by its value. -/
def compareEntries : List (String × Attribute) → List (String × Attribute) → Ordering
  | [], [] => .eq
  | [], _ :: _ => .lt
  | _ :: _, [] => .gt
  | (m, a) :: as, (n, b) :: bs =>
    ((Ord.compare m n).then (compare a b)).then (compareEntries as bs)

end

def sort (attributes : List Attribute) : List Attribute :=
  attributes.mergeSort fun a b => (a.compare b).isLE

/-! ### Equality -/

mutual

/-- Whether two attributes are equal. -/
def decEq : (a b : Attribute) → Decidable (a = b)
  | unit, b => by
    cases b with
    | unit => exact isTrue rfl
    | _ => exact isFalse (by simp)
  | bool a, b => by
    cases b with
    | bool b => exact decidable_of_iff (a = b) (by simp)
    | _ => exact isFalse (by simp)
  | int a, b => by
    cases b with
    | int b => exact decidable_of_iff (a = b) (by simp)
    | _ => exact isFalse (by simp)
  | str a, b => by
    cases b with
    | str b => exact decidable_of_iff (a = b) (by simp)
    | _ => exact isFalse (by simp)
  | type a, b => by
    cases b with
    | type b => exact decidable_of_iff (a = b) (by simp)
    | _ => exact isFalse (by simp)
  | list a, b => by
    cases b with
    | list b => exact @decidable_of_iff _ (a = b) (by simp) (decEqList a b)
    | _ => exact isFalse (by simp)
  | dict ⟨a⟩, b => by
    cases b with
    | dict b => exact @decidable_of_iff _ (a = b.entries) (by cases b; simp) (decEqEntries a b.entries)
    | _ => exact isFalse (by simp)

/-- Whether two lists of attributes are equal. -/
def decEqList : (a b : List Attribute) → Decidable (a = b)
  | [], [] => isTrue rfl
  | [], _ :: _ => isFalse nofun
  | _ :: _, [] => isFalse nofun
  | a :: as, b :: bs =>
    match decEq a b, decEqList as bs with
    | isTrue h, isTrue h' => isTrue (h ▸ h' ▸ rfl)
    | isFalse h, _ => isFalse fun e => h (by injection e)
    | _, isFalse h => isFalse fun e => h (by injection e)

/-- Whether two lists of entries are equal. -/
def decEqEntries : (a b : List (String × Attribute)) → Decidable (a = b)
  | [], [] => isTrue rfl
  | [], _ :: _ => isFalse nofun
  | _ :: _, [] => isFalse nofun
  | (m, a) :: as, (n, b) :: bs =>
    match decEq a b, decEqEntries as bs with
    | isTrue h, isTrue h' =>
      if hn : m = n then isTrue (hn ▸ h ▸ h' ▸ rfl)
      else isFalse fun e => hn (by injection e with e; injection e)
    | isFalse h, _ => isFalse fun e => h (by injection e with e; injection e)
    | _, isFalse h => isFalse fun e => h (by injection e)

end

instance : DecidableEq Attribute := decEq

/-- Drops each attribute that equals the one before it. -/
def dropRepeats : List Attribute → List Attribute
  | [] => []
  | [a] => [a]
  | a :: b :: rest => if a = b then dropRepeats (b :: rest) else a :: dropRepeats (b :: rest)

/-- Attributes in increasing order, each once. -/
def sortUnique (attributes : List Attribute) : List Attribute :=
  dropRepeats (sort attributes)

/-! ### Written form -/

mutual

/-- Written form of an attribute: strings are quoted, lists stand in square brackets and
dictionaries in braces. -/
def text : Attribute → String
  | unit => "unit"
  | bool true => "true"
  | bool false => "false"
  | int value => toString value
  | str value => Text.quote value
  | type value => value.text
  | list items => "[" ++ ", ".intercalate (itemTexts items) ++ "]"
  | dict ⟨entries⟩ => "\x7b" ++ ", ".intercalate (entryTexts entries) ++ "\x7d"

def itemTexts : List Attribute → List String
  | [] => []
  | item :: rest => item.text :: itemTexts rest

/-- Written forms of the entries of a dictionary. -/
def entryTexts : List (String × Attribute) → List String
  | [] => []
  | (name, value) :: rest => (name ++ " = " ++ value.text) :: entryTexts rest

end

/-! ### Export -/

/-- Integers in the signed 64-bit range are exported as numbers, all others as text. -/
def exportInt (value : Int) : Json :=
  if (HwType.sint 64).Fits value then .int value else .str (toString value)

mutual

/-- The attribute as a JSON document. -/
def toJson : Attribute → Json
  | unit => .null
  | bool value => .bool value
  | int value => exportInt value
  | str value => .str value
  | type value => .str value.text
  | list items => .arr (itemsToJson items)
  | dict ⟨entries⟩ => .obj (entriesToJson entries)

def itemsToJson : List Attribute → List Json
  | [] => []
  | item :: rest => item.toJson :: itemsToJson rest

/-- The entries of a dictionary as members of a JSON object. -/
def entriesToJson : List (String × Attribute) → List (String × Json)
  | [] => []
  | (name, value) :: rest => (name, value.toJson) :: entriesToJson rest

end

end Attribute

abbrev AttributeMap := Dict Attribute

end Wirework
