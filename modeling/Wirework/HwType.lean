/-! # Hardware types

The types of ports and values: bit vectors, unsigned and signed integers of a given width, and clocks.  Each type has
a range of numbers that fit it; a width of zero leaves the number 0 only, and a clock is as wide as a single bit.

A `Constant` is a number together with a type that it fits, so a number is checked once, where the constant is made
(`Constant.ofInt?`), and never again. -/

namespace Wirework

/-- Type of a value or a port. -/
inductive HwType where
  /-- An uninterpreted vector of bits. -/
  | bits (width : Nat)
  /-- An unsigned integer. -/
  | uint (width : Nat)
  /-- A signed integer. -/
  | sint (width : Nat)
  /-- A clock. -/
  | clock
deriving DecidableEq, Repr

namespace HwType

/-- Number of bits; a clock has one. -/
def width : HwType → Nat
  | bits w | uint w | sint w => w
  | clock => 1

def isClock : HwType → Bool
  | clock => true
  | _ => false

def isSigned : HwType → Bool
  | sint _ => true
  | _ => false

/-- Values of the type can take part in arithmetic. -/
def isArithmetic : HwType → Bool
  | clock => false
  | _ => true

/-- Written form: the kind followed by the width. -/
def text : HwType → String
  | bits w => "i" ++ toString w
  | uint w => "ui" ++ toString w
  | sint w => "si" ++ toString w
  | clock => "clock"

/-- Place of the kind in the order of types. -/
def kindRank : HwType → Nat
  | bits _ => 0
  | uint _ => 1
  | sint _ => 2
  | clock => 3

/-- Types are ordered by kind and then by width. -/
def compare (a b : HwType) : Ordering :=
  (Ord.compare a.kindRank b.kindRank).then (Ord.compare a.width b.width)

def minValue : HwType → Int
  | sint 0 => 0
  | sint (w + 1) => -(Nat.pow 2 w)
  | _ => 0

def maxValue : HwType → Int
  | sint 0 => 0
  | sint (w + 1) => Nat.pow 2 w - 1
  | ty => Nat.pow 2 ty.width - 1

/-- The value is representable in the type. -/
def Fits (ty : HwType) (value : Int) : Prop :=
  ty.minValue ≤ value ∧ value ≤ ty.maxValue

instance (ty : HwType) (value : Int) : Decidable (ty.Fits value) :=
  inferInstanceAs (Decidable (_ ∧ _))

theorem fits_zero (ty : HwType) : ty.Fits 0 := by
  have one_le (w : Nat) : (1 : Int) ≤ Nat.pow 2 w := Int.ofNat_le.2 Nat.one_le_two_pow
  cases ty with
  | bits w | uint w =>
    exact ⟨Int.le_refl 0, by simpa [maxValue, width] using Int.sub_nonneg_of_le (one_le w)⟩
  | clock => decide
  | sint w =>
    cases w with
    | zero => decide
    | succ w =>
      have := one_le w
      exact ⟨by simp only [minValue]; omega, by simp only [maxValue]; omega⟩

end HwType

/-! ## Constants -/

/-- A number that is representable in its type. -/
structure Constant where
  value : Int
  type : HwType
  fits : type.Fits value
deriving DecidableEq

namespace Constant

/-- The constant of the given type and value, unless the value does not fit. -/
def ofInt? (type : HwType) (value : Int) : Option Constant :=
  if fits : type.Fits value then some ⟨value, type, fits⟩ else none

def zero (type : HwType) : Constant :=
  ⟨0, type, type.fits_zero⟩

/-- Written form: the value, a colon and the type. -/
def text (c : Constant) : String :=
  toString c.value ++ " : " ++ c.type.text

/-- The value, if it is an unsigned 64-bit number. -/
def toUnsigned64? (c : Constant) : Option Nat :=
  if (HwType.uint 64).Fits c.value then some c.value.toNat else none

/-- The value, if it is a signed 64-bit number. -/
def toSigned64? (c : Constant) : Option Int :=
  if (HwType.sint 64).Fits c.value then some c.value else none

theorem ofInt?_eq_some_iff {type : HwType} {value : Int} {c : Constant} :
    ofInt? type value = some c ↔ c.type = type ∧ c.value = value := by
  constructor
  · intro h
    unfold ofInt? at h
    split at h
    · cases h; exact ⟨rfl, rfl⟩
    · cases h
  · rintro ⟨rfl, rfl⟩
    simp [ofInt?, c.fits]

end Constant

end Wirework
