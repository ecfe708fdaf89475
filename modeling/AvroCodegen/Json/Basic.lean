import AvroCodegen.Decimal.Layout
import AvroCodegen.Keyed

set_option autoImplicit false

/-! # JSON values

Numbers keep apart what their text keeps apart: an integer that fits sixty-four bits is exact, any
other number is a 64-bit float. An object is a keyed list in key order, each key once: that is what
the reader builds, and the writer prints it as it stands. -/

namespace AvroCodegen

/-- A number as JSON text gives it. -/
inductive JsonNumber where
  | int (value : Int)
  | real (value : Decimal.Double)
  deriving DecidableEq, Repr

/-- A JSON value. -/
inductive Json where
  | null
  | bool (value : Bool)
  | num (value : JsonNumber)
  | str (value : String)
  | arr (items : List Json)
  | obj (members : List (String × Json))

namespace Json

instance : Inhabited Json := ⟨.null⟩

/-- The text of a string value. -/
def string? : Json → Option String
  | .str s => some s
  | _ => none

/-- The items of an array. -/
def array? : Json → Option (List Json)
  | .arr items => some items
  | _ => none

/-- The members of an object. -/
def object? : Json → Option (List (String × Json))
  | .obj members => some members
  | _ => none

/-- A whole number that is not negative and was written without fraction or exponent. -/
def nat? : Json → Option Nat
  | .num (.int (.ofNat n)) => some n
  | _ => none

/-- Exactly the value `true`. -/
def isTrue : Json → Bool
  | .bool b => b
  | _ => false

/-- A number that is a natural number. -/
def ofNat (n : Nat) : Json := .num (.int n)

end Json

/-- Attributes beyond those that a schema gives a meaning, in key order. -/
abbrev Properties : Type := Keyed Json

/-! ## A member is smaller than its object -/

theorem Keyed.sizeOf_get?_lt {key : String} {value : Json} {m : List (String × Json)}
    (h : Keyed.get? key m = some value) : sizeOf value < sizeOf m := by
  have hm := Keyed.mem_of_get? h
  have h1 := List.sizeOf_lt_of_mem hm
  have h2 : sizeOf (key, value) = 1 + sizeOf key + sizeOf value := rfl
  omega

end AvroCodegen
