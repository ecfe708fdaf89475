import AvroCodegen.Decimal.Layout
import AvroCodegen.Keyed
import AvroCodegen.Text.Case

set_option autoImplicit false

/-! # TOML values and tables

A document is a table. Tables come about in four ways, and which way decides what may be added to
them later: a table in braces is complete; a header opens a table once, except that a table which
only stood in the path of another header may still be opened; a table that dotted keys made takes
more dotted keys. Arrays of tables grow by headers, and their last table is the one that paths lead
into. -/

namespace AvroCodegen

/-- How a table came about. -/
inductive TableOrigin where
  | braces
  | header
  | path
  | dotted
  deriving DecidableEq, Repr

/-- A value of a TOML document. -/
inductive Toml where
  | text (value : String)
  | flag (value : Bool)
  | int (value : Int)
  | real (value : Decimal.Double)
  | moment (spelled : String)
  | list (items : List Toml)
  | table (origin : TableOrigin) (entries : List (String × Toml))
  | tables (each : List (List (String × Toml)))

namespace Toml

instance : Inhabited Toml := ⟨.flag false⟩

/-! ## Adding to tables -/

/-- Puts a new value under dotted keys: only tables that dotted keys made may take it. -/
def put? (key : String) (value : Toml) : List String → Keyed Toml → Option (Keyed Toml)
  | [], entries => if Keyed.has key entries then none else some (entries ++ [(key, value)])
  | step :: path, entries =>
    match Keyed.get? step entries with
    | none => do return entries ++ [(step, .table .dotted (← put? key value path []))]
    | some (.table origin inner) =>
      if origin = .dotted || (origin = .path && !path.isEmpty) then do
        return Keyed.put step (.table origin (← put? key value path inner)) entries
      else none
    | some (.tables each) =>
      if path.isEmpty then none
      else do
        let last ← put? key value path (each.getLastD [])
        return Keyed.put step (.tables (each.dropLast ++ [last])) entries
    | some _ => none

/-- Changes the table that a path of headers leads to, making the tables that are missing. -/
def change? (f : Keyed Toml → Option (Keyed Toml)) :
    List String → Keyed Toml → Option (Keyed Toml)
  | [], entries => f entries
  | step :: path, entries =>
    match Keyed.get? step entries with
    | none => do return entries ++ [(step, .table .path (← change? f path []))]
    | some (.table .braces _) => none
    | some (.table origin inner) => do
      return Keyed.put step (.table origin (← change? f path inner)) entries
    | some (.tables each) => do
      let last ← change? f path (each.getLastD [])
      return Keyed.put step (.tables (each.dropLast ++ [last])) entries
    | some _ => none

/-- Opens a table by a header. -/
def openTable? (key : String) (entries : Keyed Toml) : Option (Keyed Toml) :=
  match Keyed.get? key entries with
  | none => some (entries ++ [(key, .table .header [])])
  | some (.table .path inner) => some (Keyed.put key (.table .header inner) entries)
  | some _ => none

/-- Opens one more table of an array by a header. -/
def openNext? (key : String) (entries : Keyed Toml) : Option (Keyed Toml) :=
  match Keyed.get? key entries with
  | none => some (entries ++ [(key, .tables [[]])])
  | some (.tables each) => some (Keyed.put key (.tables (each ++ [[]])) entries)
  | some _ => none

/-! ## What a value is taken for -/

/-- All digits of a number without an exponent, and no fraction for a whole number. -/
def realText (x : Decimal.Double) : String :=
  if x.isFinite then
    let s := (Decimal.Layout.text ⟨fun _ => true, false, .up⟩ x).toList
    String.ofList (if ['.', '0'].isSuffixOf s then s.take (s.length - 2) else s)
  else if x.fractionBits ≠ 0 then "NaN"
  else if x.isNegative then "-inf" else "inf"

/-- The value as a text; lists and tables are none. -/
def asText? : Toml → Option String
  | .text value => some value
  | .flag value => some (if value then "true" else "false")
  | .int value => some (toString value)
  | .real value => some (realText value)
  | .moment spelled => some spelled
  | _ => none

/-- The flag that a text means, in any case. -/
def flagOf? (text : String) : Option Bool :=
  let word := Text.lower text
  if ["1", "true", "on", "yes"].contains word then some true
  else if ["0", "false", "off", "no"].contains word then some false
  else none

/-- The value as a flag: a number is one that is not zero. -/
def asFlag? : Toml → Option Bool
  | .text value => flagOf? value
  | .flag value => some value
  | .int value => some (value != 0)
  | .real value => some (!(value.isFinite && value.significand = 0))
  | .moment spelled => flagOf? spelled
  | _ => none

end Toml

end AvroCodegen
