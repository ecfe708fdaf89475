import AvroCodegen.Template.Value

set_option autoImplicit false

/-! # Markup

A template whose name says that it writes markup escapes what it prints: the characters that mean
something in markup are written as references. Numbers, booleans and what is absent need no
escaping, and what is markup already is not escaped again. -/

namespace AvroCodegen

namespace Markup

/-- The text of a character inside markup. -/
def escapeChar (c : Char) : String :=
  match c with
  | '&' => "&amp;"
  | '<' => "&lt;"
  | '>' => "&gt;"
  | '"' => "&quot;"
  | '\'' => "&#x27;"
  | '/' => "&#x2f;"
  | c => String.singleton c

/-- A text inside markup. -/
def escape (s : String) : String :=
  String.join (s.toList.map escapeChar)

/-- The endings that say nothing about what a template writes. -/
def neutralEndings : List String := [".j2", ".jinja2", ".jinja"]

/-- A name without one ending that says nothing. -/
def plainName (name : String) : String :=
  match neutralEndings.find? (fun e => name.endsWith e) with
  | some e => (name.dropEnd e.length).toString
  | none => name

/-- Whether a template of the name writes markup. -/
def isNamed (name : String) : Bool :=
  ["html", "htm", "xml"].contains (((plainName name).splitOn ".").getLastD "")

/-- What a value prints, inside markup or not. -/
def printed (inMarkup : Bool) (v : Value) : String :=
  match inMarkup, v with
  | false, v => v.toText
  | true, .markup s => s
  | true, v => if v.rank ≤ 3 then v.toText else escape v.toText

/-- A text that was printed, as a value. -/
def captured (inMarkup : Bool) (s : String) : Value :=
  if inMarkup then .markup s else .text s

end Markup

end AvroCodegen
