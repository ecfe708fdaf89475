import AvroCodegen.Convert.Converter
import AvroCodegen.FileTree
import AvroCodegen.Json.Writer
import AvroCodegen.Text.Quoted

set_option autoImplicit false

/-! # Faults

Everything that can go wrong, as a cause with what it concerns; the wording of each cause stands in
one place, `Fault.message`. A fault of the template language tells only which rule was broken, and
faults in a definition or in settings only that their text cannot be understood. -/

namespace AvroCodegen

/-- What is wrong with a schema. -/
inductive SchemaProblem where
  | invalidJson
  | topLevelNotNamed
  | notASchema (value : Json)
  | missingType
  | missingName (word : String)
  | redefined (fullname : String)
  | missingSymbols (fullname : String)
  | symbolNotString (fullname : String)
  | missingSize (fullname : String)
  | missingFields (fullname : String)
  | fieldNotObject (record : String)
  | fieldMissingName (record : String)
  | fieldMissingType (record field : String)
  | missingItems
  | missingValues
  | undefinedReference (fullname : String)
  | undefinedType
  | missingFormat
  | outOfScope (fullname : String)
  | missingPrecision
  | boundTooLarge (key : String) (value : Nat)
  | aliasesNotStrings
  | aliasesNotList
  | aliasCount (aliases symbols : Nat)
  | unknownSymbol (symbol : String)
  | nestsItself

/-- What is wrong with the relations between records. -/
inductive RelationProblem where
  | noKeyInRelation
  | keysInRelation (count : Nat)
  | noKey
  | severalKeys
  | ownerNotRecord (owned : String)
  | notBuilt (generator : String)
  deriving DecidableEq, Repr

/-- What is wrong with the way a run is set up. -/
inductive SetupProblem where
  | nameTwice (name : String)
  | noEntity (generator fullname : String)
  | publishedTwice (name : String)
  | brokenTemplate (name origin : String)
  | noTemplateSet (path : String) (directory : Path) (builtin : List String)
  deriving DecidableEq, Repr

/-- Which rule of the template language was broken. -/
inductive TemplateProblem where
  | undefinedValue
  | badSyntax
  | unknownFilter
  | unknownTest
  | unknownFunction
  | unknownMethod
  | invalidOperation
  | tooManyArguments
  | missingArgument
  | templateNotFound
  | badInclude
  | cannotUnpack
  | badEscape
  deriving DecidableEq, Repr

/-- What is wrong with a command. -/
inductive CommandProblem where
  | empty
  | notStarted (reason : String)
  | exitStatus (code : Int) (stderr : String)
  | killed
  deriving DecidableEq, Repr

/-- What a converter has no token for: a type, or arrays of a type. -/
inductive Unsupported where
  | type (name : String)
  | arrayOf (name : String)
  deriving DecidableEq, Repr

/-- A failure with all that its message tells. -/
inductive Fault where
  | schema (location : String) (problem : SchemaProblem)
  | relation (fullname : String) (problem : RelationProblem)
  | unknownGenerator (name : String) (available : List String)
  | setup (problem : SetupProblem)
  | unsupported (converter : Converter) (what : Unsupported)
  | file (path : Path) (problem : FileProblem)
  | postCall (command : String) (problem : CommandProblem)
  | template (problem : TemplateProblem)
  | definition
  | settings
  | noSuchEntity (id : Nat)

/-! ## Wording -/

/-- The wording of a schema problem. -/
def SchemaProblem.message : SchemaProblem → String
  | .invalidJson => "invalid JSON"
  | .topLevelNotNamed => "top-level schema must be a named record, enum or fixed"
  | .notASchema value => "expected string, object or array schema, found " ++ value.text
  | .missingType => "missing 'type' attribute"
  | .missingName word => word ++ " missing 'name'"
  | .redefined fullname => "can't redefine `" ++ fullname ++ "`"
  | .missingSymbols fullname => "enum `" ++ fullname ++ "` missing 'symbols'"
  | .symbolNotString fullname => "enum `" ++ fullname ++ "` has a non-string symbol"
  | .missingSize fullname => "fixed `" ++ fullname ++ "` missing 'size'"
  | .missingFields fullname => "record `" ++ fullname ++ "` missing 'fields'"
  | .fieldNotObject record => "field of `" ++ record ++ "` must be an object"
  | .fieldMissingName record => "field of `" ++ record ++ "` missing 'name'"
  | .fieldMissingType record field => "field `" ++ record ++ "." ++ field ++ "` missing 'type'"
  | .missingItems => "array missing 'items'"
  | .missingValues => "map missing 'values'"
  | .undefinedReference fullname => "undefined type `" ++ fullname ++ "`"
  | .undefinedType => "undefined type"
  | .missingFormat => "`datetime-str` requires a `datetime-format` property"
  | .outOfScope fullname =>
    "`" ++ fullname ++ "` is referenced but not part of the scope of work"
  | .missingPrecision => "decimal requires an integer `precision`"
  | .boundTooLarge key value =>
    "decimal `" ++ key ++ "` " ++ toString value ++ " is out of range"
  | .aliasesNotStrings => "symbol_aliases must be strings"
  | .aliasesNotList => "symbol_aliases must be an array"
  | .aliasCount aliases symbols =>
    "symbol_aliases has " ++ toString aliases ++ " entries but the enum has " ++ toString symbols
      ++ " symbols"
  | .unknownSymbol symbol => "unknown symbol `" ++ symbol ++ "`"
  | .nestsItself => "record nests itself and can't be flattened"

/-- The wording of a relation problem. -/
def RelationProblem.message : RelationProblem → String
  | .noKeyInRelation => "record in a 1-N relation has no primary key field"
  | .keysInRelation count =>
    "record has " ++ toString count ++ " primary key fields, expected exactly one"
  | .noKey => "record hasn't primary key"
  | .severalKeys => "record has more than one primary key"
  | .ownerNotRecord owned => "owner of `" ++ owned ++ "` is not a record"
  | .notBuilt generator => "no entity built by generator `" ++ generator ++ "`"

/-- The wording of a set-up problem. -/
def SetupProblem.message : SetupProblem → String
  | .nameTwice name => "generator name `" ++ name ++ "` is used more than once"
  | .noEntity generator fullname =>
    "generator `" ++ generator ++ "` has no entity for `" ++ fullname ++ "`"
  | .publishedTwice name => "generator `" ++ name ++ "` has already been published"
  | .brokenTemplate name origin => "template `" ++ name ++ "` in " ++ origin
  | .noTemplateSet path directory builtin =>
    "Unable to load templates for `" ++ path ++ "`: " ++ Text.quoted directory
      ++ " is not a directory and no built-in set has that name (built-in sets: "
      ++ String.intercalate ", " builtin ++ ")"

/-- The wording of a command problem. -/
def CommandProblem.message : CommandProblem → String
  | .empty => "empty command"
  | .notStarted reason => reason
  | .exitStatus code stderr => "exit status " ++ toString code ++ ": " ++ stderr
  | .killed => "terminated by signal"

/-- What a converter cannot write. -/
def Unsupported.message : Unsupported → String
  | .type name => name
  | .arrayOf name => "collection with primitive type " ++ name

/-- The wording of a fault. -/
def Fault.message : Fault → String
  | .schema location problem => "Schema error in " ++ location ++ ": " ++ problem.message
  | .relation fullname problem =>
    "Graph invariant violated for " ++ fullname ++ ": " ++ problem.message
  | .unknownGenerator name available =>
    "Unable to find generator `" ++ name ++ "`, available generators: "
      ++ String.intercalate ", " available
  | .setup problem => "Configuration error: " ++ problem.message
  | .unsupported converter what =>
    "Unsupported Avro type: " ++ what.message ++ " (converter `" ++ converter.name ++ "`)"
  | .file path problem => "IO error at " ++ path ++ ": " ++ problem.message
  | .postCall command problem =>
    "Post-call `" ++ command ++ "` failed: " ++ problem.message
  | .template _ => "Template error"
  | .definition => "YAML error"
  | .settings => "Settings error"
  | .noSuchEntity id => "No entity with number " ++ toString id

/-- What a run answers: a value, or the fault that ended it. -/
abbrev Outcome (α : Type) : Type := Except Fault α

/-- A step that acts on something: it answers or fails, and either way leaves what was done. -/
abbrev Acting (σ α : Type) : Type := ExceptT Fault (StateM σ) α

end AvroCodegen
