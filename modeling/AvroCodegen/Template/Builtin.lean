set_option autoImplicit false

/-! # Built-in templates

Two template sets come with the library: `fbs` writes FlatBuffers tables and enums, `pojo` Java
classes. A template is given line by line. -/

namespace AvroCodegen.Builtin

/-- A place where a template prints an expression. -/
def put (expression : String) : String :=
  "\x7b\x7b " ++ expression ++ " \x7d\x7d"

/-- A tag of a template. -/
def tag (content : String) : String :=
  "\x7b% " ++ content ++ " %\x7d"

/-- Lines as a text; the last one ends as well. -/
def lines (ls : List String) : String :=
  String.join (ls.map (fun l => l ++ "\n"))

/-- A FlatBuffers table. -/
def fbsRecord : String := lines
  [tag "if namespace",
   "namespace " ++ put "namespace" ++ ";",
   "",
   tag "endif",
   "table " ++ put "name" ++ " \x7b",
   tag "for field in entity.fields",
   "  " ++ put "field.name|toSnakeCase" ++ ":" ++ put "field.type|fbType"
     ++ put "\" (key)\" if field.is_primary else \"\"" ++ ";",
   tag "endfor",
   "\x7d",
   tag "if entity.is_root",
   "",
   "root_type " ++ put "name" ++ ";",
   tag "endif"]

/-- A FlatBuffers enum. -/
def fbsEnum : String := lines
  [tag "if namespace",
   "namespace " ++ put "namespace" ++ ";",
   "",
   tag "endif",
   "enum " ++ put "name" ++ " : byte \x7b",
   tag "for symbol in symbols",
   "  " ++ put "symbol" ++ put "\",\" if not loop.last else \"\"",
   tag "endfor",
   "\x7d"]

/-- A Java class with fields and accessors. -/
def pojoRecord : String := lines
  [tag "if namespace",
   "package " ++ put "namespace" ++ ";",
   "",
   tag "endif",
   tag "if entity.schema.doc",
   "/** " ++ put "entity.schema.doc" ++ " */",
   tag "endif",
   "public class " ++ put "name" ++ " \x7b",
   tag "for field in entity.fields",
   "    private " ++ put "field.type|javaType" ++ " " ++ put "field.name|toCamelCase" ++ ";",
   tag "endfor",
   tag "for field in entity.fields",
   tag "set property = field.name|toCamelCase",
   tag "set accessor = property[:1]|upper ~ property[1:]",
   "",
   "    public " ++ put "field.type|javaType" ++ " get" ++ put "accessor" ++ "() \x7b",
   "        return " ++ put "property" ++ ";",
   "    \x7d",
   "",
   "    public void set" ++ put "accessor" ++ "(" ++ put "field.type|javaType" ++ " "
     ++ put "property" ++ ") \x7b",
   "        this." ++ put "property" ++ " = " ++ put "property" ++ ";",
   "    \x7d",
   tag "endfor",
   "\x7d"]

/-- A Java enum whose constants know their alias. -/
def pojoEnum : String := lines
  [tag "if namespace",
   "package " ++ put "namespace" ++ ";",
   "",
   tag "endif",
   "public enum " ++ put "name" ++ " \x7b",
   tag "for symbol in symbols",
   "    " ++ put "symbol" ++ "(\"" ++ put "entity.alias(symbol)" ++ "\")"
     ++ put "\";\" if loop.last else \",\"",
   tag "endfor",
   "",
   "    private final String alias;",
   "",
   "    " ++ put "name" ++ "(String alias) \x7b",
   "        this.alias = alias;",
   "    \x7d",
   "",
   "    public String alias() \x7b",
   "        return alias;",
   "    \x7d",
   "\x7d"]

/-- The built-in sets: their names, and their templates by name. -/
def sets : List (String × List (String × String)) :=
  [("fbs", [("enum", fbsEnum), ("record", fbsRecord)]),
   ("pojo", [("enum", pojoEnum), ("record", pojoRecord)])]

end AvroCodegen.Builtin
