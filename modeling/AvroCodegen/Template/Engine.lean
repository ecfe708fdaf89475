import AvroCodegen.Template.Argument

set_option autoImplicit false

/-! # Template engines

What compiles templates and renders them is a parameter of everything that is done with templates. An
engine is started with filters and is given templates by name; it may refuse a template when it is
added, and it may fail when a template is rendered. Nothing else is known of it. An `Environment` is
such an engine, for a small language of templates. -/

namespace AvroCodegen

/-- A template engine, by the type of what it holds: its filters, and the templates added so far. -/
class TemplateEngine (E : Type) where
  /-- No templates yet, and filters beside those that the engine has of its own. -/
  start : FilterTable → E
  /-- Compiles a template under a name. -/
  add : E → String → String → Outcome E
  /-- The text of the template of a name over a context. -/
  render : E → String → Keyed Value → Outcome String

end AvroCodegen
