set_option autoImplicit false

/-! # Roles

An entity is rendered by the template of its role. Several roles may fit an entity; the first in the
order of `Role.all` that fits and has a template is taken. Nothing but the role `enum` fits an enum,
and `record` fits every record. -/

namespace AvroCodegen

/-- What an entity is to a model; a template is named for its role. -/
inductive Role where
  | enum
  | root
  | owner
  | dependent
  | child
  | record
  deriving DecidableEq, Repr

/-- What the graph knows of a node. -/
structure RoleFacts where
  isEnum : Bool
  isRoot : Bool
  isOwner : Bool
  isDependent : Bool
  deriving DecidableEq, Repr

namespace Role

/-- All roles, the most particular first. -/
def all : List Role := [.enum, .root, .owner, .dependent, .child, .record]

/-- The name of a role and of its template. -/
def name : Role → String
  | .enum => "enum"
  | .root => "root"
  | .owner => "owner"
  | .dependent => "dependent"
  | .child => "child"
  | .record => "record"

/-- The role of a name. -/
def ofName? (name : String) : Option Role :=
  all.find? (fun r => r.name = name)

/-- Whether a role fits. -/
def fits (facts : RoleFacts) (r : Role) : Bool :=
  if facts.isEnum then r = .enum
  else match r with
    | .enum => false
    | .root => facts.isRoot
    | .owner => facts.isOwner
    | .dependent => facts.isDependent
    | .child => !facts.isRoot
    | .record => true

/-- The first role that fits and is offered. -/
def choose (facts : RoleFacts) (offered : List Role) : Option Role :=
  all.find? (fun r => offered.contains r && r.fits facts)

end Role

end AvroCodegen
