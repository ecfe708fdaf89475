import AvroCodegen.Yaml.Basic
import AvroCodegen.Yaml.Token.Lexer

set_option autoImplicit false

/-! # YAML documents

The tokens of a text make one document: directives and the mark of its beginning, which may be
missing together, then one node, and marks of its end. Where a key, value or entry has no node of
its own it has the empty scalar. -/

namespace AvroCodegen

namespace Yaml

/-- The tokens that are left, the tag handles of the document, and its anchors so far. -/
structure Composition where
  tokens : List Token
  handles : List (String × String)
  anchors : Anchors

/-- A step in the making of a document. -/
abbrev Composing : Type → Type := StateT Composition Option

namespace Composing

/-- The step that fails. -/
def fail {α : Type} : Composing α := fun _ => none

/-- The next token, which stays. -/
def peek? : Composing (Option Token) :=
  return (← get).tokens.head?

/-- Drops the next token. -/
def skip : Composing Unit :=
  modify (fun c => { c with tokens := c.tokens.tail })

/-- Drops the next token if it is a given one, and says whether it was. -/
def skipIf (token : Token) : Composing Bool := do
  if (← peek?) = some token then
    skip
    return true
  else return false

/-- Whether the next token is one of some. -/
def isAt (tokens : List Token) : Composing Bool :=
  return (← peek?).any tokens.contains

/-! ## Properties of nodes -/

/-- The tag here, if one is, in full. -/
def tag? : Composing (Option String) := do
  match ← peek? with
  | some (.tag handle suffix) =>
    skip
    if handle.isEmpty then return some suffix
    else match (← get).handles.lookup handle with
      | some uri => return some (uri ++ suffix)
      | none => fail
  | _ => return none

/-- The anchor here, if one is. -/
def anchor? : Composing (Option String) := do
  match ← peek? with
  | some (.anchor name) =>
    skip
    return some name
  | _ => return none

/-- An anchor and a tag in either order; both may be missing. -/
def properties : Composing (Option String × Option String) := do
  match ← anchor? with
  | some anchor => return (some anchor, ← tag?)
  | none =>
    let tag ← tag?
    return (← anchor?, tag)

/-- Makes a node under an anchor, if it has one. -/
def anchored (anchor : Option String) (make : Composing Yaml) : Composing Yaml :=
  match anchor with
  | none => make
  | some name => do
    let (place, anchors) := (← get).anchors.declare name
    modify (fun c => { c with anchors := anchors })
    let node ← make
    modify (fun c => { c with anchors := c.anchors.complete place node })
    return node

/-! ## Nodes -/

/-- The node of which there are only properties: an empty scalar. -/
def bare (anchor tag : Option String) : Composing Yaml :=
  if anchor.isSome || tag.isSome then return .scalar "" true tag else fail

mutual

/-- A node. In flow style there are no block collections; and only the keys and values of a block
map may be lists as deep as the map. -/
def node (inBlock sameDepth : Bool) : Nat → Composing Yaml
  | 0 => fail
  | n + 1 => do
    match ← peek? with
    | some (.reference name) =>
      skip
      match (← get).anchors.numbers.get? name with
      | some anchor => return .reference anchor
      | none => fail
    | _ =>
      let (anchor, tag) ← properties
      anchored anchor do
        match ← peek? with
        | some .blockEntry =>
          if sameDepth then return .list (← sameDepthItems n) else bare anchor tag
        | some (.scalar text plain) =>
          skip
          return .scalar text plain (if tag = some "!" then none else tag)
        | some .flowList =>
          skip
          return .list (← flowItems true n)
        | some .flowMap =>
          skip
          return .map (← flowPairs true n)
        | some .blockList =>
          if inBlock then
            skip
            return .list (← blockItems n)
          else bare anchor tag
        | some .blockMap =>
          if inBlock then
            skip
            return .map (← blockPairs n)
          else bare anchor tag
        | _ => bare anchor tag
/-- A node, or the empty scalar in front of some tokens. -/
def nodeUnless (ends : List Token) (inBlock sameDepth : Bool) : Nat → Composing Yaml
  | 0 => fail
  | n + 1 => do
    if ← isAt ends then return absent else node inBlock sameDepth n

/-- The items of a block list to its end. -/
def blockItems : Nat → Composing (List Yaml)
  | 0 => fail
  | n + 1 => do
    if ← skipIf .blockEntry then
      let item ← nodeUnless [.blockEntry, .blockEnd] true false n
      return item :: (← blockItems n)
    else if ← skipIf .blockEnd then return []
    else fail

/-- The items of a list that is as deep as the map around it; it has no end of its own. -/
def sameDepthItems : Nat → Composing (List Yaml)
  | 0 => fail
  | n + 1 => do
    if ← skipIf .blockEntry then
      let item ← nodeUnless [.blockEntry, .key, .value, .blockEnd] true false n
      return item :: (← sameDepthItems n)
    else return []

/-- The pairs of a block map to its end. -/
def blockPairs : Nat → Composing (List (Yaml × Yaml))
  | 0 => fail
  | n + 1 => do
    if ← skipIf .key then
      let key ← nodeUnless [.key, .value, .blockEnd] true true n
      let value ←
        if ← skipIf .value then nodeUnless [.key, .value, .blockEnd] true true n
        else pure absent
      return (key, value) :: (← blockPairs n)
    else if ← skipIf .blockEnd then return []
    else fail

/-- The items of a flow list to its end; commas stand between them, and may stand behind the
last. -/
def flowItems (first : Bool) : Nat → Composing (List Yaml)
  | 0 => fail
  | n + 1 => do
    if ← skipIf .flowListEnd then return []
    if !first then
      if !(← skipIf .flowEntry) then fail
    if ← skipIf .flowListEnd then return []
    let item ← if ← skipIf .key then flowPair n else node false false n
    return item :: (← flowItems false n)

/-- The map of one pair that a key makes in a flow list. Where the key has no node the next token is
lost with it. -/
def flowPair : Nat → Composing Yaml
  | 0 => fail
  | n + 1 => do
    let key ←
      if ← isAt [.value, .flowEntry, .flowListEnd] then
        skip
        pure absent
      else node false false n
    let value ←
      if ← skipIf .value then nodeUnless [.flowEntry, .flowListEnd] false false n
      else pure absent
    return .map [(key, value)]

/-- The pairs of a flow map to its end. What has no colon is a key without a value. -/
def flowPairs (first : Bool) : Nat → Composing (List (Yaml × Yaml))
  | 0 => fail
  | n + 1 => do
    if ← skipIf .flowMapEnd then return []
    if !first then
      if !(← skipIf .flowEntry) then fail
    if ← skipIf .flowMapEnd then return []
    if ← skipIf .key then
      let key ← nodeUnless [.value, .flowEntry, .flowMapEnd] false false n
      let value ←
        if ← skipIf .value then nodeUnless [.flowEntry, .flowMapEnd] false false n
        else pure absent
      return (key, value) :: (← flowPairs false n)
    else
      let key ← node false false n
      return (key, absent) :: (← flowPairs false n)

end

/-! ## Documents -/

/-- The tag handles that every document knows. -/
def knownHandles : List (String × String) :=
  [("!", "!"), ("!!", "tag:yaml.org,2002:")]

/-- Reads the directives; of the handles of a document none may come twice, and there is one version
at most, which must be 1.1 or 1.2. -/
def directives (versioned : Bool) : Nat → Composing Unit
  | 0 => fail
  | n + 1 => do
    match ← peek? with
    | some (.version major minor) =>
      if versioned || major != 1 || (minor != 1 && minor != 2) then fail
      skip
      directives true n
    | some (.tagHandle handle uri) =>
      if (← get).handles.any (fun h => h.1 = handle) then fail
      skip
      modify (fun c => { c with handles := c.handles ++ [(handle, uri)] })
      directives versioned n
    | _ => return ()

/-- Whether the next token is outside of nodes. -/
def isOutside : Composing Bool := do
  match ← peek? with
  | none => return true
  | some (.version _ _) => return true
  | some (.tagHandle _ _) => return true
  | some .documentStart => return true
  | _ => return false

/-- The root of a document. Without a mark of the beginning there must be a node; behind the mark it
may be missing. -/
def root (steps : Nat) : Composing Yaml := do
  let marked ← isOutside
  if marked then
    directives false steps
    if !(← skipIf .documentStart) then fail
  modify (fun c => { c with handles := c.handles ++ knownHandles })
  if marked && ((← isOutside) || (← isAt [.documentEnd])) then return absent
  node true false steps

end Composing

namespace Document

/-- The document that tokens make. No tokens make a document without anything; behind a document
only marks of its end may stand. -/
def ofTokens? (tokens : List Token) : Option Document :=
  if tokens.isEmpty then some ⟨absent, .none⟩
  else do
    let (root, c) ← (Composing.root (2 * tokens.length + 2)).run ⟨tokens, [], .none⟩
    if (c.tokens.dropWhile (· = .documentEnd)).isEmpty then some ⟨root, c.anchors⟩ else none

/-- Reads a document. -/
def read? (source : String) : Option Document := do
  ofTokens? (← tokens? source)

end Document

end Yaml

end AvroCodegen
