import SceneScript.Script.Node.Expression

/-! # Parsing declarations

The heads of systems, with entity parameters and events, and whole components.
-/
namespace SceneScript.Script
namespace Source
variable (s : Source)

def typeName (ts : List Token) : Reading (Node × List Token) := do
  let (t, ts) ← s.expect .identifier "type name" ts
  return (Node.ofToken .type t [], ts)

def duplicate {α : Type} (t : Token) : Reading α :=
  .error ⟨s.file, t.line, t.column, .duplicateProperty t.text⟩

/-- The properties of a component up to the end of its block, where `known` is the list of those
already read. -/
def properties (fuel : Nat) (known : List Node) (ts : List Token) :
    Reading (List Node × List Token) :=
  match fuel with
  | 0 => s.unexpected ts "type name"
  | fuel + 1 =>
    if s.kind ts = .dedent then .ok (known, skip .dedent ts)
    else do
      let (type, ts) ← s.typeName ts
      let (name, ts) ← s.expect .identifier "property name" ts
      if known.any fun n => n.value == name.text then s.duplicate name
      let ts ← s.endOfLine ts
      properties fuel (known ++ [Node.ofToken .property name [type]]) ts

/-- The node of a declaration, at its keyword and with its name. -/
def declaration (kind : NodeKind) (keyword name : Token) (children : List Node) : Node :=
  .mk kind name.text keyword.line keyword.column children

def propertyBlock (ts : List Token) : Reading (List Node × List Token) := do
  let ts ← s.endOfLine (skip .colon ts)
  let (_, ts) ← s.expect .indent "an indented property list" ts
  s.properties (ts.length + 1) [] ts

/-- A component behind its keyword: a type on the same line, or a block of properties. -/
def component (keyword : Token) (ts : List Token) : Reading (Node × List Token) := do
  let (name, ts) ← s.expect .identifier "component name" ts
  match s.kind ts with
  | .identifier => do
    let (type, ts) ← s.typeName ts
    let ts ← s.endOfLine ts
    return (declaration .componentDeclaration keyword name [type], ts)
  | .colon | .newline => do
    let (list, ts) ← s.propertyBlock ts
    return (declaration .componentDeclaration keyword name list, ts)
  | _ => s.unexpected ts "a type or a property block"

/-- Component names joined by commas, at least one. -/
def componentNames (fuel : Nat) (ts : List Token) : Reading (List Node × List Token) :=
  match fuel with
  | 0 => s.unexpected ts "component name"
  | fuel + 1 => do
    let (t, ts) ← s.expect .identifier "component name" ts
    let node := Node.ofToken .identifier t []
    if s.kind ts = .comma then
      let (others, ts) ← componentNames fuel (skip .comma ts)
      return (node :: others, ts)
    else return ([node], ts)

/-- The names between angle brackets. There may be none only where that is allowed. -/
def bracketed (allowEmpty : Bool) (ts : List Token) : Reading (List Node × List Token) :=
  if allowEmpty ∧ s.kind ts = .operator .gt then .ok ([], ts)
  else s.componentNames (ts.length + 1) ts

/-- An entity parameter: a name and the components that the entity has, in angle brackets. -/
def entityParameter (allowEmpty : Bool) (ts : List Token) : Reading (Node × List Token) := do
  let (name, ts) ← s.expect .identifier "entity parameter" ts
  let (_, ts) ← s.expect (.operator .lt) "`<`" ts
  let (list, ts) ← s.bracketed allowEmpty ts
  let (_, ts) ← s.expect (.operator .gt) "`>`" ts
  return (Node.ofToken .entityParameter name list, ts)

/-- One parameter of an event behind some known ones: an entity group, or the payload if there is
none yet. -/
def eventParameter (known : List Node) (ts : List Token) : Reading (Node × List Token) :=
  if s.nextKind ts = .operator .lt then s.entityParameter true ts
  else if known.any fun n => n.kind == .payload then s.unexpected ts "an entity group"
  else do
    let (type, ts) ← s.typeName ts
    let (name, ts) ← s.expect .identifier "payload name" ts
    return (Node.ofToken .payload name [type], ts)

/-- The parameters of an event up to the closing parenthesis: entity groups, and at most one
payload, where `known` is the list of those already read. -/
def eventParameters (fuel : Nat) (known : List Node) (ts : List Token) :
    Reading (List Node × List Token) :=
  match fuel with
  | 0 => s.unexpected ts "an entity group"
  | fuel + 1 => do
    let (node, ts) ← s.eventParameter known ts
    let known := known ++ [node]
    if s.kind ts = .comma then eventParameters fuel known (skip .comma ts)
    else
      let (_, ts) ← s.expect .closeParen "`)`" ts
      return (known, ts)

/-- The event of a system: a name, and maybe parameters. -/
def event (ts : List Token) : Reading (Node × List Token) := do
  let (name, ts) ← s.expect .identifier "event name" ts
  if s.kind ts = .openParen then
    let ts := skip .openParen ts
    if s.kind ts = .closeParen then
      return (Node.ofToken .eventDeclaration name [], skip .closeParen ts)
    else
      let (list, ts) ← s.eventParameters (ts.length + 1) [] ts
      return (Node.ofToken .eventDeclaration name list, ts)
  else return (Node.ofToken .eventDeclaration name [], ts)

end Source
end SceneScript.Script
