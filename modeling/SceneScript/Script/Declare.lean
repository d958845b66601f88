import SceneScript.Index
import SceneScript.Script.Execute

/-! # Declarations of a file

The components and systems of a syntax tree are put into an index in the order of the file. The
first one that is malformed or refused ends the work; those before it stay in the index.
-/
namespace SceneScript.Script
open SceneScript.Error (quoted)

/-- Work on the index for one file. -/
abbrev Declaring := Action LoadError Index

namespace Node

def error (file : String) (n : Node) (fault : LoadFault) : LoadError :=
  ⟨file, n.line, n.column, fault⟩

/-- The first child of a kind, or the error for a node that has none. -/
def child (file : String) (n : Node) (kind : NodeKind) (what : String) : Except LoadError Node :=
  match n.child? kind with
  | some c => .ok c
  | none => .error (n.error file (.missingNode what))

def basicType (file : String) (n : Node) : Except LoadError ValueType :=
  match BasicType.ofScriptName? n.value with
  | some type => .ok (.basic type)
  | none => .error (n.error file (.unknownType n.value))

/-- The members of a record type, one per property, in addition to some known ones. -/
def recordType (file : String) (known : RecordType) : List Node → Except LoadError RecordType
  | [] => .ok known
  | property :: rest => do
    let type ← (← property.child file .type "property type").basicType file
    if Table.contains known property.value then
      .error (property.error file (.duplicateProperty property.value))
    else recordType file (Table.insert known property.value type) rest

/-- The type of a component: a basic one, or a record of its properties. -/
def componentShape (file : String) (n : Node) : Except LoadError ValueType :=
  match n.children with
  | [] => .error (n.error file (.missingNode "type"))
  | first :: _ =>
    if first.kind = .type then first.basicType file
    else do return .record (← recordType file [] (n.childrenOf .property))

def component (file : String) (n : Node) : Except LoadError ComponentDescription := do
  let shape ← n.componentShape file
  return { ComponentDescription.ofShape n.value shape with provenance := .file file }

def requireKnown (file : String) (index : Index) (n : Node) : Except LoadError Unit :=
  match n.children.find? fun c => (index.component? c.value).isNone with
  | some c => .error (c.error file (.unknownComponent c.value))
  | none => .ok ()

/-- The event of a node with some of its parameters already in place. -/
def eventWith (file : String) (index : Index) (event : EventDescription) :
    List Node → Except LoadError EventDescription
  | [] => .ok event
  | parameter :: rest =>
    match parameter.kind with
    | .payload => do
      let type ← (← parameter.child file .type "payload type").basicType file
      eventWith file index { event with payload := some ⟨parameter.value, type⟩ } rest
    | .entityParameter => do
      requireKnown file index parameter
      let group : EntityGroup := ⟨parameter.value, parameter.segments⟩
      eventWith file index { event with groups := event.groups ++ [group] } rest
    | _ => .error (parameter.error file (.missingNode "event parameter"))

/-- The event that a system listens to; without one in the node it is the event of every frame. -/
def systemEvent (file : String) (index : Index) (n : Node) : Except LoadError EventDescription :=
  match n.child? .eventDeclaration with
  | some event => eventWith file index { name := event.value } event.children
  | none => .ok .tick

def systemParts (file : String) (index : Index) (n : Node) :
    Except LoadError (Declaration × Node) := do
  let parameter ← n.child file .entityParameter "entity parameter"
  requireKnown file index parameter
  let event ← n.systemEvent file index
  let body ← n.child file .block "body"
  return (⟨n.value, parameter.value, parameter.segments, event⟩, body)

end Node

namespace Declaring

def component (file : String) (n : Node) : Declaring Unit := do
  let d ← Action.ofExcept (n.component file)
  let _ ← (Index.registerComponent d).mapError fun e => n.error file (.ofError e)
  return ()

def system (config : Config) (file : String) (n : Node) : Declaring System := do
  let index ← Action.get
  let (d, body) ← Action.ofExcept (n.systemParts file index)
  Action.log .debug ("Compiled system " ++ quoted n.value ++ " from " ++ quoted file)
  let system := systemOf config body d
  (Index.registerSystem system).mapError fun e => n.error file (.ofError e)
  return system

/-- Declare everything in a list; the answer is the systems. -/
def all (config : Config) (file : String) : List Node → Declaring (List System)
  | [] => return []
  | n :: rest =>
    match n.kind with
    | .componentDeclaration => do
      component file n
      all config file rest
    | .systemDeclaration => do
      let first ← system config file n
      return first :: (← all config file rest)
    | _ => Action.fail (n.error file (.missingNode "declaration"))

end Declaring

/-- Declare the content of a file; the answer is its systems. -/
def declare (config : Config) (file : Node) : Declaring (List System) :=
  Declaring.all config file.value file.children

end SceneScript.Script
