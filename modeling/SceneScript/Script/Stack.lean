import SceneScript.Script.Error
import SceneScript.System.Basic

/-! # Variables of a script

What the names in a body stand for: values that the script owns, and entities whose components are
read and written in place. All names of one entity see each other's writes.
-/
namespace SceneScript.Script

inductive Variable where
  | value (v : Value)
  | entity (ref : EntityRef) (components : Table String ComponentRef)

/-- The variables of one run, by name. -/
abbrev Stack := Table String Variable

namespace Variable

def ofBinding (c : EventContext) (b : Binding) : Variable :=
  .entity (c.roster.refOrEmpty b.entity) (Table.ofList (b.refs.map fun r => (r.name, r)))

end Variable

def pathText (path : List String) : String := String.intercalate "." path

def componentOf (components : Table String ComponentRef) (name : String) :
    Except SceneScript.Error ComponentRef :=
  match Table.find? components name with
  | some r => .ok r
  | none => .error (.unknownMember (.basic .scriptEntity) name)

def valuesOf (store : Store) : List (String × ComponentRef) → Except SceneScript.Error Record
  | [] => .ok []
  | (name, r) :: rest => do return (name, ← r.value store) :: (← valuesOf store rest)

def ofCore {α : Type} (x : Except SceneScript.Error α) : Except RuntimeFault α :=
  x.mapError RuntimeFault.core

namespace Stack

/-- Put a variable under a name; a later one hides an earlier one. -/
def bind (s : Stack) (name : String) (v : Variable) : Stack := Table.insert s name v

/-- The variables that a body starts with: the entity, then the payload, then the groups of the
event, each under its declared name. -/
def entry (d : Declaration) (matched : Binding) (c : EventContext) : Stack :=
  let s : Stack := Stack.bind [] d.entityName (.ofBinding c matched)
  let s := match d.event.payload with
    | some payload => Stack.bind s payload.name (.value c.event.payload)
    | none => s
  c.groups.foldl (fun s group => Stack.bind s group.1 (.ofBinding c group.2)) s

/-- Read a path: a variable, and members behind it. An entity is read as a script entity with the
values of its components. -/
def read (s : Stack) (store : Store) (path : List String) : Except RuntimeFault Value :=
  match path with
  | [] => .error .malformedExpression
  | first :: rest =>
    match Table.find? s first with
    | none => .error (.unknownVariable (pathText path))
    | some (.value v) => ofCore (v.memberPath rest)
    | some (.entity ref components) =>
      match rest with
      | [] => ofCore do return .scriptEntity ref (← valuesOf store components)
      | component :: members => ofCore do
        (← (← componentOf components component).value store).memberPath members

/-- Write a path. A single unknown name becomes a variable, a path into a variable changes it, and
a path into an entity changes the place of the component. -/
def write (s : Stack) (store : Store) (path : List String) (new : Value) :
    Except RuntimeFault (Stack × Store) :=
  match path with
  | [] => .error .malformedExpression
  | first :: rest =>
    match Table.find? s first with
    | none =>
      match rest with
      | [] => .ok (Stack.bind s first (.value new), store)
      | _ => .error (.unknownVariable (pathText path))
    | some (.value v) => ofCore do
      return (Stack.bind s first (.value (← v.setPath rest new)), store)
    | some (.entity _ components) =>
      match rest with
      | [] => .error (.notAssignable (pathText path))
      | component :: members => ofCore do
        return (s, ← (← componentOf components component).setPath store members new)

end Stack
end SceneScript.Script
