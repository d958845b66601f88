import SceneScript.Component.Combination
import SceneScript.Entity.Roster

/-! # Events

A description is the declared form of an event: its name, the groups of components through which
listeners reach the entities it carries, and a payload. An event is one occurrence.
-/
namespace SceneScript

/-- A named entity of an event and the components that listeners may reach through it. -/
structure EntityGroup where
  name : String
  components : List String
  deriving DecidableEq, Repr

structure Payload where
  name : String
  type : ValueType
  deriving DecidableEq

structure EventDescription where
  name : String
  groups : List EntityGroup := []
  payload : Option Payload := none
  deriving DecidableEq

/-- One occurrence of an event. The entities belong to the groups of its description in order. -/
structure Event where
  name : String
  payload : Value := .void
  entities : List Entity := []

instance : Inhabited Event := ⟨⟨"", .void, []⟩⟩

def tickName : String := "Tick"

def Event.tick (seconds : Float) : Event := ⟨tickName, .number seconds, []⟩

namespace EventDescription

def tick : EventDescription := ⟨tickName, [], some ⟨"deltaTime", .number⟩⟩

def payloadType (d : EventDescription) : ValueType :=
  match d.payload with
  | some payload => payload.type
  | none => .void

/-- Why an event cannot be delivered under the description, if it cannot. -/
def mismatch? (d : EventDescription) (event : Event) : Option String :=
  let found := event.payload.type
  if d.payloadType ≠ found then
    some ("payload is " ++ found.text ++ ", expected " ++ d.payloadType.text)
  else if event.entities.length ≠ d.groups.length then
    some ("carries " ++ toString event.entities.length ++ " entities, expected " ++
      toString d.groups.length)
  else none

/-- Bind each carried entity to the components of its group. -/
def bindGroups (d : EventDescription) (s : Store) (event : Event) :
    Except Error (List (String × Binding)) :=
  (d.groups.zip event.entities).mapM fun (group, e) => do
    return (group.name, ← Binding.of s e group.components)

end EventDescription

/-- An event as one listener sees it. -/
structure EventContext where
  event : Event
  groups : List (String × Binding)
  roster : Roster

namespace EventContext

def group? (c : EventContext) (name : String) : Option Binding :=
  (c.groups.find? fun group => group.1 == name).map Prod.snd

end EventContext
end SceneScript
