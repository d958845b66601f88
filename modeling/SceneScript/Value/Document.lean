import SceneScript.Error
import SceneScript.Json.Basic

/-! # Values as documents

The canonical document of a value. List elements, the components of a script entity and all that
records hold there have no declared type, so each is written in a tagged form: an object with the
type name and the value.
-/
namespace SceneScript

/-- The tag of a record; every other tag is the name of a basic type. -/
def recordTag : String := "Record"

namespace EntityRef

/-- A reference as its two numbers; the empty one is null. -/
def toJson (r : EntityRef) : Json :=
  match r.entity? with
  | some e =>
    .object [("id", Json.ofUInt32 e.id), ("generation", Json.ofUInt32 r.generation.value)]
  | none => .null

end EntityRef

namespace Value

def tag (value : Value) : String :=
  match value.type with
  | .basic type => type.scriptName
  | .record _ => recordTag

/-- The object that names the type of a value beside its document. -/
def tagObject (tag : String) (body : Json) : Json :=
  .object [("type", .string tag), ("value", body)]

mutual

/-- The document of a value. The members of a record are tagged unless its type is declared. -/
def body (declared : Bool) : Value → Json
  | .number x => Json.ofFloat x
  | .integer n => Json.ofInt64 n
  | .string s => .string s
  | .boolean b => .boolean b
  | .vec3 v => .array [Json.ofFloat v.x, Json.ofFloat v.y, Json.ofFloat v.z]
  | .vec2 v => .array [Json.ofFloat v.x, Json.ofFloat v.y]
  | .color c => .array [Json.ofFloat c.r, Json.ofFloat c.g, Json.ofFloat c.b, Json.ofFloat c.a]
  | .record members => .object (memberBodies declared members)
  | .asset name => .string name
  | .list items => .array (itemBodies items)
  | .void => .null
  | .entity ref => ref.toJson
  | .scriptEntity ref components =>
    .object [("entity", ref.toJson), ("components", .object (memberBodies false components))]

def memberBodies (declared : Bool) : List (String × Value) → List (String × Json)
  | [] => []
  | (name, value) :: rest =>
    (name, if declared then body true value else tagObject value.tag (body false value)) ::
      memberBodies declared rest

def itemBodies : List Value → List Json
  | [] => []
  | value :: rest => tagObject value.tag (body false value) :: itemBodies rest

end

/-- The document of a value, with members in the order in which it is streamed out. -/
def stream (value : Value) : Json := body true value

/-- The document of a value as a tree with members in key order. -/
def toJson (value : Value) : Json := value.stream.sorted

end Value
end SceneScript
