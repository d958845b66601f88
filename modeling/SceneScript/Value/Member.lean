import SceneScript.Error

/-! # Members of values

Reading and writing inside a value: record members, vector axes, color channels and the components
of a script entity. A write keeps the type of the member, so it keeps the type of the value.
-/
namespace SceneScript.Value

def axis? : Value → String → Option Float
  | .vec3 v, "x" => some v.x
  | .vec3 v, "y" => some v.y
  | .vec3 v, "z" => some v.z
  | .vec2 v, "x" => some v.x
  | .vec2 v, "y" => some v.y
  | .color c, "r" => some c.r
  | .color c, "g" => some c.g
  | .color c, "b" => some c.b
  | .color c, "a" => some c.a
  | _, _ => none

def withAxis? : Value → String → Float → Option Value
  | .vec3 v, "x", k => some (.vec3 { v with x := k })
  | .vec3 v, "y", k => some (.vec3 { v with y := k })
  | .vec3 v, "z", k => some (.vec3 { v with z := k })
  | .vec2 v, "x", k => some (.vec2 { v with x := k })
  | .vec2 v, "y", k => some (.vec2 { v with y := k })
  | .color c, "r", k => some (.color { c with r := k })
  | .color c, "g", k => some (.color { c with g := k })
  | .color c, "b", k => some (.color { c with b := k })
  | .color c, "a", k => some (.color { c with a := k })
  | _, _, _ => none

def member? (value : Value) (name : String) : Option Value :=
  match value with
  | .record members => Table.find? members name
  | .scriptEntity _ components => Table.find? components name
  | _ => (value.axis? name).map .number

def member (value : Value) (name : String) : Except Error Value :=
  match value.member? name with
  | some found => .ok found
  | none => .error (.unknownMember value.type name)

/-- Write a named member. Records ask for a member of that name first and then for its type; all
other values ask for a number first, since they hold nothing else. -/
def setMember (value : Value) (name : String) (new : Value) : Except Error Value :=
  match value with
  | .record members =>
    match Table.find? members name with
    | none => .error (.unknownMember value.type name)
    | some old =>
      if old.type = new.type then .ok (.record (Table.insert members name new))
      else .error (.typeMismatch old.type new.type)
  | _ =>
    match new with
    | .number k =>
      match value.withAxis? name k with
      | some changed => .ok changed
      | none => .error (.unknownMember value.type name)
    | _ => .error (.typeMismatch .number new.type)

def memberPath (value : Value) : List String → Except Error Value
  | [] => .ok value
  | name :: rest => do (← value.member name).memberPath rest

/-- Write a member of a member, and so on. The empty path replaces the value. -/
def setPath (value : Value) : List String → Value → Except Error Value
  | [], new => .ok new
  | [name], new => value.setMember name new
  | name :: next :: rest, new => do
    let child ← value.member name
    value.setMember name (← child.setPath (next :: rest) new)

end SceneScript.Value
