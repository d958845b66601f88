import SceneScript.Table

/-! # Types of values

Every value has one type: a basic one, or the table of its member types for a record. Types are
compared when a declaration is checked and whenever a value is written to a component.
-/
namespace SceneScript

/-- The type of a value without members of its own. -/
inductive BasicType where
  | number
  | integer
  | string
  | boolean
  | vec3
  | vec2
  | asset
  | list
  | void
  | entity
  | color
  | scriptEntity
  deriving DecidableEq, Repr

namespace BasicType

def scriptName : BasicType → String
  | number => "Number"
  | integer => "Integer"
  | string => "String"
  | boolean => "Boolean"
  | vec3 => "Vector3"
  | vec2 => "Vector2"
  | asset => "Asset"
  | list => "List"
  | void => "Void"
  | entity => "Entity"
  | color => "Color"
  | scriptEntity => "ScriptEntity"

/-- The types that a declaration can name: all but script entities, which exist only while a
script runs. -/
def declarable : List BasicType :=
  [number, integer, string, boolean, vec3, vec2, asset, list, void, entity, color]

def ofScriptName? (name : String) : Option BasicType :=
  declarable.find? fun basic => basic.scriptName == name

end BasicType

/-- The type of any value. -/
inductive ValueType where
  | basic (type : BasicType)
  | record (members : List (String × ValueType))

namespace ValueType

instance : Inhabited ValueType := ⟨.basic .void⟩

mutual

def decEq : (a b : ValueType) → Decidable (a = b)
  | .basic x, .basic y =>
    if h : x = y then isTrue (by rw [h]) else isFalse (by simpa using h)
  | .record m, .record n =>
    match decEqMembers m n with
    | isTrue h => isTrue (by rw [h])
    | isFalse h => isFalse (by simpa using h)
  | .basic _, .record _ => isFalse (by simp)
  | .record _, .basic _ => isFalse (by simp)

def decEqMembers : (a b : List (String × ValueType)) → Decidable (a = b)
  | [], [] => isTrue rfl
  | [], _ :: _ => isFalse (by simp)
  | _ :: _, [] => isFalse (by simp)
  | (n, t) :: r, (n', t') :: r' =>
    if h : n = n' then
      match decEq t t', decEqMembers r r' with
      | isTrue h1, isTrue h2 => isTrue (by simp [h, h1, h2])
      | isFalse h1, _ => isFalse (by simp [h1])
      | _, isFalse h2 => isFalse (by simp [h2])
    else isFalse (by simp [h])

end

instance : DecidableEq ValueType := decEq

mutual

def text : ValueType → String
  | .basic type => type.scriptName
  | .record members => "\x7b" ++ String.intercalate ", " (memberTexts members) ++ "\x7d"

def memberTexts : List (String × ValueType) → List String
  | [] => []
  | (name, type) :: rest => (name ++ ": " ++ text type) :: memberTexts rest

end

def basic? : ValueType → Option BasicType
  | .basic type => some type
  | .record _ => none

def members? : ValueType → Option (Table String ValueType)
  | .basic _ => none
  | .record members => some members

abbrev number : ValueType := .basic .number
abbrev integer : ValueType := .basic .integer
abbrev string : ValueType := .basic .string
abbrev boolean : ValueType := .basic .boolean
abbrev vec3 : ValueType := .basic .vec3
abbrev vec2 : ValueType := .basic .vec2
abbrev list : ValueType := .basic .list
abbrev entity : ValueType := .basic .entity
abbrev void : ValueType := .basic .void

end ValueType
end SceneScript
