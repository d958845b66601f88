import SceneScript.Entity.Basic
import SceneScript.Value.Type

/-! # Values

The dynamically typed data of components, events and scripts. The type of a value follows from its
form and, for records, from the types of the members.
-/
namespace SceneScript

structure Vec3 where
  x : Float
  y : Float
  z : Float
  deriving DecidableEq, Inhabited

structure Vec2 where
  x : Float
  y : Float
  deriving DecidableEq, Inhabited

/-- A color with red, green, blue and opacity. -/
structure Color where
  r : Float
  g : Float
  b : Float
  a : Float
  deriving DecidableEq, Inhabited

def Color.white : Color := ⟨1, 1, 1, 1⟩

/-- A value. Records and the components of a script entity are tables. A script entity is what a
script sees of an entity: a reference, and the components that the script may use. -/
inductive Value where
  | number (x : Float)
  | integer (n : Int64)
  | string (s : String)
  | boolean (b : Bool)
  | vec3 (v : Vec3)
  | vec2 (v : Vec2)
  | record (members : List (String × Value))
  | asset (name : String)
  | list (items : List Value)
  | void
  | entity (ref : EntityRef)
  | color (c : Color)
  | scriptEntity (ref : EntityRef) (components : List (String × Value))

/-- The members of a record by name. -/
abbrev Record := Table String Value

/-- The member types of a record by name. -/
abbrev RecordType := Table String ValueType

instance : Inhabited Value := ⟨.void⟩

namespace BasicType

def defaultValue : BasicType → Value
  | number => .number 0
  | integer => .integer 0
  | string => .string ""
  | boolean => .boolean false
  | vec3 => .vec3 ⟨0, 0, 0⟩
  | vec2 => .vec2 ⟨0, 0⟩
  | asset => .asset ""
  | list => .list []
  | void => .void
  | entity => .entity .empty
  | color => .color .white
  | scriptEntity => .scriptEntity .empty []

end BasicType

namespace ValueType

mutual

def defaultValue : ValueType → Value
  | .basic type => type.defaultValue
  | .record members => .record (defaultMembers members)

def defaultMembers : List (String × ValueType) → List (String × Value)
  | [] => []
  | (name, type) :: rest => (name, defaultValue type) :: defaultMembers rest

end

end ValueType

namespace Value

mutual

def type : Value → ValueType
  | .number _ => .basic .number
  | .integer _ => .basic .integer
  | .string _ => .basic .string
  | .boolean _ => .basic .boolean
  | .vec3 _ => .basic .vec3
  | .vec2 _ => .basic .vec2
  | .record members => .record (memberTypes members)
  | .asset _ => .basic .asset
  | .list _ => .basic .list
  | .void => .basic .void
  | .entity _ => .basic .entity
  | .color _ => .basic .color
  | .scriptEntity _ _ => .basic .scriptEntity

def memberTypes : List (String × Value) → List (String × ValueType)
  | [] => []
  | (name, value) :: rest => (name, type value) :: memberTypes rest

end

mutual

/-- Equality as the language sees it: floats are compared as numbers, so a value that holds a NaN
differs from itself and the two zeros agree. -/
def agrees : Value → Value → Bool
  | .number x, .number y => x == y
  | .integer x, .integer y => x == y
  | .string x, .string y => x == y
  | .boolean x, .boolean y => x == y
  | .vec3 v, .vec3 w => v.x == w.x && v.y == w.y && v.z == w.z
  | .vec2 v, .vec2 w => v.x == w.x && v.y == w.y
  | .record m, .record n => membersAgree m n
  | .asset x, .asset y => x == y
  | .list xs, .list ys => itemsAgree xs ys
  | .void, .void => true
  | .entity x, .entity y => x == y
  | .color c, .color d => c.r == d.r && c.g == d.g && c.b == d.b && c.a == d.a
  | .scriptEntity x m, .scriptEntity y n => x == y && membersAgree m n
  | _, _ => false

/-- Tables agree when they have the same keys and agreeing values. -/
def membersAgree : List (String × Value) → List (String × Value) → Bool
  | [], [] => true
  | (n, v) :: r, (n', v') :: r' => n == n' && agrees v v' && membersAgree r r'
  | _, _ => false

def itemsAgree : List Value → List Value → Bool
  | [], [] => true
  | v :: r, v' :: r' => agrees v v' && itemsAgree r r'
  | _, _ => false

end

instance : BEq Value := ⟨agrees⟩

mutual

/-- The values of a value that are not records, from left to right, records being descended into. -/
def leaves : Value → List Value
  | .record members => memberLeaves members
  | value => [value]

/-- The leaves of the members, in name order. -/
def memberLeaves : List (String × Value) → List Value
  | [] => []
  | (_, value) :: rest => leaves value ++ memberLeaves rest

end

/-- Whether a value holds in a condition. Only booleans do or do not. -/
def truthy? : Value → Option Bool
  | .boolean b => some b
  | _ => none

end Value
end SceneScript
