import SceneScript.Error
import SceneScript.Number.Binary

/-! # Applying operators

Operators never convert their operands. The only pair of different types is a vector scaled by a
number; equality asks for the same type on both sides.
-/
namespace SceneScript

namespace Vec3

def add (v w : Vec3) : Vec3 := ⟨v.x + w.x, v.y + w.y, v.z + w.z⟩
def sub (v w : Vec3) : Vec3 := ⟨v.x - w.x, v.y - w.y, v.z - w.z⟩
def scale (v : Vec3) (k : Float) : Vec3 := ⟨v.x * k, v.y * k, v.z * k⟩
def shrink (v : Vec3) (k : Float) : Vec3 := ⟨v.x / k, v.y / k, v.z / k⟩

end Vec3

namespace Vec2

def add (v w : Vec2) : Vec2 := ⟨v.x + w.x, v.y + w.y⟩
def sub (v w : Vec2) : Vec2 := ⟨v.x - w.x, v.y - w.y⟩
def scale (v : Vec2) (k : Float) : Vec2 := ⟨v.x * k, v.y * k⟩
def shrink (v : Vec2) (k : Float) : Vec2 := ⟨v.x / k, v.y / k⟩

end Vec2

namespace Operator

def invalid (op : Operator) (left right : Value) : Error :=
  .invalidOperation op left.type right.type

/-- A divisor that is not zero; minus zero counts as zero. -/
def divisor (op : Operator) (x : Float) : Except Error Float :=
  if x == 0 then .error (.divisionByZero op) else .ok x

/-- The operators on two numbers. Conjunction, disjunction and equality are not among them. -/
def onNumbers (op : Operator) (a b : Float) : Except Error Value :=
  match op with
  | add => .ok (.number (a + b))
  | sub => .ok (.number (a - b))
  | mul => .ok (.number (a * b))
  | div => do return .number (a / (← op.divisor b))
  | mod => do return .number (Number.remainder a (← op.divisor b))
  | lt => .ok (.boolean (a < b))
  | le => .ok (.boolean (a ≤ b))
  | gt => .ok (.boolean (b < a))
  | ge => .ok (.boolean (b ≤ a))
  | eq | ne | and | or => .error (op.invalid (.number a) (.number b))

/-- The operators on two integers. Results wrap around; division truncates toward zero. -/
def onIntegers (op : Operator) (a b : Int64) : Except Error Value :=
  match op with
  | add => .ok (.integer (a + b))
  | sub => .ok (.integer (a - b))
  | mul => .ok (.integer (a * b))
  | div => if b = 0 then .error (.divisionByZero op) else .ok (.integer (a / b))
  | mod => if b = 0 then .error (.divisionByZero op) else .ok (.integer (a % b))
  | lt => .ok (.boolean (a < b))
  | le => .ok (.boolean (a ≤ b))
  | gt => .ok (.boolean (b < a))
  | ge => .ok (.boolean (b ≤ a))
  | eq | ne | and | or => .error (op.invalid (.integer a) (.integer b))

/-- The operators on two strings: concatenation, and comparison by code points. -/
def onStrings (op : Operator) (a b : String) : Except Error Value :=
  match op with
  | add => .ok (.string (a ++ b))
  | lt => .ok (.boolean (a < b))
  | le => .ok (.boolean (!(b < a)))
  | gt => .ok (.boolean (b < a))
  | ge => .ok (.boolean (!(a < b)))
  | sub | mul | div | mod | eq | ne | and | or => .error (op.invalid (.string a) (.string b))

def apply (op : Operator) (left right : Value) : Except Error Value :=
  match op, left, right with
  | eq, _, _ =>
    if left.type = right.type then .ok (.boolean (left == right))
    else .error (op.invalid left right)
  | ne, _, _ =>
    if left.type = right.type then .ok (.boolean (!(left == right)))
    else .error (op.invalid left right)
  | and, .boolean a, .boolean b => .ok (.boolean (a && b))
  | or, .boolean a, .boolean b => .ok (.boolean (a || b))
  | _, .number a, .number b => op.onNumbers a b
  | _, .integer a, .integer b => op.onIntegers a b
  | _, .string a, .string b => op.onStrings a b
  | add, .vec3 v, .vec3 w => .ok (.vec3 (v.add w))
  | sub, .vec3 v, .vec3 w => .ok (.vec3 (v.sub w))
  | mul, .vec3 v, .number k | mul, .number k, .vec3 v => .ok (.vec3 (v.scale k))
  | div, .vec3 v, .number k => do return .vec3 (v.shrink (← op.divisor k))
  | add, .vec2 v, .vec2 w => .ok (.vec2 (v.add w))
  | sub, .vec2 v, .vec2 w => .ok (.vec2 (v.sub w))
  | mul, .vec2 v, .number k | mul, .number k, .vec2 v => .ok (.vec2 (v.scale k))
  | div, .vec2 v, .number k => do return .vec2 (v.shrink (← op.divisor k))
  | _, _, _ => .error (op.invalid left right)

end Operator
end SceneScript
