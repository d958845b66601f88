import SceneScript.Number.Binary
import SceneScript.Table

/-! # JSON trees

Documents as trees. An object keeps its members in the order given; `sorted` puts the members of
every object in key order, which is the form that reading a text produces.
-/
namespace SceneScript

/-- A number of a document: an integer of at most 64 bits, or a float. -/
inductive JsonNumber where
  | integer (n : Int)
  | real (x : Float)
  deriving DecidableEq

inductive Json where
  | null
  | boolean (b : Bool)
  | number (n : JsonNumber)
  | string (s : String)
  | array (items : List Json)
  | object (members : List (String × Json))

instance : Inhabited Json := ⟨.null⟩

namespace JsonNumber

/-- The number as a float; integers are rounded to nearest. -/
def toFloat : JsonNumber → Float
  | integer n => Number.ofInt n
  | real x => x

/-- The number as a signed 64-bit integer. A float is none, even without a fraction. -/
def toInt64? : JsonNumber → Option Int64
  | integer n =>
    if Int64.minValue.toInt ≤ n ∧ n ≤ Int64.maxValue.toInt then some (Int64.ofInt n) else none
  | real _ => none

def toUInt32? : JsonNumber → Option UInt32
  | integer n => if 0 ≤ n ∧ n < UInt32.size then some (UInt32.ofNat n.toNat) else none
  | real _ => none

end JsonNumber

namespace Json

/-- A float as a document writes it: NaN and the infinities have no number and become null. -/
def ofFloat (x : Float) : Json := if x.isFinite then .number (.real x) else .null

def ofInt64 (n : Int64) : Json := .number (.integer n.toInt)

def ofUInt32 (n : UInt32) : Json := .number (.integer n.toNat)

def float? : Json → Option Float
  | .number n => some n.toFloat
  | _ => none

def int64? : Json → Option Int64
  | .number n => n.toInt64?
  | _ => none

def uint32? : Json → Option UInt32
  | .number n => n.toUInt32?
  | _ => none

def string? : Json → Option String
  | .string s => some s
  | _ => none

def boolean? : Json → Option Bool
  | .boolean b => some b
  | _ => none

def array? : Json → Option (List Json)
  | .array items => some items
  | _ => none

def object? : Json → Option (Table String Json)
  | .object members => some members
  | _ => none

/-- The member of an object; other documents have none. -/
def member? (json : Json) (name : String) : Option Json :=
  json.object?.bind fun members => Table.find? members name

mutual

/-- The document with the members of every object in key order. -/
def sorted : Json → Json
  | .array items => .array (sortedItems items)
  | .object members => .object (Table.ofList (sortedMembers members))
  | json => json

def sortedItems : List Json → List Json
  | [] => []
  | item :: rest => sorted item :: sortedItems rest

/-- The members, each with a sorted value, in the order given. -/
def sortedMembers : List (String × Json) → List (String × Json)
  | [] => []
  | (name, value) :: rest => (name, sorted value) :: sortedMembers rest

end

mutual

/-- Equality of documents. Floats are compared as numbers. -/
def agrees : Json → Json → Bool
  | .null, .null => true
  | .boolean x, .boolean y => x == y
  | .number (.integer m), .number (.integer n) => m == n
  | .number (.real x), .number (.real y) => x == y
  | .string x, .string y => x == y
  | .array xs, .array ys => itemsAgree xs ys
  | .object xs, .object ys => membersAgree xs ys
  | _, _ => false

def itemsAgree : List Json → List Json → Bool
  | [], [] => true
  | x :: xs, y :: ys => agrees x y && itemsAgree xs ys
  | _, _ => false

/-- Objects agree when they have the same names and agreeing values in the same order. -/
def membersAgree : List (String × Json) → List (String × Json) → Bool
  | [], [] => true
  | (n, x) :: xs, (m, y) :: ys => n == m && agrees x y && membersAgree xs ys
  | _, _ => false

end

instance : BEq Json := ⟨agrees⟩

end Json
end SceneScript
