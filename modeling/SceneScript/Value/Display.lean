import SceneScript.Number.Layout
import SceneScript.Value.Basic

/-! # Values as text

The text that scripts print and concatenate. It is for reading only: strings are not quoted and a
script entity shows its number alone.
-/
namespace SceneScript.Value
open Number (plain)

def commaText (parts : List String) : String := String.intercalate ", " parts

mutual

def text : Value → String
  | .number x => plain x
  | .integer n => toString n.toInt
  | .string s => s
  | .boolean b => toString b
  | .vec3 v => "(" ++ commaText [plain v.x, plain v.y, plain v.z] ++ ")"
  | .vec2 v => "(" ++ commaText [plain v.x, plain v.y] ++ ")"
  | .record members => "\x7b" ++ commaText (memberTexts members) ++ "\x7d"
  | .asset name => "asset(" ++ name ++ ")"
  | .list items => "[" ++ commaText (itemTexts items) ++ "]"
  | .void => "void"
  | .entity ref => match ref.entity? with
    | some e => e.text
    | none => "<no entity>"
  | .color c => "rgba(" ++ commaText [plain c.r, plain c.g, plain c.b, plain c.a] ++ ")"
  | .scriptEntity ref _ => match ref.entity? with
    | some e => "entity " ++ e.text
    | none => "entity <none>"

def memberTexts : List (String × Value) → List String
  | [] => []
  | (name, value) :: rest => (name ++ ": " ++ text value) :: memberTexts rest

def itemTexts : List Value → List String
  | [] => []
  | value :: rest => text value :: itemTexts rest

end

end SceneScript.Value
