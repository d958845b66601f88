import SceneScript.Json.Basic
import SceneScript.Number.Layout

/-! # JSON text

The compact text of a document: no spaces, members in the order of the tree. In strings the quote,
the backslash and the control characters below a space are escaped; all else is written as it is.
-/
namespace SceneScript.Json

/-- A digit of a hexadecimal number, in lower case. -/
def hexDigit (n : Nat) : Char := (Nat.toDigits 16 (n % 16)).headD '0'

def escaped (c : Char) : List Char :=
  match c with
  | '"' => ['\\', '"']
  | '\\' => ['\\', '\\']
  | '\n' => ['\\', 'n']
  | '\r' => ['\\', 'r']
  | '\t' => ['\\', 't']
  | _ =>
    let n := c.toNat
    if n = 8 then ['\\', 'b']
    else if n = 12 then ['\\', 'f']
    else if n < 32 then ['\\', 'u', '0', '0', hexDigit (n / 16), hexDigit n]
    else [c]

def quotedText (s : String) : String :=
  "\"" ++ String.ofList (s.toList.flatMap escaped) ++ "\""

def numberText : JsonNumber → String
  | .integer n => toString n
  | .real x => Number.scientific x

mutual

def text : Json → String
  | .null => "null"
  | .boolean b => toString b
  | .number n => numberText n
  | .string s => quotedText s
  | .array items => "[" ++ String.intercalate "," (itemTexts items) ++ "]"
  | .object members => "\x7b" ++ String.intercalate "," (memberTexts members) ++ "\x7d"

def itemTexts : List Json → List String
  | [] => []
  | item :: rest => text item :: itemTexts rest

def memberTexts : List (String × Json) → List String
  | [] => []
  | (name, value) :: rest => (quotedText name ++ ":" ++ text value) :: memberTexts rest

end

end SceneScript.Json
