import SceneScript.Json.Number
import SceneScript.Json.Raw

/-! # Reading JSON text

The last stage of reading: numbers and strings get their values. Of two members with one name the
later one stays, and containers nest at most 127 deep.
-/
namespace SceneScript.Json

/-- The value of a hexadecimal digit in either case. -/
def hexValue? (c : Char) : Option Nat :=
  if c.isDigit then some (c.toNat - '0'.toNat)
  else if 'a' ≤ c ∧ c ≤ 'f' then some (c.toNat - 'a'.toNat + 10)
  else if 'A' ≤ c ∧ c ≤ 'F' then some (c.toNat - 'A'.toNat + 10)
  else none

def hexQuad? (a b c d : Char) : Option Nat := do
  return (((← hexValue? a) * 16 + (← hexValue? b)) * 16 + (← hexValue? c)) * 16 + (← hexValue? d)

def shortEscape? (c : Char) : Option Char :=
  match c with
  | '"' | '\\' | '/' => some c
  | 'b' => some (Char.ofNat 8)
  | 'f' => some (Char.ofNat 12)
  | 'n' => some '\n'
  | 'r' => some '\r'
  | 't' => some '\t'
  | _ => none

/-- Resolve the escapes of a string. A character beyond the basic plane is a pair of surrogates;
a surrogate alone is no character. -/
def unescape? : List Char → Option (List Char)
  | [] => some []
  | '\\' :: 'u' :: a :: b :: c :: d :: rest => do
    let n ← hexQuad? a b c d
    if n < 0xD800 ∨ 0xE000 ≤ n then
      return Char.ofNat n :: (← unescape? rest)
    else if 0xDC00 ≤ n then none
    else
      match rest with
      | '\\' :: 'u' :: a :: b :: c :: d :: rest => do
        let m ← hexQuad? a b c d
        if 0xDC00 ≤ m ∧ m < 0xE000 then
          let code := (n - 0xD800) * 0x400 + (m - 0xDC00) + 0x10000
          return Char.ofNat code :: (← unescape? rest)
        else none
      | _ => none
  | '\\' :: c :: rest => do return (← shortEscape? c) :: (← unescape? rest)
  | ['\\'] => none
  | c :: rest => do return c :: (← unescape? rest)

/-- Whether all escapes have a known form; surrogates need no partner here. -/
def wellEscaped : List Char → Bool
  | [] => true
  | '\\' :: 'u' :: a :: b :: c :: d :: rest => (hexQuad? a b c d).isSome && wellEscaped rest
  | '\\' :: c :: rest => (shortEscape? c).isSome && wellEscaped rest
  | ['\\'] => false
  | _ :: rest => wellEscaped rest

namespace Raw

def stringOf? (raw : List Char) : Option String := (unescape? raw).map String.ofList

mutual

/-- Whether the parts of a document are well formed. This is all that is asked of a part that
nobody reads: its numbers may be out of range and its surrogates alone. -/
def wellFormed : Raw → Bool
  | .null | .boolean _ => true
  | .number text => (NumberParts.ofText? text).isSome
  | .string raw => wellEscaped raw
  | .array items => itemsWellFormed items
  | .object members => membersWellFormed members

def itemsWellFormed : List Raw → Bool
  | [] => true
  | item :: rest => wellFormed item && itemsWellFormed rest

def membersWellFormed : List (List Char × Raw) → Bool
  | [] => true
  | (name, value) :: rest => wellEscaped name && wellFormed value && membersWellFormed rest

end

mutual

/-- The tree of a document whose containers nest less than `depth` deep. -/
def toJson? (depth : Nat) : Raw → Option Json
  | .null => some .null
  | .boolean b => some (.boolean b)
  | .number text => do return .number (← (← NumberParts.ofText? text).value?)
  | .string raw => (stringOf? raw).map .string
  | .array items => do
    if depth ≤ 1 then none
    return .array (← itemsToJson? (depth - 1) items)
  | .object members => do
    if depth ≤ 1 then none
    return .object (← membersToJson? (depth - 1) members)

def itemsToJson? (depth : Nat) : List Raw → Option (List Json)
  | [] => some []
  | item :: rest => do return (← toJson? depth item) :: (← itemsToJson? depth rest)

/-- The table of the members. A later member of the same name wins, so a member is put in only
where the rest has none. -/
def membersToJson? (depth : Nat) : List (List Char × Raw) → Option (Table String Json)
  | [] => some []
  | (name, value) :: rest => do
    let key ← stringOf? name
    let tree ← toJson? depth value
    let others ← membersToJson? depth rest
    return if Table.contains others key then others else Table.insert others key tree

end

/-- The nesting of a text that is one document. -/
def ofText? (text : String) : Option Raw :=
  match Token.scan? text.toList with
  | some tokens =>
    match ofTokens? tokens with
    | some raw => if raw.wellFormed then some raw else none
    | none => none
  | none => none

end Raw

/-- One more than the number of containers that may enclose a value. -/
def depthLimit : Nat := 128

def read? (text : String) : Option Json := (Raw.ofText? text).bind (Raw.toJson? depthLimit)

end SceneScript.Json
