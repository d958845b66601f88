import SceneScript.Json.Token

/-! # Documents before their texts are read

The second stage of reading: the nesting of a document. Numbers and strings are still texts, and
an object lists all members as written, repeated names included.
-/
namespace SceneScript.Json

inductive Raw where
  | null
  | boolean (b : Bool)
  | number (text : List Char)
  | string (raw : List Char)
  | array (items : List Raw)
  | object (members : List (List Char × Raw))

instance : Inhabited Raw := ⟨.null⟩

namespace Raw

/-- A container that is still open, with its content in reverse. An object holds the name that the
next value belongs to. -/
inductive Frame where
  | array (items : List Raw)
  | object (members : List (List Char × Raw)) (name : List Char)

/-- What may come next. -/
inductive Phase where
  | value
  | valueOrClose
  | name
  | nameOrClose
  | colon
  | separator
  | finished (document : Raw)

/-- The open containers, innermost first, and what may come next. -/
structure Builder where
  frames : List Frame
  phase : Phase

namespace Builder

def start : Builder := ⟨[], .value⟩

/-- Hand a complete value to the innermost open container. -/
def supply (frames : List Frame) (value : Raw) : Builder :=
  match frames with
  | [] => ⟨[], .finished value⟩
  | .array items :: outer => ⟨.array (value :: items) :: outer, .separator⟩
  | .object members name :: outer => ⟨.object ((name, value) :: members) [] :: outer, .separator⟩

def begin? (frames : List Frame) : Token → Option Builder
  | .openObject => some ⟨.object [] [] :: frames, .nameOrClose⟩
  | .openArray => some ⟨.array [] :: frames, .valueOrClose⟩
  | .word ['n', 'u', 'l', 'l'] => some (supply frames .null)
  | .word ['t', 'r', 'u', 'e'] => some (supply frames (.boolean true))
  | .word ['f', 'a', 'l', 's', 'e'] => some (supply frames (.boolean false))
  | .number text => some (supply frames (.number text))
  | .string raw => some (supply frames (.string raw))
  | _ => none

/-- Remember the name of the next member. -/
def name? (frames : List Frame) (raw : List Char) : Option Builder :=
  match frames with
  | .object members _ :: outer => some ⟨.object members raw :: outer, .colon⟩
  | _ => none

def close? (frames : List Frame) (token : Token) : Option Builder :=
  match frames, token with
  | .array items :: outer, .closeArray => some (supply outer (.array items.reverse))
  | .object members _ :: outer, .closeObject => some (supply outer (.object members.reverse))
  | _, _ => none

def next? (frames : List Frame) : Option Builder :=
  match frames with
  | .array _ :: _ => some ⟨frames, .value⟩
  | .object _ _ :: _ => some ⟨frames, .name⟩
  | [] => none

def step? (b : Builder) (token : Token) : Option Builder :=
  match b.phase, token with
  | .value, _ => begin? b.frames token
  | .valueOrClose, .closeArray => close? b.frames token
  | .valueOrClose, _ => begin? b.frames token
  | .name, .string raw => name? b.frames raw
  | .nameOrClose, .closeObject => close? b.frames token
  | .nameOrClose, .string raw => name? b.frames raw
  | .colon, .colon => some ⟨b.frames, .value⟩
  | .separator, .comma => next? b.frames
  | .separator, _ => close? b.frames token
  | _, _ => none

end Builder

/-- The document of a list of tokens, if the tokens are exactly one document. -/
def ofTokens? (tokens : List Token) : Option Raw :=
  match tokens.foldlM Builder.step? Builder.start with
  | some ⟨_, .finished document⟩ => some document
  | _ => none

end Raw
end SceneScript.Json
