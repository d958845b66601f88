import SceneScript.Script.Error
import SceneScript.Script.Node
import SceneScript.Script.Token

/-! # Reading tokens

The steps that all parsers of the language share: looking at the next tokens, taking the expected
one, and the error for anything else. The last token of a file is an end of file, which is looked
at but never taken.
-/
namespace SceneScript.Script

/-- A file whose tokens are being read: its name and its end. -/
structure Source where
  file : String
  last : Token
  deriving Repr

/-- Reading either gives an answer or one error. Parsers answer with the tokens they left, too. -/
abbrev Reading := Except LoadError

namespace Source
variable (s : Source)

def peek (ts : List Token) : Token := ts.headD s.last

def kind (ts : List Token) : TokenKind := (s.peek ts).kind

def nextKind (ts : List Token) : TokenKind := (ts.tail.headD s.last).kind

def fail {α : Type} (ts : List Token) (fault : LoadFault) : Reading α :=
  let t := s.peek ts
  .error ⟨s.file, t.line, t.column, fault⟩

def unexpected {α : Type} (ts : List Token) (expected : String) : Reading α :=
  s.fail ts (.unexpectedToken expected (s.peek ts).describe)

def expect (kind : TokenKind) (expected : String) (ts : List Token) :
    Reading (Token × List Token) :=
  match ts with
  | t :: rest => if t.kind = kind then .ok (t, rest) else s.unexpected ts expected
  | [] => s.unexpected ts expected

def skip (kind : TokenKind) (ts : List Token) : List Token :=
  match ts with
  | t :: rest => if t.kind = kind then rest else ts
  | [] => []

def endOfLine (ts : List Token) : Reading (List Token) := do
  return (← s.expect .newline "end of line" ts).2

end Source

def Node.ofToken (kind : NodeKind) (t : Token) (children : List Node) : Node :=
  .mk kind t.text t.line t.column children

end SceneScript.Script
