import SceneScript.Proofs.Script.Postfix
import SceneScript.Script.Execute
import SceneScript.Script.Token

/-! # Expressions as they are written

An expression is a first operand and operations behind it, and an operand may be a whole expression
in parentheses. It is spelled by words and read from left to right: every operation takes all that
stands in front of it as its left side, and no operator binds closer than another.
-/
namespace SceneScript.Script

/-- What a token says, without its place. -/
def Token.word (t : Token) : TokenKind × String := (t.kind, t.text)

namespace Surface

/-- A literal whose text can be read. -/
inductive Literal where
  | number (text : String) (x : Float) (h : Number.readFloat? text = some x)
  | integer (text : String) (n : Int64) (h : Number.readInteger? text = some n)
  | string (text : String)
  | boolean (b : Bool)

namespace Literal

def word : Literal → TokenKind × String
  | number text _ _ => (.number, text)
  | integer text _ _ => (.integer, text)
  | string text => (.string, text)
  | boolean true => (.keyword .trueWord, Keyword.text .trueWord)
  | boolean false => (.keyword .falseWord, Keyword.text .falseWord)

def value : Literal → Value
  | number _ x _ => .number x
  | integer _ n _ => .integer n
  | string text => .string text
  | boolean b => .boolean b

end Literal

mutual

inductive Operand where
  | literal (l : Literal)
  | path (first : String) (members : List String)
  | call (name : String)
  | callWith (name : String) (args : Arguments)
  | group (inner : Expression)

/-- What stands behind the first operand. -/
inductive Operations where
  | done
  | next (op : Operator) (right : Operand) (more : Operations)

inductive Expression where
  | mk (first : Operand) (more : Operations)

/-- The arguments of a call, at least one. -/
inductive Arguments where
  | last (e : Expression)
  | next (e : Expression) (others : Arguments)

end

def openWord : TokenKind × String := (.openParen, "(")

def closeWord : TokenKind × String := (.closeParen, ")")

def memberWords (members : List String) : List (TokenKind × String) :=
  members.flatMap fun name => [(.dot, "."), (.identifier, name)]

mutual

def Operand.words : Operand → List (TokenKind × String)
  | .literal l => [l.word]
  | .path first members => (.identifier, first) :: memberWords members
  | .call name => [(.identifier, name), openWord, closeWord]
  | .callWith name args => (.identifier, name) :: openWord :: args.words ++ [closeWord]
  | .group inner => openWord :: inner.words ++ [closeWord]

def Operations.words : Operations → List (TokenKind × String)
  | .done => []
  | .next op right more => (.operator op, op.symbol) :: right.words ++ more.words

def Expression.words : Expression → List (TokenKind × String)
  | .mk first more => first.words ++ more.words

def Arguments.words : Arguments → List (TokenKind × String)
  | .last e => e.words
  | .next e others => e.words ++ (.comma, ",") :: others.words

end

mutual

/-- The operand with its values in place, where the values are computed in the order of the text. -/
def Operand.term (s : Setting) : Operand → Run Term
  | .literal l => return .value l.value
  | .path first members => do return .value (← Run.read (first :: members))
  | .call name => do return .value (← Run.call s name [])
  | .callWith name args => do return .value (← Run.call s name (← args.values s))
  | .group inner => inner.term s

/-- Operations behind a left side: the first one makes a new left side for all others. -/
def Operations.term (s : Setting) : Operations → Term → Run Term
  | .done, left => return left
  | .next op right more, left => do more.term s (.apply op left (← right.term s))

def Expression.term (s : Setting) : Expression → Run Term
  | .mk first more => do more.term s (← first.term s)

/-- The values of arguments, each computed before the next one is looked at. -/
def Arguments.values (s : Setting) : Arguments → Run (List Value)
  | .last e => do
    let v ← Run.ofExcept (← e.term s).eval
    return [v]
  | .next e others => do
    let v ← Run.ofExcept (← e.term s).eval
    return v :: (← others.values s)

end

/-- The value of an expression: the operands first, then the operations, from left to right. -/
def Expression.value (s : Setting) (e : Expression) : Run Value := do
  Run.ofExcept (← e.term s).eval

end Surface
end SceneScript.Script
