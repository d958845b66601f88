import SceneScript.Value.Operator

/-! # Tokens

The words of a script with the place where each one starts. Besides words, numbers and punctuation
there are tokens for the end of a line and for the start and end of an indented block.
-/
namespace SceneScript.Script

inductive Keyword where
  | component
  | system
  | event
  | ifWord
  | elseWord
  | whileWord
  | pass
  | trueWord
  | falseWord
  deriving DecidableEq, Repr

namespace Keyword

def all : List Keyword :=
  [component, system, event, ifWord, elseWord, whileWord, pass, trueWord, falseWord]

def text : Keyword → String
  | component => "component"
  | system => "system"
  | event => "event"
  | ifWord => "if"
  | elseWord => "else"
  | whileWord => "while"
  | pass => "pass"
  | trueWord => "true"
  | falseWord => "false"

def ofText? (word : String) : Option Keyword := all.find? fun k => k.text == word

end Keyword

inductive TokenKind where
  | identifier
  | keyword (k : Keyword)
  | number
  | integer
  | string
  | operator (op : Operator)
  | assign
  | openParen
  | closeParen
  | comma
  | dot
  | colon
  | newline
  | indent
  | dedent
  | eof
  deriving DecidableEq, Repr

namespace TokenKind

/-- Whether an operand can end with such a token. A minus behind it is an operator. -/
def endsOperand : TokenKind → Bool
  | identifier | number | integer | string | closeParen
  | keyword .trueWord | keyword .falseWord => true
  | _ => false

def describe : TokenKind → String
  | identifier => "identifier"
  | keyword k => "`" ++ k.text ++ "`"
  | number => "number"
  | integer => "integer"
  | string => "string"
  | operator op => "`" ++ op.symbol ++ "`"
  | assign => "`=`"
  | openParen => "`(`"
  | closeParen => "`)`"
  | comma => "`,`"
  | dot => "`.`"
  | colon => "`:`"
  | newline => "end of line"
  | indent => "indent"
  | dedent => "dedent"
  | eof => "end of file"

/-- The kinds of the tokens that are one character long and no operator. -/
def ofPunctuation? (c : Char) : Option TokenKind :=
  match c with
  | '=' => some assign
  | '(' => some openParen
  | ')' => some closeParen
  | ',' => some comma
  | '.' => some dot
  | ':' => some colon
  | _ => none

end TokenKind

/-- A token. Lines and columns count from 1; a string has its content as text. -/
structure Token where
  kind : TokenKind
  text : String
  line : Nat
  column : Nat
  deriving DecidableEq, Repr

def Token.describe (t : Token) : String :=
  match t.kind with
  | .identifier | .number | .integer => t.kind.describe ++ " `" ++ t.text ++ "`"
  | .string => "string \"" ++ t.text ++ "\""
  | _ => t.kind.describe

end SceneScript.Script
