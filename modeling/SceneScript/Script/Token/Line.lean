import SceneScript.Number.Literal
import SceneScript.Script.Error
import SceneScript.Script.Token
import SceneScript.Text.Letters

/-! # Tokens of a line

The content of one line, from its first character that is no space or tab. Blanks and comments give
no tokens. A minus belongs to a number only where no operand can have ended.
-/
namespace SceneScript.Script.Line

/-- A fault and its column. -/
abbrev Fault := Nat × LoadFault

/-- A token without its place: kind, text, how many characters it takes, and what is left. -/
structure Lexeme where
  kind : TokenKind
  text : String
  width : Nat
  rest : List Char
  deriving Repr

def isBlank (c : Char) : Bool := c == ' ' || c == '\t'

def unescape (c : Char) : Char :=
  match c with
  | 'n' => '\n'
  | 't' => '\t'
  | c => c

/-- The content of a string up to its closing quote, the number of characters up to and with the
quote, and the rest of the line. -/
def readString? : List Char → Option (List Char × Nat × List Char)
  | [] => none
  | '"' :: rest => some ([], 1, rest)
  | '\\' :: c :: rest =>
    (readString? rest).map fun (text, width, tail) => (unescape c :: text, width + 2, tail)
  | ['\\'] => none
  | c :: rest => (readString? rest).map fun (text, width, tail) => (c :: text, width + 1, tail)

/-- The characters of a number behind its sign: digits, and a fraction if a digit follows the
point. -/
def readDigits (text : List Char) : List Char × Bool × List Char :=
  let whole := text.takeWhile Char.isDigit
  match text.dropWhile Char.isDigit with
  | '.' :: d :: rest =>
    if d.isDigit then
      (whole ++ '.' :: (d :: rest).takeWhile Char.isDigit, true, (d :: rest).dropWhile Char.isDigit)
    else (whole, false, '.' :: d :: rest)
  | rest => (whole, false, rest)

/-- Whether a literal is in range: an integer of 64 bits, or a finite float. -/
def inRange (kind : TokenKind) (text : String) : Bool :=
  match kind with
  | .integer => (Number.readInteger? text).isSome
  | _ =>
    match Number.readFloat? text with
    | some x => x.isFinite
    | none => false

def number (sign : List Char) (text : List Char) : Except LoadFault Lexeme :=
  let (digits, hasFraction, rest) := readDigits text
  let kind := if hasFraction then TokenKind.number else .integer
  let word := String.ofList (sign ++ digits)
  if inRange kind word then .ok ⟨kind, word, sign.length + digits.length, rest⟩
  else .error (.literalOutOfRange word)

def word (text : List Char) : Lexeme :=
  let name := text.takeWhile Text.continuesName
  let kind := match Keyword.ofText? (String.ofList name) with
    | some k => TokenKind.keyword k
    | none => .identifier
  ⟨kind, String.ofList name, name.length, text.dropWhile Text.continuesName⟩

/-- An operator of two characters, if the text starts with one. -/
def longOperator? : List Char → Option Lexeme
  | c :: d :: rest =>
    (Operator.ofSymbol? (String.ofList [c, d])).map fun op =>
      ⟨.operator op, String.ofList [c, d], 2, rest⟩
  | _ => none

/-- An operator or another mark. Two characters are tried before one. -/
def mark (c : Char) (rest : List Char) : Except LoadFault Lexeme :=
  match longOperator? (c :: rest) with
  | some lexeme => .ok lexeme
  | none =>
    match TokenKind.ofPunctuation? c with
    | some kind => .ok ⟨kind, String.singleton c, 1, rest⟩
    | none =>
      match Operator.ofSymbol? (String.singleton c) with
      | some op => .ok ⟨.operator op, String.singleton c, 1, rest⟩
      | none => .error (.unexpectedCharacter c)

def startsDigit : List Char → Bool
  | c :: _ => c.isDigit
  | [] => false

/-- The token that starts with `c`, where `operand` tells whether an operand is expected. -/
def lexeme (operand : Bool) (c : Char) (rest : List Char) : Except LoadFault Lexeme :=
  if c = '"' then
    match readString? rest with
    | some (text, width, tail) => .ok ⟨.string, String.ofList text, width + 1, tail⟩
    | none => .error .unterminatedString
  else if c.isDigit then number [] (c :: rest)
  else if c = '-' ∧ startsDigit rest ∧ operand then number ['-'] rest
  else if Text.startsName c then .ok (word (c :: rest))
  else mark c rest

/-- The tokens of a line from a column on. The fuel is the number of characters left: every token
takes at least one. -/
def tokensFrom (line : Nat) : (fuel : Nat) → (column : Nat) → (operand : Bool) → List Char →
    Except Fault (List Token)
  | 0, _, _, _ => .ok []
  | _ + 1, _, _, [] => .ok []
  | fuel + 1, column, operand, c :: rest =>
    if isBlank c then tokensFrom line fuel (column + 1) operand rest
    else if c = '#' then .ok []
    else
      match lexeme operand c rest with
      | .error fault => .error (column, fault)
      | .ok found => do
        let tokens ←
          tokensFrom line fuel (column + found.width) (!found.kind.endsOperand) found.rest
        return ⟨found.kind, found.text, line, column⟩ :: tokens

def tokens (line column : Nat) (content : List Char) : Except Fault (List Token) :=
  tokensFrom line content.length column true content

end SceneScript.Script.Line
