/-! # JSON tokens

The first stage of reading a document. A number keeps its characters and a string what stands
between its quotes, so that a part of a document which nobody needs can be passed over unread.
-/
namespace SceneScript.Json

inductive Token where
  | openObject
  | closeObject
  | openArray
  | closeArray
  | comma
  | colon
  | word (letters : List Char)
  | number (text : List Char)
  | string (raw : List Char)
  deriving DecidableEq

namespace Token

def isBlank (c : Char) : Bool := c == ' ' || c == '\t' || c == '\n' || c == '\r'

def inNumber (c : Char) : Bool :=
  c.isDigit || c == '-' || c == '+' || c == '.' || c == 'e' || c == 'E'

def ofPunctuation? (c : Char) : Option Token :=
  if c = '\x7b' then some openObject
  else if c = '\x7d' then some closeObject
  else if c = '[' then some openArray
  else if c = ']' then some closeArray
  else if c = ',' then some comma
  else if c = ':' then some colon
  else none

/-- The inside of a string up to its closing quote, and the text behind the quote. Control
characters must be escaped. -/
def readString? : List Char → Option (List Char × List Char)
  | [] => none
  | '"' :: rest => some ([], rest)
  | '\\' :: c :: rest => (readString? rest).map fun (raw, tail) => ('\\' :: c :: raw, tail)
  | c :: rest =>
    if c.toNat < 32 then none else (readString? rest).map fun (raw, tail) => (c :: raw, tail)

theorem readString_length {text raw tail : List Char} (h : readString? text = some (raw, tail)) :
    tail.length < text.length := by
  fun_induction readString? text generalizing raw tail with
  | case1 => simp at h
  | case2 rest => simp_all
  | case3 c rest ih =>
    obtain ⟨⟨r, t⟩, hr, heq⟩ := Option.map_eq_some_iff.1 h
    have := ih hr
    simp_all
    omega
  | case4 => simp_all
  | case5 c rest _ _ _ ih =>
    obtain ⟨⟨r, t⟩, hr, heq⟩ := Option.map_eq_some_iff.1 h
    have := ih hr
    simp_all
    omega

def scan? (text : List Char) : Option (List Token) :=
  match text with
  | [] => some []
  | c :: rest =>
    if isBlank c then scan? rest
    else if c = '"' then
      match h : readString? rest with
      | some (raw, tail) =>
        have := readString_length h
        (scan? tail).map (string raw :: ·)
      | none => none
    else if inNumber c then
      have : (rest.dropWhile inNumber).length ≤ rest.length :=
        (List.dropWhile_sublist inNumber).length_le
      (scan? (rest.dropWhile inNumber)).map (number (c :: rest.takeWhile inNumber) :: ·)
    else if c.isAlpha then
      have : (rest.dropWhile Char.isAlpha).length ≤ rest.length :=
        (List.dropWhile_sublist Char.isAlpha).length_le
      (scan? (rest.dropWhile Char.isAlpha)).map (word (c :: rest.takeWhile Char.isAlpha) :: ·)
    else
      match ofPunctuation? c with
      | some token => (scan? rest).map (token :: ·)
      | none => none
termination_by text.length
decreasing_by all_goals (simp_all; try omega)

end Token
end SceneScript.Json
