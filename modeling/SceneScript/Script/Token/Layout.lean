import SceneScript.Script.Token.Line
import SceneScript.Text.Lines

/-! # Tokens of a file

Lines with content are bracketed by layout tokens: a deeper line opens a block, a shallower one
closes the blocks it leaves, and every such line ends with a newline token. A file indents with
tabs or with spaces, as its first indented line does.
-/
namespace SceneScript.Script.Layout

/-- The widths of the open blocks, innermost first, and the character that indents. -/
structure State where
  blocks : List Nat := []
  style : Option Char := none
  deriving DecidableEq, Repr

def State.width (s : State) : Nat := s.blocks.headD 0

def mark (kind : TokenKind) (line : Nat) : Token := ⟨kind, "", line, 1⟩

/-- The position of the first character that differs from the indenting one. -/
def mixedAt? (style : Char) (blanks : List Char) : Option Nat := blanks.findIdx? (· != style)

/-- Close the blocks that are wider than a width. -/
def close (width line : Nat) : List Nat → List Token × List Nat
  | [] => ([], [])
  | w :: outer =>
    if width < w then
      let (tokens, left) := close width line outer
      (mark .dedent line :: tokens, left)
    else ([], w :: outer)

/-- The layout tokens in front of a line with some indentation. -/
def indent (s : State) (line : Nat) (blanks : List Char) :
    Except Line.Fault (List Token × State) := do
  let style := s.style <|> blanks.head?
  match style.bind fun c => mixedAt? c blanks with
  | some i => .error (i + 1, .mixedIndent)
  | none =>
    let width := blanks.length
    if s.width < width then .ok ([mark .indent line], ⟨width :: s.blocks, style⟩)
    else
      let (tokens, left) := close width line s.blocks
      if left.headD 0 = width then .ok (tokens, ⟨left, style⟩)
      else .error (width + 1, .inconsistentIndent)

/-- Whether a line has content: something other than blanks and a comment. -/
def hasContent (content : List Char) : Bool :=
  match content with
  | [] => false
  | c :: _ => c != '#'

def lineTokens (s : State) (line : Nat) (text : List Char) :
    Except Line.Fault (List Token × State) := do
  let blanks := text.takeWhile Line.isBlank
  let content := text.dropWhile Line.isBlank
  if hasContent content then
    let (layout, s) ← indent s line blanks
    let tokens ← Line.tokens line (blanks.length + 1) content
    return (layout ++ tokens ++ [⟨.newline, "", line, text.length + 1⟩], s)
  else return ([], s)

def endTokens (s : State) (line : Nat) : List Token :=
  s.blocks.map (fun _ => mark .dedent line) ++ [mark .eof line]

/-- The tokens of the lines from a line number on. -/
def fileTokens (file : String) (s : State) (line : Nat) :
    List (List Char) → Except LoadError (List Token)
  | [] => .ok (endTokens s line)
  | text :: rest =>
    match lineTokens s line text with
    | .error (column, fault) => .error ⟨file, line, column, fault⟩
    | .ok (tokens, s) => do return tokens ++ (← fileTokens file s (line + 1) rest)

end SceneScript.Script.Layout

namespace SceneScript.Script

def tokenize (file source : String) : Except LoadError (List Token) :=
  Layout.fileTokens file {} 1 (Text.lines source)

end SceneScript.Script
