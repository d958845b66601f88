import SceneScript.Script.Node.Declaration
import SceneScript.Script.Token.Layout

/-! # Parsing statements and files

Blocks are bracketed by layout tokens. A condition behind `else` is a block with one conditional in
it, so a chain of conditions is a tree of two-way branches.
-/
namespace SceneScript.Script
namespace Source
variable (s : Source)

/-- An assignment. Its node stands at the target and has the text of the sign. -/
def assignment (ts : List Token) : Reading (Node × List Token) := do
  let (target, ts) ← s.path ts
  let (sign, ts) ← s.expect .assign "`=`" ts
  let (value, ts) ← s.expression ts
  let ts ← s.endOfLine ts
  return (.mk .assignment sign.text target.line target.column [target, value], ts)

mutual

def statement (fuel : Nat) (ts : List Token) : Reading (Node × List Token) :=
  match fuel with
  | 0 => s.unexpected ts "statement"
  | fuel + 1 =>
    match ts with
    | [] => s.unexpected ts "statement"
    | t :: rest =>
      match t.kind with
      | .keyword .pass => do
        let ts ← s.endOfLine rest
        return (Node.ofToken .pass t [], ts)
      | .keyword .ifWord => conditional fuel t rest
      | .keyword .whileWord => do
        let (condition, ts) ← s.expression rest
        let (body, ts) ← header fuel ts
        return (Node.ofToken .loop t [condition, body], ts)
      | .identifier =>
        if s.nextKind ts = .openParen then do
          let (node, ts) ← s.callNode ts
          let ts ← s.endOfLine ts
          return (node, ts)
        else s.assignment ts
      | .indent => s.fail ts .unexpectedIndent
      | _ => s.unexpected ts "statement"

/-- A conditional behind its keyword. -/
def conditional (fuel : Nat) (keyword : Token) (ts : List Token) :
    Reading (Node × List Token) :=
  match fuel with
  | 0 => s.unexpected ts "statement"
  | fuel + 1 => do
    let (condition, ts) ← s.expression ts
    let (body, ts) ← header fuel ts
    match ts with
    | t :: rest =>
      if t.kind = .keyword .elseWord then
        let (otherwise, ts) ← alternative fuel rest
        return (Node.ofToken .conditional keyword
          [condition, body, Node.ofToken .alternative t [otherwise]], ts)
      else return (Node.ofToken .conditional keyword [condition, body], ts)
    | [] => return (Node.ofToken .conditional keyword [condition, body], ts)

/-- The block of an alternative behind its keyword. -/
def alternative (fuel : Nat) (ts : List Token) : Reading (Node × List Token) :=
  match fuel with
  | 0 => s.unexpected ts "statement"
  | fuel + 1 =>
    match ts with
    | t :: rest =>
      if t.kind = .keyword .ifWord then do
        let (nested, ts) ← conditional fuel t rest
        return (.mk .block "" nested.line nested.column [nested], ts)
      else header fuel ts
    | [] => header fuel ts

/-- The end of a line that opens a block, and the block. -/
def header (fuel : Nat) (ts : List Token) : Reading (Node × List Token) :=
  match fuel with
  | 0 => s.unexpected ts "statement"
  | fuel + 1 => do
    let ts ← s.endOfLine (skip .colon ts)
    block fuel ts

def block (fuel : Nat) (ts : List Token) : Reading (Node × List Token) :=
  match fuel with
  | 0 => s.unexpected ts "statement"
  | fuel + 1 => do
    let (t, ts) ← s.expect .indent "an indented block" ts
    let (list, ts) ← statements fuel ts
    return (Node.ofToken .block t list, ts)

def statements (fuel : Nat) (ts : List Token) : Reading (List Node × List Token) :=
  match fuel with
  | 0 => s.unexpected ts "statement"
  | fuel + 1 =>
    if s.kind ts = .dedent then .ok ([], skip .dedent ts)
    else if s.kind ts = .eof then s.unexpected ts "statement"
    else do
      let (first, ts) ← statement fuel ts
      let (others, ts) ← statements fuel ts
      return (first :: others, ts)

end

def maybeEvent (ts : List Token) : Reading (List Node × List Token) :=
  if s.kind ts = .keyword .event then do
    let (node, ts) ← s.event (skip (.keyword .event) ts)
    return ([node], ts)
  else .ok ([], ts)

/-- A system behind its keyword. -/
def system (keyword : Token) (ts : List Token) : Reading (Node × List Token) := do
  let (name, ts) ← s.expect .identifier "system name" ts
  let (_, ts) ← s.expect .openParen "`(`" ts
  let (parameter, ts) ← s.entityParameter false ts
  let (_, ts) ← s.expect .closeParen "`)`" ts
  let (events, ts) ← s.maybeEvent ts
  let ts ← s.endOfLine (skip .colon ts)
  let (body, ts) ← s.block (fuel ts) ts
  return (declaration .systemDeclaration keyword name (parameter :: events ++ [body]), ts)

def declarations (fuel : Nat) (ts : List Token) : Reading (List Node) :=
  match fuel with
  | 0 => s.unexpected ts "`component` or `system`"
  | fuel + 1 =>
    match ts with
    | [] => .ok []
    | t :: rest =>
      match t.kind with
      | .eof => .ok []
      | .keyword .component => do
        let (node, ts) ← s.component t rest
        return node :: (← declarations fuel ts)
      | .keyword .system => do
        let (node, ts) ← s.system t rest
        return node :: (← declarations fuel ts)
      | .indent => s.fail ts .unexpectedIndent
      | _ => s.unexpected ts "`component` or `system`"

end Source

namespace Node

/-- The end of a list of tokens: its last token if that is an end of file, or else one on the line
behind it. -/
def endOf (tokens : List Token) : Token :=
  match tokens.getLast? with
  | some t => if t.kind = .eof then t else ⟨.eof, "", t.line + 1, 1⟩
  | none => ⟨.eof, "", 1, 1⟩

def ofTokens (file : String) (tokens : List Token) : Except LoadError Node := do
  let s : Source := ⟨file, endOf tokens⟩
  let children ← s.declarations (tokens.length + 1) tokens
  return .mk .file file 1 1 children

def ofSource (file source : String) : Except LoadError Node := do
  ofTokens file (← tokenize file source)

end Node
end SceneScript.Script
