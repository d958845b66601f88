import SceneScript.Script.Node.Cursor

/-! # Parsing expressions

An expression is read as a postfix list: operands as they come, each operator behind its right
operand. A group in parentheses is put in place without a node of its own, so nothing but its
position in the list keeps it together.
-/
namespace SceneScript.Script
namespace Source
variable (s : Source)

/-- The names of a path behind the first one, each after a dot. -/
def members : List Token → Reading (List Token × List Token)
  | t :: u :: rest =>
    if t.kind = .dot then
      if u.kind = .identifier then do
        let (others, left) ← members rest
        return (u :: others, left)
      else s.unexpected (u :: rest) "member name"
    else .ok ([], t :: u :: rest)
  | [t] => if t.kind = .dot then s.unexpected [] "member name" else .ok ([], [t])
  | [] => .ok ([], [])

/-- A path: names joined by dots. -/
def path (ts : List Token) : Reading (Node × List Token) := do
  let (first, ts) ← s.expect .identifier "name" ts
  let (others, ts) ← s.members ts
  let names := first :: others
  let text := String.intercalate "." (names.map Token.text)
  let node : Node := .mk .path text first.line first.column
    (names.map fun t => Node.ofToken .identifier t [])
  return (node, ts)

/-- The kind of the node of a literal. -/
def literalKind? : TokenKind → Option NodeKind
  | .number => some .number
  | .integer => some .integer
  | .string => some .string
  | .keyword .trueWord | .keyword .falseWord => some .boolean
  | _ => none

mutual

/-- The postfix list of one operand. -/
def operand (fuel : Nat) (ts : List Token) : Reading (List Node × List Token) :=
  match fuel with
  | 0 => s.unexpected ts "expression"
  | fuel + 1 =>
    match ts with
    | [] => s.unexpected ts "expression"
    | t :: rest =>
      match literalKind? t.kind with
      | some kind => .ok ([Node.ofToken kind t []], rest)
      | none =>
        if t.kind = .openParen then do
          let (inner, ts) ← items fuel rest
          let (_, ts) ← s.expect .closeParen "`)`" ts
          return (inner, ts)
        else if t.kind = .identifier then
          if s.nextKind ts = .openParen then do
            let (node, ts) ← call fuel ts
            return ([node], ts)
          else do
            let (node, ts) ← s.path ts
            return ([node], ts)
        else s.unexpected ts "expression"

def items (fuel : Nat) (ts : List Token) : Reading (List Node × List Token) :=
  match fuel with
  | 0 => s.unexpected ts "expression"
  | fuel + 1 => do
    let (first, ts) ← operand fuel ts
    let (others, ts) ← operations fuel ts
    return (first ++ others, ts)

/-- Operators, each followed by its right operand, as they continue a postfix list. -/
def operations (fuel : Nat) (ts : List Token) : Reading (List Node × List Token) :=
  match fuel with
  | 0 => s.unexpected ts "expression"
  | fuel + 1 =>
    match ts with
    | [] => .ok ([], ts)
    | t :: rest =>
      match t.kind with
      | .operator _ => do
        let (right, ts) ← operand fuel rest
        let (others, ts) ← operations fuel ts
        return (right ++ Node.ofToken .operator t [] :: others, ts)
      | _ => .ok ([], ts)

def expressionWith (fuel : Nat) (ts : List Token) : Reading (Node × List Token) :=
  match fuel with
  | 0 => s.unexpected ts "expression"
  | fuel + 1 => do
    let start := s.peek ts
    let (list, ts) ← items fuel ts
    return (.mk .expression "" start.line start.column list, ts)

/-- The arguments of a call up to the closing parenthesis, the first one included. -/
def arguments (fuel : Nat) (ts : List Token) : Reading (List Node × List Token) :=
  match fuel with
  | 0 => s.unexpected ts "expression"
  | fuel + 1 => do
    let (first, ts) ← expressionWith fuel ts
    if s.kind ts = .comma then
      let (others, ts) ← arguments fuel (skip .comma ts)
      return (first :: others, ts)
    else
      let (_, ts) ← s.expect .closeParen "`)`" ts
      return ([first], ts)

/-- A call: a name and arguments in parentheses. -/
def call (fuel : Nat) (ts : List Token) : Reading (Node × List Token) :=
  match fuel with
  | 0 => s.unexpected ts "expression"
  | fuel + 1 => do
    let (name, ts) ← s.expect .identifier "name" ts
    let (_, ts) ← s.expect .openParen "`(`" ts
    if s.kind ts = .closeParen then
      return (Node.ofToken .call name [], skip .closeParen ts)
    else
      let (list, ts) ← arguments fuel ts
      return (Node.ofToken .call name list, ts)

end

/-- Fuel for a list of tokens: no chain of parsers that take no token is longer than four. -/
def fuel (ts : List Token) : Nat := 4 * ts.length + 4

def expression (ts : List Token) : Reading (Node × List Token) := s.expressionWith (fuel ts) ts

def callNode (ts : List Token) : Reading (Node × List Token) := s.call (fuel ts) ts

end Source
end SceneScript.Script
