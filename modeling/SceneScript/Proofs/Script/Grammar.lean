import SceneScript.Script.Node.Cursor

/-! # The grammar of scripts

A derivation is a tree whose leaves are tokens, each of the kind that its place asks for, so that
only sentences can be derived. Its tokens from left to right are the sentence, and its node is the
syntax tree that the sentence stands for. The rules know nothing of reading: no rule looks ahead.
-/
namespace SceneScript.Script.Grammar

/-- A token of one kind. -/
structure Terminal (kind : TokenKind) where
  token : Token
  kind_token : token.kind = kind

attribute [simp] Terminal.kind_token

/-- Members with commas between them, at least one. -/
inductive Listed (α : Type) where
  | last (x : α)
  | next (x : α) (comma : Terminal .comma) (others : Listed α)

namespace Listed
variable {α : Type}

def toList : Listed α → List α
  | last x => [x]
  | next x _ others => x :: others.toList

def tokens (spell : α → List Token) : Listed α → List Token
  | last x => spell x
  | next x comma others => spell x ++ comma.token :: others.tokens spell

end Listed

/-! ## Expressions -/

inductive Literal where
  | number (t : Terminal .number)
  | integer (t : Terminal .integer)
  | string (t : Terminal .string)
  | yes (t : Terminal (.keyword .trueWord))
  | no (t : Terminal (.keyword .falseWord))

namespace Literal

def token : Literal → Token
  | number t => t.token
  | integer t => t.token
  | string t => t.token
  | yes t => t.token
  | no t => t.token

def nodeKind : Literal → NodeKind
  | number _ => .number
  | integer _ => .integer
  | string _ => .string
  | yes _ => .boolean
  | no _ => .boolean

def node (l : Literal) : Node := Node.ofToken l.nodeKind l.token []

end Literal

/-- Names with dots between them. -/
structure Path where
  first : Terminal .identifier
  members : List (Terminal .dot × Terminal .identifier)

namespace Path

def memberTokens (members : List (Terminal .dot × Terminal .identifier)) : List Token :=
  members.flatMap fun m => [m.1.token, m.2.token]

def tokens (p : Path) : List Token := p.first.token :: memberTokens p.members

def names (p : Path) : List Token := p.first.token :: p.members.map fun m => m.2.token

def node (p : Path) : Node :=
  .mk .path (String.intercalate "." (p.names.map Token.text)) p.first.token.line
    p.first.token.column (p.names.map fun t => Node.ofToken .identifier t [])

end Path

mutual

inductive Operand where
  | literal (l : Literal)
  | path (p : Path)
  | call (c : Call)
  | group (start : Terminal .openParen) (inner : Expression) (stop : Terminal .closeParen)

/-- What stands behind the first operand. -/
inductive Operations where
  | done
  | next (op : Operator) (sign : Terminal (.operator op)) (right : Operand) (more : Operations)

inductive Expression where
  | mk (first : Operand) (more : Operations)

inductive Call where
  | empty (name : Terminal .identifier) (start : Terminal .openParen) (stop : Terminal .closeParen)
  | given (name : Terminal .identifier) (start : Terminal .openParen) (args : Arguments)
      (stop : Terminal .closeParen)

/-- The arguments of a call, at least one. -/
inductive Arguments where
  | last (e : Expression)
  | next (e : Expression) (comma : Terminal .comma) (others : Arguments)

end

def Call.name : Call → Terminal .identifier
  | .empty name _ _ => name
  | .given name _ _ _ => name

/-- The first token of an operand. -/
def Operand.start : Operand → Token
  | .literal l => l.token
  | .path p => p.first.token
  | .call c => c.name.token
  | .group start _ _ => start.token

def Expression.start : Expression → Token
  | .mk first _ => first.start

mutual

def Operand.tokens : Operand → List Token
  | .literal l => [l.token]
  | .path p => p.tokens
  | .call c => c.tokens
  | .group start inner stop => start.token :: inner.tokens ++ [stop.token]

def Operations.tokens : Operations → List Token
  | .done => []
  | .next _ sign right more => sign.token :: right.tokens ++ more.tokens

def Expression.tokens : Expression → List Token
  | .mk first more => first.tokens ++ more.tokens

def Call.tokens : Call → List Token
  | .empty name start stop => [name.token, start.token, stop.token]
  | .given name start args stop => name.token :: start.token :: args.tokens ++ [stop.token]

def Arguments.tokens : Arguments → List Token
  | .last e => e.tokens
  | .next e comma others => e.tokens ++ comma.token :: others.tokens

end

mutual

/-- The postfix list of an operand. Parentheses leave nothing but the place of what they hold. -/
def Operand.nodes : Operand → List Node
  | .literal l => [l.node]
  | .path p => [p.node]
  | .call c => [c.node]
  | .group _ inner _ => inner.nodes

/-- The continuation of a postfix list: each operator behind its right operand. -/
def Operations.nodes : Operations → List Node
  | .done => []
  | .next _ sign right more => right.nodes ++ Node.ofToken .operator sign.token [] :: more.nodes

def Expression.nodes : Expression → List Node
  | .mk first more => first.nodes ++ more.nodes

def Call.node : Call → Node
  | .empty name _ _ => Node.ofToken .call name.token []
  | .given name _ args _ => Node.ofToken .call name.token args.nodes

def Arguments.nodes : Arguments → List Node
  | .last e => [.mk .expression "" e.start.line e.start.column e.nodes]
  | .next e _ others => .mk .expression "" e.start.line e.start.column e.nodes :: others.nodes

end

def Expression.node (e : Expression) : Node :=
  .mk .expression "" e.start.line e.start.column e.nodes

/-! ## Statements -/

/-- The end of a line that opens a block, with or without a colon. -/
structure Opening where
  colon : Option (Terminal .colon)
  newline : Terminal .newline

def Opening.tokens (o : Opening) : List Token :=
  (o.colon.map Terminal.token).toList ++ [o.newline.token]

mutual

/-- A statement takes its line to the end, or ends with its last block. -/
inductive Statement where
  | pass (word : Terminal (.keyword .pass)) (newline : Terminal .newline)
  | conditional (word : Terminal (.keyword .ifWord)) (c : Conditional)
  | loop (word : Terminal (.keyword .whileWord)) (condition : Expression) (opening : Opening)
      (body : Block)
  | call (c : Call) (newline : Terminal .newline)
  | assignment (target : Path) (sign : Terminal .assign) (value : Expression)
      (newline : Terminal .newline)

/-- A conditional behind its keyword. -/
inductive Conditional where
  | plain (condition : Expression) (opening : Opening) (body : Block)
  | split (condition : Expression) (opening : Opening) (body : Block)
      (word : Terminal (.keyword .elseWord)) (otherwise : Alternative)

inductive Alternative where
  | chained (word : Terminal (.keyword .ifWord)) (nested : Conditional)
  | block (opening : Opening) (body : Block)

inductive Block where
  | mk (indent : Terminal .indent) (list : Statements) (dedent : Terminal .dedent)

inductive Statements where
  | done
  | next (first : Statement) (others : Statements)

end

mutual

def Statement.tokens : Statement → List Token
  | .pass word newline => [word.token, newline.token]
  | .conditional word c => word.token :: c.tokens
  | .loop word condition opening body =>
    word.token :: condition.tokens ++ (opening.tokens ++ body.tokens)
  | .call c newline => c.tokens ++ [newline.token]
  | .assignment target sign value newline =>
    target.tokens ++ sign.token :: value.tokens ++ [newline.token]

def Conditional.tokens : Conditional → List Token
  | .plain condition opening body => condition.tokens ++ (opening.tokens ++ body.tokens)
  | .split condition opening body word otherwise =>
    condition.tokens ++ (opening.tokens ++ body.tokens) ++ word.token :: otherwise.tokens

def Alternative.tokens : Alternative → List Token
  | .chained word nested => word.token :: nested.tokens
  | .block opening body => opening.tokens ++ body.tokens

def Block.tokens : Block → List Token
  | .mk indent list dedent => indent.token :: list.tokens ++ [dedent.token]

def Statements.tokens : Statements → List Token
  | .done => []
  | .next first others => first.tokens ++ others.tokens

end

mutual

def Statement.node : Statement → Node
  | .pass word _ => Node.ofToken .pass word.token []
  | .conditional word c => c.node word.token
  | .loop word condition _ body => Node.ofToken .loop word.token [condition.node, body.node]
  | .call c _ => c.node
  | .assignment target sign value _ =>
    .mk .assignment sign.token.text target.first.token.line target.first.token.column
      [target.node, value.node]

def Conditional.node (keyword : Token) : Conditional → Node
  | .plain condition _ body => Node.ofToken .conditional keyword [condition.node, body.node]
  | .split condition _ body word otherwise =>
    Node.ofToken .conditional keyword
      [condition.node, body.node, Node.ofToken .alternative word.token [otherwise.node]]

/-- A condition behind `else` is a block of its own. -/
def Alternative.node : Alternative → Node
  | .chained word nested =>
    .mk .block "" word.token.line word.token.column [nested.node word.token]
  | .block _ body => body.node

def Block.node : Block → Node
  | .mk indent list _ => Node.ofToken .block indent.token list.nodes

def Statements.nodes : Statements → List Node
  | .done => []
  | .next first others => first.node :: others.nodes

end

/-! ## Declarations -/

structure Property where
  type : Terminal .identifier
  name : Terminal .identifier
  newline : Terminal .newline

namespace Property

def tokens (p : Property) : List Token := [p.type.token, p.name.token, p.newline.token]

def node (p : Property) : Node :=
  Node.ofToken .property p.name.token [Node.ofToken .type p.type.token []]

end Property

/-- What a component holds: a value of one type, or properties with different names. -/
inductive Content where
  | value (type : Terminal .identifier) (newline : Terminal .newline)
  | properties (opening : Opening) (indent : Terminal .indent) (list : List Property)
      (distinct : (list.map fun p => p.name.token.text).Nodup) (dedent : Terminal .dedent)

namespace Content

def tokens : Content → List Token
  | value type newline => [type.token, newline.token]
  | properties opening indent list _ dedent =>
    opening.tokens ++ indent.token :: list.flatMap Property.tokens ++ [dedent.token]

def nodes : Content → List Node
  | value type _ => [Node.ofToken .type type.token []]
  | properties _ _ list _ _ => list.map Property.node

end Content

/-- A component behind its keyword. -/
structure Component where
  name : Terminal .identifier
  content : Content

namespace Component

def tokens (c : Component) : List Token := c.name.token :: c.content.tokens

def node (keyword : Token) (c : Component) : Node :=
  .mk .componentDeclaration c.name.token.text keyword.line keyword.column c.content.nodes

end Component

/-- The names of components in angle brackets. -/
structure Bracketed where
  less : Terminal (.operator .lt)
  names : Option (Listed (Terminal .identifier))
  greater : Terminal (.operator .gt)

namespace Bracketed

def nameTokens : Option (Listed (Terminal .identifier)) → List Token
  | none => []
  | some names => names.tokens fun t => [t.token]

def nameNodes : Option (Listed (Terminal .identifier)) → List Node
  | none => []
  | some names => names.toList.map fun t => Node.ofToken .identifier t.token []

def tokens (b : Bracketed) : List Token :=
  b.less.token :: nameTokens b.names ++ [b.greater.token]

end Bracketed

/-- A name for the entities that have some components. -/
structure Parameter where
  name : Terminal .identifier
  components : Bracketed

namespace Parameter

def tokens (p : Parameter) : List Token := p.name.token :: p.components.tokens

def node (p : Parameter) : Node :=
  Node.ofToken .entityParameter p.name.token (Bracketed.nameNodes p.components.names)

end Parameter

inductive EventParameter where
  | group (p : Parameter)
  | payload (type name : Terminal .identifier)

namespace EventParameter

def isPayload : EventParameter → Bool
  | group _ => false
  | payload _ _ => true

def tokens : EventParameter → List Token
  | group p => p.tokens
  | payload type name => [type.token, name.token]

def node : EventParameter → Node
  | group p => p.node
  | payload type name => Node.ofToken .payload name.token [Node.ofToken .type type.token []]

end EventParameter

/-- What an event carries. At most one of its parameters is a payload. -/
inductive Carried where
  | nothing
  | empty (start : Terminal .openParen) (stop : Terminal .closeParen)
  | given (start : Terminal .openParen) (list : Listed EventParameter)
      (once : list.toList.countP EventParameter.isPayload ≤ 1) (stop : Terminal .closeParen)

namespace Carried

def tokens : Carried → List Token
  | nothing => []
  | empty start stop => [start.token, stop.token]
  | given start list _ stop => start.token :: list.tokens EventParameter.tokens ++ [stop.token]

def nodes : Carried → List Node
  | nothing => []
  | empty _ _ => []
  | given _ list _ _ => list.toList.map EventParameter.node

end Carried

/-- The event that a system waits for. -/
structure Event where
  word : Terminal (.keyword .event)
  name : Terminal .identifier
  carried : Carried

namespace Event

def tokens (e : Event) : List Token := e.word.token :: e.name.token :: e.carried.tokens

def node (e : Event) : Node := Node.ofToken .eventDeclaration e.name.token e.carried.nodes

end Event

/-- A system behind its keyword. Its parameter names at least one component. -/
structure System where
  name : Terminal .identifier
  start : Terminal .openParen
  parameter : Parameter
  named : parameter.components.names.isSome
  stop : Terminal .closeParen
  event : Option Event
  opening : Opening
  body : Block

namespace System

def eventTokens : Option Event → List Token
  | none => []
  | some e => e.tokens

def eventNodes (event : Option Event) : List Node := (event.map Event.node).toList

def tokens (d : System) : List Token :=
  d.name.token :: d.start.token :: d.parameter.tokens ++
    d.stop.token :: eventTokens d.event ++ (d.opening.tokens ++ d.body.tokens)

def node (keyword : Token) (d : System) : Node :=
  .mk .systemDeclaration d.name.token.text keyword.line keyword.column
    (d.parameter.node :: eventNodes d.event ++ [d.body.node])

end System

inductive Declaration where
  | component (word : Terminal (.keyword .component)) (c : Component)
  | system (word : Terminal (.keyword .system)) (d : System)

namespace Declaration

def tokens : Declaration → List Token
  | component word c => word.token :: c.tokens
  | system word d => word.token :: d.tokens

def node : Declaration → Node
  | component word c => c.node word.token
  | system word d => d.node word.token

end Declaration

/-- A file. The mark of its end may be there or not. -/
structure File where
  declarations : List Declaration
  stop : Option (Terminal .eof)

namespace File

def tokens (f : File) : List Token :=
  f.declarations.flatMap Declaration.tokens ++ (f.stop.map Terminal.token).toList

def node (name : String) (f : File) : Node :=
  .mk .file name 1 1 (f.declarations.map Declaration.node)

end File

end SceneScript.Script.Grammar
