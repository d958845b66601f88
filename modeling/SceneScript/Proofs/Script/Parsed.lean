import SceneScript.Proofs.Script.Grammar.File
import SceneScript.Proofs.Script.Lexed
import SceneScript.Proofs.Script.WellFormed

/-! # What the parser promises

Whatever is parsed has a derivation, and the tree of a derivation from tokens of the lexer is well
formed: its literals and operators have texts that can be read, its expressions are postfix lists,
and its declarations have the children that the declaration pass looks for.
-/
namespace SceneScript.Script

def IsCall : Node → Prop
  | .mk .call _ _ _ args => AreExpressions args
  | _ => False

theorem IsCall.isOperand {node : Node} (h : IsCall node) : IsOperand node := by
  obtain ⟨kind, value, line, column, children⟩ := node
  cases kind <;> first | exact h | exact h.elim

theorem IsCall.isStatement {node : Node} (h : IsCall node) : IsStatement node := by
  obtain ⟨kind, value, line, column, children⟩ := node
  cases kind <;> first | exact h | exact h.elim

namespace Grammar

/-! ## Expressions -/

theorem Literal.isOperand (l : Literal) (h : Fits l.token.kind l.token.text) :
    IsOperand l.node := by
  cases l with
  | number t =>
    simpa [Fits, Literal.token, Literal.node, Literal.nodeKind, Node.ofToken, IsOperand] using h
  | integer t =>
    simpa [Fits, Literal.token, Literal.node, Literal.nodeKind, Node.ofToken, IsOperand] using h
  | string t => simp [Literal.node, Literal.nodeKind, Node.ofToken, IsOperand]
  | yes t => simp [Literal.node, Literal.nodeKind, Node.ofToken, IsOperand]
  | no t => simp [Literal.node, Literal.nodeKind, Node.ofToken, IsOperand]

theorem Path.isPath (p : Path) : IsPath p.node := by
  simp [Path.node, Path.names, IsPath]

theorem Path.isOperand (p : Path) : IsOperand p.node := by
  simp [Path.node, Path.names, IsOperand]

theorem sign_isOperator {op : Operator} (sign : Terminal (.operator op))
    (h : Fits sign.token.kind sign.token.text) :
    IsOperator (Node.ofToken .operator sign.token []) := by
  rw [sign.kind_token] at h
  refine ⟨rfl, op, ?_⟩
  rw [Node.ofToken, Node.value, h, Operator.ofSymbol?_symbol]

mutual

theorem operand_pushes : (x : Operand) → Lexed x.tokens → Pushes x.nodes
  | .literal l, h => (l.isOperand h.1).pushes
  | .path p, _ => p.isOperand.pushes
  | .call c, h => (call_isCall c h).isOperand.pushes
  | .group start inner stop, h => by
    have hi : Lexed (start.token :: inner.tokens) := h.left
    exact expression_pushes inner hi.2.2

theorem operations_folds : (more : Operations) → Lexed more.tokens → Folds more.nodes
  | .done, _ => folds_nil
  | .next op sign right more, h => by
    have hx : Lexed (sign.token :: right.tokens) := h.left
    have hright := operand_pushes right hx.2.2
    have hmore := operations_folds more h.right
    exact hright.operation (sign_isOperator sign hx.1) hmore

theorem expression_pushes : (e : Expression) → Lexed e.tokens → Pushes e.nodes
  | .mk first more, h => by
    have hfirst := operand_pushes first h.left
    have hmore := operations_folds more h.right
    exact hfirst.append hmore

theorem call_isCall : (c : Call) → Lexed c.tokens → IsCall c.node
  | .empty name start stop, _ => trivial
  | .given name start args stop, h => by
    have ha : Lexed (name.token :: start.token :: args.tokens) := h.left
    exact arguments_areExpressions args ha.2.2.2.2

theorem arguments_areExpressions : (args : Arguments) → Lexed args.tokens →
    AreExpressions args.nodes
  | .last e, h => ⟨(expression_pushes e h).expression _ _ _, trivial⟩
  | .next e comma others, h => by
    have ho : Lexed (comma.token :: others.tokens) := h.right
    exact ⟨(expression_pushes e h.left).expression _ _ _, arguments_areExpressions others ho.2.2⟩

end

theorem Expression.isExpression (e : Expression) (h : Lexed e.tokens) : IsExpression e.node :=
  (expression_pushes e h).expression _ _ _

/-! ## Statements -/

mutual

theorem statement_isStatement : (x : Statement) → Lexed x.tokens → IsStatement x.node
  | .pass word newline, _ => trivial
  | .conditional word c, h => conditional_isStatement c word.token h.2.2
  | .loop word condition opening body, h => by
    have hc : Lexed (word.token :: condition.tokens) := h.left
    have hb : Lexed (opening.tokens ++ body.tokens) := h.right
    exact ⟨condition.isExpression hc.2.2, block_isBlock body hb.right⟩
  | .call c newline, h => (call_isCall c h.left).isStatement
  | .assignment target sign value newline, h => by
    have hv : Lexed (sign.token :: value.tokens) := h.left.right
    exact ⟨target.isPath, value.isExpression hv.2.2⟩

theorem conditional_isStatement : (c : Conditional) → (keyword : Token) → Lexed c.tokens →
    IsStatement (c.node keyword)
  | .plain condition opening body, keyword, h => by
    have hb : Lexed (opening.tokens ++ body.tokens) := h.right
    exact ⟨condition.isExpression h.left, block_isBlock body hb.right, trivial⟩
  | .split condition opening body word otherwise, keyword, h => by
    have hc : Lexed (condition.tokens ++ (opening.tokens ++ body.tokens)) := h.left
    have ho : Lexed (word.token :: otherwise.tokens) := h.right
    exact ⟨condition.isExpression hc.left, block_isBlock body hc.right.right,
      alternative_isBlock otherwise ho.2.2⟩

theorem alternative_isBlock : (a : Alternative) → Lexed a.tokens → IsBlock a.node
  | .chained word nested, h => ⟨conditional_isStatement nested word.token h.2.2, trivial⟩
  | .block _ body, h => block_isBlock body h.right

theorem block_isBlock : (b : Block) → Lexed b.tokens → IsBlock b.node
  | .mk indent list dedent, h => by
    have hl : Lexed (indent.token :: list.tokens) := h.left
    exact statements_areStatements list hl.2.2

theorem statements_areStatements : (list : Statements) → Lexed list.tokens →
    AreStatements list.nodes
  | .done, _ => trivial
  | .next first others, h =>
    ⟨statement_isStatement first h.left, statements_areStatements others h.right⟩

end

/-! ## Declarations -/

theorem areProperties_nodes {list : List Property}
    (distinct : (list.map fun p => p.name.token.text).Nodup) :
    AreProperties (list.map Property.node) := by
  refine ⟨?_, ?_⟩
  · rwa [Property.values_nodes]
  · intro n hn
    obtain ⟨p, -, rfl⟩ := List.mem_map.mp hn
    exact ⟨rfl, _, rfl, rfl⟩

/-- Something stands between the start and the end of a block, so there is a property. -/
theorem Component.isComponent (keyword : Token) (c : Component) (h : Lexed c.tokens) :
    IsComponent (c.node keyword) := by
  obtain ⟨name, content⟩ := c
  cases content with
  | value type newline => exact ⟨rfl, Or.inl ⟨_, rfl, rfl⟩⟩
  | properties opening indent list distinct dedent =>
    refine ⟨rfl, Or.inr ⟨?_, areProperties_nodes distinct⟩⟩
    intro hnil
    obtain rfl := List.map_eq_nil_iff.mp hnil
    simp only [Component.tokens, Content.tokens, List.flatMap_nil, List.append_assoc,
      List.cons_append, List.nil_append] at h
    have hblock : Lexed [indent.token, dedent.token] := h.2.2.right
    exact hblock.2.1 indent.kind_token dedent.token rfl dedent.kind_token

theorem EventParameter.isEventParameter (p : EventParameter) : IsEventParameter p.node := by
  cases p with
  | group p => exact Or.inl rfl
  | payload type name => exact Or.inr ⟨rfl, _, rfl, rfl⟩

theorem Event.isEvent (e : Event) : IsEvent e.node := by
  obtain ⟨word, name, carried⟩ := e
  refine ⟨rfl, ?_⟩
  intro n hn
  cases carried with
  | nothing => cases hn
  | empty start stop => cases hn
  | given start list once stop =>
    obtain ⟨p, -, rfl⟩ := List.mem_map.mp hn
    exact p.isEventParameter

theorem System.isSystem (keyword : Token) (d : System) (h : Lexed d.tokens) :
    IsSystem (d.node keyword) := by
  have hbody : Lexed (d.opening.tokens ++ d.body.tokens) := h.right
  refine ⟨rfl, d.parameter.node, eventNodes d.event, d.body.node, rfl, rfl, ?_, ?_,
    block_isBlock d.body hbody.right⟩
  · cases d.event <;> simp [eventNodes]
  · intro n hn
    cases he : d.event with
    | none => simp [he, eventNodes] at hn
    | some e =>
      obtain rfl : n = e.node := by simpa [he, eventNodes] using hn
      exact e.isEvent

theorem Declaration.wellFormed (d : Declaration) (h : Lexed d.tokens) :
    IsComponent d.node ∨ IsSystem d.node := by
  cases d with
  | component word c => exact Or.inl (c.isComponent word.token h.2.2)
  | system word d => exact Or.inr (d.isSystem word.token h.2.2)

end Grammar

/-- The tree of a list of tokens of the lexer is well formed. -/
theorem Node.ofTokens_ok {file : String} {tokens : List Token} {tree : Node}
    (h : ofTokens file tokens = .ok tree) (hl : Lexed tokens) : IsFile tree := by
  obtain ⟨list, hd, h₁⟩ := Result.bind_eq_ok.mp h
  cases h₁
  obtain ⟨ds, rest, rfl, rfl, -⟩ := Source.declarations_sound (kind_endOf tokens) hd
  refine ⟨rfl, ?_⟩
  intro n hn
  obtain ⟨d, hmem, rfl⟩ := List.mem_map.mp hn
  exact d.wellFormed (hl.left.of_mem hmem)

end SceneScript.Script
