import SceneScript.Proofs.Action
import SceneScript.Proofs.Script.Grammar.Expression
import SceneScript.Proofs.Script.Surface

/-! # Expressions mean what they say

The parser flattens an expression to a postfix list and drops its parentheses. Read back by the
machine for such lists, the list has the value of the expression as it was written, for every
nesting and with the same error where an operation fails.
-/
namespace SceneScript.Script
open Surface

theorem items_append (s : Setting) (xs ys : List Node) :
    items s (xs ++ ys) = (do return (← items s xs) ++ (← items s ys)) := by
  induction xs with
  | nil => simp [items]
  | cons x rest ih => simp [items, ih]

/-- A postfix list of nodes that stands for an expression whose operands are to be computed. -/
def Lists (list : List Node) (term : Setting → Run Term) : Prop :=
  ∀ s, items s list = do return (← term s).items

/-- A postfix list that continues a left side to an expression. -/
def Continues (list : List Node) (term : Setting → Term → Run Term) : Prop :=
  ∀ s left, (do return left.items ++ (← items s list) : Run (List Item)) =
    (do return (← term s left).items)

theorem Lists.evaluate {list : List Node} {term : Setting → Run Term} (h : Lists list term)
    (kind : NodeKind) (value : String) (line column : Nat) (s : Setting) :
    evaluate s (.mk kind value line column list) = (do Run.ofExcept (← term s).eval) := by
  simp [Script.evaluate, h s, Term.reduce_items]

theorem Lists.append {list others : List Node} {first : Setting → Run Term}
    {more : Setting → Term → Run Term} (h : Lists list first) (hm : Continues others more) :
    Lists (list ++ others) fun s => first s >>= more s := by
  intro s
  rw [items_append, h s]
  simp only [bind_assoc, pure_bind]
  exact congrArg _ (funext fun left => hm s left)

theorem continues_nil : Continues [] fun _ left => pure left := by
  intro s left
  simp [items]

theorem Continues.next {op : Operator} {list others : List Node} {right : Setting → Run Term}
    {more : Setting → Term → Run Term} (h : Lists list right) (hm : Continues others more)
    (line column : Nat) (children : List Node) :
    Continues (list ++ .mk .operator op.symbol line column children :: others)
      fun s left => right s >>= fun t => more s (.apply op left t) := by
  intro s left
  have hr : ∀ t : Term, (do return left.items ++ (t.items ++ .operator op :: (← items s others)) :
      Run (List Item)) = (do return (← more s (.apply op left t)).items) := by
    intro t
    simpa [Term.items] using hm s (.apply op left t)
  simp only [items_append, h s, items, item, SceneScript.Operator.ofSymbol?_symbol, bind_assoc,
    pure_bind]
  exact congrArg _ (funext hr)

theorem memberTokens_spelled {names : List String} {ts : List Token}
    (hw : ts.map Token.word = memberWords names) :
    ∃ members, Grammar.Path.memberTokens members = ts ∧
      (members.map fun m => m.2.token.text) = names := by
  induction names generalizing ts with
  | nil =>
    obtain rfl := List.map_eq_nil_iff.mp hw
    exact ⟨[], rfl, rfl⟩
  | cons name names ih =>
    obtain ⟨dot, ts₁, rfl, hdot, hw₁⟩ := List.map_eq_cons_iff.mp hw
    obtain ⟨u, ts₂, rfl, hu, hw₂⟩ := List.map_eq_cons_iff.mp hw₁
    obtain ⟨hk, -⟩ := Prod.mk.inj hdot
    obtain ⟨hi, rfl⟩ := Prod.mk.inj hu
    obtain ⟨members, rfl, rfl⟩ := ih hw₂
    exact ⟨(⟨dot, hk⟩, ⟨u, hi⟩) :: members, rfl, rfl⟩

theorem path_spelled {first : String} {names : List String} {ts : List Token}
    (hw : ts.map Token.word = (.identifier, first) :: memberWords names) :
    ∃ p : Grammar.Path, p.tokens = ts ∧
      Lists [p.node] fun _ => do return .value (← Run.read (first :: names)) := by
  obtain ⟨t, ts₁, rfl, ht, hw₁⟩ := List.map_eq_cons_iff.mp hw
  obtain ⟨hk, rfl⟩ := Prod.mk.inj ht
  obtain ⟨members, rfl, rfl⟩ := memberTokens_spelled hw₁
  refine ⟨⟨⟨t, hk⟩, members⟩, rfl, fun setting => ?_⟩
  simp [Script.items, item, Grammar.Path.node, Grammar.Path.names, Node.ofToken, Node.value,
    Term.items, Function.comp_def]

theorem lists_literal {node : Node} {v : Value} (h : ∀ s, item s node = return .operand v) :
    Lists [node] fun _ => return .value v := by
  intro s
  simp [Script.items, h s, Term.items]

theorem literal_spelled {l : Literal} {t : Token} (hw : t.word = l.word) :
    ∃ d : Grammar.Literal, d.token = t ∧ Lists [d.node] fun _ => return .value l.value := by
  obtain ⟨hk, ht⟩ := Prod.mk.inj hw
  rcases l with ⟨text, x, h⟩ | ⟨text, n, h⟩ | text | _ | _
  · refine ⟨.number ⟨t, hk⟩, rfl, lists_literal fun s => ?_⟩
    change item s (.mk .number t.text t.line t.column []) = _
    simp [item, ht, h, Literal.value]
  · refine ⟨.integer ⟨t, hk⟩, rfl, lists_literal fun s => ?_⟩
    change item s (.mk .integer t.text t.line t.column []) = _
    simp [item, ht, h, Literal.value]
  · refine ⟨.string ⟨t, hk⟩, rfl, lists_literal fun s => ?_⟩
    change item s (.mk .string t.text t.line t.column []) = _
    simp [item, ht, Literal.value]
  · refine ⟨.no ⟨t, hk⟩, rfl, lists_literal fun s => ?_⟩
    change item s (.mk .boolean t.text t.line t.column []) = _
    simp [item, ht, Literal.value, Keyword.text]
  · refine ⟨.yes ⟨t, hk⟩, rfl, lists_literal fun s => ?_⟩
    change item s (.mk .boolean t.text t.line t.column []) = _
    simp [item, ht, Literal.value, Keyword.text]

mutual

theorem operand_spelled : (x : Operand) → (ts : List Token) → ts.map Token.word = x.words →
    ∃ d : Grammar.Operand, d.tokens = ts ∧ Lists d.nodes x.term
  | .literal l, ts, hw => by
    obtain ⟨t, rfl, ht⟩ := List.map_eq_singleton_iff.mp hw
    obtain ⟨d, rfl, hl⟩ := literal_spelled ht
    exact ⟨.literal d, rfl, hl⟩
  | .path first names, ts, hw => by
    obtain ⟨p, rfl, hl⟩ := path_spelled hw
    exact ⟨.path p, rfl, hl⟩
  | .call name, ts, hw => by
    obtain ⟨t, ts₁, rfl, ht, hw₁⟩ := List.map_eq_cons_iff.mp hw
    obtain ⟨u, ts₂, rfl, hu, hw₂⟩ := List.map_eq_cons_iff.mp hw₁
    obtain ⟨v, rfl, hv⟩ := List.map_eq_singleton_iff.mp hw₂
    obtain ⟨hk, rfl⟩ := Prod.mk.inj ht
    obtain ⟨hopen, -⟩ := Prod.mk.inj hu
    obtain ⟨hclose, -⟩ := Prod.mk.inj hv
    refine ⟨.call (.empty ⟨t, hk⟩ ⟨u, hopen⟩ ⟨v, hclose⟩), rfl, fun setting => ?_⟩
    simp [Grammar.Operand.nodes, Grammar.Call.node, Script.items, item, Node.ofToken,
      Script.arguments, Operand.term, Term.items]
  | .callWith name args, ts, hw => by
    simp only [Operand.words, List.cons_append] at hw
    obtain ⟨t, ts₁, rfl, ht, hw₁⟩ := List.map_eq_cons_iff.mp hw
    obtain ⟨u, ts₂, rfl, hu, hw₂⟩ := List.map_eq_cons_iff.mp hw₁
    obtain ⟨inner, ts₃, rfl, hi, hw₃⟩ := List.map_eq_append_iff.mp hw₂
    obtain ⟨v, rfl, hv⟩ := List.map_eq_singleton_iff.mp hw₃
    obtain ⟨hk, rfl⟩ := Prod.mk.inj ht
    obtain ⟨hopen, -⟩ := Prod.mk.inj hu
    obtain ⟨hclose, -⟩ := Prod.mk.inj hv
    obtain ⟨d, rfl, hvalues⟩ := arguments_spelled args inner hi
    refine ⟨.call (.given ⟨t, hk⟩ ⟨u, hopen⟩ d ⟨v, hclose⟩), rfl, fun setting => ?_⟩
    simp [Grammar.Operand.nodes, Grammar.Call.node, Script.items, item, Node.ofToken, hvalues,
      Operand.term, Term.items]
  | .group inner, ts, hw => by
    simp only [Operand.words, List.cons_append] at hw
    obtain ⟨t, ts₁, rfl, ht, hw₁⟩ := List.map_eq_cons_iff.mp hw
    obtain ⟨inside, ts₂, rfl, hi, hw₂⟩ := List.map_eq_append_iff.mp hw₁
    obtain ⟨v, rfl, hv⟩ := List.map_eq_singleton_iff.mp hw₂
    obtain ⟨hopen, -⟩ := Prod.mk.inj ht
    obtain ⟨hclose, -⟩ := Prod.mk.inj hv
    obtain ⟨d, rfl, hl⟩ := derivation_spelled inner inside hi
    exact ⟨.group ⟨t, hopen⟩ d ⟨v, hclose⟩, rfl, hl⟩

theorem operations_spelled : (x : Operations) → (ts : List Token) → ts.map Token.word = x.words →
    ∃ d : Grammar.Operations, d.tokens = ts ∧ Continues d.nodes fun setting => x.term setting
  | .done, ts, hw => by
    obtain rfl := List.map_eq_nil_iff.mp hw
    exact ⟨.done, rfl, continues_nil⟩
  | .next op right more, ts, hw => by
    simp only [Operations.words, List.cons_append] at hw
    obtain ⟨t, ts₁, rfl, ht, hw₁⟩ := List.map_eq_cons_iff.mp hw
    obtain ⟨ts₂, ts₃, rfl, hright, hmore⟩ := List.map_eq_append_iff.mp hw₁
    obtain ⟨hk, htext⟩ := Prod.mk.inj ht
    obtain ⟨x, rfl, hx⟩ := operand_spelled right ts₂ hright
    obtain ⟨others, rfl, hothers⟩ := operations_spelled more ts₃ hmore
    refine ⟨.next op ⟨t, hk⟩ x others, rfl, ?_⟩
    rw [Grammar.Operations.nodes, Node.ofToken, htext]
    exact Continues.next hx hothers t.line t.column []

/-- The words of an expression are a sentence, and its derivation lists what the words say. -/
theorem derivation_spelled : (e : Expression) → (ts : List Token) → ts.map Token.word = e.words →
    ∃ d : Grammar.Expression, d.tokens = ts ∧ Lists d.nodes e.term
  | .mk first more, ts, hw => by
    obtain ⟨ts₁, ts₂, rfl, hfirst, hmore⟩ := List.map_eq_append_iff.mp hw
    obtain ⟨x, rfl, hx⟩ := operand_spelled first ts₁ hfirst
    obtain ⟨others, rfl, hothers⟩ := operations_spelled more ts₂ hmore
    exact ⟨.mk x others, rfl, hx.append hothers⟩

theorem arguments_spelled : (args : Arguments) → (ts : List Token) →
    ts.map Token.word = args.words → ∃ d : Grammar.Arguments, d.tokens = ts ∧
      ∀ setting, Script.arguments setting d.nodes = args.values setting
  | .last e, ts, hw => by
    obtain ⟨d, rfl, hl⟩ := derivation_spelled e ts hw
    refine ⟨.last d, rfl, fun setting => ?_⟩
    simp [Grammar.Arguments.nodes, Script.arguments, hl.evaluate, Arguments.values]
  | .next e others, ts, hw => by
    obtain ⟨ts₁, ts₂, rfl, he, hw₁⟩ := List.map_eq_append_iff.mp hw
    obtain ⟨comma, ts₃, rfl, hc, hothers⟩ := List.map_eq_cons_iff.mp hw₁
    obtain ⟨hcomma, -⟩ := Prod.mk.inj hc
    obtain ⟨d, rfl, hl⟩ := derivation_spelled e ts₁ he
    obtain ⟨more, rfl, hvalues⟩ := arguments_spelled others ts₃ hothers
    refine ⟨.next d ⟨comma, hcomma⟩ more, rfl, fun setting => ?_⟩
    simp [Grammar.Arguments.nodes, Script.arguments, hl.evaluate, Arguments.values, hvalues]

end

namespace Source

/-- The words of an expression are read as one node, up to where the expression stops, and the node
has the value of the expression: the operands are computed in the order of the text, and then every
operation is applied to all in front of it, where a group has the value of its inside. When an
operation fails, the value is the error of the first one that does. -/
theorem expression_value (s : Source) (e : Expression) {ts rest : List Token}
    (hw : ts.map Token.word = e.words) (hr : s.Stops rest) :
    ∃ node, s.expression (ts ++ rest) = .ok (node, rest) ∧ node.kind = .expression ∧
      ∀ setting, evaluate setting node = e.value setting := by
  obtain ⟨d, rfl, hl⟩ := derivation_spelled e ts hw
  have hread := expression_complete d hr
  exact ⟨d.node, hread, rfl, hl.evaluate _ _ _ _⟩

def differenceTokens : List Token :=
  [⟨.identifier, "a", 1, 1⟩, ⟨.operator .sub, "-", 1, 3⟩, ⟨.openParen, "(", 1, 5⟩,
    ⟨.identifier, "b", 1, 6⟩, ⟨.operator .sub, "-", 1, 8⟩, ⟨.identifier, "c", 1, 10⟩,
    ⟨.closeParen, ")", 1, 11⟩]

def difference : Expression :=
  .mk (.path "a" []) (.next .sub
    (.group (.mk (.path "b" []) (.next .sub (.path "c" []) .done))) .done)

theorem difference_value :
    ∃ node, Source.expression ⟨"", ⟨.eof, "", 2, 1⟩⟩
        (differenceTokens ++ [⟨.newline, "", 1, 12⟩]) = .ok (node, [⟨.newline, "", 1, 12⟩]) ∧
      ∀ setting, evaluate setting node = (do
        let a ← Run.read ["a"]
        let b ← Run.read ["b"]
        let c ← Run.read ["c"]
        Run.ofExcept (do
          let d ← (SceneScript.Operator.sub.apply b c).mapError .core
          (SceneScript.Operator.sub.apply a d).mapError .core)) := by
  obtain ⟨node, hn, -, hv⟩ := @expression_value ⟨"", ⟨.eof, "", 2, 1⟩⟩ difference
    differenceTokens [⟨.newline, "", 1, 12⟩] rfl ⟨⟨by decide, by decide⟩, fun _ => nofun⟩
  refine ⟨node, hn, fun setting => ?_⟩
  simp [hv, Expression.value, difference, Expression.term, Operand.term, Operations.term, Term.eval]

end Source
end SceneScript.Script
