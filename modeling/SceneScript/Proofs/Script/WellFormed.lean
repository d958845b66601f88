import SceneScript.Script.Node
import SceneScript.Number.Literal
import SceneScript.Value.Operator

/-! # Well-formed trees

The layout of nodes that declarations and bodies rely on: which children a node of each kind has,
and what its text must be. An expression is a list for a stack machine, so its shape is a matter of
the height of the stack.
-/
namespace SceneScript.Script

def IsOperator (n : Node) : Prop :=
  n.kind = .operator ∧ ∃ op, Operator.ofSymbol? n.value = some op

def IsPath : Node → Prop
  | .mk .path _ _ _ names => names ≠ []
  | _ => False

mutual

def IsExpression : Node → Prop
  | .mk .expression _ _ _ list => IsPostfix list 0
  | _ => False

/-- From a stack of some height on, no operator finds less than two values, and one is left. -/
def IsPostfix : List Node → (height : Nat) → Prop
  | [], n => n = 1
  | node :: rest, n =>
    IsOperator node ∧ 2 ≤ n ∧ IsPostfix rest (n - 1) ∨ IsOperand node ∧ IsPostfix rest (n + 1)

/-- An operand is a path, a call, or a literal whose text can be read back. -/
def IsOperand : Node → Prop
  | .mk .number text _ _ _ => ∃ x, Number.readFloat? text = some x ∧ x.isFinite = true
  | .mk .integer text _ _ _ => ∃ n, Number.readInteger? text = some n
  | .mk .string _ _ _ _ => True
  | .mk .boolean _ _ _ _ => True
  | .mk .path _ _ _ names => names ≠ []
  | .mk .call _ _ _ args => AreExpressions args
  | _ => False

def AreExpressions : List Node → Prop
  | [] => True
  | node :: rest => IsExpression node ∧ AreExpressions rest

end

mutual

def IsStatement : Node → Prop
  | .mk .pass _ _ _ _ => True
  | .mk .assignment _ _ _ [target, value] => IsPath target ∧ IsExpression value
  | .mk .call _ _ _ args => AreExpressions args
  | .mk .conditional _ _ _ (condition :: body :: rest) =>
    IsExpression condition ∧ IsBlock body ∧ IsAlternative rest
  | .mk .loop _ _ _ [condition, body] => IsExpression condition ∧ IsBlock body
  | _ => False

def IsBlock : Node → Prop
  | .mk .block _ _ _ list => AreStatements list
  | _ => False

def AreStatements : List Node → Prop
  | [] => True
  | node :: rest => IsStatement node ∧ AreStatements rest

/-- What a conditional has behind its first block: nothing, or an alternative with one block. -/
def IsAlternative : List Node → Prop
  | [] => True
  | [.mk .alternative _ _ _ list] => IsOnlyBlock list
  | _ => False

def IsOnlyBlock : List Node → Prop
  | [body] => IsBlock body
  | _ => False

end

/-- The node has a type and nothing else. -/
def HasType (n : Node) : Prop := ∃ type, n.children = [type] ∧ type.kind = .type

def AreProperties (list : List Node) : Prop :=
  (list.map Node.value).Nodup ∧ ∀ p ∈ list, p.kind = .property ∧ HasType p

/-- A component has a type, or at least one property. -/
def IsComponent (n : Node) : Prop :=
  n.kind = .componentDeclaration ∧ (HasType n ∨ n.children ≠ [] ∧ AreProperties n.children)

def IsEventParameter (p : Node) : Prop := p.kind = .entityParameter ∨ p.kind = .payload ∧ HasType p

def IsEvent (n : Node) : Prop :=
  n.kind = .eventDeclaration ∧ ∀ p ∈ n.children, IsEventParameter p

/-- A system has an entity parameter, maybe an event, and a block. -/
def IsSystem (n : Node) : Prop :=
  n.kind = .systemDeclaration ∧
    ∃ parameter events body, n.children = parameter :: events ++ [body] ∧
      parameter.kind = .entityParameter ∧ events.length ≤ 1 ∧ (∀ e ∈ events, IsEvent e) ∧
      IsBlock body

/-- A file has components and systems. -/
def IsFile (n : Node) : Prop :=
  n.kind = .file ∧ ∀ d ∈ n.children, IsComponent d ∨ IsSystem d

/-- A list that pushes one value and touches none that was there before. -/
def Pushes (list : List Node) : Prop :=
  ∀ n behind, IsPostfix behind (n + 1) → IsPostfix (list ++ behind) n

/-- A list that makes another value of the one on top. -/
def Folds (list : List Node) : Prop :=
  ∀ n behind, IsPostfix behind (n + 1) → IsPostfix (list ++ behind) (n + 1)

theorem Pushes.expression {list : List Node} (h : Pushes list) (text : String)
    (line column : Nat) : IsExpression (.mk .expression text line column list) := by
  have := h 0 [] rfl
  rwa [List.append_nil] at this

theorem IsOperand.pushes {node : Node} (h : IsOperand node) : Pushes [node] :=
  fun _ _ hb => Or.inr ⟨h, hb⟩

theorem folds_nil : Folds [] := fun _ _ hb => hb

theorem Pushes.append {list others : List Node} (h : Pushes list) (ho : Folds others) :
    Pushes (list ++ others) := by
  intro n behind hb
  rw [List.append_assoc]
  exact h n _ (ho n _ hb)

/-- An operator stands behind its right operand, and takes what was on top as the left one. -/
theorem Pushes.operation {list others : List Node} {node : Node} (h : Pushes list)
    (hn : IsOperator node) (ho : Folds others) : Folds (list ++ node :: others) := by
  intro n behind hb
  rw [List.append_assoc, List.cons_append]
  exact h (n + 1) _ (Or.inl ⟨hn, Nat.le_add_left 2 n, ho n _ hb⟩)

end SceneScript.Script
