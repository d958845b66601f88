/-! # Syntax trees

A tree of nodes, each with a kind, a text and a place. The children of each kind:
* a file has declarations; a component has one type, or properties with one type each;
* a system has an entity parameter, maybe an event, and a block;
* an entity parameter has the names of components; an event has maybe a payload, and groups that
  are entity parameters; a payload has one type;
* a conditional has an expression, a block, and maybe an alternative with one block; a loop has an
  expression and a block;
* an assignment has a path and an expression; a call has one expression per argument; a path has
  names; an expression has operands and operators in postfix order.
-/
namespace SceneScript.Script

inductive NodeKind where
  | file
  | componentDeclaration
  | property
  | type
  | systemDeclaration
  | entityParameter
  | eventDeclaration
  | payload
  | block
  | pass
  | conditional
  | alternative
  | loop
  | assignment
  | call
  | path
  | identifier
  | expression
  | number
  | integer
  | string
  | boolean
  | operator
  deriving DecidableEq, Repr

inductive Node where
  | mk (kind : NodeKind) (value : String) (line column : Nat) (children : List Node)
  deriving Repr

namespace Node

def kind : Node → NodeKind
  | .mk kind _ _ _ _ => kind

/-- The text of a node: a name, a literal or an operator symbol. -/
def value : Node → String
  | .mk _ value _ _ _ => value

def line : Node → Nat
  | .mk _ _ line _ _ => line

def column : Node → Nat
  | .mk _ _ _ column _ => column

def children : Node → List Node
  | .mk _ _ _ _ children => children

instance : Inhabited Node := ⟨.mk .pass "" 0 0 []⟩

mutual

def decEq : (a b : Node) → Decidable (a = b)
  | .mk kind value line column children, .mk kind' value' line' column' children' =>
    if h : (kind, value, line, column) = (kind', value', line', column') then
      match decEqList children children' with
      | isTrue hc => isTrue (by cases h; rw [hc])
      | isFalse hc => isFalse (by simp [hc])
    else isFalse (by simpa using fun h₁ h₂ h₃ h₄ _ => h (by rw [h₁, h₂, h₃, h₄]))

def decEqList : (a b : List Node) → Decidable (a = b)
  | [], [] => isTrue rfl
  | [], _ :: _ => isFalse (by simp)
  | _ :: _, [] => isFalse (by simp)
  | n :: rest, n' :: rest' =>
    match decEq n n', decEqList rest rest' with
    | isTrue h, isTrue h' => isTrue (by rw [h, h'])
    | isFalse h, _ => isFalse (by simp [h])
    | _, isFalse h => isFalse (by simp [h])

end

instance : DecidableEq Node := decEq

def child? (n : Node) (kind : NodeKind) : Option Node := n.children.find? fun c => c.kind == kind

def childrenOf (n : Node) (kind : NodeKind) : List Node :=
  n.children.filter fun c => c.kind == kind

def segments (n : Node) : List String := n.children.map value

end Node
end SceneScript.Script
