/-! # Binary operators

The operators of script expressions and their symbols. They have no precedence among each other.
-/
namespace SceneScript

inductive Operator where
  | add
  | sub
  | mul
  | div
  | mod
  | eq
  | ne
  | lt
  | le
  | gt
  | ge
  | and
  | or
  deriving DecidableEq, Repr

namespace Operator

def all : List Operator := [add, sub, mul, div, mod, eq, ne, lt, le, gt, ge, and, or]

def symbol : Operator → String
  | add => "+"
  | sub => "-"
  | mul => "*"
  | div => "/"
  | mod => "%"
  | eq => "=="
  | ne => "!="
  | lt => "<"
  | le => "<="
  | gt => ">"
  | ge => ">="
  | and => "&&"
  | or => "||"

def ofSymbol? (symbol : String) : Option Operator := all.find? fun op => op.symbol == symbol

@[simp] theorem ofSymbol?_symbol (op : Operator) : ofSymbol? op.symbol = some op := by
  cases op <;> rfl

end Operator
end SceneScript
