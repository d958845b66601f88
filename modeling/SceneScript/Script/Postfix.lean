import SceneScript.Script.Error
import SceneScript.Value.Apply

/-! # Postfix lists

An expression is a list of operands and operators. The first operator that stands behind two
operands is applied to them, again and again, until one operand is left.
-/
namespace SceneScript.Script

inductive Item where
  | operand (v : Value)
  | operator (op : Operator)

namespace Item

/-- The first operator behind two operands, with what stands in front of the three and what stands
behind them. -/
def firstTriple? : List Item → Option (List Item × Value × Value × Operator × List Item)
  | .operand a :: .operand b :: .operator op :: rest => some ([], a, b, op, rest)
  | item :: rest =>
    (firstTriple? rest).map fun (front, a, b, op, behind) => (item :: front, a, b, op, behind)
  | [] => none

/-- Apply first operators at most `fuel` times. -/
def reduceWith : Nat → List Item → Except RuntimeFault Value
  | _, [.operand v] => .ok v
  | 0, _ => .error .malformedExpression
  | fuel + 1, items =>
    if items.length ≤ 1 then .error .malformedExpression
    else
      match firstTriple? items with
      | none => .error .malformedExpression
      | some (front, a, b, op, behind) => do
        let v ← (op.apply a b).mapError .core
        reduceWith fuel (front ++ .operand v :: behind)

/-- The value of a postfix list. Every application shortens the list. -/
def reduce (items : List Item) : Except RuntimeFault Value := reduceWith items.length items

end Item
end SceneScript.Script
