import SceneScript.Proofs.Result
import SceneScript.Script.Postfix

/-! # Postfix lists and the stack machine

A postfix list is a program of a stack machine: operands are pushed, and an operator takes two
values and pushes what it makes of them. Searching for the first operator behind two operands is
what the machine does, since up to there the list holds nothing but pushes.
-/
namespace SceneScript.Script

namespace Item

/-- Run the machine on a stack, the top first. -/
def run : List Value → List Item → Except RuntimeFault (List Value)
  | stack, [] => .ok stack
  | stack, .operand v :: rest => run (v :: stack) rest
  | b :: a :: stack, .operator op :: rest => do
    let v ← (op.apply a b).mapError .core
    run (v :: stack) rest
  | _, .operator _ :: _ => .error .malformedExpression

def single : List Value → Except RuntimeFault Value
  | [v] => .ok v
  | _ => .error .malformedExpression

/-- The height of the stack behind a list, where no operator finds less than two values. -/
def height? : Nat → List Item → Option Nat
  | n, [] => some n
  | n, .operand _ :: rest => height? (n + 1) rest
  | n + 2, .operator _ :: rest => height? (n + 1) rest
  | _, .operator _ :: _ => none

/-- The machine runs through the list and leaves one value, if no operator fails. -/
def WellFormed (items : List Item) : Prop := height? 0 items = some 1

theorem run_append (stack : List Value) (xs ys : List Item) :
    run stack (xs ++ ys) = run stack xs >>= fun s => run s ys := by
  induction xs generalizing stack with
  | nil => rfl
  | cons x rest ih =>
    cases x with
    | operand v => exact ih (v :: stack)
    | operator op =>
      rcases stack with _ | ⟨b, _ | ⟨a, stack⟩⟩
      · rfl
      · rfl
      · simp only [List.cons_append, run]
        cases (op.apply a b).mapError RuntimeFault.core with
        | error err => rfl
        | ok v => exact ih (v :: stack)

theorem firstTriple?_operands (vs : List Value) (a b : Value) (op : Operator)
    (behind : List Item) :
    firstTriple? (vs.map .operand ++ .operand a :: .operand b :: .operator op :: behind) =
      some (vs.map .operand, a, b, op, behind) := by
  induction vs with
  | nil => rfl
  | cons v rest ih =>
    rcases rest with _ | ⟨w, _ | ⟨u, rest⟩⟩
    · rfl
    · rfl
    · simp only [List.map_cons, List.cons_append, firstTriple?] at ih ⊢
      rw [ih]
      rfl

/-- Behind an application the list is shorter, and reduced with less fuel. -/
theorem reduceWith_firstTriple {items front behind : List Item} {a b : Value} {op : Operator}
    (fuel : Nat) (hl : 1 < items.length)
    (hf : firstTriple? items = some (front, a, b, op, behind)) :
    reduceWith (fuel + 1) items = (op.apply a b).mapError .core >>= fun v =>
      reduceWith fuel (front ++ .operand v :: behind) := by
  rcases items with _ | ⟨x, _ | ⟨y, rest⟩⟩
  · simp at hl
  · simp at hl
  · simp only [reduceWith, hf, List.length_cons]
    rw [if_neg (by omega)]

theorem reduceWith_apply (fuel : Nat) (vs : List Value) (a b : Value) (op : Operator)
    (behind : List Item) :
    reduceWith (fuel + 1)
        (vs.map .operand ++ .operand a :: .operand b :: .operator op :: behind) =
      (op.apply a b).mapError .core >>= fun v =>
        reduceWith fuel (vs.map .operand ++ .operand v :: behind) := by
  refine reduceWith_firstTriple fuel ?_ (firstTriple?_operands vs a b op behind)
  simp only [List.length_append, List.length_cons]
  omega

/-- With the pushed values in front of it, a list is reduced as the machine runs it. -/
theorem reduceWith_operands {items : List Item} {fuel : Nat} {vs : List Value}
    (h : height? vs.length items = some 1) (hf : items.length ≤ fuel) :
    reduceWith fuel (vs.map .operand ++ items) = run vs.reverse items >>= single := by
  induction items generalizing fuel vs with
  | nil =>
    obtain ⟨v, rfl⟩ := List.length_eq_one_iff.mp (Option.some.inj h)
    cases fuel <;> rfl
  | cons item rest ih =>
    cases item with
    | operand v =>
      have hv : height? (vs ++ [v]).length rest = some 1 := by
        simpa [height?] using h
      simpa [run] using ih hv (Nat.le_of_succ_le hf)
    | operator op =>
      obtain _ | fuel := fuel
      · simp at hf
      rcases List.eq_nil_or_concat vs with rfl | ⟨ws, b, rfl⟩
      · cases h
      rcases List.eq_nil_or_concat ws with rfl | ⟨ws, a, rfl⟩
      · cases h
      have hv : height? (ws.length + 1) rest = some 1 := by
        simpa [height?] using h
      have happly := reduceWith_apply fuel ws a b op rest
      simp only [List.concat_eq_append, List.map_append, List.map_cons, List.map_nil,
        List.append_assoc, List.cons_append, List.nil_append, List.reverse_append,
        List.reverse_cons, List.reverse_nil, run] at happly ⊢
      rw [happly]
      cases (op.apply a b).mapError RuntimeFault.core with
      | error err => rfl
      | ok v =>
        have := @ih fuel (ws ++ [v]) (by simpa using hv) (Nat.le_of_succ_le_succ hf)
        simpa using this

/-- A well-formed list has the value that the machine computes. -/
theorem reduce_eq_run {items : List Item} (h : WellFormed items) :
    reduce items = run [] items >>= single := by
  have hv : height? ([] : List Value).length items = some 1 := h
  simpa [reduce] using reduceWith_operands hv (Nat.le_refl _)

/-- The machine gets through a well-formed list; only an application can fail. -/
theorem run_meets {stack : List Value} {items : List Item} {n : Nat}
    (h : height? stack.length items = some n) :
    Result.Meets (run stack items) (fun s => s.length = n) (· ≠ .malformedExpression) := by
  induction items generalizing stack with
  | nil => exact Option.some.inj h
  | cons item rest ih =>
    cases item with
    | operand v => exact @ih (v :: stack) h
    | operator op =>
      rcases stack with _ | ⟨b, _ | ⟨a, stack⟩⟩
      · cases h
      · cases h
      · have happly : Result.Meets ((op.apply a b).mapError RuntimeFault.core) (fun _ => True)
            (· ≠ .malformedExpression) := by
          cases op.apply a b <;> simp [Result.Meets]
        exact happly.bind fun v _ => @ih (v :: stack) h

/-- A well-formed list is never found malformed. -/
theorem reduce_meets {items : List Item} (h : WellFormed items) :
    Result.Meets (reduce items) (fun _ => True) (· ≠ .malformedExpression) := by
  rw [reduce_eq_run h]
  have hrun := @run_meets [] items 1 h
  refine hrun.bind fun stack hs => ?_
  obtain ⟨v, rfl⟩ := List.length_eq_one_iff.mp hs
  trivial

end Item

/-- An expression whose operands have values. -/
inductive Term where
  | value (v : Value)
  | apply (op : Operator) (left right : Term)

namespace Term

/-- The value of an expression: of the left side, then of the right side, then of both together.
The first application that fails decides. -/
def eval : Term → Except RuntimeFault Value
  | value v => .ok v
  | apply op left right => do
    let a ← left.eval
    let b ← right.eval
    (op.apply a b).mapError .core

def items : Term → List Item
  | value v => [.operand v]
  | apply op left right => left.items ++ right.items ++ [.operator op]

theorem height?_items (t : Term) (n : Nat) (behind : List Item) :
    Item.height? n (t.items ++ behind) = Item.height? (n + 1) behind := by
  induction t generalizing n behind with
  | value v => rfl
  | apply op left right ihl ihr =>
    simp only [items, List.append_assoc, ihl, ihr]
    rfl

theorem wellFormed_items (t : Term) : Item.WellFormed t.items := by
  have := t.height?_items 0 []
  rwa [List.append_nil] at this

theorem run_items (t : Term) (stack : List Value) :
    Item.run stack t.items = do return (← t.eval) :: stack := by
  induction t generalizing stack with
  | value v => rfl
  | apply op left right ihl ihr =>
    simp only [items, eval, Item.run_append, ihl, bind_assoc, pure_bind, ihr]
    rfl

theorem reduce_items (t : Term) : Item.reduce t.items = t.eval := by
  rw [Item.reduce_eq_run t.wellFormed_items, run_items]
  cases t.eval <;> rfl

end Term
end SceneScript.Script
