import SceneScript.Number.Literal
import SceneScript.Script.Builtin
import SceneScript.Script.Node
import SceneScript.Script.Postfix
import SceneScript.Script.Stack

/-! # Running a body

The meaning of statements and expressions. Assignments and calls take effect at once and stay done
when a later statement fails; the error then names the innermost statement at fault.
-/
namespace SceneScript.Script

/-- Settings of the interpreter. -/
structure Config where
  /-- How often the body of a loop may run before the loop is stopped. -/
  maxLoopIterations : Nat := 1000
  deriving DecidableEq, Repr

/-- What a body works on: its variables, the components of the scene, and the effects of calls. -/
structure Frame where
  stack : Stack
  store : Store
  effects : Effects

/-- What stays the same while a body runs. -/
structure Setting where
  system : String
  context : EventContext
  config : Config

/-- A part of a running body. -/
abbrev Run := Action RuntimeError Frame

namespace Run

def fail {α : Type} (f : RuntimeFault) : Run α := Action.fail (.fault f)

/-- Stop unless a computation without effects gave an answer. -/
def ofExcept {α : Type} (x : Except RuntimeFault α) : Run α :=
  Action.ofExcept (x.mapError RuntimeError.fault)

def read (path : List String) : Run Value := do
  let f ← Action.get
  ofExcept (f.stack.read f.store path)

def write (path : List String) (new : Value) : Run Unit := do
  let f ← Action.get
  let (stack, store) ← ofExcept (f.stack.write f.store path new)
  Action.set { f with stack := stack, store := store }

def call (s : Setting) (name : String) (args : List Value) : Run Value :=
  ((Builtin.call name s.context args).mapError RuntimeError.fault).onPart Frame.effects
    fun effects f => { f with effects := effects }

def located {α : Type} (line column : Nat) (a : Run α) : Run α :=
  a.mapError fun e => e.locate line column

/-- Whether a value holds as a condition. -/
def truth (v : Value) : Run Bool :=
  match v.truthy? with
  | some b => pure b
  | none => fail (.conditionNotBoolean v.type)

/-- Run a body while a condition holds, at most `left` times more. When the condition still holds
after that, the loop is stopped with a warning. -/
def loop (s : Setting) (condition : Run Bool) (body : Run Unit) : (left : Nat) → Run Unit
  | 0 => do
    if ← condition then
      Action.log .warn ("Loop in system " ++ SceneScript.Error.quoted s.system ++
        " stopped after " ++ toString s.config.maxLoopIterations ++ " iterations")
  | left + 1 => do
    if ← condition then
      body
      loop s condition body left

end Run

mutual

/-- The value of an expression: its items are evaluated from left to right and then reduced. -/
def evaluate (s : Setting) : Node → Run Value
  | .mk _ _ _ _ children => do Run.ofExcept (Item.reduce (← items s children))

def items (s : Setting) : List Node → Run (List Item)
  | [] => return []
  | node :: rest => do return (← item s node) :: (← items s rest)

def item (s : Setting) : Node → Run Item
  | .mk .operator value _ _ _ =>
    match Operator.ofSymbol? value with
    | some op => return .operator op
    | none => Run.fail .malformedExpression
  | .mk .number value _ _ _ =>
    match Number.readFloat? value with
    | some x => return .operand (.number x)
    | none => Run.fail .malformedExpression
  | .mk .integer value _ _ _ =>
    match Number.readInteger? value with
    | some n => return .operand (.integer n)
    | none => Run.fail .malformedExpression
  | .mk .string value _ _ _ => return .operand (.string value)
  | .mk .boolean value _ _ _ => return .operand (.boolean (value == "true"))
  | .mk .path _ _ _ children => do return .operand (← Run.read (children.map Node.value))
  | .mk .call name _ _ children => do
    return .operand (← Run.call s name (← arguments s children))
  | _ => Run.fail .malformedExpression

def arguments (s : Setting) : List Node → Run (List Value)
  | [] => return []
  | node :: rest => do return (← evaluate s node) :: (← arguments s rest)

end

def holds (s : Setting) (condition : Node) : Run Bool := do Run.truth (← evaluate s condition)

mutual

def statement (s : Setting) : Node → Run Unit
  | .mk .pass _ _ _ _ => return ()
  | .mk .assignment _ _ _ [target, value] => do Run.write target.segments (← evaluate s value)
  | .mk .call name _ _ children => do
    let _ ← Run.call s name (← arguments s children)
  | .mk .conditional _ _ _ (condition :: body :: rest) => do
    if ← holds s condition then block s body else alternative s rest
  | .mk .loop _ _ _ [condition, body] =>
    Run.loop s (holds s condition) (block s body) s.config.maxLoopIterations
  | _ => Run.fail .malformedExpression

def block (s : Setting) : Node → Run Unit
  | .mk _ _ _ _ children => statements s children

/-- Run statements in order. The error of one is marked with its place. -/
def statements (s : Setting) : List Node → Run Unit
  | [] => return ()
  | node :: rest => do
    Run.located node.line node.column (statement s node)
    statements s rest

/-- Run what a conditional has behind its first block: the alternative, if there is one. -/
def alternative (s : Setting) : List Node → Run Unit
  | .mk _ _ _ _ children :: _ => firstBlock s children
  | [] => return ()

def firstBlock (s : Setting) : List Node → Run Unit
  | [] => return ()
  | node :: rest => if node.kind == .block then block s node else firstBlock s rest

end

/-- Where the body of a system starts for one entity. -/
def Frame.entry (d : Declaration) (matched : Binding) (c : EventContext) (w : World) : Frame where
  stack := Stack.entry d matched c
  store := w.store
  effects := { random := w.random }

/-- What a body leaves to the runs behind it. -/
def Frame.world (f : Frame) : World := ⟨f.store, f.effects.random⟩

/-- Run the body of a system for one entity. The events are those of a body that did not fail. -/
def execute (config : Config) (body : Node) (d : Declaration) (matched : Binding)
    (c : EventContext) : Action RuntimeError World (List Event) := fun w =>
  let o := block ⟨d.name, c, config⟩ body (Frame.entry d matched c w)
  ⟨o.result.map fun _ => o.state.effects.emitted, o.state.world, o.log⟩

def systemOf (config : Config) (body : Node) (d : Declaration) : System :=
  ⟨d, .perEntity fun d matched c => (execute config body d matched c).mapError RuntimeError.message⟩

end SceneScript.Script
