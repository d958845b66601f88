import SceneScript.Number.Binary
import SceneScript.Script.Error
import SceneScript.System.Basic
import SceneScript.Value.Display
import SceneScript.Value.Vector

/-! # Builtin functions

The functions that scripts can call. Each one declares its parameters, and the arguments are
checked against them before it runs; nothing is converted. An entity can be given as a reference
or as the entity variable of a system.
-/
namespace SceneScript.Script

/-- What a parameter takes. -/
inductive Param where
  | any
  | exact (type : BasicType)
  | entity
  deriving DecidableEq, Repr

namespace Param

def accepts (p : Param) (v : Value) : Bool :=
  match p with
  | any => true
  | exact type => v.type = .basic type
  | entity => v.type = .entity || v.type = .basic .scriptEntity

def expected : Param → ValueType
  | any => .void
  | exact type => .basic type
  | entity => .entity

end Param

/-- What the calls of one run have done so far: the events emitted, and the numbers that are left to
be drawn. -/
structure Effects where
  emitted : List Event := []
  random : Random

/-- A call: it may emit events, draw numbers, log and fail. -/
abbrev Call := Action RuntimeFault Effects Value

structure Builtin where
  name : String
  params : List Param
  native : EventContext → List Value → Call

namespace Builtin

def numberAt (args : List Value) (i : Nat) : Float :=
  match args[i]? with
  | some (.number x) => x
  | _ => 0

def integerAt (args : List Value) (i : Nat) : Int64 :=
  match args[i]? with
  | some (.integer n) => n
  | _ => 0

def stringAt (args : List Value) (i : Nat) : String :=
  match args[i]? with
  | some (.string s) => s
  | _ => ""

def vec3At (args : List Value) (i : Nat) : Vec3 :=
  match args[i]? with
  | some (.vec3 v) => v
  | _ => ⟨0, 0, 0⟩

def listAt (args : List Value) (i : Nat) : List Value :=
  match args[i]? with
  | some (.list items) => items
  | _ => []

def entityAt (args : List Value) (i : Nat) : EntityRef :=
  match args[i]? with
  | some (.entity ref) => ref
  | some (.scriptEntity ref _) => ref
  | _ => .empty

def valueAt (args : List Value) (i : Nat) : Value := args.getD i .void

def queue (event : Event) : Call := do
  Action.modify fun e => { e with emitted := e.emitted ++ [event] }
  return .void

def pureOf (f : List Value → Value) : EventContext → List Value → Call :=
  fun _ args => pure (f args)

def print (_ : EventContext) (args : List Value) : Call := do
  Action.log .info (valueAt args 0).text
  return .void

/-- Draw an integer of a range, which must not be empty. -/
def randint (_ : EventContext) (args : List Value) : Call := do
  let low := integerAt args 0
  let high := integerAt args 1
  if high < low then
    Action.fail (.invalidArgument "randint"
      (toString low.toInt ++ " is greater than " ++ toString high.toInt))
  else
    let e ← Action.get
    let (n, random) := e.random.between low high
    Action.set { e with random := random }
    return .integer n

/-- Emit an event that carries an entity, which must be alive. -/
def emitTo (c : EventContext) (args : List Value) : Call :=
  let target := entityAt args 2
  match c.roster.resolve? target with
  | some e => queue ⟨stringAt args 0, valueAt args 1, [e]⟩
  | none => Action.fail (.staleEntity target)

def all : List Builtin := [
  ⟨"print", [.any], print⟩,
  ⟨"toString", [.any], pureOf fun a => .string (valueAt a 0).text⟩,
  ⟨"sqrt", [.exact .number], pureOf fun a => .number (numberAt a 0).sqrt⟩,
  ⟨"abs", [.exact .number], pureOf fun a => .number (numberAt a 0).abs⟩,
  ⟨"floor", [.exact .number], pureOf fun a => .number (numberAt a 0).floor⟩,
  ⟨"cos", [.exact .number], pureOf fun a => .number (numberAt a 0).cos⟩,
  ⟨"sin", [.exact .number], pureOf fun a => .number (numberAt a 0).sin⟩,
  ⟨"pow", [.exact .number, .exact .number],
    pureOf fun a => .number ((numberAt a 0).pow (numberAt a 1))⟩,
  ⟨"randint", [.exact .integer, .exact .integer], randint⟩,
  ⟨"toInteger", [.exact .number], pureOf fun a => .integer (Number.truncate (numberAt a 0))⟩,
  ⟨"toNumber", [.exact .integer],
    pureOf fun a => .number (Number.ofInt (integerAt a 0).toInt)⟩,
  ⟨"vec3", [.exact .number, .exact .number, .exact .number],
    pureOf fun a => .vec3 ⟨numberAt a 0, numberAt a 1, numberAt a 2⟩⟩,
  ⟨"vec2", [.exact .number, .exact .number],
    pureOf fun a => .vec2 ⟨numberAt a 0, numberAt a 1⟩⟩,
  ⟨"color", [.exact .number, .exact .number, .exact .number, .exact .number],
    pureOf fun a => .color ⟨numberAt a 0, numberAt a 1, numberAt a 2, numberAt a 3⟩⟩,
  ⟨"length", [.exact .vec3], pureOf fun a => .number (vec3At a 0).length⟩,
  ⟨"normalize", [.exact .vec3], pureOf fun a => .vec3 (vec3At a 0).normalize⟩,
  ⟨"dot", [.exact .vec3, .exact .vec3],
    pureOf fun a => .number ((vec3At a 0).dot (vec3At a 1))⟩,
  ⟨"cross", [.exact .vec3, .exact .vec3],
    pureOf fun a => .vec3 ((vec3At a 0).cross (vec3At a 1))⟩,
  ⟨"len", [.exact .list], pureOf fun a => .integer (Int64.ofNat (listAt a 0).length)⟩,
  ⟨"push", [.exact .list, .any], pureOf fun a => .list (listAt a 0 ++ [valueAt a 1])⟩,
  ⟨"isEmpty", [.entity],
    fun c a => pure (.boolean (c.roster.resolve? (entityAt a 0)).isNone)⟩,
  ⟨"emit", [.exact .string, .any], fun _ a => queue ⟨stringAt a 0, valueAt a 1, []⟩⟩,
  ⟨"emitTo", [.exact .string, .any, .entity], emitTo⟩]

def byName? (name : String) : Option Builtin := all.find? fun b => b.name == name

/-- The first argument that its parameter does not take, with its position from 1 on. -/
def firstWrong? (position : Nat) : List Param → List Value → Option (Nat × Param × Value)
  | p :: params, v :: args =>
    if p.accepts v then firstWrong? (position + 1) params args else some (position, p, v)
  | _, _ => none

/-- Check arguments against the parameters: their number first, then each type. -/
def check (b : Builtin) (args : List Value) : Except RuntimeFault Unit :=
  if args.length ≠ b.params.length then
    .error (.wrongArity b.name b.params.length args.length)
  else
    match firstWrong? 1 b.params args with
    | some (position, p, v) => .error (.wrongParameterType b.name position p.expected v.type)
    | none => .ok ()

def invoke (b : Builtin) (c : EventContext) (args : List Value) : Call := do
  Action.ofExcept (b.check args)
  b.native c args

def call (name : String) (c : EventContext) (args : List Value) : Call :=
  match byName? name with
  | some b => b.invoke c args
  | none => Action.fail (.unknownBuiltin name)

end Builtin
end SceneScript.Script
