import SceneScript.Component.Id
import SceneScript.Value.Basic
import SceneScript.Value.Operator

/-! # Errors of the data core

Structural errors (an unknown name or identifier) and value errors (a write with the wrong type, an
operator on operands it is not defined for). None of them ends a run: the dispatcher logs them.
-/
namespace SceneScript

/-- What can go wrong with components, entities, declarations and values. -/
inductive Error where
  | missingComponent (entity : Entity) (component : String)
  | invalidComponentId (id : ComponentId)
  | unknownComponent (name : String)
  | unknownEntity (entity : Entity)
  | entityAlreadyAlive (entity : Entity)
  | entityOutOfRange (entity : Entity) (limit : UInt32)
  | typeMismatch (expected found : ValueType)
  | invalidOperation (operator : Operator) (left right : ValueType)
  | divisionByZero (operator : Operator)
  | unknownMember (type : ValueType) (member : String)
  | storageMismatch (component : String)
  | unknownSystem (name : String)
  | duplicateSystem (name : String)
  | conflictingEvent (name : String)
  | invalidDocument (expected : ValueType) (reason : String)
  deriving DecidableEq

namespace Error

def quoted (word : String) : String := "`" ++ word ++ "`"

def message : Error → String
  | missingComponent entity component =>
    "entity " ++ entity.text ++ " has no " ++ quoted component ++ " component"
  | invalidComponentId id => "no component is registered with id " ++ id.text
  | unknownComponent name => "unknown component " ++ quoted name
  | unknownEntity entity => "entity " ++ entity.text ++ " is not alive"
  | entityAlreadyAlive entity => "entity " ++ entity.text ++ " is already alive"
  | entityOutOfRange entity limit =>
    "entity id " ++ entity.text ++ " is out of range (limit " ++ toString limit.toNat ++ ")"
  | typeMismatch expected found =>
    "expected a value of type " ++ expected.text ++ ", found " ++ found.text
  | invalidOperation operator left right =>
    "operator " ++ quoted operator.symbol ++ " is not defined for " ++ left.text ++ " and " ++
      right.text
  | divisionByZero operator => quoted operator.symbol ++ " by zero"
  | unknownMember type member => type.text ++ " has no member " ++ quoted member
  | storageMismatch component =>
    "component " ++ quoted component ++ " is stored in a different array type"
  | unknownSystem name => "unknown system " ++ quoted name
  | duplicateSystem name => "a system named " ++ quoted name ++ " is already registered"
  | conflictingEvent name =>
    "event " ++ quoted name ++ " is already declared with a different signature"
  | invalidDocument expected reason => "invalid JSON for " ++ expected.text ++ ": " ++ reason

end Error
end SceneScript
