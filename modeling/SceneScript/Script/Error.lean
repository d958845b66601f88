import SceneScript.Error

/-! # Errors of scripts

A script that cannot be loaded gives one error with its place in the file. A script that fails
while it runs gives an error that is marked with the place of the statement at fault.
-/
namespace SceneScript.Script
open SceneScript.Error (quoted)

/-- Why a script cannot be loaded. -/
inductive LoadFault where
  | mixedIndent
  | inconsistentIndent
  | unexpectedIndent
  | unterminatedString
  | unexpectedCharacter (c : Char)
  | literalOutOfRange (text : String)
  | unexpectedToken (expected found : String)
  | unknownType (name : String)
  | unknownComponent (name : String)
  | duplicateSystem (name : String)
  | duplicateProperty (name : String)
  | conflictingEvent (name : String)
  | missingNode (what : String)
  | registration (error : SceneScript.Error)
  | unreadable (reason : String)
  deriving DecidableEq

namespace LoadFault

def message : LoadFault → String
  | mixedIndent => "indentation mixes tabs and spaces"
  | inconsistentIndent => "dedent does not match any outer indentation level"
  | unexpectedIndent => "unexpected indent"
  | unterminatedString => "unterminated string literal"
  | unexpectedCharacter c => "unexpected character " ++ quoted (String.singleton c)
  | literalOutOfRange text => "numeric literal " ++ quoted text ++ " is out of range"
  | unexpectedToken expected found => "expected " ++ expected ++ ", found " ++ found
  | unknownType name => "unknown type " ++ quoted name
  | unknownComponent name => "unknown component " ++ quoted name
  | duplicateSystem name => "a system named " ++ quoted name ++ " is already registered"
  | duplicateProperty name => "property " ++ quoted name ++ " is declared twice"
  | conflictingEvent name =>
    "event " ++ quoted name ++ " is already declared with a different signature"
  | missingNode what => "declaration is missing its " ++ what
  | registration error => error.message
  | unreadable reason => "cannot read script: " ++ reason

def ofError : SceneScript.Error → LoadFault
  | .unknownComponent name => unknownComponent name
  | .duplicateSystem name => duplicateSystem name
  | .conflictingEvent name => conflictingEvent name
  | error => registration error

end LoadFault

/-- A fault and its place. -/
structure LoadError where
  file : String
  line : Nat
  column : Nat
  fault : LoadFault
  deriving DecidableEq

def LoadError.message (e : LoadError) : String :=
  e.file ++ ":" ++ toString e.line ++ ":" ++ toString e.column ++ ": " ++ e.fault.message

/-- Why a running script failed. -/
inductive RuntimeFault where
  | unknownVariable (path : String)
  | notAssignable (path : String)
  | unknownBuiltin (name : String)
  | wrongArity (builtin : String) (expected found : Nat)
  | wrongParameterType (builtin : String) (position : Nat) (expected found : ValueType)
  | conditionNotBoolean (found : ValueType)
  | malformedExpression
  | invalidArgument (builtin reason : String)
  | staleEntity (ref : EntityRef)
  | core (error : SceneScript.Error)
  deriving DecidableEq

namespace RuntimeFault

def message : RuntimeFault → String
  | unknownVariable path => "unknown variable " ++ quoted path
  | notAssignable path => quoted path ++ " cannot be assigned to"
  | unknownBuiltin name => "unknown builtin " ++ quoted name
  | wrongArity builtin expected found =>
    quoted builtin ++ " takes " ++ toString expected ++ " arguments, " ++ toString found ++ " given"
  | wrongParameterType builtin position expected found =>
    "argument " ++ toString position ++ " of " ++ quoted builtin ++ " must be " ++ expected.text ++
      ", found " ++ found.text
  | conditionNotBoolean found => "condition must be Boolean, found " ++ found.text
  | malformedExpression => "malformed expression"
  | invalidArgument builtin reason => "invalid argument to " ++ quoted builtin ++ ": " ++ reason
  | staleEntity ref => "entity " ++ ref.text ++ " no longer exists"
  | core error => error.message

end RuntimeFault

/-- A fault, with the place of the statement at fault once it is known. -/
inductive RuntimeError where
  | fault (f : RuntimeFault)
  | located (line column : Nat) (source : RuntimeError)
  deriving DecidableEq

namespace RuntimeError

/-- Mark an error with a place, unless it has a more precise one. -/
def locate (e : RuntimeError) (line column : Nat) : RuntimeError :=
  match e with
  | located .. => e
  | fault _ => located line column e

/-- The fault without its place. -/
def root : RuntimeError → RuntimeFault
  | fault f => f
  | located _ _ source => source.root

def message : RuntimeError → String
  | fault f => f.message
  | located line column source =>
    "line " ++ toString line ++ ", column " ++ toString column ++ ": " ++ source.message

end RuntimeError
end SceneScript.Script
