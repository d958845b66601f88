/-! # Component numbers

A component is numbered within one store, in order of registration.
-/
namespace SceneScript

structure ComponentId where
  index : Nat
  deriving DecidableEq, Repr, Inhabited

def ComponentId.text (id : ComponentId) : String := "Id(" ++ toString id.index ++ ")"

end SceneScript
