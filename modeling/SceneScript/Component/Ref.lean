import SceneScript.Component.Store

/-! # Component references

A reference is the place of one value: an entity in the array of one component. It holds no value,
so every reader of a place sees each write at once. It stays valid as long as the place is filled,
whoever fills it.
-/
namespace SceneScript

structure ComponentRef where
  entity : Entity
  component : ComponentId
  name : String
  deriving DecidableEq, Repr

namespace ComponentRef

def of (s : Store) (e : Entity) (id : ComponentId) : Except Error ComponentRef := do
  let c ← s.component id
  if c.array.has e then return ⟨e, id, c.name⟩ else throw (.missingComponent e c.name)

/-- The references to all components of an entity, in the order of their numbers. -/
def all (s : Store) (e : Entity) : List ComponentRef :=
  (s.componentsOf e).filterMap fun id => (s.get? id).map fun c => ⟨e, id, c.name⟩

def missing (r : ComponentRef) : Error := .missingComponent r.entity r.name

def get? (r : ComponentRef) (s : Store) : Option Value :=
  (s.get? r.component).bind fun c => c.array.get? r.entity

/-- The value in the place, or the error for an empty one. -/
def value (r : ComponentRef) (s : Store) : Except Error Value :=
  match r.get? s with
  | some v => .ok v
  | none => .error r.missing

/-- Replace the value in the place. An empty place is never filled. -/
def set (r : ComponentRef) (s : Store) (new : Value) : Except Error Store :=
  match r.get? s with
  | some _ => s.add r.entity r.component new
  | none => .error r.missing

def member (r : ComponentRef) (s : Store) (name : String) : Except Error Value := do
  (← r.value s).member name

def setMember (r : ComponentRef) (s : Store) (name : String) (new : Value) :
    Except Error Store := do
  r.set s (← (← r.value s).setMember name new)

/-- Replace a member of a member, and so on; the empty path replaces the value. -/
def setPath (r : ComponentRef) (s : Store) (path : List String) (new : Value) :
    Except Error Store :=
  match path with
  | [] => r.set s new
  | _ => do r.set s (← (← r.value s).setPath path new)

end ComponentRef
end SceneScript
