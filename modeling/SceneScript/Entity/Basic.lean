/-! # Entity identifiers

An entity is a number. A number has a generation that grows whenever its entity is destroyed, and a
reference stores both, so that an entity can be told apart from a later one of the same number.
-/
namespace SceneScript

/-- The number of an entity. -/
structure Entity where
  id : UInt32
  deriving DecidableEq, Repr, Inhabited

namespace Entity

instance : Ord Entity := ⟨fun a b => compare a.id b.id⟩

def index (e : Entity) : Nat := e.id.toNat

/-- The written form of an entity. -/
def text (e : Entity) : String := "#" ++ toString e.id.toNat

end Entity

/-- How often an entity of some number was destroyed, modulo `2 ^ 32`. -/
structure Generation where
  value : UInt32
  deriving DecidableEq, Repr, Inhabited

namespace Generation

def first : Generation := ⟨0⟩

def next (g : Generation) : Generation := ⟨g.value + 1⟩

end Generation

/-- A weak reference: holding one keeps nothing alive. The largest number marks the empty one. -/
structure EntityRef where
  entity : Entity
  generation : Generation
  deriving DecidableEq, Repr, Inhabited

namespace EntityRef

def emptyId : UInt32 := 0xFFFFFFFF

def empty : EntityRef := ⟨⟨emptyId⟩, Generation.first⟩

def isEmpty (r : EntityRef) : Bool := r.entity.id == emptyId

/-- The referenced entity, alive or not. -/
def entity? (r : EntityRef) : Option Entity := if r.isEmpty then none else some r.entity

/-- The written form: entity and generation. -/
def text (r : EntityRef) : String :=
  match r.entity? with
  | some e => e.text ++ "@" ++ toString r.generation.value.toNat
  | none => "<empty>"

end EntityRef
end SceneScript
