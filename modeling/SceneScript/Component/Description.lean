import SceneScript.Component.Storage

/-! # Component descriptions

The declaration of a component: its name, the type of its values, the value it starts with, and how
it is stored.
-/
namespace SceneScript

/-- Where a component was declared. -/
inductive Provenance where
  | builtIn
  | file (name : String)
  deriving DecidableEq, Repr

structure ComponentDescription where
  name : String
  shape : ValueType
  default : Value
  kind : StorageKind
  provenance : Provenance

namespace ComponentDescription

/-- A component in a table that starts at the default of its type. -/
def ofShape (name : String) (shape : ValueType) : ComponentDescription :=
  ⟨name, shape, shape.defaultValue, .map, .builtIn⟩

def tag : ComponentDescription := ofShape "Tag" (.record [("name", .string)])

/-- The built-in transform, shared with a renderer. -/
def transform : ComponentDescription :=
  ⟨"Transform", .record Transform.shape, Transform.identity.toValue, .synchronized .transform,
    .builtIn⟩

/-- Two descriptions declare the same component when name, type and default agree. Storage and
provenance do not matter. -/
def agrees (a b : ComponentDescription) : Bool :=
  a.name == b.name && decide (a.shape = b.shape) && a.default == b.default

instance : BEq ComponentDescription := ⟨agrees⟩

def newArray (d : ComponentDescription) : ComponentArray := .empty d.shape d.kind

end ComponentDescription
end SceneScript
