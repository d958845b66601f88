import SceneScript.Value.Basic

/-! # Transforms

Typed storage keeps something other than a value and converts on the way in and out. The only such
form of the library is the transform, three vectors under fixed names.
-/
namespace SceneScript

/-- The built-in spatial component. -/
structure Transform where
  position : Vec3
  rotation : Vec3
  scale : Vec3
  deriving DecidableEq, Inhabited

namespace Transform

/-- No shift, no turn, unit size. -/
def identity : Transform := ⟨⟨0, 0, 0⟩, ⟨0, 0, 0⟩, ⟨1, 1, 1⟩⟩

/-- The record type that scripts see. -/
def shape : RecordType := [("position", .vec3), ("rotation", .vec3), ("scale", .vec3)]

def toValue (t : Transform) : Value :=
  .record [("position", .vec3 t.position), ("rotation", .vec3 t.rotation), ("scale", .vec3 t.scale)]

def vector? (members : Record) (name : String) : Option Vec3 :=
  match Table.find? members name with
  | some (.vec3 v) => some v
  | _ => none

/-- The transform in a record that has at least the three vectors. -/
def ofValue? (value : Value) : Option Transform :=
  match value with
  | .record members => do
    return ⟨← vector? members "position", ← vector? members "rotation", ← vector? members "scale"⟩
  | _ => none

end Transform

end SceneScript
