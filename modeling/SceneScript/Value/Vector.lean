import SceneScript.Value.Basic

/-! # Vector operations

Products, length and direction of vectors in space, with every step rounded on its own.
-/
namespace SceneScript.Vec3

def dot (v w : Vec3) : Float := v.x * w.x + v.y * w.y + v.z * w.z

def cross (v w : Vec3) : Vec3 :=
  ⟨v.y * w.z - w.y * v.z, v.z * w.x - w.z * v.x, v.x * w.y - w.x * v.y⟩

def length (v : Vec3) : Float := (v.dot v).sqrt

/-- The vector of length one in the same direction. A vector whose length has no positive finite
reciprocal has no direction and gives zero. -/
def normalize (v : Vec3) : Vec3 :=
  let r := 1 / v.length
  if r.isFinite && 0 < r then ⟨v.x * r, v.y * r, v.z * r⟩ else ⟨0, 0, 0⟩

end SceneScript.Vec3
