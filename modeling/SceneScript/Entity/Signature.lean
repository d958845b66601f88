import SceneScript.Component.Id
import SceneScript.Entity.BitSet

/-! # Signatures

The components of one entity, as the set of their numbers.
-/
namespace SceneScript

abbrev Signature := BitSet

namespace Signature

def contains (s : Signature) (id : ComponentId) : Bool := BitSet.contains s id.index

def put (s : Signature) (id : ComponentId) (present : Bool) : Signature :=
  BitSet.put s id.index present

end Signature
end SceneScript
