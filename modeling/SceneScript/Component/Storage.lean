import SceneScript.Component.Dense

/-! # Component arrays

The values of one component by entity. A table suits components that few entities have, dense
storage those that most have; synchronized storage is dense storage that a renderer shares. All of
them hold values of one type only and answer alike.
-/
namespace SceneScript

/-- What a dense array keeps in its places. -/
inductive Element where
  | value
  | transform
  deriving DecidableEq, Repr

/-- The kind of an array. Typed access needs the very kind that an array was made with. -/
inductive StorageKind where
  | map
  | dense (element : Element)
  | synchronized (element : Element)
  deriving DecidableEq, Repr

/-- The places of an array. Sharing with a renderer does not change what is stored. -/
inductive Storage where
  | table (entries : Table Entity Value)
  | dense (shared : Bool) (places : Dense Value)
  | transforms (shared : Bool) (places : Dense Transform)

namespace Storage

def empty : StorageKind → Storage
  | .map => .table []
  | .dense .value => .dense false #[]
  | .dense .transform => .transforms false #[]
  | .synchronized .value => .dense true #[]
  | .synchronized .transform => .transforms true #[]

def kind : Storage → StorageKind
  | .table _ => .map
  | .dense shared _ => if shared then .synchronized .value else .dense .value
  | .transforms shared _ => if shared then .synchronized .transform else .dense .transform

def get? (s : Storage) (e : Entity) : Option Value :=
  match s with
  | .table entries => Table.find? entries e
  | .dense _ places => Dense.get? places e
  | .transforms _ places => (Dense.get? places e).map Transform.toValue

/-- Store a value as it is. A form that cannot be stored gives nothing. -/
def insert? (s : Storage) (e : Entity) (value : Value) : Option Storage :=
  match s with
  | .table entries => some (.table (Table.insert entries e value))
  | .dense shared places => some (.dense shared (Dense.insert places e value))
  | .transforms shared places =>
    (Transform.ofValue? value).map fun t => .transforms shared (Dense.insert places e t)

def remove (s : Storage) (e : Entity) : Storage :=
  match s with
  | .table entries => .table (Table.erase entries e)
  | .dense shared places => .dense shared (Dense.remove places e)
  | .transforms shared places => .transforms shared (Dense.remove places e)

def entities : Storage → List Entity
  | .table entries => Table.keys entries
  | .dense _ places => Dense.entities places
  | .transforms _ places => Dense.entities places

def count : Storage → Nat
  | .table entries => entries.length
  | .dense _ places => Dense.count places
  | .transforms _ places => Dense.count places

/-- How many places there are; a table has no places. -/
def placeCount : Storage → Nat
  | .table _ => 0
  | .dense _ places => places.size
  | .transforms _ places => places.size

end Storage

/-- An array: the type of its values and where they are stored. -/
structure ComponentArray where
  shape : ValueType
  storage : Storage

namespace ComponentArray

def empty (shape : ValueType) (kind : StorageKind) : ComponentArray := ⟨shape, .empty kind⟩

def get? (a : ComponentArray) (e : Entity) : Option Value := a.storage.get? e

def has (a : ComponentArray) (e : Entity) : Bool := (a.get? e).isSome

def insert (a : ComponentArray) (e : Entity) (value : Value) : Except Error ComponentArray :=
  if value.type = a.shape then
    match a.storage.insert? e value with
    | some storage => .ok { a with storage := storage }
    | none => .error (.typeMismatch a.shape value.type)
  else .error (.typeMismatch a.shape value.type)

def remove (a : ComponentArray) (e : Entity) : ComponentArray :=
  { a with storage := a.storage.remove e }

/-- Store a value, or drop the one that is there. -/
def put (a : ComponentArray) (e : Entity) : Option Value → Except Error ComponentArray
  | some value => a.insert e value
  | none => .ok (a.remove e)

def entities (a : ComponentArray) : List Entity := a.storage.entities

def count (a : ComponentArray) : Nat := a.storage.count

def entries (a : ComponentArray) : List (Entity × Value) :=
  a.entities.filterMap fun e => (a.get? e).map fun value => (e, value)

/-- Change the transform of an entity in place. Only an array of transforms that has one for the
entity can be changed so. -/
def modifyTransform? (a : ComponentArray) (e : Entity) (f : Transform → Transform) :
    Option ComponentArray :=
  match a.storage with
  | .transforms shared places => (Dense.get? places e).map fun t =>
    { a with storage := .transforms shared (Dense.insert places e (f t)) }
  | _ => none

/-- The array seen as typed storage of a kind, if it was made with that kind. -/
def hasKind (a : ComponentArray) (kind : StorageKind) : Bool := a.storage.kind == kind

end ComponentArray
end SceneScript
