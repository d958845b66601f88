import SceneScript.Json.Reader
import SceneScript.Scene.Basic
import SceneScript.Value.Reading

/-! # Snapshots

A scene as a document: the components of every live entity, and the names of systems, scripts and
assets. A scene can be rebuilt from it with the declarations of an index.
-/
namespace SceneScript
open Error (quoted)

structure Snapshot where
  name : String
  /-- The document of every component of every live entity. -/
  components : Table Entity (Table String Json) := []
  systems : List String := []
  scripts : List String := []
  assets : List String := []

namespace Scene

/-- The name of an asset, if the value is one and has a name. -/
def assetName? : Value → Option String
  | .asset name => if name.isEmpty then none else some name
  | _ => none

/-- The assets that component values of live entities name, in order, each once. Records are
searched through, lists and script entities are not. -/
def assets (s : Scene) : List String :=
  let values := s.refs.filterMap fun r => r.get? s.store
  let names := (values.flatMap Value.leaves).filterMap assetName?
  Table.keys (Table.ofList (names.map fun name => (name, ())))

def documentsOf (s : Scene) (e : Entity) : Table String Json :=
  Table.ofList ((ComponentRef.all s.store e).filterMap fun r =>
    (r.get? s.store).map fun value => (r.name, value.toJson))

def snapshot (s : Scene) : Snapshot where
  name := s.name
  components := s.roster.alive.map fun e => (e, s.documentsOf e)
  systems := s.registry.systems.map System.name
  scripts := s.scripts
  assets := s.assets

def createEntityAt (e : Entity) : SceneAction Unit := do
  let s ← Action.get
  let roster ← Action.ofExcept (s.roster.createAt e)
  Action.set { s with roster := roster }

def restoreComponent (index : Index) (e : Entity) (name : String) (json : Json) :
    SceneAction Unit := do
  let id ← registerComponent index name
  let s ← Action.get
  let c ← Action.ofExcept (s.store.component id)
  let value ← Action.ofExcept (Value.ofJson c.description.shape json)
  addComponentWithId e id value

def restoreComponents (index : Index) (e : Entity) : List (String × Json) → SceneAction Unit
  | [] => return ()
  | (name, json) :: rest => do
    restoreComponent index e name json
    restoreComponents index e rest

def restoreEntities (index : Index) : List (Entity × Table String Json) → SceneAction Unit
  | [] => return ()
  | (e, documents) :: rest => do
    createEntityAt e
    restoreComponents index e documents
    restoreEntities index rest

def restoreSystems (index : Index) : List String → SceneAction Unit
  | [] => return ()
  | name :: rest => do
    let _ ← registerSystemByName index name
    restoreSystems index rest

def fill (index : Index) (snapshot : Snapshot) : SceneAction Unit := do
  restoreEntities index snapshot.components
  restoreSystems index snapshot.systems
  Action.modify fun s => snapshot.scripts.foldl addScript s
  let s ← Action.get
  Action.log .info ("Restored scene " ++ quoted s.name ++ " with " ++
    toString s.roster.count ++ " entities")

/-- Build a scene from a snapshot. On failure there is only the error and what was logged. -/
def restore (index : Index) (snapshot : Snapshot) : Outcome Error Scene Unit :=
  fill index snapshot { name := snapshot.name }

end Scene

namespace Snapshot

def names (xs : List String) : Json := .array (xs.map .string)

def toJson (s : Snapshot) : Json :=
  .object [
    ("name", .string s.name),
    ("components", .object (s.components.map fun (e, documents) =>
      (toString e.id.toNat, .object documents))),
    ("systems", names s.systems),
    ("scripts", names s.scripts),
    ("assets", names s.assets)]

/-- Two snapshots agree when their documents do, numbers being compared as numbers. -/
def agrees (a b : Snapshot) : Bool := a.toJson == b.toJson

instance : BEq Snapshot := ⟨agrees⟩

/-- The key of an entity: the decimal digits of its number, without sign or leading zero. -/
def readEntity? (text : List Char) : Option Entity :=
  if Json.NumberParts.isWhole text then
    let n := Number.ofDigits text
    if n < UInt32.size then some ⟨UInt32.ofNat n⟩ else none
  else none

/-- The documents of the components of an entity. Of two with one name the later one stays. -/
def readDocuments? (raw : Json.Raw) : Option (Table String Json) :=
  match raw.toJson? (Json.depthLimit - 2) with
  | some (.object documents) => some documents
  | _ => none

/-- The entities of a snapshot. Of two with one number the later one stays. -/
def readComponents? (raw : Json.Raw) : Option (Table Entity (Table String Json)) :=
  match raw with
  | .object members => do
    let entries ← members.mapM fun (key, documents) => do
      return (← readEntity? key, ← readDocuments? documents)
    return Table.ofList entries
  | _ => none

def readName? (raw : Json.Raw) : Option String :=
  match raw with
  | .string text => Json.Raw.stringOf? text
  | _ => none

def readNames? (raw : Json.Raw) : Option (List String) :=
  match raw with
  | .array items => items.mapM readName?
  | _ => none

def fields : List String := ["name", "components", "systems", "scripts", "assets"]

/-- The members of a document that are fields of a snapshot; all others are passed over. -/
def readFields? (members : List (List Char × Json.Raw)) : Option (List (String × Json.Raw)) := do
  let named ← members.mapM fun (key, raw) => do return (← Json.Raw.stringOf? key, raw)
  return named.filter fun entry => fields.contains entry.1

/-- The field of a given name, or a value for a snapshot that does not have it. A field that is
there twice is no field. -/
def field? {α : Type} (members : List (String × Json.Raw)) (name : String)
    (read : Json.Raw → Option α) (absent : Option α) : Option α :=
  match members.filter fun entry => entry.1 == name with
  | [] => absent
  | [(_, raw)] => read raw
  | _ => none

/-- The snapshot of some fields. Only the name must be there. -/
def ofFields? (members : List (String × Json.Raw)) : Option Snapshot := do
  return {
    name := ← field? members "name" readName? none
    components := ← field? members "components" readComponents? (some [])
    systems := ← field? members "systems" readNames? (some [])
    scripts := ← field? members "scripts" readNames? (some [])
    assets := ← field? members "assets" readNames? (some []) }

/-- Read a snapshot: an object of its fields, or an array of them in order. -/
def read? (text : String) : Option Snapshot := do
  match ← Json.Raw.ofText? text with
  | .object members => ofFields? (← readFields? members)
  | .array items => if items.length ≤ fields.length then ofFields? (fields.zip items) else none
  | _ => none

end Snapshot
end SceneScript
