import SceneScript.Value.Document

/-! # Reading values from documents

The expected type decides how a document is read, so `[0, 0, 0]` is a vector where a vector is
expected and nothing elsewhere. Tagged documents bring their type along.
-/
namespace SceneScript.Value
open Error (quoted)

def misfit (type : ValueType) (reason : String) : Error := .invalidDocument type reason

/-- What a partial reading found, or the reason why the document does not fit. -/
def orMisfit {α : Type} (found : Option α) (type : ValueType) (reason : String) :
    Except Error α :=
  match found with
  | some a => .ok a
  | none => .error (misfit type reason)

def readField (type : ValueType) (json : Json) (name : String) : Except Error UInt32 :=
  orMisfit ((json.member? name).bind Json.uint32?) type ("expected an unsigned " ++ quoted name)

/-- An entity reference; null is the empty one. -/
def readRef (type : ValueType) (json : Json) : Except Error EntityRef :=
  match json with
  | .null => .ok .empty
  | _ => do
    let id ← readField type json "id"
    let generation ← readField type json "generation"
    return ⟨⟨id⟩, ⟨generation⟩⟩

/-- The numbers of an array that holds nothing else. -/
def floats? (json : Json) : Option (List Float) :=
  json.array?.bind fun items => items.mapM Json.float?

theorem sizeOf_find {members : List (String × Json)} {key : String} {json : Json}
    (h : Table.find? members key = some json) : sizeOf json < sizeOf members := by
  induction members with
  | nil => simp [Table.find?] at h
  | cons entry rest ih =>
    obtain ⟨k, v⟩ := entry
    simp only [Table.find?] at h
    split at h
    · simp only [Option.some.injEq] at h
      subst h
      simp
      omega
    · have := ih h
      simp
      omega

mutual

def readBasic (type : BasicType) (json : Json) : Except Error Value :=
  match type with
  | .number => do return .number (← orMisfit json.float? (.basic type) "expected a number")
  | .integer => do return .integer (← orMisfit json.int64? (.basic type) "expected an integer")
  | .string => do return .string (← orMisfit json.string? (.basic type) "expected a string")
  | .boolean => do return .boolean (← orMisfit json.boolean? (.basic type) "expected a boolean")
  | .vec3 =>
    match floats? json with
    | some [x, y, z] => .ok (.vec3 ⟨x, y, z⟩)
    | _ => .error (misfit (.basic type) "expected an array of 3 numbers")
  | .vec2 =>
    match floats? json with
    | some [x, y] => .ok (.vec2 ⟨x, y⟩)
    | _ => .error (misfit (.basic type) "expected an array of 2 numbers")
  | .color =>
    match floats? json with
    | some [r, g, b, a] => .ok (.color ⟨r, g, b, a⟩)
    | _ => .error (misfit (.basic type) "expected an array of 4 numbers")
  | .asset => do return .asset (← orMisfit json.string? (.basic type) "expected an asset name")
  | .list =>
    match json with
    | .array items => do return .list (← readItems items)
    | _ => .error (misfit (.basic type) "expected an array")
  | .void =>
    match json with
    | .null => .ok .void
    | _ => .error (misfit (.basic type) "expected null")
  | .entity => do return .entity (← readRef (.basic type) json)
  | .scriptEntity =>
    match json with
    | .object members => do
      let ref ← readRef (.basic type) ((Table.find? members "entity").getD .null)
      match h : Table.find? members "components" with
      | some (.object components) =>
        have := sizeOf_find h
        return .scriptEntity ref (← readTaggedMembers components)
      | some _ => .error (misfit (.basic type) (quoted "components" ++ " must be an object"))
      | none => return .scriptEntity ref []
    | _ => .error (misfit (.basic type) "expected an object")
termination_by sizeOf json
decreasing_by all_goals (simp_all; try omega)

def readTagged (json : Json) : Except Error Value :=
  match json with
  | .object members =>
    match (Table.find? members "type").bind Json.string? with
    | none => .error (misfit .void ("expected a " ++ quoted "type" ++ " tag"))
    | some tag =>
      match h : Table.find? members "value" with
      | none => .error (misfit .void ("missing " ++ quoted "value" ++ " for " ++ quoted tag))
      | some value =>
        have := sizeOf_find h
        if tag = recordTag then
          match hv : value with
          | .object inner =>
            have : sizeOf inner < sizeOf value := by simp [hv]
            do return .record (← readTaggedMembers inner)
          | _ => .error (misfit .void "expected a tagged record")
        else if tag = BasicType.scriptEntity.scriptName then readBasic .scriptEntity value
        else
          match BasicType.ofScriptName? tag with
          | some type => readBasic type value
          | none => .error (misfit .void ("unknown type tag " ++ quoted tag))
  | _ => .error (misfit .void ("expected a " ++ quoted "type" ++ " tag"))
termination_by sizeOf json
decreasing_by all_goals (subst_vars; simp_all; try omega)

def readItems (items : List Json) : Except Error (List Value) :=
  match items with
  | [] => .ok []
  | item :: rest => do return (← readTagged item) :: (← readItems rest)
termination_by sizeOf items
decreasing_by all_goals (simp_all; try omega)

def readTaggedMembers (members : List (String × Json)) : Except Error Record :=
  match members with
  | [] => .ok []
  | (name, json) :: rest => do return (name, ← readTagged json) :: (← readTaggedMembers rest)
termination_by sizeOf members
decreasing_by all_goals (simp_all; try omega)

end

def extraMember? (type : RecordType) (members : Table String Json) : Option String :=
  (Table.keys members).find? fun name => !Table.contains type name

mutual

def ofJson (type : ValueType) (json : Json) : Except Error Value :=
  match type with
  | .basic basic => readBasic basic json
  | .record types =>
    match json with
    | .object members => do
      let record ← readDeclared types types members
      match extraMember? types members with
      | some extra => .error (misfit type ("unexpected member " ++ quoted extra))
      | none => return .record record
    | _ => .error (misfit type "expected an object")

/-- Read the declared members, in name order, from the members of an object. The first list is the
part still to be read of the whole record type. -/
def readDeclared (types whole : List (String × ValueType)) (members : Table String Json) :
    Except Error Record :=
  match types with
  | [] => .ok []
  | (name, type) :: rest => do
    let json ← orMisfit (Table.find? members name) (.record whole)
      ("missing member " ++ quoted name)
    let value ← ofJson type json
    return (name, value) :: (← readDeclared rest whole members)

end

end SceneScript.Value
