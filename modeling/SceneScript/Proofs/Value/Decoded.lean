import SceneScript.Proofs.Value.RoundTrip

/-! # Types of what is read

A document that is read under a type gives a value of this type, with the declared members and no
others. A tagged document gives a value of the type that its tag names. All that can go wrong is
that the document does not fit.
-/
namespace SceneScript

namespace ValueType

mutual

/-- The default of a type has the type. -/
theorem type_defaultValue : (type : ValueType) → type.defaultValue.type = type
  | .basic type => by cases type <;> rfl
  | .record members => by rw [defaultValue, Value.type, memberTypes_defaultMembers members]

theorem memberTypes_defaultMembers : (members : List (String × ValueType)) →
    Value.memberTypes (defaultMembers members) = members
  | [] => rfl
  | (name, type) :: rest => by
    rw [defaultMembers, Value.memberTypes, type_defaultValue type, memberTypes_defaultMembers rest]

end

end ValueType

namespace Value
open Result

/-- The error says that a document does not fit a type. -/
def Misfit (e : Error) : Prop := ∃ type reason, e = misfit type reason

theorem misfit_misfit (type : ValueType) (reason : String) : Misfit (misfit type reason) :=
  ⟨type, reason, rfl⟩

theorem orMisfit_meets {α : Type} (found : Option α) (type : ValueType) (reason : String) :
    Meets (orMisfit found type reason) (fun a => found = some a) Misfit := by
  cases found with
  | none => exact misfit_misfit type reason
  | some a => rfl

theorem readField_meets (type : ValueType) (json : Json) (name : String) :
    Meets (readField type json name) (fun _ => True) Misfit :=
  (orMisfit_meets _ _ _).mono (fun _ _ => trivial) fun _ h => h

theorem readRef_meets (type : ValueType) (json : Json) :
    Meets (readRef type json) (fun _ => True) Misfit := by
  unfold readRef
  split
  · trivial
  · exact (readField_meets _ _ _).bind fun _ _ => (readField_meets _ _ _).bind fun _ _ => trivial

theorem eq_of_ofScriptName? {name : String} {type : BasicType}
    (h : BasicType.ofScriptName? name = some type) : type.scriptName = name := by
  simpa using List.find?_some h

/-- The tag of a document. -/
def tag? (json : Json) : Option String := (json.member? "type").bind Json.string?

mutual

theorem readBasic_meets (type : BasicType) (json : Json) :
    Meets (readBasic type json) (fun v => v.type = .basic type) Misfit := by
  rw [readBasic.eq_def]
  cases type with
  | number | integer | string | boolean | asset =>
    exact (orMisfit_meets _ _ _).bind fun _ _ => rfl
  | vec3 | vec2 | color =>
    simp only
    split
    · rfl
    · exact misfit_misfit _ _
  | list =>
    cases json with
    | array items => exact (readItems_meets items).bind fun _ _ => rfl
    | _ => exact misfit_misfit _ _
  | void =>
    cases json with
    | null => rfl
    | _ => exact misfit_misfit _ _
  | entity => exact (readRef_meets _ _).bind fun _ _ => rfl
  | scriptEntity =>
    cases json with
    | object members =>
      refine (readRef_meets _ _).bind fun ref _ => ?_
      split
      · rename_i components h
        have := sizeOf_find h
        exact (readTaggedMembers_meets components).bind fun _ _ => rfl
      · exact misfit_misfit _ _
      · rfl
    | _ => exact misfit_misfit _ _
termination_by sizeOf json
decreasing_by all_goals (simp_all; try omega)

theorem readTagged_meets (json : Json) :
    Meets (readTagged json) (fun v => tag? json = some v.tag) Misfit := by
  rw [readTagged.eq_def]
  cases json with
  | object members =>
    simp only
    split
    · exact misfit_misfit _ _
    · rename_i tag htag
      have htag' : tag? (.object members) = some tag := htag
      split
      · exact misfit_misfit _ _
      · rename_i value h
        have := sizeOf_find h
        rw [htag']
        split
        · rename_i hrecord
          cases value with
          | object inner =>
            refine (readTaggedMembers_meets inner).bind fun record _ => ?_
            rw [hrecord]
            rfl
          | _ => exact misfit_misfit _ _
        · split
          · rename_i hscript
            refine (readBasic_meets .scriptEntity value).mono (fun v hv => ?_) fun _ he => he
            simp only [Value.tag, hv, hscript]
          · split
            · rename_i type htype
              refine (readBasic_meets type value).mono (fun v hv => ?_) fun _ he => he
              simp only [Value.tag, hv, eq_of_ofScriptName? htype]
            · exact misfit_misfit _ _
  | _ => exact misfit_misfit _ _
termination_by sizeOf json
decreasing_by all_goals (simp_all; try omega)

theorem readItems_meets (items : List Json) :
    Meets (readItems items) (fun _ => True) Misfit := by
  rw [readItems.eq_def]
  cases items with
  | nil => trivial
  | cons item rest =>
    exact (readTagged_meets item).bind fun _ _ => (readItems_meets rest).bind fun _ _ => trivial
termination_by sizeOf items
decreasing_by all_goals (simp_all; try omega)

theorem readTaggedMembers_meets (members : List (String × Json)) :
    Meets (readTaggedMembers members) (fun _ => True) Misfit := by
  rw [readTaggedMembers.eq_def]
  cases members with
  | nil => trivial
  | cons entry rest =>
    obtain ⟨name, json⟩ := entry
    exact (readTagged_meets json).bind fun _ _ =>
      (readTaggedMembers_meets rest).bind fun _ _ => trivial
termination_by sizeOf members
decreasing_by all_goals (simp_all; try omega)

end

mutual

theorem ofJson_meets : (type : ValueType) → (json : Json) →
    Meets (ofJson type json) (fun v => v.type = type) Misfit
  | .basic type, json => readBasic_meets type json
  | .record types, json => by
    unfold ofJson
    cases json with
    | object members =>
      refine (readDeclared_meets types types members).bind fun record hrecord => ?_
      split
      · exact misfit_misfit _ _
      · exact congrArg ValueType.record hrecord
    | _ => exact misfit_misfit _ _

theorem readDeclared_meets : (types whole : List (String × ValueType)) →
    (members : Table String Json) →
    Meets (readDeclared types whole members) (fun record => memberTypes record = types) Misfit
  | [], _, _ => rfl
  | (name, type) :: rest, whole, members => by
    unfold readDeclared
    refine (orMisfit_meets _ _ _).bind fun json _ => ?_
    refine (ofJson_meets type json).bind fun value hvalue => ?_
    refine (readDeclared_meets rest whole members).bind fun record hrecord => ?_
    change memberTypes ((name, value) :: record) = _
    rw [memberTypes, hvalue, hrecord]

end

theorem find?_of_readDeclared {types whole : List (String × ValueType)}
    {members : Table String Json} {record : Record}
    (h : readDeclared types whole members = .ok record) {name : String}
    (hn : name ∈ Table.keys types) : (Table.find? members name).isSome := by
  induction types generalizing record with
  | nil => cases hn
  | cons entry rest ih =>
    obtain ⟨first, type⟩ := entry
    obtain ⟨json, hjson, h⟩ := bind_eq_ok.mp h
    obtain ⟨_, _, h⟩ := bind_eq_ok.mp h
    obtain ⟨_, hrest, _⟩ := bind_eq_ok.mp h
    rcases List.mem_cons.mp hn with rfl | hn
    · rw [(orMisfit_meets _ _ _).of_ok hjson]
      rfl
    · exact ih hrest hn

/-- A record is read from an object with just the declared names. -/
theorem ofJson_record_ok {types : RecordType} {json : Json} {v : Value}
    (h : ofJson (.record types) json = .ok v) :
    ∃ members record, json = .object members ∧ v = .record record ∧
      Table.keys record = Table.keys types ∧
      ∀ name, name ∈ Table.keys members ↔ name ∈ Table.keys types := by
  unfold ofJson at h
  cases json with
  | object members =>
    obtain ⟨record, hrecord, h⟩ := bind_eq_ok.mp h
    split at h
    · cases h
    · rename_i hextra
      cases h
      have htypes := (readDeclared_meets types types members).of_ok hrecord
      have hkeys : Table.keys record = Table.keys types := by rw [← keys_memberTypes, htypes]
      refine ⟨members, record, rfl, rfl, hkeys, fun name => ⟨fun hn => ?_, fun hn => ?_⟩⟩
      · have hknown := List.find?_eq_none.mp hextra name hn
        simp only [Bool.not_eq_true', Bool.not_eq_false] at hknown
        exact Table.find?_isSome.mp hknown
      · exact Table.find?_isSome.mp (find?_of_readDeclared hrecord hn)
  | _ => cases h

end Value
end SceneScript
