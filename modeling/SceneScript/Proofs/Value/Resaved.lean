import SceneScript.Proofs.Number.Finite
import SceneScript.Proofs.Value.Decoded

/-! # Saving what was read

Reading accepts more than writing produces: integers for floats, tags in any order, members of a
script entity that are missing or unknown. Whatever was accepted is a value that can be saved, and
what is read back is the value in canonical form, which later saves and reads leave as it is. The
canonical form differs only at references: one with the number of the empty reference and a
generation of its own is read as it stands, but saved as the empty reference.
-/
namespace SceneScript

/-! ### Documents -/

/-- A number of a text: an integer of 64 bits, with or without a sign, or a finite float. -/
def JsonNumber.Plain : JsonNumber → Prop
  | integer n => -2 ^ 63 ≤ n ∧ n < 2 ^ 64
  | real x => x.isFinite = true

theorem JsonNumber.Plain.isFinite {n : JsonNumber} (h : n.Plain) : n.toFloat.isFinite = true := by
  cases n with
  | integer n => exact Number.isFinite_ofInt h
  | real x => exact h

namespace Json

mutual

/-- The document of a text: the members of every object are in name order, and the numbers are
those of texts. -/
def Plain : Json → Prop
  | .number n => n.Plain
  | .array items => ItemsPlain items
  | .object members => Table.Sorted members ∧ MembersPlain members
  | .null | .boolean _ | .string _ => True

def ItemsPlain : List Json → Prop
  | [] => True
  | item :: rest => Plain item ∧ ItemsPlain rest

def MembersPlain : List (String × Json) → Prop
  | [] => True
  | (_, json) :: rest => Plain json ∧ MembersPlain rest

end

theorem MembersPlain.find {members : Table String Json} (h : MembersPlain members) {name : String}
    {json : Json} (hf : Table.find? members name = some json) : json.Plain := by
  induction members with
  | nil => cases hf
  | cons entry rest ih =>
    obtain ⟨first, value⟩ := entry
    rw [Table.find?] at hf
    split at hf
    · cases hf
      exact h.1
    · exact ih h.2 hf

theorem isFinite_of_float? {json : Json} (h : json.Plain) {x : Float}
    (hx : json.float? = some x) : x.isFinite = true := by
  cases json with
  | number n =>
    cases hx
    exact JsonNumber.Plain.isFinite h
  | _ => cases hx

theorem isFinite_of_floats {items : List Json} (h : ItemsPlain items) {xs : List Float}
    (hx : items.mapM float? = some xs) : ∀ x ∈ xs, x.isFinite = true := by
  induction items generalizing xs with
  | nil =>
    cases hx
    simp
  | cons item rest ih =>
    rw [List.mapM_cons, Option.bind_eq_bind, Option.bind_eq_some_iff] at hx
    obtain ⟨first, hfirst, hx⟩ := hx
    obtain ⟨others, hothers, hx⟩ := Option.bind_eq_some_iff.mp hx
    cases hx
    exact List.forall_mem_cons.mpr ⟨isFinite_of_float? h.1 hfirst, ih h.2 hothers⟩

end Json

theorem EntityRef.canonical_eq_self_iff {r : EntityRef} :
    r.canonical = r ↔ (r.entity.id = emptyId → r.generation = Generation.first) := by
  refine ⟨fun h hid => ?_, canonical_eq_self⟩
  rw [← h, canonical_of_isEmpty (beq_iff_eq.mpr hid)]
  rfl

namespace ValueType

mutual

/-- Every record type, at any depth, is in name order. -/
def Ordered : ValueType → Prop
  | .record members => Table.Sorted members ∧ MembersOrdered members
  | .basic _ => True

def MembersOrdered : List (String × ValueType) → Prop
  | [] => True
  | (_, type) :: rest => Ordered type ∧ MembersOrdered rest

end

end ValueType

namespace Value
open Result

/-! ### Values that can be saved -/

/-- The tables of the value are in name order, and its floats have a number. -/
structure Storable (v : Value) : Prop where
  ordered : v.Ordered
  finite : ∀ x ∈ v.floats, x.isFinite = true

structure MembersStorable (members : List (String × Value)) : Prop where
  ordered : MembersOrdered members
  finite : ∀ x ∈ memberFloats members, x.isFinite = true

structure ItemsStorable (items : List Value) : Prop where
  ordered : ItemsOrdered items
  finite : ∀ x ∈ itemFloats items, x.isFinite = true

theorem membersStorable_nil : MembersStorable [] := ⟨trivial, by simp [memberFloats]⟩

theorem itemsStorable_nil : ItemsStorable [] := ⟨trivial, by simp [itemFloats]⟩

theorem Storable.member {v : Value} (hv : v.Storable) {rest : List (String × Value)}
    (h : MembersStorable rest) (name : String) : MembersStorable ((name, v) :: rest) :=
  ⟨⟨hv.ordered, h.ordered⟩, List.forall_mem_append.mpr ⟨hv.finite, h.finite⟩⟩

theorem Storable.item {v : Value} (hv : v.Storable) {rest : List Value} (h : ItemsStorable rest) :
    ItemsStorable (v :: rest) :=
  ⟨⟨hv.ordered, h.ordered⟩, List.forall_mem_append.mpr ⟨hv.finite, h.finite⟩⟩

theorem MembersStorable.record {members : Record} (h : MembersStorable members)
    (hs : Table.Sorted members) : Storable (.record members) := ⟨⟨hs, h.ordered⟩, h.finite⟩

theorem MembersStorable.scriptEntity {components : Record} (h : MembersStorable components)
    (hs : Table.Sorted components) (ref : EntityRef) : Storable (.scriptEntity ref components) :=
  ⟨⟨hs, h.ordered⟩, h.finite⟩

theorem ItemsStorable.list {items : List Value} (h : ItemsStorable items) :
    Storable (.list items) := ⟨h.ordered, h.finite⟩

/-! ### Reading gives values that can be saved -/

/-- The floats of an array become the floats of a value. -/
theorem storable_of_floats? {json : Json} (hj : json.Plain) {xs : List Float}
    (hx : floats? json = some xs) {v : Value} (ho : v.Ordered) (hv : v.floats = xs) :
    Storable v := by
  cases json with
  | array items => exact ⟨ho, hv ▸ Json.isFinite_of_floats hj hx⟩
  | _ => cases hx

mutual

theorem readBasic_storable (type : BasicType) (json : Json) (hj : json.Plain) :
    Meets (readBasic type json) Storable Misfit := by
  rw [readBasic.eq_def]
  cases type with
  | number =>
    refine (orMisfit_meets _ _ _).bind fun x hx => ?_
    exact ⟨trivial, List.forall_mem_singleton.mpr (Json.isFinite_of_float? hj hx)⟩
  | integer | string | boolean | asset =>
    exact (orMisfit_meets _ _ _).bind fun _ _ => ⟨trivial, by simp [floats]⟩
  | vec3 | vec2 | color =>
    simp only
    split
    · rename_i h
      exact storable_of_floats? hj h trivial rfl
    · exact misfit_misfit _ _
  | list =>
    cases json with
    | array items => exact (readItems_storable items hj).bind fun _ h => h.list
    | _ => exact misfit_misfit _ _
  | void =>
    cases json with
    | null => exact ⟨trivial, by simp [floats]⟩
    | _ => exact misfit_misfit _ _
  | entity => exact (readRef_meets _ _).bind fun _ _ => ⟨trivial, by simp [floats]⟩
  | scriptEntity =>
    cases json with
    | object members =>
      refine (readRef_meets _ _).bind fun ref _ => ?_
      split
      · rename_i components h
        have := sizeOf_find h
        have hcomponents := hj.2.find h
        refine (readTaggedMembers_storable components hcomponents.2).bind fun record hrecord => ?_
        exact hrecord.2.scriptEntity (hcomponents.1.congr_keys hrecord.1) ref
      · exact misfit_misfit _ _
      · exact membersStorable_nil.scriptEntity .nil ref
    | _ => exact misfit_misfit _ _
termination_by sizeOf json
decreasing_by all_goals (simp_all; try omega)

theorem readTagged_storable (json : Json) (hj : json.Plain) :
    Meets (readTagged json) Storable Misfit := by
  rw [readTagged.eq_def]
  cases json with
  | object members =>
    simp only
    split
    · exact misfit_misfit _ _
    · split
      · exact misfit_misfit _ _
      · rename_i value h
        have := sizeOf_find h
        have hvalue := hj.2.find h
        split
        · cases value with
          | object inner =>
            refine (readTaggedMembers_storable inner hvalue.2).bind fun record hrecord => ?_
            exact hrecord.2.record (hvalue.1.congr_keys hrecord.1)
          | _ => exact misfit_misfit _ _
        · split
          · exact readBasic_storable .scriptEntity value hvalue
          · split
            · exact readBasic_storable _ value hvalue
            · exact misfit_misfit _ _
  | _ => exact misfit_misfit _ _
termination_by sizeOf json
decreasing_by all_goals (simp_all; try omega)

theorem readItems_storable (items : List Json) (hj : Json.ItemsPlain items) :
    Meets (readItems items) ItemsStorable Misfit := by
  rw [readItems.eq_def]
  cases items with
  | nil => exact itemsStorable_nil
  | cons item rest =>
    exact (readTagged_storable item hj.1).bind fun _ hitem =>
      (readItems_storable rest hj.2).bind fun _ hrest => hitem.item hrest
termination_by sizeOf items
decreasing_by all_goals (simp_all; try omega)

theorem readTaggedMembers_storable (members : List (String × Json))
    (hj : Json.MembersPlain members) :
    Meets (readTaggedMembers members)
      (fun record => Table.keys record = Table.keys members ∧ MembersStorable record) Misfit := by
  rw [readTaggedMembers.eq_def]
  cases members with
  | nil => exact ⟨rfl, membersStorable_nil⟩
  | cons entry rest =>
    rcases hentry : entry with ⟨name, json⟩
    rw [hentry] at hj
    refine (readTagged_storable json hj.1).bind fun v hv => ?_
    refine (readTaggedMembers_storable rest hj.2).bind fun record hrecord => ?_
    exact ⟨congrArg (name :: ·) hrecord.1, hv.member hrecord.2 name⟩
termination_by sizeOf members
decreasing_by all_goals (simp_all; try omega)

end

mutual

theorem ofJson_storable : (type : ValueType) → type.Ordered → (json : Json) → json.Plain →
    Meets (ofJson type json) Storable Misfit
  | .basic type, _, json, hj => readBasic_storable type json hj
  | .record types, ht, json, hj => by
    unfold ofJson
    cases json with
    | object members =>
      refine (readDeclared_storable types types ht.2 members hj.2).bind fun record hrecord => ?_
      split
      · exact misfit_misfit _ _
      · exact hrecord.2.record (ht.1.congr_keys hrecord.1)
    | _ => exact misfit_misfit _ _

theorem readDeclared_storable : (types whole : List (String × ValueType)) →
    ValueType.MembersOrdered types → (members : Table String Json) → Json.MembersPlain members →
    Meets (readDeclared types whole members)
      (fun record => Table.keys record = Table.keys types ∧ MembersStorable record) Misfit
  | [], _, _, _, _ => ⟨rfl, membersStorable_nil⟩
  | (name, type) :: rest, whole, ht, members, hj => by
    unfold readDeclared
    refine (orMisfit_meets _ _ _).bind fun json hjson => ?_
    refine (ofJson_storable type ht.1 json (hj.find hjson)).bind fun v hv => ?_
    refine (readDeclared_storable rest whole ht.2 members hj).bind fun record hrecord => ?_
    exact ⟨congrArg (name :: ·) hrecord.1, hv.member hrecord.2 name⟩

end

/-! ### Reading again -/

/-- A value is in canonical form when its references are. -/
theorem canonical_eq_self_iff {v : Value} :
    v.canonical = v ↔
      ∀ r ∈ v.refs, r.entity.id = EntityRef.emptyId → r.generation = Generation.first := by
  simp only [← EntityRef.canonical_eq_self_iff]
  refine ⟨fun h => ?_, canonical_eq_self v⟩
  have hrefs : v.refs.map EntityRef.canonical = v.refs.map id := by
    rw [← refs_canonical, h, List.map_id]
  exact List.map_inj_left.mp hrefs

/-- Saving and reading puts a value that was read into canonical form, and nothing does more. -/
theorem ofJson_resaved {type : ValueType} (ht : type.Ordered) {json : Json} (hj : json.Plain)
    {v : Value} (h : ofJson type json = .ok v) :
    ofJson type v.toJson = .ok v.canonical ∧
      ofJson type v.canonical.toJson = .ok v.canonical ∧
      (ofJson type v.toJson = .ok v ↔
        ∀ r ∈ v.refs, r.entity.id = EntityRef.emptyId → r.generation = Generation.first) := by
  have htype : v.type = type := (ofJson_meets type json).of_ok h
  have hstorable := (ofJson_storable type ht json hj).of_ok h
  have hread : ofJson type v.toJson = .ok v.canonical := by
    rw [← htype]
    exact ofJson_toJson_canonical hstorable.ordered hstorable.finite
  refine ⟨hread, by rw [toJson_canonical, hread], ?_⟩
  rw [hread, Except.ok.injEq, canonical_eq_self_iff]

/-- A reference with the number of the empty one and a generation of its own. -/
def wornDocument : Json :=
  .object [("generation", .number (.integer 5)), ("id", .number (.integer 4294967295))]

def worn : EntityRef := ⟨⟨EntityRef.emptyId⟩, ⟨5⟩⟩

/-- Reading keeps the generation, and saving loses it. -/
theorem worn_emptied :
    wornDocument.Plain ∧ ofJson .entity wornDocument = .ok (.entity worn) ∧
      ofJson .entity (entity worn).toJson = .ok (.entity .empty) ∧
      ofJson .entity (entity worn).toJson ≠ .ok (.entity worn) := by
  have hj : wornDocument.Plain := by
    unfold wornDocument
    simp only [Json.Plain, Json.MembersPlain, JsonNumber.Plain, Table.Sorted]
    decide
  have hread : ofJson .entity wornDocument = .ok (.entity worn) := by
    have href : readRef .entity wornDocument = .ok worn := rfl
    rw [ofJson, readBasic, href]
    rfl
  have hsaved : ofJson .entity (entity worn).toJson = .ok (.entity .empty) :=
    ofJson_toJson_canonical (v := .entity worn) trivial (by simp [floats])
  refine ⟨hj, hread, hsaved, ?_⟩
  rw [hsaved, ne_eq, Except.ok.injEq, entity.injEq]
  decide

end Value
end SceneScript
