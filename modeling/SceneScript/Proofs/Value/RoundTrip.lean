import SceneScript.Proofs.Result
import SceneScript.Proofs.Table
import SceneScript.Proofs.Value.Contents
import SceneScript.Value.Reading

/-! # Values through documents

A value that is written as a document and read back under its own type is the same value, whatever
it nests: a declared record is read member by member under the types of the members, everything else
brings its type along as a tag. Floats must be finite, since the others have no number, and the
empty reference comes back in its canonical form.
-/
namespace SceneScript

namespace Json

@[simp] theorem float?_ofFloat {x : Float} (h : x.isFinite = true) :
    (ofFloat x).float? = some x := by
  simp [ofFloat, h, float?, JsonNumber.toFloat]

@[simp] theorem int64?_ofInt64 (n : Int64) : (ofInt64 n).int64? = some n := by
  have hle : Int64.minValue.toInt ≤ n.toInt := n.minValue_le_toInt
  have hge : n.toInt ≤ Int64.maxValue.toInt := n.toInt_le
  simp only [ofInt64, int64?, JsonNumber.toInt64?, hle, hge, and_self, if_true, Int64.ofInt_toInt]

@[simp] theorem uint32?_ofUInt32 (n : UInt32) : (ofUInt32 n).uint32? = some n := by
  have hlt : (n.toNat : Int) < UInt32.size := Int.ofNat_lt.mpr n.toNat_lt_size
  have hge : (0 : Int) ≤ n.toNat := Int.natCast_nonneg _
  simp only [ofUInt32, uint32?, JsonNumber.toUInt32?, hlt, hge, and_self, if_true,
    Int.toNat_natCast, UInt32.ofNat_toNat]

@[simp] theorem sorted_ofFloat (x : Float) : (ofFloat x).sorted = ofFloat x := by
  unfold ofFloat
  split <;> rfl

theorem keys_sortedMembers (members : List (String × Json)) :
    Table.keys (sortedMembers members) = Table.keys members := by
  induction members with
  | nil => rfl
  | cons entry rest ih => simpa [sortedMembers, Table.keys] using ih

/-- An object that is in name order stays as it is but for its members. -/
theorem sorted_object {members : List (String × Json)} (h : Table.Sorted members) :
    (object members).sorted = object (sortedMembers members) := by
  rw [sorted, Table.ofList_of_sorted (h.congr_keys (keys_sortedMembers members))]

end Json

namespace EntityRef

theorem sorted_toJson {r : EntityRef} {e : Entity} (h : r.entity? = some e) :
    r.toJson.sorted = .object
      [("generation", Json.ofUInt32 r.generation.value), ("id", Json.ofUInt32 e.id)] := by
  have hc : compare "generation" "id" = .lt := by decide
  simp [toJson, h, Json.sorted, Json.sortedMembers, Table.ofList, Table.insert, hc, Json.ofUInt32]

theorem toJson_canonical (r : EntityRef) : r.canonical.toJson = r.toJson := by
  cases h : r.entity? with
  | none => simp [toJson, h]
  | some e => rw [canonical_of_entity? h]

end EntityRef

namespace Value

@[simp] theorem tag_canonical (v : Value) : v.canonical.tag = v.tag := by
  rw [tag, type_canonical, tag]

theorem sorted_tagObject (tag : String) (json : Json) :
    (tagObject tag json).sorted = tagObject tag json.sorted := by
  have hc : compare "value" "type" = .gt := by decide
  simp [tagObject, Json.sorted, Json.sortedMembers, Table.ofList, Table.insert, hc]

theorem readField_of_member {type : ValueType} {json : Json} {name : String} {n : UInt32}
    (h : json.member? name = some (Json.ofUInt32 n)) : readField type json name = .ok n := by
  rw [readField, h, Option.bind_some, Json.uint32?_ofUInt32, orMisfit]

theorem readRef_toJson (type : ValueType) (r : EntityRef) :
    readRef type r.toJson.sorted = .ok r.canonical := by
  cases he : r.entity? with
  | none =>
    rw [EntityRef.canonical_of_isEmpty (EntityRef.entity?_eq_none.mp he)]
    simp [EntityRef.toJson, he, Json.sorted, readRef]
  | some e =>
    obtain ⟨_, rfl⟩ := EntityRef.entity?_eq_some.mp he
    have hc : compare "id" "generation" = .gt := by decide
    rw [EntityRef.sorted_toJson he, EntityRef.canonical_of_entity? he, readRef,
      readField_of_member (n := r.entity.id), readField_of_member (n := r.generation.value)]
    · rfl
    · simp [Json.member?, Json.object?, Table.find?]
    · simp [Json.member?, Json.object?, Table.find?, hc]
    · simp

/-- A tagged record is read member by member. -/
theorem readTagged_record (members : List (String × Json)) :
    readTagged (tagObject recordTag (.object members)) =
      (readTaggedMembers members).map .record := by
  have hc : compare "value" "type" = .gt := by decide
  rw [tagObject, readTagged]
  simp only [Table.find?, Std.ReflOrd.compare_self, if_true, Option.bind_some, Json.string?]
  simp
  rfl

/-- Everything else that is tagged is read under the type that the tag names. -/
theorem readTagged_basic (type : BasicType) (json : Json) :
    readTagged (tagObject type.scriptName json) = readBasic type json := by
  have hc : compare "value" "type" = .gt := by decide
  rw [tagObject, readTagged]
  simp only [Table.find?, Std.ReflOrd.compare_self, if_true, Option.bind_some, Json.string?]
  cases type <;> simp [recordTag, BasicType.scriptName, BasicType.ofScriptName?,
    BasicType.declarable]

theorem keys_memberBodies (declared : Bool) (members : List (String × Value)) :
    Table.keys (memberBodies declared members) = Table.keys members := by
  induction members with
  | nil => rfl
  | cons entry rest ih => simpa [memberBodies, Table.keys] using ih

/-- The document of a table keeps the order of the table. -/
theorem sorted_memberBodies {members : List (String × Value)} (h : Table.Sorted members)
    (declared : Bool) :
    (Json.object (memberBodies declared members)).sorted =
      .object (Json.sortedMembers (memberBodies declared members)) :=
  Json.sorted_object (h.congr_keys (keys_memberBodies declared members))

/-- Reading undoes writing, under the type of the value and through its tag. -/
structure Reads (v : Value) : Prop where
  declared : ofJson v.type (body true v).sorted = .ok v.canonical
  tagged : readTagged (tagObject v.tag (body false v).sorted) = .ok v.canonical

theorem Reads.of_basic {v : Value} {t : BasicType} (ht : v.type = .basic t)
    (hb : body true v = body false v)
    (hr : readBasic t (body true v).sorted = .ok v.canonical) : Reads v := by
  refine ⟨?_, ?_⟩
  · rw [ht, ofJson, hr]
  · have htag : v.tag = t.scriptName := by simp [tag, ht]
    rw [htag, readTagged_basic, ← hb, hr]

theorem readItems_bodies {items : List Value} (h : ∀ item ∈ items, Reads item) :
    readItems (Json.sortedItems (itemBodies items)) = .ok (canonicalItems items) := by
  induction items with
  | nil =>
    rw [itemBodies, Json.sortedItems, readItems]
    rfl
  | cons item rest ih =>
    have hitem := (h item (List.mem_cons_self ..)).tagged
    have hrest := ih fun other ho => h other (List.mem_cons_of_mem _ ho)
    rw [itemBodies, Json.sortedItems, sorted_tagObject, readItems, hitem, hrest]
    rfl

theorem readTaggedMembers_bodies {members : List (String × Value)}
    (h : ∀ entry ∈ members, Reads entry.2) :
    readTaggedMembers (Json.sortedMembers (memberBodies false members)) =
      .ok (canonicalMembers members) := by
  induction members with
  | nil =>
    rw [memberBodies, Json.sortedMembers, readTaggedMembers]
    rfl
  | cons entry rest ih =>
    have hentry := (h entry (List.mem_cons_self ..)).tagged
    have hrest := ih fun other ho => h other (List.mem_cons_of_mem _ ho)
    simp only [memberBodies, Bool.false_eq_true, if_false, Json.sortedMembers, sorted_tagObject]
    rw [readTaggedMembers, hentry, hrest]
    rfl

/-- The declared members are read from any object in which they are found. -/
theorem readDeclared_bodies {members : List (String × Value)}
    (h : ∀ entry ∈ members, Reads entry.2) {whole : List (String × ValueType)}
    {document : List (String × Json)}
    (hf : ∀ entry ∈ members,
      Table.find? document entry.1 = some (body true entry.2).sorted) :
    readDeclared (memberTypes members) whole document = .ok (canonicalMembers members) := by
  induction members with
  | nil => rfl
  | cons entry rest ih =>
    have hentry := (h entry (List.mem_cons_self ..)).declared
    have hfound := hf entry (List.mem_cons_self ..)
    have hrest := ih (fun other ho => h other (List.mem_cons_of_mem _ ho))
      fun other ho => hf other (List.mem_cons_of_mem _ ho)
    simp only [memberTypes, readDeclared, hfound, orMisfit, Result.ok_bind, hentry, hrest]
    rfl

theorem mem_sortedMembers_memberBodies {members : List (String × Value)} {entry : String × Value}
    (h : entry ∈ members) :
    (entry.1, (body true entry.2).sorted) ∈ Json.sortedMembers (memberBodies true members) := by
  induction members with
  | nil => cases h
  | cons first rest ih =>
    simp only [memberBodies, if_true, Json.sortedMembers]
    rcases List.mem_cons.mp h with rfl | hm
    · exact List.mem_cons_self ..
    · exact List.mem_cons_of_mem _ (ih hm)

theorem keys_memberTypes (members : List (String × Value)) :
    Table.keys (memberTypes members) = Table.keys members := by
  induction members with
  | nil => rfl
  | cons entry rest ih => simpa [memberTypes, Table.keys] using ih

/-- An object with just the declared names has no extra member. -/
theorem extraMember?_eq_none {types : RecordType} {members : List (String × Json)}
    (h : Table.keys members = Table.keys types) : extraMember? types members = none := by
  refine List.find?_eq_none.mpr fun name hn => ?_
  rw [h] at hn
  simp [Table.contains, Table.find?_isSome.mpr hn]

theorem reads_record {members : List (String × Value)} (hs : Table.Sorted members)
    (h : ∀ entry ∈ members, Reads entry.2) : Reads (.record members) := by
  refine ⟨?_, ?_⟩
  · have hkeys : Table.keys (Json.sortedMembers (memberBodies true members)) =
        Table.keys members := by
      rw [Json.keys_sortedMembers, keys_memberBodies]
    have hfound : ∀ entry ∈ members,
        Table.find? (Json.sortedMembers (memberBodies true members)) entry.1 =
          some (body true entry.2).sorted := fun entry he =>
      Table.find?_of_mem (hkeys ▸ hs.keys_nodup) (mem_sortedMembers_memberBodies he)
    have hextra : extraMember? (memberTypes members)
        (Json.sortedMembers (memberBodies true members)) = none :=
      extraMember?_eq_none (hkeys.trans (keys_memberTypes members).symm)
    rw [body, sorted_memberBodies hs, type, ofJson]
    simp only [readDeclared_bodies h hfound, Result.ok_bind, hextra]
    rfl
  · rw [body, sorted_memberBodies hs]
    refine (readTagged_record _).trans ?_
    rw [readTaggedMembers_bodies h]
    rfl

theorem reads_list {items : List Value} (h : ∀ item ∈ items, Reads item) :
    Reads (.list items) := by
  refine .of_basic (t := .list) rfl rfl ?_
  rw [body, Json.sorted, readBasic, readItems_bodies h]
  rfl

theorem reads_scriptEntity (ref : EntityRef) {components : List (String × Value)}
    (hs : Table.Sorted components) (h : ∀ entry ∈ components, Reads entry.2) :
    Reads (.scriptEntity ref components) := by
  have hc : compare "components" "entity" = .lt := by decide
  have hc' : compare "entity" "components" = .gt := by decide
  have hbody : (body true (.scriptEntity ref components)).sorted = .object
      [("components", .object (Json.sortedMembers (memberBodies false components))),
        ("entity", ref.toJson.sorted)] := by
    rw [body, ← sorted_memberBodies hs]
    simp [Json.sorted, Json.sortedMembers, Table.ofList, Table.insert, hc]
  refine .of_basic (t := .scriptEntity) rfl rfl ?_
  rw [hbody, readBasic]
  simp [Table.find?, hc', readRef_toJson, readTaggedMembers_bodies h, canonical]

mutual

theorem reads : (v : Value) → v.Ordered → (∀ x ∈ v.floats, x.isFinite = true) → Reads v
  | .number x, _, hf => by
    refine .of_basic (t := .number) rfl rfl ?_
    simp [body, readBasic, orMisfit, hf x (by simp [floats]), canonical]
  | .integer n, _, _ => by
    refine .of_basic (t := .integer) rfl rfl ?_
    have hsorted : (Json.ofInt64 n).sorted = Json.ofInt64 n := rfl
    simp [body, hsorted, readBasic, orMisfit, canonical]
  | .string s, _, _ => by
    refine .of_basic (t := .string) rfl rfl ?_
    simp [body, Json.sorted, readBasic, Json.string?, orMisfit, canonical]
  | .boolean b, _, _ => by
    refine .of_basic (t := .boolean) rfl rfl ?_
    simp [body, Json.sorted, readBasic, Json.boolean?, orMisfit, canonical]
  | .vec3 v, _, hf => by
    refine .of_basic (t := .vec3) rfl rfl ?_
    have hx := hf v.x (by simp [floats])
    have hy := hf v.y (by simp [floats])
    have hz := hf v.z (by simp [floats])
    simp [body, Json.sorted, Json.sortedItems, readBasic, floats?, Json.array?, hx, hy, hz,
      canonical]
  | .vec2 v, _, hf => by
    refine .of_basic (t := .vec2) rfl rfl ?_
    have hx := hf v.x (by simp [floats])
    have hy := hf v.y (by simp [floats])
    simp [body, Json.sorted, Json.sortedItems, readBasic, floats?, Json.array?, hx, hy, canonical]
  | .color c, _, hf => by
    refine .of_basic (t := .color) rfl rfl ?_
    have hr := hf c.r (by simp [floats])
    have hg := hf c.g (by simp [floats])
    have hb := hf c.b (by simp [floats])
    have ha := hf c.a (by simp [floats])
    simp [body, Json.sorted, Json.sortedItems, readBasic, floats?, Json.array?, hr, hg, hb, ha,
      canonical]
  | .asset name, _, _ => by
    refine .of_basic (t := .asset) rfl rfl ?_
    simp [body, Json.sorted, readBasic, Json.string?, orMisfit, canonical]
  | .void, _, _ => by
    refine .of_basic (t := .void) rfl rfl ?_
    simp [body, Json.sorted, readBasic, canonical]
  | .entity ref, _, _ => by
    refine .of_basic (t := .entity) rfl rfl ?_
    simp [body, readBasic, readRef_toJson, canonical]
  | .record members, ho, hf => reads_record ho.1 (reads_members members ho.2 hf)
  | .list items, ho, hf => reads_list (reads_items items ho hf)
  | .scriptEntity ref components, ho, hf =>
    reads_scriptEntity ref ho.1 (reads_members components ho.2 hf)

theorem reads_members : (members : List (String × Value)) → MembersOrdered members →
    (∀ x ∈ memberFloats members, x.isFinite = true) → ∀ entry ∈ members, Reads entry.2
  | [], _, _ => fun _ he => nomatch he
  | (_, value) :: rest, ho, hf => by
    have hvalue := reads value ho.1 fun x hx => hf x (List.mem_append_left _ hx)
    have hrest := reads_members rest ho.2 fun x hx => hf x (List.mem_append_right _ hx)
    exact List.forall_mem_cons.mpr ⟨hvalue, hrest⟩

theorem reads_items : (items : List Value) → ItemsOrdered items →
    (∀ x ∈ itemFloats items, x.isFinite = true) → ∀ item ∈ items, Reads item
  | [], _, _ => fun _ hi => nomatch hi
  | value :: rest, ho, hf => by
    have hvalue := reads value ho.1 fun x hx => hf x (List.mem_append_left _ hx)
    have hrest := reads_items rest ho.2 fun x hx => hf x (List.mem_append_right _ hx)
    exact List.forall_mem_cons.mpr ⟨hvalue, hrest⟩

end

/-- Reading gives the value back up to the form of empty references. -/
theorem ofJson_toJson_canonical {v : Value} (ho : v.Ordered)
    (hf : ∀ x ∈ v.floats, x.isFinite = true) : ofJson v.type v.toJson = .ok v.canonical :=
  (reads v ho hf).declared

/-- A value that is written and read back is the same value: every form, at any depth, in records,
lists and script entities. -/
theorem ofJson_toJson {v : Value} (ho : v.Ordered) (hf : ∀ x ∈ v.floats, x.isFinite = true)
    (hr : ∀ r ∈ v.refs, r.entity.id = EntityRef.emptyId → r.generation = Generation.first) :
    ofJson v.type v.toJson = .ok v := by
  have hc : v.canonical = v :=
    canonical_eq_self v fun r hm => EntityRef.canonical_eq_self (hr r hm)
  rw [ofJson_toJson_canonical ho hf, hc]

/-- A value of every form, most of them side by side in a list. -/
def assorted : Value := .record [
  ("all", .list [.number 1.5, .integer 1, .string "oui", .boolean true, .vec3 ⟨1, 0, -1⟩,
    .vec2 ⟨0.5, 2⟩, .asset "oui", .list [.void, .list []], .void, .entity .empty,
    .entity ⟨⟨7⟩, ⟨2⟩⟩, .record [("at", .vec2 ⟨3, 4⟩), ("in", .record [])],
    .scriptEntity ⟨⟨1⟩, ⟨0⟩⟩ [("Health", .integer (-3)), ("Tag", .record [])]]),
  ("tint", .color .white)]

theorem ofJson_toJson_assorted :
    assorted.Ordered ∧ (∀ x ∈ assorted.floats, x.isFinite = true) ∧
      (∀ r ∈ assorted.refs, r.entity.id = EntityRef.emptyId → r.generation = Generation.first) ∧
      ofJson assorted.type assorted.toJson = .ok assorted := by
  have ho : assorted.Ordered := by decide
  have hf : ∀ x ∈ assorted.floats, x.isFinite = true := by decide
  have hr : ∀ r ∈ assorted.refs,
      r.entity.id = EntityRef.emptyId → r.generation = Generation.first := by decide
  exact ⟨ho, hf, hr, ofJson_toJson ho hf hr⟩

mutual

theorem body_canonical : (declared : Bool) → (v : Value) →
    body declared v.canonical = body declared v
  | _, .entity ref => by simp only [canonical, body, EntityRef.toJson_canonical]
  | declared, .record members => by
    simp only [canonical, body, memberBodies_canonical declared members]
  | _, .list items => by simp only [canonical, body, itemBodies_canonical items]
  | _, .scriptEntity ref components => by
    simp only [canonical, body, EntityRef.toJson_canonical, memberBodies_canonical false components]
  | _, .number _ | _, .integer _ | _, .string _ | _, .boolean _ | _, .vec3 _ | _, .vec2 _
  | _, .asset _ | _, .void | _, .color _ => rfl

theorem memberBodies_canonical : (declared : Bool) → (members : List (String × Value)) →
    memberBodies declared (canonicalMembers members) = memberBodies declared members
  | _, [] => rfl
  | declared, (_, value) :: rest => by
    simp only [canonicalMembers, memberBodies, tag_canonical, body_canonical true value,
      body_canonical false value, memberBodies_canonical declared rest]

theorem itemBodies_canonical : (items : List Value) →
    itemBodies (canonicalItems items) = itemBodies items
  | [] => rfl
  | value :: rest => by
    simp only [canonicalItems, itemBodies, tag_canonical, body_canonical false value,
      itemBodies_canonical rest]

end

/-- The forms of the empty reference have the same document. -/
theorem toJson_canonical (v : Value) : v.canonical.toJson = v.toJson := by
  rw [toJson, stream, body_canonical, toJson, stream]

end Value
end SceneScript
