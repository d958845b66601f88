import SceneScript.Proofs.Action
import SceneScript.Proofs.Table
import SceneScript.Proofs.Value.Contents
import SceneScript.Value.Member

/-! # Paths in values

A path names a place inside a value. A write that succeeds changes this place and nothing else: at
the place and behind it the written value is read, paths that lead elsewhere give what they gave
before, and the type stays. It succeeds where a value of the same type is read, unless the place is
inside a script entity. A write that fails leaves the value alone.
-/
namespace SceneScript

/-- Neither path leads to the other or through it. -/
def Diverges (path other : List String) : Prop := ¬path <+: other ∧ ¬other <+: path

theorem diverges_cons {name other : String} {path path' : List String} :
    Diverges (name :: path) (other :: path') ↔ other ≠ name ∨ Diverges path path' := by
  simp only [Diverges, List.cons_prefix_cons]
  by_cases h : other = name
  · simp [h]
  · simp [h, Ne.symm h]

namespace Value

/-! ### One member -/

theorem memberTypes_eq (members : List (String × Value)) :
    memberTypes members = Table.mapValues type members := by
  induction members with
  | nil => rfl
  | cons entry rest ih =>
    rw [memberTypes, ih]
    rfl

theorem membersOrdered_iff {members : List (String × Value)} :
    MembersOrdered members ↔ ∀ entry ∈ members, entry.2.Ordered := by
  induction members with
  | nil => simp [MembersOrdered]
  | cons entry rest ih => simp [MembersOrdered, ih]

/-- A write replaces a member of a record by a value of the same type, or an axis by a number. -/
theorem setMember_cases {v v' new : Value} {name : String} (h : v.setMember name new = .ok v') :
    (∃ members old, v = .record members ∧ Table.find? members name = some old ∧
      old.type = new.type ∧ v' = .record (Table.insert members name new)) ∨
    ∃ k, new = .number k ∧ v.withAxis? name k = some v' := by
  unfold setMember at h
  split at h
  · rename_i members
    split at h
    · cases h
    · rename_i old hold
      split at h
      · rename_i ht
        cases h
        exact .inl ⟨members, old, rfl, hold, ht, rfl⟩
      · cases h
  · split at h
    · rename_i k
      split at h
      · rename_i changed hk
        cases h
        exact .inr ⟨k, rfl, hk⟩
      · cases h
    · cases h

theorem axis?_withAxis?_ne {v v' : Value} {name other : String} {k : Float}
    (h : v.withAxis? name k = some v') (hne : other ≠ name) : v'.axis? other = v.axis? other := by
  unfold withAxis? at h
  split at h
  case h_10 => cases h
  all_goals
    cases h
    unfold axis?
    split <;> simp_all [eq_comm]

theorem exists_withAxis? {v : Value} {name : String} {x : Float} (h : v.axis? name = some x)
    (k : Float) : ∃ v', v.withAxis? name k = some v' := by
  unfold axis? at h
  split at h
  case h_10 => cases h
  all_goals exact ⟨_, rfl⟩

theorem setMember_axis {v v' : Value} {name : String} {k : Float}
    (h : v.withAxis? name k = some v') : v.setMember name (.number k) = .ok v' := by
  unfold setMember
  split
  · cases h
  · simp only [h]

/-- What writing a member does to a value. -/
structure Replaced (v : Value) (name : String) (new v' : Value) : Prop where
  old : ∃ x, v.member name = .ok x ∧ x.type = new.type
  type : v'.type = v.type
  same : v'.member name = .ok new
  other : ∀ other, other ≠ name → v'.member other = v.member other
  back : ∀ x, v.member name = .ok x → v.setMember name x = .ok v
  again : ∀ x, v'.setMember name x = v.setMember name x

theorem replaced_axis {v v' : Value} {name : String} {k : Float}
    (h : v.withAxis? name k = some v') : Replaced v name (.number k) v' := by
  have hother : ∀ other, other ≠ name → v'.axis? other = v.axis? other :=
    fun _ hne => axis?_withAxis?_ne h hne
  unfold withAxis? at h
  split at h
  case h_10 => cases h
  all_goals
    cases h
    refine ⟨⟨_, rfl, rfl⟩, rfl, rfl, fun other hne => ?_, fun x hx => ?_, fun x => ?_⟩
    · simp only [member, member?, hother other hne, type]
    · cases hx
      rfl
    · cases x <;> rfl

theorem replaced_record {members : Record} (hs : Table.Sorted members) {name : String}
    {old new : Value} (hold : Table.find? members name = some old) (ht : old.type = new.type) :
    Replaced (.record members) name new (.record (Table.insert members name new)) := by
  have htypes : memberTypes (Table.insert members name new) = memberTypes members := by
    rw [memberTypes_eq, memberTypes_eq, ← Table.insert_mapValues]
    refine Table.Sorted.insert_found (hs.congr_keys (Table.keys_mapValues type members)) ?_
    rw [Table.find?_mapValues, hold, Option.map_some, ht]
  have htype : (record (Table.insert members name new)).type = (record members).type := by
    rw [type, type, htypes]
  refine ⟨⟨old, ?_, ht⟩, htype, ?_, fun other hne => ?_, fun x hx => ?_, fun x => ?_⟩
  · simp only [member, member?, hold]
  · simp only [member, member?, Table.find?_insert_self]
  · simp only [member, member?, Table.find?_insert_ne members new hne, htype]
  · simp only [member, member?, hold, Except.ok.injEq] at hx
    subst hx
    simp only [setMember, hold, if_true, hs.insert_found hold]
  · simp only [setMember, Table.find?_insert_self, hold, ht, hs.insert_insert]

theorem replaced {v v' new : Value} (hv : v.Ordered) {name : String}
    (h : v.setMember name new = .ok v') : Replaced v name new v' := by
  rcases setMember_cases h with ⟨members, old, rfl, hold, ht, rfl⟩ | ⟨k, rfl, hk⟩
  · exact replaced_record hv.1 hold ht
  · exact replaced_axis hk

theorem setMember_scriptEntity (ref : EntityRef) (components : Record) (name : String)
    (new v' : Value) : (scriptEntity ref components).setMember name new ≠ .ok v' := by
  intro h
  rcases setMember_cases h with ⟨_, _, hv, _⟩ | ⟨k, _, hk⟩
  · cases hv
  · cases hk

theorem eq_number_of_type {v : Value} (h : v.type = .number) : ∃ k, v = .number k := by
  cases v <;> first | exact ⟨_, rfl⟩ | simp [type, ValueType.number] at h

/-- Where a member of the type is read it can be written, except in a script entity. -/
theorem exists_setMember {v x new : Value} {name : String} (hx : v.member name = .ok x)
    (ht : x.type = new.type) (hv : ∀ ref components, v ≠ .scriptEntity ref components) :
    ∃ v', v.setMember name new = .ok v' := by
  unfold member at hx
  split at hx
  · rename_i found hfound
    cases hx
    unfold member? at hfound
    split at hfound
    · simp only [setMember, hfound, ht, if_true]
      exact ⟨_, rfl⟩
    · rename_i ref components
      exact absurd rfl (hv ref components)
    · obtain ⟨y, hy, rfl⟩ := Option.map_eq_some_iff.mp hfound
      obtain ⟨k, rfl⟩ := eq_number_of_type ht.symm
      obtain ⟨v', hk⟩ := exists_withAxis? hy k
      exact ⟨v', setMember_axis hk⟩
  · cases hx

theorem Ordered.member {v x : Value} (hv : v.Ordered) {name : String}
    (h : v.member name = .ok x) : x.Ordered := by
  unfold Value.member at h
  split at h
  · rename_i found hf
    cases h
    unfold member? at hf
    split at hf
    · exact membersOrdered_iff.mp hv.2 _ (Table.mem_of_find? hf)
    · exact membersOrdered_iff.mp hv.2 _ (Table.mem_of_find? hf)
    · obtain ⟨k, _, rfl⟩ := Option.map_eq_some_iff.mp hf
      trivial
  · cases h

theorem Ordered.setMember {v v' new : Value} (hv : v.Ordered) (hn : new.Ordered) {name : String}
    (h : v.setMember name new = .ok v') : v'.Ordered := by
  rcases setMember_cases h with ⟨members, old, rfl, -, -, rfl⟩ | ⟨k, rfl, hk⟩
  · have hs := hv.1.insert name new
    refine ⟨hs, membersOrdered_iff.mpr fun entry he => ?_⟩
    have hf := hs.mem_iff.mp he
    by_cases hne : entry.1 = name
    · rw [hne, Table.find?_insert_self] at hf
      cases hf
      exact hn
    · rw [Table.find?_insert_ne _ _ hne] at hf
      exact membersOrdered_iff.mp hv.2 _ (Table.mem_of_find? hf)
  · unfold withAxis? at hk
    split at hk <;> cases hk <;> trivial

/-! ### Paths -/

theorem setPath_of_member {v child : Value} {name : String} (h : v.member name = .ok child)
    (rest : List String) (w : Value) :
    v.setPath (name :: rest) w = child.setPath rest w >>= v.setMember name := by
  cases rest with
  | nil => rfl
  | cons next rest => simp only [setPath, h, Result.ok_bind]

/-- A write goes through the member that it begins with. -/
theorem setPath_cons {v v' w : Value} (hv : v.Ordered) {name : String} {rest : List String}
    (h : v.setPath (name :: rest) w = .ok v') :
    ∃ child child', v.member name = .ok child ∧ child.setPath rest w = .ok child' ∧
      v.setMember name child' = .ok v' := by
  have hmember : ∃ child, v.member name = .ok child := by
    cases rest with
    | nil =>
      obtain ⟨x, hx, _⟩ := (replaced hv h).old
      exact ⟨x, hx⟩
    | cons next rest =>
      obtain ⟨child, hchild, _⟩ := Result.bind_eq_ok.mp h
      exact ⟨child, hchild⟩
  obtain ⟨child, hchild⟩ := hmember
  rw [setPath_of_member hchild, Result.bind_eq_ok] at h
  obtain ⟨child', hw, hset⟩ := h
  exact ⟨child, child', hchild, hw, hset⟩

/-- What a successful write to a path does to a value. -/
structure Written (v : Value) (path : List String) (w v' : Value) : Prop where
  /-- At the place and behind it there is what was written. -/
  behind : ∀ rest, v'.memberPath (path ++ rest) = w.memberPath rest
  /-- What is read in front of the place is changed by the same write. -/
  front : ∀ front back, path = front ++ back → ∃ x x', v.memberPath front = .ok x ∧
    x.setPath back w = .ok x' ∧ v'.memberPath front = .ok x'
  /-- Paths that lead elsewhere give what they gave. -/
  apart : ∀ other, Diverges path other → v'.memberPath other = v.memberPath other
  /-- Writing what was there changes nothing. -/
  back : ∃ x, v.memberPath path = .ok x ∧ v.setPath path x = .ok v
  /-- Another write to the place comes to the same as that write alone. -/
  again : ∀ w', v'.setPath path w' = v.setPath path w'

theorem written {v v' w : Value} {path : List String} (hv : v.Ordered)
    (h : v.setPath path w = .ok v') : Written v path w v' := by
  induction path generalizing v v' with
  | nil =>
    cases h
    refine ⟨fun _ => rfl, fun front back hp => ?_, fun other hd => ?_, ⟨v, rfl, rfl⟩, fun _ => rfl⟩
    · obtain ⟨rfl, rfl⟩ := List.append_eq_nil_iff.mp hp.symm
      exact ⟨v, w, rfl, rfl, rfl⟩
    · exact absurd List.nil_prefix hd.1
  | cons name rest ih =>
    -- the write replaces the first member by what the rest of the path makes of it
    obtain ⟨child, child', hchild, hw, hset⟩ := setPath_cons hv h
    have hm := replaced hv hset
    have hp := ih (hv.member hchild) hw
    refine ⟨fun more => ?_, fun front back he => ?_, fun other hd => ?_, ?_, fun w' => ?_⟩
    · simp only [List.cons_append, memberPath, hm.same, Result.ok_bind, hp.behind]
    · cases front with
      | nil =>
        cases he
        exact ⟨v, v', rfl, h, rfl⟩
      | cons first front =>
        obtain ⟨rfl, rfl⟩ := List.cons.inj he
        obtain ⟨x, x', hx, hset', hx'⟩ := hp.front front back rfl
        refine ⟨x, x', ?_, hset', ?_⟩
        · simp only [memberPath, hchild, Result.ok_bind, hx]
        · simp only [memberPath, hm.same, Result.ok_bind, hx']
    · cases other with
      | nil => exact absurd List.nil_prefix hd.2
      | cons first other =>
        by_cases hn : first = name
        · subst hn
          have hrest := (diverges_cons.mp hd).resolve_left fun hne => hne rfl
          simp only [memberPath, hm.same, hchild, Result.ok_bind, hp.apart other hrest]
        · simp only [memberPath, hm.other first hn]
    · obtain ⟨x, hx, hback⟩ := hp.back
      refine ⟨x, ?_, ?_⟩
      · simp only [memberPath, hchild, Result.ok_bind, hx]
      · rw [setPath_of_member hchild, hback, Result.ok_bind, hm.back child hchild]
    · rw [setPath_of_member hchild, setPath_of_member hm.same, hp.again w']
      cases child.setPath rest w' with
      | error err => rfl
      | ok x => exact hm.again x

theorem type_setPath {v v' w : Value} {name : String} {rest : List String} (hv : v.Ordered)
    (h : v.setPath (name :: rest) w = .ok v') : v'.type = v.type := by
  obtain ⟨_, _, _, _, hset⟩ := setPath_cons hv h
  exact (replaced hv hset).type

theorem Ordered.setPath {v v' w : Value} (hv : v.Ordered) (hw : w.Ordered) {path : List String}
    (h : v.setPath path w = .ok v') : v'.Ordered := by
  induction path generalizing v v' with
  | nil =>
    cases h
    exact hw
  | cons name rest ih =>
    obtain ⟨child, child', hchild, hset, hm⟩ := setPath_cons hv h
    exact hv.setMember (ih (hv.member hchild) hset) hm

/-! ### When a write succeeds -/

/-- No place on the way is inside a script entity. -/
def Open (v : Value) (path : List String) : Prop :=
  ∀ front name back ref components, path = front ++ name :: back →
    v.memberPath front ≠ .ok (.scriptEntity ref components)

theorem open_cons {v child : Value} {name : String} (h : v.member name = .ok child)
    (rest : List String) :
    v.Open (name :: rest) ↔
      (∀ ref components, v ≠ .scriptEntity ref components) ∧ child.Open rest := by
  constructor
  · intro ho
    refine ⟨fun ref components hv => ?_, fun front next back ref components hp hf => ?_⟩
    · exact ho [] name rest ref components rfl (congrArg Except.ok hv)
    · refine ho (name :: front) next back ref components (by rw [hp, List.cons_append]) ?_
      simp only [memberPath, h, Result.ok_bind, hf]
  · rintro ⟨hv, ho⟩ front next back ref components hp hf
    cases front with
    | nil => exact hv ref components (Except.ok.inj hf)
    | cons first front =>
      obtain ⟨rfl, rfl⟩ := List.cons.inj hp
      simp only [memberPath, h, Result.ok_bind] at hf
      exact ho front next back ref components rfl hf

theorem open_nil (v : Value) : v.Open [] := by
  intro front name back ref components hp
  simp at hp

/-- A write succeeds exactly where a value of the same type is read and nothing on the way is inside
a script entity. -/
theorem exists_setPath {v w : Value} (hv : v.Ordered) {path : List String} (hp : path ≠ []) :
    (∃ v', v.setPath path w = .ok v') ↔
      ∃ x, v.memberPath path = .ok x ∧ x.type = w.type ∧ v.Open path := by
  induction path generalizing v with
  | nil => exact absurd rfl hp
  | cons name rest ih =>
    constructor
    · rintro ⟨v', h⟩
      obtain ⟨child, child', hchild, hw, hset⟩ := setPath_cons hv h
      have hself : ∀ ref components, v ≠ .scriptEntity ref components := by
        rintro ref components rfl
        exact setMember_scriptEntity _ _ _ _ _ hset
      simp only [memberPath, hchild, Result.ok_bind, open_cons hchild]
      cases rest with
      | nil =>
        cases hw
        obtain ⟨x, hx, ht⟩ := (replaced hv hset).old
        cases hchild.symm.trans hx
        exact ⟨child, rfl, ht, hself, open_nil child⟩
      | cons next more =>
        obtain ⟨x, hx, ht, ho⟩ := (ih (hv.member hchild) (List.cons_ne_nil _ _)).mp ⟨child', hw⟩
        exact ⟨x, hx, ht, hself, ho⟩
    · rintro ⟨x, hx, ht, ho⟩
      obtain ⟨child, hchild, hx⟩ := Result.bind_eq_ok.mp hx
      obtain ⟨hself, ho⟩ := (open_cons hchild rest).mp ho
      have hinner : ∃ child', child.setPath rest w = .ok child' ∧ child.type = child'.type := by
        cases rest with
        | nil =>
          cases hx
          exact ⟨w, rfl, ht⟩
        | cons next more =>
          have hc := hv.member hchild
          obtain ⟨child', hw⟩ := (ih hc (List.cons_ne_nil _ _)).mpr ⟨x, hx, ht, ho⟩
          exact ⟨child', hw, (type_setPath hc hw).symm⟩
      obtain ⟨child', hw, htype⟩ := hinner
      obtain ⟨v', hset⟩ := exists_setMember hchild htype hself
      refine ⟨v', ?_⟩
      rw [setPath_of_member hchild, hw, Result.ok_bind, hset]

/-! ### Writing in place -/

/-- Write in place, where the value is what the action works on: the member is copied, the copy is
written to, and the copy is put back. -/
def assign : List String → Value → Action Error Value Unit
  | [], new => Action.set new
  | [name], new => do
    let v ← Action.get
    Action.set (← Action.ofExcept (v.setMember name new))
  | name :: next :: rest, new => do
    let v ← Action.get
    let child ← Action.ofExcept (v.member name)
    let copy := assign (next :: rest) new child
    Action.ofExcept copy.result
    Action.set (← Action.ofExcept (v.setMember name copy.state))

/-- Writing in place makes the write, or it fails and leaves the value as it was. -/
theorem assign_eq (path : List String) (w v : Value) :
    assign path w v =
      match v.setPath path w with
      | .ok v' => ⟨.ok (), v', []⟩
      | .error err => ⟨.error err, v, []⟩ := by
  induction path generalizing v with
  | nil => rfl
  | cons name rest ih =>
    cases rest with
    | nil =>
      simp only [assign, setPath, Action.get_bind]
      cases v.setMember name w with
      | ok v' => simp only [Action.ofExcept_ok_bind]; rfl
      | error err => simp only [Action.ofExcept_error_bind]
    | cons next more =>
      simp only [assign, setPath, Action.get_bind]
      cases v.member name with
      | error err => simp only [Action.ofExcept_error_bind, Result.error_bind]
      | ok child =>
        simp only [Action.ofExcept_ok_bind, Result.ok_bind, ih child]
        cases child.setPath (next :: more) w with
        | error err => simp only [Action.ofExcept_error_bind, Result.error_bind]
        | ok child' =>
          simp only [Action.ofExcept_ok_bind, Result.ok_bind]
          cases v.setMember name child' with
          | ok v' => simp only [Action.ofExcept_ok_bind]; rfl
          | error err => simp only [Action.ofExcept_error_bind]

/-- A write to a path succeeds where it is due, changes what is at the place and nothing else, and
keeps the type; where it fails the value stays. -/
theorem setPath_lens {v : Value} (hv : v.Ordered) {path : List String} (hp : path ≠ [])
    (w : Value) :
    ((∃ v', v.setPath path w = .ok v') ↔
      ∃ x, v.memberPath path = .ok x ∧ x.type = w.type ∧ v.Open path) ∧
    match v.setPath path w with
    | .error err => assign path w v = ⟨.error err, v, []⟩
    | .ok v' => assign path w v = ⟨.ok (), v', []⟩ ∧ v'.type = v.type ∧ Written v path w v' := by
  refine ⟨exists_setPath hv hp, ?_⟩
  obtain ⟨name, rest, rfl⟩ := List.exists_cons_of_ne_nil hp
  rw [assign_eq]
  cases h : v.setPath (name :: rest) w with
  | error err => rfl
  | ok v' => exact ⟨rfl, type_setPath hv h, written hv h⟩

/-- A body with a mass and a velocity, beside the name of its owner. -/
def nested : Value := .record [
  ("body", .record [("mass", .number 1), ("velocity", .vec3 ⟨1, 2, 3⟩)]),
  ("owner", .scriptEntity .empty [("Tag", .string "a")])]

theorem nested_written :
    nested.Ordered ∧ ["body", "velocity", "y"] ≠ [] ∧
      (∃ v', nested.setPath ["body", "velocity", "y"] (.number 5) = .ok v' ∧
        v'.memberPath ["body", "velocity"] = .ok (.vec3 ⟨1, 5, 3⟩) ∧
        Written nested ["body", "velocity", "y"] (.number 5) v') ∧
      ¬∃ v', nested.setPath ["owner", "Tag"] (.string "b") = .ok v' := by
  have hv : nested.Ordered := by decide
  have hp : ["body", "velocity", "y"] ≠ [] := by decide
  refine ⟨hv, hp, ⟨_, rfl, rfl, (setPath_lens hv hp (.number 5)).2.2.2⟩, ?_⟩
  rintro ⟨v', h⟩
  cases h

end Value
end SceneScript
