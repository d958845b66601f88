import Mathlib.Data.List.Forall2
import SceneScript.Proofs.Number.Zero
import SceneScript.Proofs.Result
import SceneScript.Proofs.Value.Path
import SceneScript.Value.Apply

/-! # Operators by type

Whether an operator is defined and what the type of its result is follows from the types of its
operands. The values decide one thing only: whether a divisor is zero.
-/
namespace SceneScript

namespace Value

theorem eq_integer_of_type {v : Value} (h : v.type = .integer) : ∃ n, v = .integer n := by
  cases v <;> simp [type] at h ⊢

theorem eq_string_of_type {v : Value} (h : v.type = .string) : ∃ s, v = .string s := by
  cases v <;> simp [type] at h ⊢

theorem eq_boolean_of_type {v : Value} (h : v.type = .boolean) : ∃ b, v = .boolean b := by
  cases v <;> simp [type] at h ⊢

theorem eq_vec3_of_type {v : Value} (h : v.type = .vec3) : ∃ w, v = .vec3 w := by
  cases v <;> simp [type] at h ⊢

theorem eq_vec2_of_type {v : Value} (h : v.type = .vec2) : ∃ w, v = .vec2 w := by
  cases v <;> simp [type] at h ⊢

theorem eq_list_of_type {v : Value} (h : v.type = .list) : ∃ items, v = .list items := by
  cases v <;> simp [type] at h ⊢

/-- An integer zero, or a number zero of either sign. -/
def IsZero : Value → Prop
  | .integer n => n = 0
  | .number x => x = 0.0 ∨ x = -0.0
  | _ => False

end Value

namespace Operator

/-! ### The types alone -/

/-- Types with an order. -/
def ordered : List ValueType := [.number, .integer, .string]

/-- Types with all four operations and a remainder. -/
def numeric : List ValueType := [.number, .integer]

/-- Types that are added and subtracted by component, and scaled by a number. -/
def vectors : List ValueType := [.vec3, .vec2]

/-- The type of the result of an operator, from the types of its operands. -/
def resultType? (op : Operator) (left right : ValueType) : Option ValueType :=
  match op with
  | eq | ne => if left = right then some .boolean else none
  | and | or => if left = .boolean ∧ right = .boolean then some .boolean else none
  | lt | le | gt | ge => if left = right ∧ left ∈ ordered then some .boolean else none
  | add => if left = right ∧ (left ∈ ordered ∨ left ∈ vectors) then some left else none
  | sub => if left = right ∧ (left ∈ numeric ∨ left ∈ vectors) then some left else none
  | mul =>
    if left = right ∧ left ∈ numeric ∨ left ∈ vectors ∧ right = .number then some left
    else if left = .number ∧ right ∈ vectors then some right
    else none
  | div =>
    if left = right ∧ left ∈ numeric ∨ left ∈ vectors ∧ right = .number then some left else none
  | mod => if left = right ∧ left ∈ numeric then some left else none

/-- Operators and operand types that divide by the right operand. -/
def Divides (op : Operator) (left right : ValueType) : Prop :=
  (op = div ∨ op = mod) ∧ (left = .integer ∧ right = .integer ∨ left = .number ∧ right = .number) ∨
    op = div ∧ (left = .vec3 ∨ left = .vec2) ∧ right = .number

theorem resultType?_of_divides {op : Operator} {left right : ValueType}
    (h : op.Divides left right) : op.resultType? left right ≠ none := by
  rcases h with ⟨rfl | rfl, ⟨rfl, rfl⟩ | ⟨rfl, rfl⟩⟩ | ⟨rfl, rfl | rfl, rfl⟩ <;>
    simp [resultType?, numeric, vectors]

/-- The right operand is a divisor and zero. -/
def DividesByZero (op : Operator) (left right : Value) : Prop :=
  op.Divides left.type right.type ∧ right.IsZero

/-! ### One application -/

/-- What an application may give, with the condition for it. -/
inductive Outcome (op : Operator) (left right : Value) : Except Error Value → Prop
  | value (v : Value) (ht : op.resultType? left.type right.type = some v.type)
      (hz : ¬op.DividesByZero left right) : Outcome op left right (.ok v)
  | byZero (type : ValueType) (ht : op.resultType? left.type right.type = some type)
      (hz : op.DividesByZero left right) : Outcome op left right (.error (.divisionByZero op))
  | invalid (ht : op.resultType? left.type right.type = none) :
      Outcome op left right (.error (op.invalid left right))

theorem divisor_cases (op : Operator) (x : Float) :
    op.divisor x = .error (.divisionByZero op) ∧ (Value.number x).IsZero ∨
      op.divisor x = .ok x ∧ ¬(Value.number x).IsZero := by
  unfold divisor
  split
  · exact .inl ⟨rfl, Number.beq_zero_iff.mp ‹_›⟩
  · exact .inr ⟨rfl, fun hz => ‹¬_› (Number.beq_zero_iff.mpr hz)⟩

theorem outcome_numbers {op : Operator} (x y : Float) (he : op ≠ eq) (hn : op ≠ ne) :
    Outcome op (.number x) (.number y) (op.onNumbers x y) := by
  cases op with
  | eq => exact absurd rfl he
  | ne => exact absurd rfl hn
  | add | sub | mul | lt | le | gt | ge => exact .value _ rfl (by simp [DividesByZero, Divides])
  | and | or => exact .invalid rfl
  | div | mod =>
    rcases divisor_cases _ y with ⟨h, hz⟩ | ⟨h, hz⟩
    · rw [onNumbers, h]
      exact .byZero _ rfl ⟨.inl ⟨by simp, .inr ⟨rfl, rfl⟩⟩, hz⟩
    · rw [onNumbers, h]
      exact .value _ rfl fun hzero => hz hzero.2

theorem outcome_integers {op : Operator} (m n : Int64) (he : op ≠ eq) (hn : op ≠ ne) :
    Outcome op (.integer m) (.integer n) (op.onIntegers m n) := by
  cases op with
  | eq => exact absurd rfl he
  | ne => exact absurd rfl hn
  | add | sub | mul | lt | le | gt | ge => exact .value _ rfl (by simp [DividesByZero, Divides])
  | and | or => exact .invalid rfl
  | div | mod =>
    rw [onIntegers]
    split
    · exact .byZero _ rfl ⟨.inl ⟨by simp, .inl ⟨rfl, rfl⟩⟩, ‹n = 0›⟩
    · exact .value _ rfl fun hzero => ‹¬n = 0› hzero.2

theorem outcome_strings {op : Operator} (s t : String) (he : op ≠ eq) (hn : op ≠ ne) :
    Outcome op (.string s) (.string t) (op.onStrings s t) := by
  cases op with
  | eq => exact absurd rfl he
  | ne => exact absurd rfl hn
  | add | lt | le | gt | ge => exact .value _ rfl (by simp [DividesByZero, Divides])
  | sub | mul | div | mod | and | or => exact .invalid rfl

/-- A vector over a number. -/
theorem outcome_shrink {v : Value} (hv : v.type ∈ vectors) (k : Float) (f : Float → Value)
    (hf : (f k).type = v.type) :
    Outcome div v (.number k) (do return f (← div.divisor k)) := by
  have ht : div.resultType? v.type (Value.number k).type = some v.type :=
    if_pos (.inr ⟨hv, rfl⟩)
  rcases divisor_cases div k with ⟨h, hz⟩ | ⟨h, hz⟩
  · rw [h]
    exact .byZero _ ht ⟨.inr ⟨rfl, by simpa [vectors] using hv, rfl⟩, hz⟩
  · rw [h]
    exact .value _ (by rw [ht, hf]) fun hzero => hz hzero.2

/-- The forms of operands that an application tells apart, beside the ones of equality. -/
inductive Form : Operator → Value → Value → Prop
  | booleans {op : Operator} (h : op = and ∨ op = or) (a b : Bool) :
      Form op (.boolean a) (.boolean b)
  | numbers {op : Operator} (x y : Float) : Form op (.number x) (.number y)
  | integers {op : Operator} (m n : Int64) : Form op (.integer m) (.integer n)
  | strings {op : Operator} (s t : String) : Form op (.string s) (.string t)
  | vec3s {op : Operator} (h : op = add ∨ op = sub) (v w : Vec3) : Form op (.vec3 v) (.vec3 w)
  | vec2s {op : Operator} (h : op = add ∨ op = sub) (v w : Vec2) : Form op (.vec2 v) (.vec2 w)
  | vec3Number {op : Operator} (h : op = mul ∨ op = div) (v : Vec3) (k : Float) :
      Form op (.vec3 v) (.number k)
  | vec2Number {op : Operator} (h : op = mul ∨ op = div) (v : Vec2) (k : Float) :
      Form op (.vec2 v) (.number k)
  | numberVec3 (k : Float) (v : Vec3) : Form mul (.number k) (.vec3 v)
  | numberVec2 (k : Float) (v : Vec2) : Form mul (.number k) (.vec2 v)

theorem Form.of_ordered {op : Operator} {left right : Value} (h : left.type = right.type)
    (hm : left.type ∈ ordered) : Form op left right := by
  simp only [ordered, List.mem_cons, List.not_mem_nil, or_false] at hm
  rcases hm with hl | hl | hl
  · obtain ⟨x, rfl⟩ := Value.eq_number_of_type hl
    obtain ⟨y, rfl⟩ := Value.eq_number_of_type h.symm
    exact .numbers x y
  · obtain ⟨m, rfl⟩ := Value.eq_integer_of_type hl
    obtain ⟨n, rfl⟩ := Value.eq_integer_of_type h.symm
    exact .integers m n
  · obtain ⟨s, rfl⟩ := Value.eq_string_of_type hl
    obtain ⟨t, rfl⟩ := Value.eq_string_of_type h.symm
    exact .strings s t

theorem Form.of_numeric {op : Operator} {left right : Value} (h : left.type = right.type)
    (hm : left.type ∈ numeric) : Form op left right := by
  refine .of_ordered h ?_
  simp only [numeric, ordered, List.mem_cons, List.not_mem_nil, or_false] at hm ⊢
  exact hm.imp_right .inl

theorem Form.of_vectors {op : Operator} {left right : Value} (ho : op = add ∨ op = sub)
    (h : left.type = right.type) (hm : left.type ∈ vectors) : Form op left right := by
  simp only [vectors, List.mem_cons, List.not_mem_nil, or_false] at hm
  rcases hm with hl | hl
  · obtain ⟨v, rfl⟩ := Value.eq_vec3_of_type hl
    obtain ⟨w, rfl⟩ := Value.eq_vec3_of_type h.symm
    exact .vec3s ho v w
  · obtain ⟨v, rfl⟩ := Value.eq_vec2_of_type hl
    obtain ⟨w, rfl⟩ := Value.eq_vec2_of_type h.symm
    exact .vec2s ho v w

theorem Form.of_scaled {op : Operator} {left right : Value} (ho : op = mul ∨ op = div)
    (hm : left.type ∈ vectors) (hr : right.type = .number) : Form op left right := by
  simp only [vectors, List.mem_cons, List.not_mem_nil, or_false] at hm
  obtain ⟨k, rfl⟩ := Value.eq_number_of_type hr
  rcases hm with hl | hl
  · obtain ⟨v, rfl⟩ := Value.eq_vec3_of_type hl
    exact .vec3Number ho v k
  · obtain ⟨v, rfl⟩ := Value.eq_vec2_of_type hl
    exact .vec2Number ho v k

theorem Form.of_scaling {left right : Value} (hl : left.type = .number)
    (hm : right.type ∈ vectors) : Form mul left right := by
  simp only [vectors, List.mem_cons, List.not_mem_nil, or_false] at hm
  obtain ⟨k, rfl⟩ := Value.eq_number_of_type hl
  rcases hm with hr | hr
  · obtain ⟨v, rfl⟩ := Value.eq_vec3_of_type hr
    exact .numberVec3 k v
  · obtain ⟨v, rfl⟩ := Value.eq_vec2_of_type hr
    exact .numberVec2 k v

/-- Operands whose types have a result type are of one of the forms. -/
theorem form_of_resultType? {op : Operator} {left right : Value} {type : ValueType} (he : op ≠ eq)
    (hn : op ≠ ne) (h : op.resultType? left.type right.type = some type) : Form op left right := by
  cases op with
  | eq => exact absurd rfl he
  | ne => exact absurd rfl hn
  | and | or =>
    obtain ⟨⟨hl, hr⟩, -⟩ := Option.ite_none_right_eq_some.mp h
    obtain ⟨a, rfl⟩ := Value.eq_boolean_of_type hl
    obtain ⟨b, rfl⟩ := Value.eq_boolean_of_type hr
    exact .booleans (by simp) a b
  | lt | le | gt | ge =>
    obtain ⟨⟨ht, hm⟩, -⟩ := Option.ite_none_right_eq_some.mp h
    exact .of_ordered ht hm
  | add =>
    obtain ⟨⟨ht, hm | hm⟩, -⟩ := Option.ite_none_right_eq_some.mp h
    · exact .of_ordered ht hm
    · exact .of_vectors (.inl rfl) ht hm
  | sub =>
    obtain ⟨⟨ht, hm | hm⟩, -⟩ := Option.ite_none_right_eq_some.mp h
    · exact .of_numeric ht hm
    · exact .of_vectors (.inr rfl) ht hm
  | mul =>
    rw [resultType?] at h
    split at h
    · rename_i hc
      rcases hc with ⟨ht, hm⟩ | ⟨hm, hr⟩
      · exact .of_numeric ht hm
      · exact .of_scaled (.inl rfl) hm hr
    · obtain ⟨⟨hl, hm⟩, -⟩ := Option.ite_none_right_eq_some.mp h
      exact .of_scaling hl hm
  | div =>
    obtain ⟨⟨ht, hm⟩ | ⟨hm, hr⟩, -⟩ := Option.ite_none_right_eq_some.mp h
    · exact .of_numeric ht hm
    · exact .of_scaled (.inr rfl) hm hr
  | mod =>
    obtain ⟨⟨ht, hm⟩, -⟩ := Option.ite_none_right_eq_some.mp h
    exact .of_numeric ht hm

/-- Equality and inequality, whatever they answer. -/
theorem outcome_comparison {op : Operator} (ho : op = eq ∨ op = ne) (left right : Value)
    (b : Bool) :
    Outcome op left right
      (if left.type = right.type then .ok (.boolean b) else .error (op.invalid left right)) := by
  have ht : op.resultType? left.type right.type =
      if left.type = right.type then some .boolean else none := by
    rcases ho with rfl | rfl <;> rfl
  split
  · refine .value _ (by rw [ht, if_pos ‹_›]; rfl) ?_
    rcases ho with rfl | rfl <;> simp [DividesByZero, Divides]
  · exact .invalid (by rw [ht, if_neg ‹_›])

theorem outcome_apply (op : Operator) (left right : Value) :
    Outcome op left right (op.apply left right) := by
  unfold apply
  split
  case h_1 => exact outcome_comparison (.inl rfl) left right _
  case h_2 => exact outcome_comparison (.inr rfl) left right _
  case h_5 he hn => exact outcome_numbers _ _ he hn
  case h_6 he hn => exact outcome_integers _ _ he hn
  case h_7 he hn => exact outcome_strings _ _ he hn
  case h_12 => exact outcome_shrink (by simp [vectors, Value.type]) _ _ rfl
  case h_17 => exact outcome_shrink (by simp [vectors, Value.type]) _ _ rfl
  case h_18 =>
    cases ht : op.resultType? left.type right.type with
    | none => exact .invalid ht
    | some type =>
      have hform := form_of_resultType? (by assumption) (by assumption) ht
      cases hform <;> grind
  all_goals exact .value _ rfl (by simp [DividesByZero, Divides])

/-! ### Applications to values of the same types -/

theorem invalidOperation_iff {op o : Operator} {left right : Value} {l r : ValueType} :
    op.apply left right = .error (.invalidOperation o l r) ↔
      op.resultType? left.type right.type = none ∧ o = op ∧ l = left.type ∧ r = right.type := by
  have hout := outcome_apply op left right
  generalize op.apply left right = answer at hout ⊢
  cases hout with
  | value v ht => simp [ht]
  | byZero type ht => simp [ht]
  | invalid ht => simp [ht, invalid, eq_comm]

theorem divisionByZero_iff {op : Operator} {left right : Value} :
    op.apply left right = .error (.divisionByZero op) ↔ op.DividesByZero left right := by
  have hout := outcome_apply op left right
  generalize op.apply left right = answer at hout ⊢
  cases hout with
  | value v ht hz => simp [hz]
  | byZero type ht hz => simp [hz]
  | invalid ht =>
    have hdefined : ¬op.DividesByZero left right := fun hz => resultType?_of_divides hz.1 ht
    simp [invalid, hdefined]

theorem type_of_apply {op : Operator} {left right v : Value} (h : op.apply left right = .ok v) :
    op.resultType? left.type right.type = some v.type := by
  have hout := outcome_apply op left right
  rw [h] at hout
  cases hout with
  | value _ ht => exact ht

theorem error_of_apply {op : Operator} {left right : Value} {e : Error}
    (h : op.apply left right = .error e) :
    e = .invalidOperation op left.type right.type ∨ e = .divisionByZero op := by
  have hout := outcome_apply op left right
  rw [h] at hout
  cases hout with
  | byZero => exact .inr rfl
  | invalid => exact .inl rfl

theorem ok_eq_iff {left right : Value} :
    (∃ v, eq.apply left right = .ok v) ↔ left.type = right.type := by
  by_cases h : left.type = right.type <;> simp [apply, h]

theorem ok_ne_iff {left right : Value} :
    (∃ v, ne.apply left right = .ok v) ↔ left.type = right.type := by
  by_cases h : left.type = right.type <;> simp [apply, h]

theorem apply_eq {left right : Value} (h : left.type = right.type) :
    eq.apply left right = .ok (.boolean (left == right)) := if_pos h

theorem apply_ne {left right : Value} (h : left.type = right.type) :
    ne.apply left right = .ok (.boolean (!(left == right))) := if_pos h

/-- The types of two records are the same when their members have the same names and types. -/
theorem type_record_eq_iff {members members' : List (String × Value)} :
    (Value.record members).type = (Value.record members').type ↔
      List.Forall₂ (fun entry entry' => entry.1 = entry'.1 ∧ entry.2.type = entry'.2.type)
        members members' := by
  simp only [Value.type, ValueType.record.injEq, Value.memberTypes_eq, Table.mapValues]
  rw [← List.forall₂_eq_eq_eq, List.forall₂_map_left_iff, List.forall₂_map_right_iff]
  simp only [Prod.mk.injEq]

theorem type_record_eq_iff_find? {members members' : List (String × Value)}
    (h : Table.Sorted members) (h' : Table.Sorted members') :
    (Value.record members).type = (Value.record members').type ↔
      ∀ name, (Table.find? members name).map Value.type =
        (Table.find? members' name).map Value.type := by
  simp only [Value.type, ValueType.record.injEq, Value.memberTypes_eq, ← Table.find?_mapValues]
  refine ⟨fun heq name => by rw [heq], fun hf => ?_⟩
  exact (h.congr_keys (Table.keys_mapValues ..)).ext (h'.congr_keys (Table.keys_mapValues ..)) hf

/-- An operator is typed by its operands. For operands of the same types it is refused alike, with
the operator and the types in the error, and the results have one type; the only other error is that
of a zero divisor, which may be an integer or a number of either sign. Equality is defined for
operands of one type, where it and its negation differ; the types of records are the same member by
member. -/
theorem apply_of_types (op : Operator) {a b a' b' : Value} (ha : a.type = a'.type)
    (hb : b.type = b'.type) :
    (∀ o l r, op.apply a b = .error (.invalidOperation o l r) ↔
      op.apply a' b' = .error (.invalidOperation o l r)) ∧
    (∀ v v', op.apply a b = .ok v → op.apply a' b' = .ok v' → v.type = v'.type) ∧
    (∀ e, op.apply a b = .error e →
      e = .invalidOperation op a.type b.type ∨ e = .divisionByZero op) ∧
    (op.apply a b = .error (.divisionByZero op) ↔ op.DividesByZero a b) ∧
    ((∃ v, eq.apply a b = .ok v) ↔ a.type = b.type) ∧
    ((∃ v, ne.apply a b = .ok v) ↔ a.type = b.type) ∧
    (a.type = b.type →
      ∃ t, eq.apply a b = .ok (.boolean t) ∧ ne.apply a b = .ok (.boolean (!t))) ∧
    (∀ members members', a = .record members → b = .record members' →
      (a.type = b.type ↔
        List.Forall₂ (fun entry entry' => entry.1 = entry'.1 ∧ entry.2.type = entry'.2.type)
          members members') ∧
      (Table.Sorted members → Table.Sorted members' →
        (a.type = b.type ↔ ∀ name, (Table.find? members name).map Value.type =
          (Table.find? members' name).map Value.type))) := by
  refine ⟨fun o l r => ?_, fun v v' hv hv' => ?_, fun e => error_of_apply, divisionByZero_iff,
    ok_eq_iff, ok_ne_iff, fun h => ⟨_, apply_eq h, apply_ne h⟩, ?_⟩
  · rw [invalidOperation_iff, invalidOperation_iff, ha, hb]
  · have htype := type_of_apply hv
    rw [ha, hb, type_of_apply hv', Option.some.injEq] at htype
    exact htype.symm
  · rintro members members' rfl rfl
    exact ⟨type_record_eq_iff, type_record_eq_iff_find?⟩

/-- A vector is not divided by minus zero. -/
theorem apply_minus_zero :
    (Value.vec3 ⟨1, 2, 3⟩).type = (Value.vec3 ⟨0, 0, 0⟩).type ∧
      (Value.number (-0.0)).type = (Value.number 4).type ∧
      div.apply (.vec3 ⟨1, 2, 3⟩) (.number (-0.0)) = .error (.divisionByZero div) := by
  have hvector : (Value.vec3 ⟨1, 2, 3⟩).type = (Value.vec3 ⟨0, 0, 0⟩).type := rfl
  have hnumber : (Value.number (-0.0)).type = (Value.number 4).type := rfl
  obtain ⟨-, -, -, hzero, -⟩ := apply_of_types div hvector hnumber
  exact ⟨hvector, hnumber, hzero.mpr ⟨.inr ⟨rfl, .inl rfl, rfl⟩, .inr rfl⟩⟩

end Operator
end SceneScript
