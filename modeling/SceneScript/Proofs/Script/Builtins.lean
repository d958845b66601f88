import Mathlib.Data.List.Forall2
import Mathlib.Data.List.Nodup
import SceneScript.Proofs.Action
import SceneScript.Proofs.Entity.Generations
import SceneScript.Proofs.Value.Typing
import SceneScript.Script.Builtin

/-! # What functions see of their arguments

A function reads its arguments by index, with a value to fall back on. The reading that belongs to a
parameter falls back for no argument that the parameter takes, and a function depends on its
arguments through the readings of its own parameters alone. So a call whose arguments were checked
never sees a value that was not given.
-/
namespace SceneScript.Script

namespace Param
open Builtin

/-- The reading of a parameter at an index. -/
def read (p : Param) (args : List Value) (i : Nat) : Value :=
  match p with
  | exact .number => .number (numberAt args i)
  | exact .integer => .integer (integerAt args i)
  | exact .string => .string (stringAt args i)
  | exact .vec3 => .vec3 (vec3At args i)
  | exact .list => .list (listAt args i)
  | entity => .entity (entityAt args i)
  | any | exact _ => valueAt args i

/-- What a parameter is given with an argument: the argument, but of an entity variable only the
reference. -/
def content (p : Param) (v : Value) : Value :=
  match p, v with
  | entity, .scriptEntity ref _ => .entity ref
  | _, _ => v

theorem type_of_accepts {type : BasicType} {v : Value} (h : (exact type).accepts v = true) :
    v.type = .basic type :=
  of_decide_eq_true h

theorem entity_of_accepts {v : Value} (h : entity.accepts v = true) :
    (∃ ref, v = .entity ref) ∨ ∃ ref components, v = .scriptEntity ref components := by
  cases v <;> simp_all [accepts, Value.type]

/-- An argument that the parameter takes is read as it is. -/
theorem read_of_accepts {p : Param} {args : List Value} {i : Nat} {v : Value}
    (hv : args[i]? = some v) (h : p.accepts v = true) : p.read args i = p.content v := by
  cases p with
  | any => simp [read, content, valueAt, hv]
  | exact type =>
    have ht := type_of_accepts h
    cases type with
    | number =>
      obtain ⟨x, rfl⟩ := Value.eq_number_of_type ht
      simp [read, content, numberAt, hv]
    | integer =>
      obtain ⟨n, rfl⟩ := Value.eq_integer_of_type ht
      simp [read, content, integerAt, hv]
    | string =>
      obtain ⟨s, rfl⟩ := Value.eq_string_of_type ht
      simp [read, content, stringAt, hv]
    | vec3 =>
      obtain ⟨w, rfl⟩ := Value.eq_vec3_of_type ht
      simp [read, content, vec3At, hv]
    | list =>
      obtain ⟨items, rfl⟩ := Value.eq_list_of_type ht
      simp [read, content, listAt, hv]
    | boolean | vec2 | asset | void | entity | color | scriptEntity =>
      simp [read, content, valueAt, hv]
  | entity =>
    obtain ⟨ref, rfl⟩ | ⟨ref, components, rfl⟩ := entity_of_accepts h <;>
      simp [read, content, entityAt, hv]

theorem exists_content {v : Value} (h : entity.accepts v = true) :
    ∃ ref, entity.content v = .entity ref := by
  obtain ⟨ref, rfl⟩ | ⟨ref, components, rfl⟩ := entity_of_accepts h <;> exact ⟨ref, rfl⟩

theorem entityAt_of_content {args : List Value} {i : Nat} {v : Value} {ref : EntityRef}
    (hv : args[i]? = some v) (h : entity.content v = .entity ref) : entityAt args i = ref := by
  cases v <;> simp_all [content, entityAt]

end Param

namespace Builtin

/-! ### Checked arguments -/

/-- There is an argument for each parameter, and the parameter takes it. -/
def Matches (params : List Param) (args : List Value) : Prop :=
  List.Forall₂ (fun p v => p.accepts v = true) params args

theorem Matches.exists_getElem? {params : List Param} {args : List Value} (h : Matches params args)
    {i : Nat} {p : Param} (hp : params[i]? = some p) :
    ∃ v, args[i]? = some v ∧ p.accepts v = true := by
  obtain ⟨hi, rfl⟩ := List.getElem?_eq_some_iff.mp hp
  have hi' : i < args.length := h.length_eq ▸ hi
  exact ⟨args[i], List.getElem?_eq_getElem hi', h.get hi hi'⟩

/-- The first argument that its parameter does not take. -/
structure FirstWrong (params : List Param) (args : List Value) (i : Nat) (p : Param) (v : Value) :
    Prop where
  param : params[i]? = some p
  arg : args[i]? = some v
  wrong : p.accepts v = false
  first : ∀ j < i, ∀ q w, params[j]? = some q → args[j]? = some w → q.accepts w = true

theorem firstWrong?_of_matches {params : List Param} {args : List Value} (h : Matches params args)
    (position : Nat) : firstWrong? position params args = none := by
  induction h generalizing position with
  | nil => rfl
  | cons hp _ ih => rw [firstWrong?, if_pos hp, ih]

/-- As many arguments as parameters match, unless one is the first that is wrong. -/
theorem firstWrong?_of_not_matches {params : List Param} {args : List Value}
    (hl : args.length = params.length) (h : ¬Matches params args) (position : Nat) :
    ∃ i p v, FirstWrong params args i p v ∧
      firstWrong? position params args = some (position + i, p, v) := by
  induction params generalizing args position with
  | nil =>
    cases List.eq_nil_of_length_eq_zero hl
    exact absurd .nil h
  | cons p params ih =>
    cases args with
    | nil => cases hl
    | cons v args =>
      by_cases hp : p.accepts v = true
      · have hrest : ¬Matches params args := fun hm => h (.cons hp hm)
        obtain ⟨i, q, w, hw, hf⟩ := ih (Nat.succ.inj hl) hrest (position + 1)
        refine ⟨i + 1, q, w, ⟨hw.param, hw.arg, hw.wrong, ?_⟩, ?_⟩
        · intro j hj q' w' hq hw'
          cases j with
          | zero =>
            cases hq
            cases hw'
            exact hp
          | succ j => exact hw.first j (Nat.lt_of_succ_lt_succ hj) q' w' hq hw'
        · rw [firstWrong?, if_pos hp, hf, Nat.add_right_comm, Nat.add_assoc]
      · refine ⟨0, p, v, ⟨rfl, rfl, by simpa using hp, by simp⟩, ?_⟩
        rw [firstWrong?, if_neg hp, Nat.add_zero]

variable {b : Builtin} {args : List Value}

theorem check_of_length (h : args.length ≠ b.params.length) :
    b.check args = .error (.wrongArity b.name b.params.length args.length) :=
  if_pos h

theorem check_of_matches (h : Matches b.params args) : b.check args = .ok () := by
  rw [check, if_neg (fun hne => hne h.length_eq.symm), firstWrong?_of_matches h]

theorem check_of_not_matches (hl : args.length = b.params.length) (h : ¬Matches b.params args) :
    ∃ i p v, FirstWrong b.params args i p v ∧
      b.check args = .error (.wrongParameterType b.name (i + 1) p.expected v.type) := by
  obtain ⟨i, p, v, hw, hf⟩ := firstWrong?_of_not_matches hl h 1
  refine ⟨i, p, v, hw, ?_⟩
  rw [check, if_neg (fun hne => hne hl), hf, Nat.add_comm]

theorem invoke_of_error {fault : RuntimeFault} (h : b.check args = .error fault) (c : EventContext)
    (s : Effects) : b.invoke c args s = ⟨.error fault, s, []⟩ := by
  simp only [invoke, h, Action.ofExcept_error_bind]

theorem invoke_of_matches (h : Matches b.params args) (c : EventContext) :
    b.invoke c args = b.native c args := by
  funext s
  simp only [invoke, check_of_matches h, Action.ofExcept_ok_bind]

/-! ### The rows of the table -/

/-- What the parameters of a function read. -/
def readings (b : Builtin) (args : List Value) : List Value :=
  b.params.mapIdx fun i p => p.read args i

/-- A function without effects: it gives a value of one type that follows from the readings of its
parameters and from who is alive. -/
structure Computes (b : Builtin) (f : Roster → List Value → Value) (type : ValueType) : Prop where
  native : b.native = fun c args => pure (f c.roster args)
  typed : ∀ roster args, (f roster args).type = type
  reads : ∀ roster args args', b.readings args = b.readings args' → f roster args = f roster args'
  names : b.name ∉ ["randint", "emit", "emitTo"]

theorem computes_pureOf {name : String} {params : List Param} {g : List Value → Value}
    (type : ValueType) (hn : name ∉ ["randint", "emit", "emitTo"])
    (ht : ∀ args, (g args).type = type)
    (hr : ∀ args args', readings ⟨name, params, pureOf g⟩ args =
      readings ⟨name, params, pureOf g⟩ args' → g args = g args') :
    ∃ f type, Computes ⟨name, params, pureOf g⟩ f type :=
  ⟨fun _ => g, type, rfl, fun _ => ht, fun _ => hr, hn⟩

theorem computes_isEmpty :
    ∃ f type, Computes ⟨"isEmpty", [.entity],
      fun c args => pure (.boolean (c.roster.resolve? (entityAt args 0)).isNone)⟩ f type := by
  refine ⟨fun roster args => .boolean (roster.resolve? (entityAt args 0)).isNone, .boolean, rfl,
    fun _ _ => rfl, fun roster args args' h => ?_, by decide⟩
  have href : entityAt args 0 = entityAt args' 0 := by simpa [readings, Param.read] using h
  simp only [href]

/-- Four functions have effects. -/
theorem row_cases (hb : b ∈ all) :
    (∃ f type, b.Computes f type) ∨ b = ⟨"print", [.any], print⟩ ∨
      b = ⟨"randint", [.exact .integer, .exact .integer], randint⟩ ∨
      b = ⟨"emit", [.exact .string, .any],
        fun _ args => queue ⟨stringAt args 0, valueAt args 1, []⟩⟩ ∨
      b = ⟨"emitTo", [.exact .string, .any, .entity], emitTo⟩ := by
  simp only [all, List.mem_cons, List.not_mem_nil, or_false] at hb
  rcases hb with rfl | rfl | rfl | rfl | rfl | rfl | rfl | rfl | rfl | rfl | rfl | rfl | rfl | rfl |
    rfl | rfl | rfl | rfl | rfl | rfl | rfl | rfl | rfl
  all_goals first
    | exact .inr (.inl rfl)
    | exact .inr (.inr (.inl rfl))
    | exact .inr (.inr (.inr (.inl rfl)))
    | exact .inr (.inr (.inr (.inr rfl)))
    | exact .inl computes_isEmpty
    | refine .inl (computes_pureOf .number (by decide) (fun _ => rfl) ?_)
    | refine .inl (computes_pureOf .integer (by decide) (fun _ => rfl) ?_)
    | refine .inl (computes_pureOf .string (by decide) (fun _ => rfl) ?_)
    | refine .inl (computes_pureOf .vec3 (by decide) (fun _ => rfl) ?_)
    | refine .inl (computes_pureOf .vec2 (by decide) (fun _ => rfl) ?_)
    | refine .inl (computes_pureOf .list (by decide) (fun _ => rfl) ?_)
    | refine .inl (computes_pureOf (.basic .color) (by decide) (fun _ => rfl) ?_)
  all_goals
    intro args args' h
    simp only [readings, Param.read, List.mapIdx_cons, List.mapIdx_nil, List.cons.injEq,
      Value.number.injEq, Value.integer.injEq, Value.vec3.injEq, Value.list.injEq, and_true,
      Nat.reduceAdd] at h
    simp only [h]

/-- A function depends on its arguments through the readings of its parameters alone. -/
theorem native_congr (hb : b ∈ all) {args args' : List Value}
    (h : b.readings args = b.readings args') (c : EventContext) :
    b.native c args = b.native c args' := by
  rcases row_cases hb with ⟨f, type, hf⟩ | rfl | rfl | rfl | rfl
  · rw [hf.native]
    exact congrArg pure (hf.reads c.roster args args' h)
  all_goals
    simp only [readings, Param.read, List.mapIdx_cons, List.mapIdx_nil, List.cons.injEq,
      Value.integer.injEq, Value.string.injEq, Value.entity.injEq, and_true, Nat.reduceAdd] at h
    simp only [print, randint, emitTo, h]

/-! ### The outcome of a call -/

/-- How a function ends on arguments that match. It answers and emits nothing, and if it draws a
number, this is one of the range, which is not empty; it emits one event; or it fails with nothing
done, for a range that is empty or a reference that does not resolve. -/
inductive Ends (b : Builtin) (type : ValueType) (c : EventContext) (args : List Value)
    (s : Effects) : Outcome RuntimeFault Effects Value → Prop
  | answer (v : Value) (random : Random) (log : List LogRecord) (ht : v.type = type)
      (hn : b.name ∉ ["randint", "emit", "emitTo"]) :
      Ends b type c args s ⟨.ok v, ⟨s.emitted, random⟩, log⟩
  | draw (low high n : Int64) (random : Random) (ht : type = .integer) (hn : b.name = "randint")
      (ha : args = [.integer low, .integer high]) (h : ¬high < low)
      (hr : low ≤ n ∧ n ≤ high) : Ends b type c args s ⟨.ok (.integer n), ⟨s.emitted, random⟩, []⟩
  | emission (name : String) (payload : Value) (ht : type = .void) (hn : b.name = "emit")
      (ha : args = [.string name, payload]) :
      Ends b type c args s ⟨.ok .void, ⟨s.emitted ++ [⟨name, payload, []⟩], s.random⟩, []⟩
  | emissionTo (name : String) (payload target : Value) (ref : EntityRef) (e : Entity)
      (ht : type = .void) (hn : b.name = "emitTo") (ha : args = [.string name, payload, target])
      (href : Param.entity.content target = .entity ref)
      (he : c.roster.resolve? ref = some e) (hlive : c.roster.isAlive e = true) :
      Ends b type c args s ⟨.ok .void, ⟨s.emitted ++ [⟨name, payload, [e]⟩], s.random⟩, []⟩
  | emptyRange (low high : Int64) (hn : b.name = "randint")
      (ha : args = [.integer low, .integer high]) (h : high < low) :
      Ends b type c args s ⟨.error (.invalidArgument "randint"
        (toString low.toInt ++ " is greater than " ++ toString high.toInt)), s, []⟩
  | stale (name : String) (payload target : Value) (ref : EntityRef) (hn : b.name = "emitTo")
      (ha : args = [.string name, payload, target])
      (href : Param.entity.content target = .entity ref) (he : c.roster.resolve? ref = none) :
      Ends b type c args s ⟨.error (.staleEntity ref), s, []⟩

theorem randint_ends (c : EventContext) (low high : Int64) (s : Effects) :
    Ends ⟨"randint", [.exact .integer, .exact .integer], randint⟩ .integer c
      [.integer low, .integer high] s (randint c [.integer low, .integer high] s) := by
  change Ends _ _ _ _ _ ((if high < low then Action.fail _ else _ : Call) s)
  split
  · exact .emptyRange low high rfl rfl ‹_›
  · rename_i h
    exact .draw low high _ _ rfl rfl rfl h (s.random.within 0 low high (Int64.not_lt.mp h))

theorem emitTo_ends (c : EventContext) (name : String) (payload : Value) {target : Value}
    {ref : EntityRef} (href : Param.entity.content target = .entity ref) (s : Effects) :
    Ends ⟨"emitTo", [.exact .string, .any, .entity], emitTo⟩ .void c
      [.string name, payload, target] s (emitTo c [.string name, payload, target] s) := by
  have hentity : entityAt [.string name, payload, target] 2 = ref :=
    Param.entityAt_of_content rfl href
  cases he : c.roster.resolve? ref with
  | none =>
    simp only [emitTo, hentity, he]
    exact .stale name payload target ref rfl rfl href he
  | some e =>
    simp only [emitTo, hentity, he]
    exact .emissionTo name payload target ref e rfl rfl rfl href he
      (Roster.isAlive_of_resolve? he)

theorem native_ends (hb : b ∈ all) : ∃ type : ValueType, ∀ (c : EventContext) (args : List Value)
    (s : Effects), Matches b.params args → Ends b type c args s (b.native c args s) := by
  rcases row_cases hb with ⟨f, type, hf⟩ | rfl | rfl | rfl | rfl
  · refine ⟨type, fun c args s _ => ?_⟩
    rw [hf.native]
    exact .answer _ _ _ (hf.typed c.roster args) hf.names
  · exact ⟨.void, fun c args s _ => .answer _ _ _ rfl (by decide)⟩
  · refine ⟨.integer, fun c args s h => ?_⟩
    simp only [Matches, List.forall₂_cons_left_iff, List.forall₂_nil_left_iff] at h
    obtain ⟨v, _, hv, ⟨w, _, hw, rfl, rfl⟩, rfl⟩ := h
    obtain ⟨low, rfl⟩ := Value.eq_integer_of_type (Param.type_of_accepts hv)
    obtain ⟨high, rfl⟩ := Value.eq_integer_of_type (Param.type_of_accepts hw)
    exact randint_ends c low high s
  · refine ⟨.void, fun c args s h => ?_⟩
    simp only [Matches, List.forall₂_cons_left_iff, List.forall₂_nil_left_iff] at h
    obtain ⟨v, _, hv, ⟨payload, _, -, rfl, rfl⟩, rfl⟩ := h
    obtain ⟨name, rfl⟩ := Value.eq_string_of_type (Param.type_of_accepts hv)
    exact .emission name payload rfl rfl rfl
  · refine ⟨.void, fun c args s h => ?_⟩
    simp only [Matches, List.forall₂_cons_left_iff, List.forall₂_nil_left_iff] at h
    obtain ⟨v, _, hv, ⟨payload, _, -, ⟨target, _, htarget, rfl, rfl⟩, rfl⟩, rfl⟩ := h
    obtain ⟨name, rfl⟩ := Value.eq_string_of_type (Param.type_of_accepts hv)
    obtain ⟨ref, href⟩ := Param.exists_content htarget
    exact emitTo_ends c name payload href s

/-- A call of a function with arguments. When they do not match its parameters it is refused, by
their number or at the first wrong one, with nothing done. When they match, each parameter reads an
argument that is there and that it takes, the function depends on nothing else of the arguments, and
it ends as described, with an answer of a type of its own. -/
theorem invoke_declared (hb : b ∈ all) : ∃ type : ValueType, ∀ (c : EventContext)
    (args : List Value) (s : Effects),
    (args.length ≠ b.params.length → b.invoke c args s =
      ⟨.error (.wrongArity b.name b.params.length args.length), s, []⟩) ∧
    (args.length = b.params.length → ¬Matches b.params args → ∃ i p v,
      FirstWrong b.params args i p v ∧ b.invoke c args s =
        ⟨.error (.wrongParameterType b.name (i + 1) p.expected v.type), s, []⟩) ∧
    (Matches b.params args →
      (∀ (i : Nat) (p : Param), b.params[i]? = some p →
        ∃ v, args[i]? = some v ∧ p.accepts v = true ∧ p.read args i = p.content v) ∧
      (∀ args', b.readings args' = b.readings args → b.native c args' = b.native c args) ∧
      b.invoke c args = b.native c args ∧ Ends b type c args s (b.invoke c args s)) := by
  obtain ⟨type, hends⟩ := native_ends hb
  refine ⟨type, fun c args s => ⟨fun hl => ?_, fun hl hm => ?_, fun hm => ⟨fun i p hp => ?_, ?_⟩⟩⟩
  · exact invoke_of_error (check_of_length hl) c s
  · obtain ⟨i, p, v, hw, hc⟩ := check_of_not_matches hl hm
    exact ⟨i, p, v, hw, invoke_of_error hc c s⟩
  · obtain ⟨v, hv, haccepts⟩ := hm.exists_getElem? hp
    exact ⟨v, hv, haccepts, Param.read_of_accepts hv haccepts⟩
  · refine ⟨fun args' h => native_congr hb h c, invoke_of_matches hm c, ?_⟩
    rw [invoke_of_matches hm]
    exact hends c args s hm

/-- An event for the empty reference is refused and not emitted. -/
theorem invoke_emitTo_empty :
    (⟨"emitTo", [.exact .string, .any, .entity], emitTo⟩ : Builtin) ∈ all ∧
      (⟨"emitTo", [.exact .string, .any, .entity], emitTo⟩ : Builtin).invoke ⟨.tick 1, [], {}⟩
          [.string "Hit", .integer 5, .entity .empty] { random := .lowest } =
        ⟨.error (.staleEntity .empty), { random := .lowest }, []⟩ := by
  have hrow : (⟨"emitTo", [.exact .string, .any, .entity], emitTo⟩ : Builtin) ∈ all := by
    simp [all]
  have hargs : Matches [.exact .string, .any, .entity]
      [.string "Hit", .integer 5, .entity .empty] :=
    .cons rfl (.cons rfl (.cons rfl .nil))
  obtain ⟨type, h⟩ := invoke_declared hrow
  obtain ⟨-, -, h⟩ := h ⟨.tick 1, [], {}⟩ [.string "Hit", .integer 5, .entity .empty]
    { random := .lowest }
  obtain ⟨-, -, -, hends⟩ := h hargs
  refine ⟨hrow, ?_⟩
  generalize Builtin.invoke _ _ _ _ = outcome at hends ⊢
  cases hends with
  | answer v random log ht hn => exact absurd (by decide) hn
  | draw low high n random ht hn => exact absurd hn (by decide)
  | emission name payload ht hn => exact absurd hn (by decide)
  | emissionTo name payload target ref e ht hn ha href he =>
    cases ha
    cases href
    cases he
  | emptyRange low high hn => exact absurd hn (by decide)
  | stale name payload target ref hn ha href he =>
    cases ha
    cases href
    rfl

end Builtin
end SceneScript.Script
