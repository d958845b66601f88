import Mathlib.Logic.Function.Basic
import SceneScript.Proofs.Component.Array
import SceneScript.Proofs.Entity.Numbers

/-! # Calls to an array

What can be asked of storage for the values of one component, and what a sequence of calls answers.
Storage is faithful when it answers from nothing but the values that it holds by entity. Sequences
of calls cannot tell two faithful storages apart, whatever they are made of.
-/
namespace SceneScript

/-- What an array offers. A write and a removal answer the value that was there before. -/
structure ArrayInterface (σ : Type) where
  has : σ → Entity → Bool
  get? : σ → Entity → Option Value
  insert : σ → Entity → Value → Except Error (Option Value × σ)
  remove : σ → Entity → Option Value × σ
  entities : σ → List Entity
  count : σ → Nat

inductive ArrayCall where
  | insert (e : Entity) (value : Value)
  | remove (e : Entity)
  | set (e : Entity) (value : Option Value)
  | get (e : Entity)
  | has (e : Entity)
  | entities
  | count
  | isEmpty

inductive ArrayAnswer where
  | value (value : Option Value)
  | done
  | truth (b : Bool)
  | entities (entities : List Entity)
  | number (n : Nat)

namespace ArrayInterface
variable {σ τ : Type}

/-- The answer to a write and the storage after it. A write that fails leaves the storage as it
is. -/
def settle (s : σ) (answer : Option Value → ArrayAnswer) :
    Except Error (Option Value × σ) → Except Error ArrayAnswer × σ
  | .ok (previous, s') => (.ok (answer previous), s')
  | .error err => (.error err, s)

/-- One call: its answer and the storage after it. -/
def perform (I : ArrayInterface σ) (s : σ) : ArrayCall → Except Error ArrayAnswer × σ
  | .insert e value => settle s .value (I.insert s e value)
  | .remove e => (.ok (.value (I.remove s e).1), (I.remove s e).2)
  | .set e (some value) => settle s (fun _ => .done) (I.insert s e value)
  | .set e none => (.ok .done, (I.remove s e).2)
  | .get e => (.ok (.value (I.get? s e)), s)
  | .has e => (.ok (.truth (I.has s e)), s)
  | .entities => (.ok (.entities (I.entities s)), s)
  | .count => (.ok (.number (I.count s)), s)
  | .isEmpty => (.ok (.truth (I.count s == 0)), s)

/-- What a sequence of calls answers. -/
def answers (I : ArrayInterface σ) : σ → List ArrayCall → List (Except Error ArrayAnswer)
  | _, [] => []
  | s, call :: calls => (I.perform s call).1 :: I.answers (I.perform s call).2 calls

/-- The storage after a sequence of calls. -/
def after (I : ArrayInterface σ) (s : σ) (calls : List ArrayCall) : σ :=
  calls.foldl (fun s call => (I.perform s call).2) s

end ArrayInterface

/-- The value of every entity that has one. -/
abbrev Contents := Entity → Option Value

namespace ArrayCall

/-- What a call does to the values of an array: only a value of the shape is accepted. -/
def effect (shape : ValueType) (f : Contents) : ArrayCall → Contents
  | insert e value | set e (some value) =>
    if value.type = shape then Function.update f e (some value) else f
  | remove e | set e none => Function.update f e none
  | _ => f

/-- The values that are left after a sequence of calls to an empty array. -/
def stored (shape : ValueType) (calls : List ArrayCall) : Contents :=
  calls.foldl (effect shape) fun _ => none

/-- The call stores a value for the entity, if the array is of this shape. -/
def Fills (shape : ValueType) (e : Entity) : ArrayCall → Prop
  | insert e' value | set e' (some value) => e' = e ∧ value.type = shape
  | _ => False

/-- The call removes the value of the entity. -/
def Clears (e : Entity) : ArrayCall → Prop
  | remove e' | set e' none => e' = e
  | _ => False

variable {shape : ValueType} {e : Entity}

theorem effect_clears {call : ArrayCall} (hc : call.Clears e) (f : Contents) :
    call.effect shape f e = none := by
  cases call with
  | remove e' =>
    subst hc
    exact Function.update_self ..
  | set e' value =>
    cases value with
    | none =>
      subst hc
      exact Function.update_self ..
    | some v => cases hc
  | _ => cases hc

theorem update_none {f : Contents} (hf : f e = none) (e' : Entity) :
    Function.update f e' none e = none := by
  rw [Function.update_apply]
  split
  · rfl
  · exact hf

theorem effect_not_fills {call : ArrayCall} (hc : ¬call.Fills shape e) {f : Contents}
    (hf : f e = none) : call.effect shape f e = none := by
  have hwrite : ∀ e' (v : Value), ¬(e' = e ∧ v.type = shape) →
      (if v.type = shape then Function.update f e' (some v) else f) e = none := fun e' v hn => by
    split
    · rename_i hv
      rw [Function.update_of_ne fun he => hn ⟨he.symm, hv⟩, hf]
    · exact hf
  cases call with
  | insert e' v => exact hwrite e' v hc
  | remove e' => exact update_none hf e'
  | set e' value =>
    cases value with
    | none => exact update_none hf e'
    | some v => exact hwrite e' v hc
  | get e' | has e' | entities | count | isEmpty => exact hf

/-- Without a call that fills it an empty place stays empty. -/
theorem foldl_effect_none {calls : List ArrayCall} (hc : ∀ call ∈ calls, ¬call.Fills shape e)
    {f : Contents} (hf : f e = none) : calls.foldl (effect shape) f e = none := by
  induction calls generalizing f with
  | nil => exact hf
  | cons call calls ih =>
    rw [List.forall_mem_cons] at hc
    exact ih hc.2 (effect_not_fills hc.1 hf)

end ArrayCall

/-- What storage for values of a shape shows after a sequence of calls. -/
structure ArrayInterface.Shows {σ : Type} (I : ArrayInterface σ) (shape : ValueType)
    (calls : List ArrayCall) (s : σ) : Prop where
  get : ∀ e, I.get? s e = ArrayCall.stored shape calls e
  has : ∀ e, I.has s e = true ↔ ∃ v, I.get? s e = some v
  mem : ∀ e, e ∈ I.entities s ↔ I.has s e = true
  ascending : (I.entities s).Pairwise fun a b => a.index < b.index
  count : I.count s = (I.entities s).length
  /-- A place that was never filled is empty. -/
  unfilled : ∀ e, (∀ call ∈ calls, ¬call.Fills shape e) → I.get? s e = none
  /-- So is a place that was cleared and not filled again. -/
  cleared : ∀ e before (clear : ArrayCall) since, calls = before ++ clear :: since →
    clear.Clears e → (∀ call ∈ since, ¬call.Fills shape e) → I.get? s e = none
  /-- A value of another type is refused, and the call leaves no trace. -/
  reject : ∀ e v, v.type ≠ shape →
    I.perform s (.insert e v) = (.error (.typeMismatch shape v.type), s) ∧
      I.perform s (.set e (some v)) = (.error (.typeMismatch shape v.type), s)

theorem Entity.compare_eq_lt {a b : Entity} : compare a b = .lt ↔ a.index < b.index := by
  have h : compare a b = compare a.id b.id := rfl
  rw [h, Std.compare_eq_lt, UInt32.lt_iff_toNat_lt]
  rfl

namespace ArrayInterface
variable {σ τ : Type}

/-- Storage for values of a shape that answers from the values that it holds. -/
structure Faithful (I : ArrayInterface σ) (shape : ValueType) (Holds : Contents → σ → Prop) :
    Prop where
  get {f s} : Holds f s → ∀ e, I.get? s e = f e
  has {f s} : Holds f s → ∀ e, I.has s e = (f e).isSome
  mem {f s} : Holds f s → ∀ e, e ∈ I.entities s ↔ (f e).isSome
  ascending {f s} : Holds f s → (I.entities s).Pairwise fun a b => a.index < b.index
  count {f s} : Holds f s → I.count s = (I.entities s).length
  insert {f s v} : Holds f s → v.type = shape → ∀ e,
    ∃ s', I.insert s e v = .ok (f e, s') ∧ Holds (Function.update f e (some v)) s'
  reject {f s v} : Holds f s → v.type ≠ shape → ∀ e,
    I.insert s e v = .error (.typeMismatch shape v.type)
  remove {f s} : Holds f s → ∀ e,
    (I.remove s e).1 = f e ∧ Holds (Function.update f e none) (I.remove s e).2

variable {I : ArrayInterface σ} {J : ArrayInterface τ} {shape : ValueType}
  {Holds : Contents → σ → Prop} {Holds' : Contents → τ → Prop} {f : Contents} {s : σ} {t : τ}

namespace Faithful

theorem settle_holds (hI : I.Faithful shape Holds) (hs : Holds f s)
    (answer : Option Value → ArrayAnswer) (e : Entity) (v : Value) :
    Holds (if v.type = shape then Function.update f e (some v) else f)
      (settle s answer (I.insert s e v)).2 := by
  by_cases hv : v.type = shape
  · obtain ⟨s', hi, hs'⟩ := hI.insert hs hv e
    rw [if_pos hv, hi]
    exact hs'
  · rw [if_neg hv, hI.reject hs hv e]
    exact hs

theorem settle_eq (hI : I.Faithful shape Holds) (hJ : J.Faithful shape Holds') (hs : Holds f s)
    (ht : Holds' f t) (answer : Option Value → ArrayAnswer) (e : Entity) (v : Value) :
    (settle s answer (I.insert s e v)).1 = (settle t answer (J.insert t e v)).1 := by
  by_cases hv : v.type = shape
  · obtain ⟨s', hi, -⟩ := hI.insert hs hv e
    obtain ⟨t', hj, -⟩ := hJ.insert ht hv e
    rw [hi, hj]
    rfl
  · rw [hI.reject hs hv e, hJ.reject ht hv e]
    rfl

/-- What a call leaves is its effect on what was held. -/
theorem perform (hI : I.Faithful shape Holds) (hs : Holds f s) (call : ArrayCall) :
    Holds (call.effect shape f) (I.perform s call).2 := by
  cases call with
  | insert e v => exact hI.settle_holds hs _ e v
  | set e value =>
    cases value with
    | none => exact (hI.remove hs e).2
    | some v => exact hI.settle_holds hs _ e v
  | remove e => exact (hI.remove hs e).2
  | get e | has e | entities | count | isEmpty => exact hs

theorem after (hI : I.Faithful shape Holds) (hs : Holds f s) (calls : List ArrayCall) :
    Holds (calls.foldl (ArrayCall.effect shape) f) (I.after s calls) := by
  induction calls generalizing f s with
  | nil => exact hs
  | cons call calls ih => exact ih (hI.perform hs call)

/-- Storages that hold the same list the same entities, as the order leaves no choice. -/
theorem entities_eq (hI : I.Faithful shape Holds) (hJ : J.Faithful shape Holds') (hs : Holds f s)
    (ht : Holds' f t) : I.entities s = J.entities t :=
  Table.eq_of_ascending (f := id) ((hI.ascending hs).imp Entity.compare_eq_lt.mpr)
    ((hJ.ascending ht).imp Entity.compare_eq_lt.mpr)
    fun e => (hI.mem hs e).trans (hJ.mem ht e).symm

/-- Storages that hold the same give the same answer to any call. -/
theorem answer_eq (hI : I.Faithful shape Holds) (hJ : J.Faithful shape Holds') (hs : Holds f s)
    (ht : Holds' f t) (call : ArrayCall) : (I.perform s call).1 = (J.perform t call).1 := by
  have hentities := hI.entities_eq hJ hs ht
  have hcount : I.count s = J.count t := by rw [hI.count hs, hJ.count ht, hentities]
  cases call with
  | insert e v => exact hI.settle_eq hJ hs ht _ e v
  | set e value =>
    cases value with
    | none => rfl
    | some v => exact hI.settle_eq hJ hs ht _ e v
  | remove e => simp only [ArrayInterface.perform, (hI.remove hs e).1, (hJ.remove ht e).1]
  | get e => simp only [ArrayInterface.perform, hI.get hs e, hJ.get ht e]
  | has e => simp only [ArrayInterface.perform, hI.has hs e, hJ.has ht e]
  | entities => simp only [ArrayInterface.perform, hentities]
  | count | isEmpty => simp only [ArrayInterface.perform, hcount]

/-- No sequence of calls tells two faithful storages apart that hold the same. -/
theorem answers_eq (hI : I.Faithful shape Holds) (hJ : J.Faithful shape Holds') (hs : Holds f s)
    (ht : Holds' f t) (calls : List ArrayCall) : I.answers s calls = J.answers t calls := by
  induction calls generalizing f s t with
  | nil => rfl
  | cons call calls ih =>
    rw [answers, answers, hI.answer_eq hJ hs ht call,
      ih (hI.perform hs call) (hJ.perform ht call)]

/-- Faithful storage shows what the accepted calls have left and nothing else. -/
theorem shows (hI : I.Faithful shape Holds) (hs : Holds (fun _ => none) s)
    (calls : List ArrayCall) : I.Shows shape calls (I.after s calls) := by
  have hafter := hI.after hs calls
  have hhas := hI.has hafter
  refine ⟨hI.get hafter, fun e => ?_, fun e => ?_, hI.ascending hafter, hI.count hafter,
    fun e hcalls => ?_, ?_, fun e v hv => ?_⟩
  · rw [hhas, hI.get hafter, Option.isSome_iff_exists]
  · rw [hI.mem hafter, hhas]
  · rw [hI.get hafter]
    exact ArrayCall.foldl_effect_none hcalls rfl
  · rintro e before clear since rfl hclear hsince
    rw [hI.get hafter, List.foldl_append, List.foldl_cons]
    exact ArrayCall.foldl_effect_none hsince (ArrayCall.effect_clears hclear _)
  · simp only [ArrayInterface.perform, hI.reject hafter hv, settle, and_self]

end Faithful
end ArrayInterface
end SceneScript
