import SceneScript.Proofs.Script.Declared
import SceneScript.Proofs.Script.Executed
import SceneScript.Proofs.Script.Parsed

/-! # Scripts that load can run

The stages of a script only agree by the layout of nodes and the texts in them. What the lexer
promises is what the parser needs, the parser promises well-formed trees, and on these neither the
declaration pass nor the interpreter can miss anything.
-/
namespace SceneScript.Script

/-- A text that is lexed and parsed gives a well-formed file. Its declarations can only be refused
for a type or a component that nobody knows, for a system that is there already, or for an event
that is declared differently. If they are accepted, every system runs a block of the file, and
running that block never finds it malformed, whatever the settings, the entity, the event, the store
and the numbers that are drawn. -/
theorem compiled_sane {file source : String} {tokens : List Token} {tree : Node}
    (ht : tokenize file source = .ok tokens) (hp : Node.ofTokens file tokens = .ok tree)
    (config : Config) (index : Index) :
    IsFile tree ∧
      match (declare config tree index).result with
      | .error e =>
        (∃ name, e.fault = .unknownType name) ∨ (∃ name, e.fault = .unknownComponent name) ∨
          (∃ name, e.fault = .duplicateSystem name) ∨ ∃ name, e.fault = .conflictingEvent name
      | .ok systems =>
        ∀ system ∈ systems, ∃ n ∈ tree.children, ∃ body, n.child? .block = some body ∧
          system = systemOf config body system.declaration ∧
          ∀ (settings : Config) (matched : Binding) (c : EventContext) (store : Store)
            (random : Random) (err : RuntimeError),
            (execute settings body system.declaration matched c ⟨store, random⟩).result =
                .error err →
              err.root ≠ .malformedExpression := by
  have hfile := Node.ofTokens_ok hp (tokenize_lexed ht)
  refine ⟨hfile, ?_⟩
  have hd := Declaring.all_meets config tree.value hfile.2 index
  change match (Declaring.all config tree.value tree.children index).result with
    | .error e => _
    | .ok systems => _
  cases hr : (Declaring.all config tree.value tree.children index).result with
  | error e =>
    rw [hr] at hd
    obtain ⟨_, _, _, fault⟩ := e
    cases fault <;> first | exact hd.elim | simp
  | ok systems =>
    rw [hr] at hd
    intro system hs
    obtain ⟨n, hn, body, hb, hblock, heq⟩ := hd system hs
    exact ⟨n, hn, body, hb, heq, fun settings matched c store random _ he =>
      execute_sane hblock settings _ matched c ⟨store, random⟩ he⟩

/-- A system that takes the names of all entities away. -/
def anonymous : String := "system s(e<Tag>)\n if true\n  e.Tag.name = \"\"\n"

def loaded (source : String) : Except LoadError (List System) := do
  let tokens ← tokenize "anonymous" source
  let tree ← Node.ofTokens "anonymous" tokens
  (declare {} tree .initial).result

theorem anonymous_sane :
    ∃ system body, loaded anonymous = .ok [system] ∧
      system = systemOf {} body system.declaration ∧
      ∀ settings matched c store random err,
        (execute settings body system.declaration matched c ⟨store, random⟩).result = .error err →
          err.root ≠ .malformedExpression := by
  have hlength : ((loaded anonymous).map List.length).toOption = some 1 := by decide +kernel
  cases hl : loaded anonymous with
  | error e => simp [hl, Except.map, Except.toOption] at hlength
  | ok systems =>
    obtain ⟨tokens, ht, h⟩ := Result.bind_eq_ok.mp hl
    obtain ⟨tree, hp, hd⟩ := Result.bind_eq_ok.mp h
    simp only [hl, Except.map, Except.toOption, Option.some.injEq] at hlength
    obtain ⟨system, rfl⟩ := List.length_eq_one_iff.mp hlength
    have hs := (compiled_sane ht hp {} .initial).2
    rw [hd] at hs
    obtain ⟨_, _, body, _, heq, hsane⟩ := hs system (List.mem_singleton_self system)
    exact ⟨system, body, rfl, heq, hsane⟩

end SceneScript.Script
