import SceneScript.Proofs.Script.Grammar.Declaration

/-! # Files are read by the grammar

The parser accepts the sentences of the grammar and no other list of tokens, and its answer is the
tree of the derivation.
-/
namespace SceneScript.Script

theorem Grammar.Declaration.length_le (list : List Declaration) :
    list.length ≤ (list.flatMap Declaration.tokens).length := by
  induction list with
  | nil => simp
  | cons d list ih =>
    have hd : 0 < d.tokens.length := by
      cases d <;> simp [Declaration.tokens]
    simp only [List.flatMap_cons, List.length_cons, List.length_append]
    omega

open Grammar

namespace Source
variable {s : Source} {ts rest : List Token}

theorem maybeEvent_sound (hs : s.last.kind = .eof) {nodes : List Node}
    (h : s.maybeEvent ts = .ok (nodes, rest)) :
    ∃ event, ts = System.eventTokens event ++ rest ∧ nodes = System.eventNodes event := by
  unfold maybeEvent at h
  split at h
  · rename_i hk
    obtain ⟨word, left, rfl⟩ := kind_sound hs hk (by decide)
    obtain ⟨⟨node, left₁⟩, he, h₁⟩ := Result.bind_eq_ok.mp h
    cases h₁
    rw [skip_terminal] at he
    obtain ⟨name, carried, rfl, rfl⟩ := event_sound hs he
    exact ⟨some ⟨word, name, carried⟩, rfl, rfl⟩
  · cases h
    exact ⟨none, rfl, rfl⟩

theorem system_sound (hs : s.last.kind = .eof) {keyword : Token} {node : Node}
    (h : s.system keyword ts = .ok (node, rest)) :
    ∃ d : Grammar.System, ts = d.tokens ++ rest ∧ node = d.node keyword := by
  obtain ⟨⟨t, left⟩, hn, h₁⟩ := Result.bind_eq_ok.mp h
  obtain ⟨⟨u, left₁⟩, hu, h₂⟩ := Result.bind_eq_ok.mp h₁
  obtain ⟨⟨parameterNode, left₂⟩, hp, h₃⟩ := Result.bind_eq_ok.mp h₂
  obtain ⟨⟨v, left₃⟩, hv, h₄⟩ := Result.bind_eq_ok.mp h₃
  obtain ⟨⟨events, left₄⟩, he, h₅⟩ := Result.bind_eq_ok.mp h₄
  obtain ⟨left₅, hend, h₆⟩ := Result.bind_eq_ok.mp h₅
  obtain ⟨⟨bodyNode, left₆⟩, hb, h₇⟩ := Result.bind_eq_ok.mp h₆
  cases h₇
  obtain ⟨name, rfl, rfl⟩ := expect_sound hn
  obtain ⟨start, rfl, rfl⟩ := expect_sound hu
  obtain ⟨parameter, rfl, rfl, hnamed⟩ := entityParameter_sound hs hp
  obtain ⟨stop, rfl, rfl⟩ := expect_sound hv
  obtain ⟨event, rfl, rfl⟩ := maybeEvent_sound hs he
  obtain ⟨opening, rfl⟩ := opening_sound hend
  obtain ⟨body, rfl, rfl⟩ := block_sound hs _ hb
  exact ⟨⟨name, start, parameter, hnamed rfl, stop, event, opening, body⟩,
    by simp [System.tokens], rfl⟩

/-- Reading ends at the end of the file. -/
theorem declarations_sound (hs : s.last.kind = .eof) {fuel : Nat} {nodes : List Node}
    (h : s.declarations fuel ts = .ok nodes) :
    ∃ (list : List Declaration) (rest : List Token),
      ts = list.flatMap Declaration.tokens ++ rest ∧ nodes = list.map Declaration.node ∧
        (rest = [] ∨ ∃ (stop : Terminal .eof) (left : List Token), rest = stop.token :: left) := by
  induction fuel generalizing ts nodes with
  | zero => exact (unexpected_ne_ok h).elim
  | succ fuel ih =>
    unfold declarations at h
    cases ts with
    | nil =>
      cases h
      exact ⟨[], [], rfl, rfl, Or.inl rfl⟩
    | cons t left =>
      dsimp only at h
      split at h
      · rename_i hk
        cases h
        exact ⟨[], t :: left, rfl, rfl, Or.inr ⟨⟨t, hk⟩, left, rfl⟩⟩
      · rename_i hk
        obtain ⟨⟨node, left₁⟩, hn, h₁⟩ := Result.bind_eq_ok.mp h
        obtain ⟨others, ho, h₂⟩ := Result.bind_eq_ok.mp h₁
        cases h₂
        obtain ⟨c, rfl, rfl⟩ := component_sound hs hn
        obtain ⟨list, rest, rfl, rfl, hrest⟩ := ih ho
        exact ⟨.component ⟨t, hk⟩ c :: list, rest, by simp [Declaration.tokens], rfl, hrest⟩
      · rename_i hk
        obtain ⟨⟨node, left₁⟩, hn, h₁⟩ := Result.bind_eq_ok.mp h
        obtain ⟨others, ho, h₂⟩ := Result.bind_eq_ok.mp h₁
        cases h₂
        obtain ⟨d, rfl, rfl⟩ := system_sound hs hn
        obtain ⟨list, rest, rfl, rfl, hrest⟩ := ih ho
        exact ⟨.system ⟨t, hk⟩ d :: list, rest, by simp [Declaration.tokens], rfl, hrest⟩
      · simp [fail] at h
      · exact (unexpected_ne_ok h).elim

/-- The line that opens a body neither starts an event nor adds parameters to one. -/
theorem maybeEvent_complete (event : Option Event) (o : Opening) (rest : List Token) :
    s.maybeEvent (System.eventTokens event ++ (o.tokens ++ rest)) =
      .ok (System.eventNodes event, o.tokens ++ rest) := by
  obtain ⟨t, ts, h, hk⟩ := o.tokens_eq
  have hkind : s.kind (o.tokens ++ rest) = t.kind := by
    rw [h]
    rfl
  cases event with
  | none =>
    have hne : s.kind (o.tokens ++ rest) ≠ .keyword .event := by
      rw [hkind]
      rcases hk with hk | hk <;> simp [hk]
    simp [maybeEvent, System.eventTokens, System.eventNodes, hne]
  | some e =>
    have hne : s.kind (o.tokens ++ rest) ≠ .openParen := by
      rw [hkind]
      rcases hk with hk | hk <;> simp [hk]
    have he := event_complete e.name e.carried hne
    simp [maybeEvent, System.eventTokens, System.eventNodes, Event.tokens, he, Event.node]

theorem system_complete (keyword : Token) (d : Grammar.System) (rest : List Token) :
    s.system keyword (d.tokens ++ rest) = .ok (d.node keyword, rest) := by
  have hp := @entityParameter_complete s false d.parameter fun _ => d.named
  have he := maybeEvent_complete (s := s) d.event d.opening (d.body.tokens ++ rest)
  have hb : s.block (fuel (d.body.tokens ++ rest)) (d.body.tokens ++ rest) =
      .ok (d.body.node, rest) := by
    apply block_complete
    simp only [fuel, List.length_append]
    omega
  simp only [system, System.tokens, List.cons_append, List.append_assoc, expect_terminal,
    Result.ok_bind, hp, he, opening_complete, hb, Result.pure_eq]
  rfl

theorem declarations_complete (list : List Declaration) {fuel : Nat}
    (hr : rest = [] ∨ ∃ stop : Terminal .eof, rest = [stop.token])
    (hf : list.length < fuel) :
    s.declarations fuel (list.flatMap Declaration.tokens ++ rest) =
      .ok (list.map Declaration.node) := by
  induction list generalizing fuel with
  | nil =>
    obtain _ | fuel := fuel
    · simp at hf
    rcases hr with rfl | ⟨stop, rfl⟩
    · rfl
    · simp [declarations]
  | cons d list ih =>
    obtain _ | fuel := fuel
    · simp at hf
    have ho := ih (by simpa using hf)
    cases d with
    | component word c =>
      have hc := component_complete (s := s) word.token c (list.flatMap Declaration.tokens ++ rest)
      simp [declarations, Declaration.tokens, hc, ho, Declaration.node]
    | system word d =>
      have hd := system_complete (s := s) word.token d (list.flatMap Declaration.tokens ++ rest)
      simp [declarations, Declaration.tokens, hd, ho, Declaration.node]

end Source

namespace Node

theorem kind_endOf (tokens : List Token) : (endOf tokens).kind = .eof := by
  unfold endOf
  split
  · split
    · assumption
    · rfl
  · rfl

/-- A sentence is parsed to the tree of its derivation. -/
theorem ofTokens_complete (file : String) (f : Grammar.File) :
    ofTokens file f.tokens = .ok (f.node file) := by
  have hrest : (f.stop.map Terminal.token).toList = [] ∨
      ∃ e : Terminal .eof, (f.stop.map Terminal.token).toList = [e.token] := by
    cases f.stop with
    | none => exact Or.inl rfl
    | some e => exact Or.inr ⟨e, rfl⟩
  have hlen : f.declarations.length < f.tokens.length + 1 := by
    have hle := Declaration.length_le f.declarations
    simp only [Grammar.File.tokens, List.length_append]
    omega
  have hd := @Source.declarations_complete ⟨file, endOf f.tokens⟩ _ f.declarations _ hrest hlen
  exact Result.bind_eq_ok.mpr ⟨_, hd, rfl⟩

/-- What is parsed to a tree is a sentence, up to the first end of the file. -/
theorem ofTokens_sound {file : String} {tokens : List Token} {tree : Node}
    (hok : ofTokens file tokens = .ok tree) (h : ∀ t ∈ tokens.dropLast, t.kind ≠ .eof) :
    ∃ f : Grammar.File, f.tokens = tokens ∧ f.node file = tree := by
  obtain ⟨list, hd, h₁⟩ := Result.bind_eq_ok.mp hok
  cases h₁
  obtain ⟨ds, rest, rfl, rfl, rfl | ⟨stop, left, rfl⟩⟩ :=
    Source.declarations_sound (kind_endOf tokens) hd
  · exact ⟨⟨ds, none⟩, rfl, rfl⟩
  · cases left with
    | nil => exact ⟨⟨ds, some stop⟩, rfl, rfl⟩
    | cons t left =>
      -- Reading stops at the first end of the file, so nothing may stand behind it.
      have hmem : stop.token ∈
          (ds.flatMap Declaration.tokens ++ stop.token :: t :: left).dropLast := by
        rw [List.dropLast_append_cons]
        simp
      exact (h stop.token hmem stop.kind_token).elim

/-- A list of tokens without an end of the file, or with one at its end only, is parsed to a tree
exactly when it is a sentence of the grammar whose derivation has that tree. -/
theorem ofTokens_eq_ok {file : String} {tokens : List Token} {tree : Node}
    (h : ∀ t ∈ tokens.dropLast, t.kind ≠ .eof) :
    ofTokens file tokens = .ok tree ↔
      ∃ f : Grammar.File, f.tokens = tokens ∧ f.node file = tree := by
  constructor
  · intro hok
    exact ofTokens_sound hok h
  · rintro ⟨f, rfl, rfl⟩
    exact ofTokens_complete file f

end Node

namespace Grammar

def Terminal.of {kind : TokenKind} (text : String) (line column : Nat) : Terminal kind :=
  ⟨⟨kind, text, line, column⟩, rfl⟩

/-- A system that is read from
```
system Fall(e<Height>)
    e.Height = (e.Height - 1) * rate()
```
-/
def fall : File where
  declarations := [.system (.of "system" 1 1) {
    name := .of "Fall" 1 8
    start := .of "(" 1 12
    parameter := ⟨.of "e" 1 13, .of "<" 1 14, some (.last (.of "Height" 1 15)), .of ">" 1 21⟩
    named := rfl
    stop := .of ")" 1 22
    event := none
    opening := ⟨none, .of "" 1 23⟩
    body := .mk (.of "" 2 1) (.next (.assignment
      ⟨.of "e" 2 5, [(.of "." 2 6, .of "Height" 2 7)]⟩ (.of "=" 2 14)
      (.mk (.group (.of "(" 2 16)
          (.mk (.path ⟨.of "e" 2 17, [(.of "." 2 18, .of "Height" 2 19)]⟩)
            (.next .sub (.of "-" 2 26) (.literal (.integer (.of "1" 2 28))) .done))
          (.of ")" 2 29))
        (.next .mul (.of "*" 2 31)
          (.call (.empty (.of "rate" 2 33) (.of "(" 2 37) (.of ")" 2 38))) .done))
      (.of "" 2 39)) .done) (.of "" 3 1) }]
  stop := some (.of "" 3 1)

theorem fall_parsed : (∀ t ∈ fall.tokens.dropLast, t.kind ≠ .eof) ∧
    Node.ofTokens "fall" fall.tokens = .ok (fall.node "fall") := by
  have h : ∀ t ∈ fall.tokens.dropLast, t.kind ≠ .eof := by decide
  exact ⟨h, (Node.ofTokens_eq_ok h).mpr ⟨fall, rfl, rfl⟩⟩

/-- Two derivations of one sentence have the same tree. -/
theorem File.node_unique {f g : File} (h : f.tokens = g.tokens) (file : String) :
    f.node file = g.node file := by
  have hf := Node.ofTokens_complete file f
  rw [h, Node.ofTokens_complete file g] at hf
  exact (Except.ok.inj hf).symm

end Grammar
end SceneScript.Script
