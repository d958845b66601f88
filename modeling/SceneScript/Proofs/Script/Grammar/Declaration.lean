import SceneScript.Proofs.Script.Grammar.Statement

/-! # Declarations are read by the grammar

The parser carries along what it has read of a list, to refuse a second property of one name and a
second payload. The rules ask for the same of the list as a whole.
-/
namespace SceneScript.Script
namespace Grammar

/-- The number of payloads among the nodes of event parameters. -/
def payloads (nodes : List Node) : Nat := nodes.countP fun n => n.kind == .payload

theorem EventParameter.kind_node (p : EventParameter) :
    (p.node.kind == .payload) = p.isPayload := by
  cases p <;> rfl

theorem payloads_nodes (list : List EventParameter) :
    payloads (list.map EventParameter.node) = list.countP EventParameter.isPayload := by
  rw [payloads, List.countP_map]
  congr 1
  funext p
  exact p.kind_node

theorem payloads_append (nodes others : List Node) :
    payloads (nodes ++ others) = payloads nodes + payloads others :=
  List.countP_append

/-- One more parameter is allowed when it is no payload, or the first one. -/
theorem payloads_concat {known : List Node} {p : EventParameter} :
    payloads (known ++ [p.node]) ≤ 1 ↔ payloads known ≤ 1 ∧
      (p.isPayload = true → (known.any fun n => n.kind == .payload) = false) := by
  have hnone : (known.any fun n => n.kind == .payload) = false ↔ payloads known = 0 := by
    simp [payloads, List.countP_eq_zero]
  have hone : payloads [p.node] = if p.isPayload then 1 else 0 := by
    rw [payloads, List.countP_singleton, p.kind_node]
  rw [payloads_append, hone, hnone]
  cases p.isPayload with
  | false => simp
  | true =>
    simp only [↓reduceIte, forall_const]
    omega

theorem Listed.length_le {α : Type} {spell : α → List Token} (h : ∀ x, 0 < (spell x).length)
    (list : Listed α) : list.toList.length ≤ (list.tokens spell).length := by
  induction list with
  | last x => exact h x
  | next x comma others ih =>
    simp only [Listed.toList, Listed.tokens, List.length_cons, List.length_append]
    omega

theorem Property.length_tokens (list : List Property) :
    (list.flatMap Property.tokens).length = 3 * list.length := by
  induction list with
  | nil => rfl
  | cons p list ih =>
    simp only [List.flatMap_cons, List.length_append, List.length_cons, ih]
    simp only [Property.tokens, List.length_cons, List.length_nil]
    omega

theorem nodup_values_concat {list : List Node} {node : Node} :
    ((list ++ [node]).map Node.value).Nodup ↔
      (list.map Node.value).Nodup ∧ (list.any fun n => n.value == node.value) = false := by
  rw [List.map_append, List.map_singleton, List.nodup_append]
  simp

theorem Property.values_nodes (list : List Property) :
    (list.map Property.node).map Node.value = list.map fun p => p.name.token.text := by
  rw [List.map_map]
  rfl

end Grammar

open Grammar

namespace Source
variable {s : Source} {ts rest : List Token}

/-! ## What is read has a derivation -/

theorem typeName_sound {node : Node} (h : s.typeName ts = .ok (node, rest)) :
    ∃ type : Terminal .identifier,
      ts = type.token :: rest ∧ node = Node.ofToken .type type.token [] := by
  obtain ⟨⟨t, left⟩, ht, h₁⟩ := Result.bind_eq_ok.mp h
  cases h₁
  obtain ⟨type, rfl, rfl⟩ := expect_sound ht
  exact ⟨type, rfl, rfl⟩

theorem properties_sound (hs : s.last.kind = .eof) {fuel : Nat} {known nodes : List Node}
    (h : s.properties fuel known ts = .ok (nodes, rest)) (hk : (known.map Node.value).Nodup) :
    ∃ (list : List Property) (dedent : Terminal .dedent),
      ts = list.flatMap Property.tokens ++ dedent.token :: rest ∧
        nodes = known ++ list.map Property.node ∧ (nodes.map Node.value).Nodup := by
  induction fuel generalizing known ts with
  | zero => exact (unexpected_ne_ok h).elim
  | succ fuel ih =>
    unfold properties at h
    split at h
    · rename_i hd
      obtain ⟨dedent, left, rfl⟩ := kind_sound hs hd (by decide)
      cases h
      exact ⟨[], dedent, by simp, by simp, hk⟩
    · obtain ⟨⟨node, left⟩, ht, h₁⟩ := Result.bind_eq_ok.mp h
      obtain ⟨⟨t, left₁⟩, hn, h₂⟩ := Result.bind_eq_ok.mp h₁
      obtain ⟨type, rfl, rfl⟩ := typeName_sound ht
      obtain ⟨name, rfl, rfl⟩ := expect_sound hn
      dsimp only at h₂
      split at h₂
      · simp [duplicate] at h₂
      · rename_i hnew
        obtain ⟨left₂, he, h₃⟩ := Result.bind_eq_ok.mp h₂
        obtain ⟨newline, rfl⟩ := endOfLine_sound he
        obtain ⟨list, dedent, rfl, rfl, hnodup⟩ :=
          ih h₃ (nodup_values_concat.mpr ⟨hk, Bool.eq_false_iff.mpr hnew⟩)
        exact ⟨⟨type, name, newline⟩ :: list, dedent, by simp [Property.tokens],
          by simp [Property.node], hnodup⟩

theorem propertyBlock_sound (hs : s.last.kind = .eof) {nodes : List Node}
    (h : s.propertyBlock ts = .ok (nodes, rest)) :
    ∃ c : Content, ts = c.tokens ++ rest ∧ nodes = c.nodes := by
  obtain ⟨left, he, h₁⟩ := Result.bind_eq_ok.mp h
  obtain ⟨⟨t, left₁⟩, ht, hp⟩ := Result.bind_eq_ok.mp h₁
  obtain ⟨opening, rfl⟩ := opening_sound he
  obtain ⟨indent, rfl, rfl⟩ := expect_sound ht
  obtain ⟨list, dedent, rfl, rfl, hnodup⟩ := properties_sound hs hp (by simp)
  rw [List.nil_append, Property.values_nodes] at hnodup
  exact ⟨.properties opening indent list hnodup dedent, by simp [Content.tokens], rfl⟩

theorem component_sound (hs : s.last.kind = .eof) {keyword : Token} {node : Node}
    (h : s.component keyword ts = .ok (node, rest)) :
    ∃ c : Component, ts = c.tokens ++ rest ∧ node = c.node keyword := by
  obtain ⟨⟨t, left⟩, ht, h₁⟩ := Result.bind_eq_ok.mp h
  obtain ⟨name, rfl, rfl⟩ := expect_sound ht
  dsimp only at h₁
  split at h₁
  · obtain ⟨⟨node, left₁⟩, hn, h₂⟩ := Result.bind_eq_ok.mp h₁
    obtain ⟨left₂, he, h₃⟩ := Result.bind_eq_ok.mp h₂
    cases h₃
    obtain ⟨type, rfl, rfl⟩ := typeName_sound hn
    obtain ⟨newline, rfl⟩ := endOfLine_sound he
    exact ⟨⟨name, .value type newline⟩, rfl, rfl⟩
  · obtain ⟨⟨nodes, left₁⟩, hb, h₂⟩ := Result.bind_eq_ok.mp h₁
    cases h₂
    obtain ⟨c, rfl, rfl⟩ := propertyBlock_sound hs hb
    exact ⟨⟨name, c⟩, rfl, rfl⟩
  · obtain ⟨⟨nodes, left₁⟩, hb, h₂⟩ := Result.bind_eq_ok.mp h₁
    cases h₂
    obtain ⟨c, rfl, rfl⟩ := propertyBlock_sound hs hb
    exact ⟨⟨name, c⟩, rfl, rfl⟩
  · exact (unexpected_ne_ok h₁).elim

theorem componentNames_sound (hs : s.last.kind = .eof) {fuel : Nat} {nodes : List Node}
    (h : s.componentNames fuel ts = .ok (nodes, rest)) :
    ∃ names, ts = Bracketed.nameTokens (some names) ++ rest ∧
      nodes = Bracketed.nameNodes (some names) := by
  induction fuel generalizing ts nodes with
  | zero => exact (unexpected_ne_ok h).elim
  | succ fuel ih =>
    unfold componentNames at h
    obtain ⟨⟨t, left⟩, ht, h₁⟩ := Result.bind_eq_ok.mp h
    obtain ⟨name, rfl, rfl⟩ := expect_sound ht
    dsimp only at h₁
    split at h₁
    · rename_i hc
      obtain ⟨comma, left, rfl⟩ := kind_sound hs hc (by decide)
      obtain ⟨⟨others, left₁⟩, ho, h₂⟩ := Result.bind_eq_ok.mp h₁
      cases h₂
      rw [skip_terminal] at ho
      obtain ⟨names, rfl, rfl⟩ := ih ho
      exact ⟨.next name comma names, rfl, rfl⟩
    · cases h₁
      exact ⟨.last name, rfl, rfl⟩

theorem bracketed_sound (hs : s.last.kind = .eof) {allowEmpty : Bool} {nodes : List Node}
    (h : s.bracketed allowEmpty ts = .ok (nodes, rest)) :
    ∃ names, ts = Bracketed.nameTokens names ++ rest ∧ nodes = Bracketed.nameNodes names ∧
      (allowEmpty = false → names.isSome) := by
  unfold bracketed at h
  split at h
  · rename_i hallow
    cases h
    exact ⟨none, rfl, rfl, by simp [hallow.1]⟩
  · obtain ⟨names, hts, hnodes⟩ := componentNames_sound hs h
    exact ⟨some names, hts, hnodes, fun _ => rfl⟩

theorem entityParameter_sound (hs : s.last.kind = .eof) {allowEmpty : Bool} {node : Node}
    (h : s.entityParameter allowEmpty ts = .ok (node, rest)) :
    ∃ p : Parameter, ts = p.tokens ++ rest ∧ node = p.node ∧
      (allowEmpty = false → p.components.names.isSome) := by
  obtain ⟨⟨t, left⟩, ht, h₁⟩ := Result.bind_eq_ok.mp h
  obtain ⟨⟨l, left₁⟩, hl, h₂⟩ := Result.bind_eq_ok.mp h₁
  obtain ⟨⟨list, left₂⟩, hb, h₃⟩ := Result.bind_eq_ok.mp h₂
  obtain ⟨⟨g, left₃⟩, hg, h₄⟩ := Result.bind_eq_ok.mp h₃
  cases h₄
  obtain ⟨name, rfl, rfl⟩ := expect_sound ht
  obtain ⟨less, rfl, rfl⟩ := expect_sound hl
  obtain ⟨names, rfl, rfl, hnames⟩ := bracketed_sound hs hb
  obtain ⟨greater, rfl, rfl⟩ := expect_sound hg
  exact ⟨⟨name, less, names, greater⟩, by simp [Parameter.tokens, Bracketed.tokens], rfl, hnames⟩

theorem eventParameter_sound (hs : s.last.kind = .eof) {known : List Node} {node : Node}
    (h : s.eventParameter known ts = .ok (node, rest)) :
    ∃ p : EventParameter, ts = p.tokens ++ rest ∧ node = p.node ∧
      (p.isPayload = true → (known.any fun n => n.kind == .payload) = false) := by
  unfold eventParameter at h
  split at h
  · obtain ⟨p, rfl, rfl, -⟩ := entityParameter_sound hs h
    exact ⟨.group p, rfl, rfl, nofun⟩
  · split at h
    · exact (unexpected_ne_ok h).elim
    · rename_i hnone
      obtain ⟨⟨typeNode, left⟩, ht, h₁⟩ := Result.bind_eq_ok.mp h
      obtain ⟨⟨t, left₁⟩, hn, h₂⟩ := Result.bind_eq_ok.mp h₁
      cases h₂
      obtain ⟨type, rfl, rfl⟩ := typeName_sound ht
      obtain ⟨name, rfl, rfl⟩ := expect_sound hn
      exact ⟨.payload type name, rfl, rfl, fun _ => Bool.eq_false_iff.mpr hnone⟩

theorem eventParameters_sound (hs : s.last.kind = .eof) {fuel : Nat} {known nodes : List Node}
    (h : s.eventParameters fuel known ts = .ok (nodes, rest)) (hk : payloads known ≤ 1) :
    ∃ (list : Listed EventParameter) (stop : Terminal .closeParen),
      ts = list.tokens EventParameter.tokens ++ stop.token :: rest ∧
        nodes = known ++ list.toList.map EventParameter.node ∧ payloads nodes ≤ 1 := by
  induction fuel generalizing known ts with
  | zero => exact (unexpected_ne_ok h).elim
  | succ fuel ih =>
    unfold eventParameters at h
    obtain ⟨⟨node, left⟩, hn, h₁⟩ := Result.bind_eq_ok.mp h
    obtain ⟨p, rfl, rfl, hp⟩ := eventParameter_sound hs hn
    have hknown : payloads (known ++ [p.node]) ≤ 1 := payloads_concat.mpr ⟨hk, hp⟩
    dsimp only at h₁
    split at h₁
    · rename_i hc
      obtain ⟨comma, left, rfl⟩ := kind_sound hs hc (by decide)
      rw [skip_terminal] at h₁
      obtain ⟨list, stop, rfl, rfl, honce⟩ := ih h₁ hknown
      exact ⟨.next p comma list, stop, by simp [Listed.tokens], by simp [Listed.toList], honce⟩
    · obtain ⟨⟨t, left₁⟩, ht, h₂⟩ := Result.bind_eq_ok.mp h₁
      cases h₂
      obtain ⟨stop, rfl, rfl⟩ := expect_sound ht
      exact ⟨.last p, stop, rfl, rfl, hknown⟩

theorem event_sound (hs : s.last.kind = .eof) {node : Node}
    (h : s.event ts = .ok (node, rest)) :
    ∃ (name : Terminal .identifier) (c : Carried), ts = name.token :: (c.tokens ++ rest) ∧
      node = Node.ofToken .eventDeclaration name.token c.nodes := by
  obtain ⟨⟨t, left⟩, hn, h₁⟩ := Result.bind_eq_ok.mp h
  obtain ⟨name, rfl, rfl⟩ := expect_sound hn
  dsimp only at h₁
  split at h₁
  · rename_i hopen
    obtain ⟨start, left, rfl⟩ := kind_sound hs hopen (by decide)
    rw [skip_terminal] at h₁
    split at h₁
    · rename_i hclose
      obtain ⟨stop, left, rfl⟩ := kind_sound hs hclose (by decide)
      cases h₁
      exact ⟨name, .empty start stop, by simp [Carried.tokens], rfl⟩
    · obtain ⟨⟨nodes, left₁⟩, hp, h₂⟩ := Result.bind_eq_ok.mp h₁
      cases h₂
      obtain ⟨list, stop, rfl, rfl, honce⟩ := eventParameters_sound hs hp (by simp [payloads])
      rw [List.nil_append, payloads_nodes] at honce
      exact ⟨name, .given start list honce stop, by simp [Carried.tokens], rfl⟩
  · cases h₁
    exact ⟨name, .nothing, rfl, rfl⟩

/-! ## A derivation is read -/

@[simp] theorem typeName_complete (type : Terminal .identifier) (rest : List Token) :
    s.typeName (type.token :: rest) = .ok (Node.ofToken .type type.token [], rest) := by
  simp [typeName]

theorem properties_complete (list : List Property) (dedent : Terminal .dedent) {fuel : Nat}
    {known : List Node} (hk : ((known ++ list.map Property.node).map Node.value).Nodup)
    (hf : list.length < fuel) :
    s.properties fuel known (list.flatMap Property.tokens ++ dedent.token :: rest) =
      .ok (known ++ list.map Property.node, rest) := by
  induction list generalizing known fuel with
  | nil =>
    obtain _ | fuel := fuel
    · simp at hf
    simp [properties]
  | cons p list ih =>
    obtain _ | fuel := fuel
    · simp at hf
    have happend : known ++ (p :: list).map Property.node =
        (known ++ [p.node]) ++ list.map Property.node := by simp
    rw [happend] at hk ⊢
    have hconcat : ((known ++ [p.node]).map Node.value).Nodup := by
      rw [List.map_append] at hk
      exact (List.nodup_append.mp hk).1
    have hnew : (known.any fun n => n.value == p.name.token.text) = false :=
      (nodup_values_concat.mp hconcat).2
    have ho := ih hk (by simpa using hf)
    simp only [Property.node] at ho ⊢
    simp only [Property.tokens, List.flatMap_cons, List.cons_append, List.nil_append]
    simp only [properties, kind_cons, Terminal.kind_token, reduceCtorEq, ↓reduceIte,
      typeName_complete, Result.ok_bind, expect_terminal, hnew, Bool.false_eq_true,
      endOfLine_terminal, ho]

theorem propertyBlock_complete (opening : Opening) (indent : Terminal .indent)
    (list : List Property) (distinct : (list.map fun p => p.name.token.text).Nodup)
    (dedent : Terminal .dedent) (rest : List Token) :
    s.propertyBlock (opening.tokens ++
      indent.token :: (list.flatMap Property.tokens ++ dedent.token :: rest)) =
        .ok (list.map Property.node, rest) := by
  have hlist : s.properties ((list.flatMap Property.tokens ++ dedent.token :: rest).length + 1) []
      (list.flatMap Property.tokens ++ dedent.token :: rest) =
        .ok ([] ++ list.map Property.node, rest) := by
    apply properties_complete list dedent
    · rwa [List.nil_append, Property.values_nodes]
    · rw [List.length_append, Property.length_tokens]
      omega
  simp only [propertyBlock, opening_complete, Result.ok_bind, expect_terminal, hlist,
    List.nil_append]

/-- A component goes on with a type, or with the end of the line that opens its block. -/
theorem component_complete (keyword : Token) (c : Component) (rest : List Token) :
    s.component keyword (c.tokens ++ rest) = .ok (c.node keyword, rest) := by
  obtain ⟨name, content⟩ := c
  cases content with
  | value type newline =>
    simp [component, Component.tokens, Content.tokens, Component.node, Content.nodes, declaration]
  | properties opening indent list distinct dedent =>
    have hb := propertyBlock_complete (s := s) opening indent list distinct dedent rest
    obtain ⟨t, ts, h, hk⟩ := opening.tokens_eq
    simp only [h, List.cons_append] at hb
    rcases hk with hk | hk
    · simp [component, Component.tokens, Content.tokens, h, hk, hb, Component.node, Content.nodes,
        declaration]
    · simp [component, Component.tokens, Content.tokens, h, hk, hb, Component.node, Content.nodes,
        declaration]

theorem componentNames_complete (names : Listed (Terminal .identifier)) {fuel : Nat}
    (hr : s.kind rest ≠ .comma) (hf : names.toList.length ≤ fuel) :
    s.componentNames fuel (Bracketed.nameTokens (some names) ++ rest) =
      .ok (Bracketed.nameNodes (some names), rest) := by
  simp only [Bracketed.nameTokens, Bracketed.nameNodes]
  induction names generalizing fuel with
  | last name =>
    obtain _ | fuel := fuel
    · simp [Listed.toList] at hf
    simp [componentNames, Listed.tokens, Listed.toList, hr]
  | next name comma others ih =>
    obtain _ | fuel := fuel
    · simp [Listed.toList] at hf
    have ho := ih (by simpa [Listed.toList] using hf)
    simp [componentNames, Listed.tokens, Listed.toList, ho]

/-- A list starts as its members do. -/
theorem kind_listed {α : Type} {spell : α → List Token} {kind : TokenKind}
    (h : ∀ x rest, s.kind (spell x ++ rest) = kind) (list : Listed α) (rest : List Token) :
    s.kind (list.tokens spell ++ rest) = kind := by
  cases list with
  | last x => exact h x rest
  | next x comma others =>
    rw [Listed.tokens, List.append_assoc]
    exact h x _

theorem bracketed_complete {allowEmpty : Bool} (b : Bracketed)
    (hb : allowEmpty = false → b.names.isSome) (rest : List Token) :
    s.bracketed allowEmpty (Bracketed.nameTokens b.names ++ b.greater.token :: rest) =
      .ok (Bracketed.nameNodes b.names, b.greater.token :: rest) := by
  obtain ⟨less, names, greater⟩ := b
  cases names with
  | none =>
    have hallow : allowEmpty = true := by
      cases allowEmpty with
      | false => exact (Bool.false_ne_true (hb rfl)).elim
      | true => rfl
    simp [bracketed, hallow, Bracketed.nameTokens, Bracketed.nameNodes]
  | some names =>
    have hk : s.kind (Bracketed.nameTokens (some names) ++ greater.token :: rest) = .identifier :=
      kind_listed (fun t rest => t.kind_token) names _
    simp only [bracketed, hk, reduceCtorEq, and_false, ↓reduceIte]
    apply componentNames_complete names
    · simp
    · have hlen : names.toList.length ≤ (Bracketed.nameTokens (some names)).length := by
        apply Listed.length_le
        simp
      rw [List.length_append]
      omega

theorem entityParameter_complete {allowEmpty : Bool} (p : Parameter)
    (hp : allowEmpty = false → p.components.names.isSome) (rest : List Token) :
    s.entityParameter allowEmpty (p.tokens ++ rest) = .ok (p.node, rest) := by
  have hb := bracketed_complete (s := s) p.components hp rest
  simp [entityParameter, Parameter.tokens, Bracketed.tokens, hb, Parameter.node]

/-- A group is told from a payload by the bracket behind its name. -/
theorem eventParameter_complete {known : List Node} (p : EventParameter)
    (hp : p.isPayload = true → (known.any fun n => n.kind == .payload) = false)
    (rest : List Token) : s.eventParameter known (p.tokens ++ rest) = .ok (p.node, rest) := by
  cases p with
  | group p =>
    have hg := @entityParameter_complete s true p nofun rest
    have hn : s.nextKind (p.tokens ++ rest) = .operator .lt := by
      simp [Parameter.tokens, Bracketed.tokens]
    simp only [EventParameter.tokens, eventParameter, hn, ↓reduceIte, hg, EventParameter.node]
  | payload type name =>
    simp only [EventParameter.tokens, List.cons_append, List.nil_append, eventParameter,
      nextKind_cons, kind_cons, Terminal.kind_token, reduceCtorEq, ↓reduceIte, hp rfl,
      Bool.false_eq_true, typeName_complete, Result.ok_bind, expect_terminal, EventParameter.node,
      Result.pure_eq]

theorem eventParameters_complete (list : Listed EventParameter) (stop : Terminal .closeParen)
    {fuel : Nat} {known : List Node} (rest : List Token)
    (hk : payloads (known ++ list.toList.map EventParameter.node) ≤ 1)
    (hf : list.toList.length ≤ fuel) :
    s.eventParameters fuel known (list.tokens EventParameter.tokens ++ stop.token :: rest) =
      .ok (known ++ list.toList.map EventParameter.node, rest) := by
  induction list generalizing known fuel with
  | last p =>
    obtain _ | fuel := fuel
    · simp [Listed.toList] at hf
    have hp := eventParameter_complete (s := s) p (payloads_concat.mp hk).2 (stop.token :: rest)
    simp [eventParameters, Listed.tokens, Listed.toList, hp]
  | next p comma others ih =>
    obtain _ | fuel := fuel
    · simp [Listed.toList] at hf
    have happend : known ++ (Listed.next p comma others).toList.map EventParameter.node =
        (known ++ [p.node]) ++ others.toList.map EventParameter.node := by simp [Listed.toList]
    rw [happend] at hk ⊢
    have hconcat : payloads (known ++ [p.node]) ≤ 1 := by
      rw [payloads_append] at hk
      omega
    have hp := eventParameter_complete (s := s) p (payloads_concat.mp hconcat).2
      (comma.token :: (others.tokens EventParameter.tokens ++ stop.token :: rest))
    have ho := ih hk (by simpa [Listed.toList] using hf)
    rw [eventParameters]
    simp only [Listed.tokens, List.append_assoc, List.cons_append, hp, Result.ok_bind, kind_cons,
      Terminal.kind_token, ↓reduceIte, skip_terminal, ho]

theorem kind_parameter (p : EventParameter) (rest : List Token) :
    s.kind (p.tokens ++ rest) = .identifier := by
  cases p with
  | group p => simp [EventParameter.tokens, Parameter.tokens]
  | payload type name => simp [EventParameter.tokens]

/-- An event without parameters ends at its name, or behind a pair of parentheses. -/
theorem event_complete (name : Terminal .identifier) (c : Carried)
    (hr : s.kind rest ≠ .openParen) :
    s.event (name.token :: (c.tokens ++ rest)) =
      .ok (Node.ofToken .eventDeclaration name.token c.nodes, rest) := by
  cases c with
  | nothing => simp [event, Carried.tokens, hr, Carried.nodes]
  | empty start stop => simp [event, Carried.tokens, Carried.nodes]
  | given start list once stop =>
    have hk : s.kind (list.tokens EventParameter.tokens ++ stop.token :: rest) = .identifier :=
      kind_listed kind_parameter list _
    have hlist : s.eventParameters
        ((list.tokens EventParameter.tokens ++ stop.token :: rest).length + 1) []
        (list.tokens EventParameter.tokens ++ stop.token :: rest) =
          .ok ([] ++ list.toList.map EventParameter.node, rest) := by
      apply eventParameters_complete list stop rest
      · rwa [List.nil_append, payloads_nodes]
      · have hlen : list.toList.length ≤ (list.tokens EventParameter.tokens).length := by
          apply Listed.length_le
          intro p
          cases p <;> simp [EventParameter.tokens, Parameter.tokens]
        rw [List.length_append]
        omega
    simp only [Carried.tokens, List.cons_append, List.append_assoc, List.nil_append, event,
      expect_terminal, Result.ok_bind, kind_cons, Terminal.kind_token, ↓reduceIte, skip_terminal,
      hk, reduceCtorEq, hlist, Result.pure_eq, Carried.nodes]

end Source
end SceneScript.Script
