import Mathlib.Data.List.Induction
import SceneScript.Proofs.Component.Combination
import SceneScript.Proofs.Component.Intersection
import SceneScript.Proofs.Script.Loaded
import SceneScript.Proofs.Script.Places
import SceneScript.System.Dispatch

/-! # What the declared names mean

A declaration gives names to the matched entity, to the payload of its event and to the groups of
the event. A body starts with a variable under each of them, in this order. Nothing keeps a
declaration from giving one name twice, and then the later variable is the one that is read.
-/
namespace SceneScript

namespace Table
variable {α β : Type} [Ord α] [Std.LawfulEqOrd α] [DecidableEq α]

/-- Of the entries of a list the last one under a key is found. -/
theorem find?_ofList (entries : List (α × β)) (key : α) :
    Table.find? (ofList entries) key =
      (entries.reverse.find? fun entry => entry.1 == key).map Prod.snd := by
  induction entries using List.reverseRecOn with
  | nil => rfl
  | append_singleton rest entry ih =>
    rw [ofList, List.foldl_append, List.foldl_cons, List.foldl_nil, List.reverse_append,
      List.reverse_singleton, List.singleton_append, List.find?_cons]
    by_cases hk : entry.1 = key
    · subst hk
      rw [find?_insert_self]
      simp
    · rw [find?_insert_ne _ _ (Ne.symm hk), beq_false_of_ne hk]
      exact ih

theorem find?_ofList_of_last (before : List (α × β)) {after : List (α × β)} {key : α} {value : β}
    (h : key ∉ after.map Prod.fst) :
    Table.find? (ofList (before ++ (key, value) :: after)) key = some value := by
  have hafter : (after.reverse.find? fun entry => entry.1 == key) = none := by
    refine List.find?_eq_none.mpr fun entry hm => ?_
    rw [beq_iff_eq]
    rintro rfl
    exact h (List.mem_map_of_mem (List.mem_reverse.mp hm))
  simp [find?_ofList, hafter]

end Table

theorem split_of_getElem? {α : Type} {list : List α} {i : Nat} {x : α} (h : list[i]? = some x) :
    list = list.take i ++ x :: list.drop (i + 1) := by
  obtain ⟨hi, rfl⟩ := List.getElem?_eq_some_iff.mp h
  rw [← List.drop_eq_getElem_cons, List.take_append_drop]

/-! ### Bindings of a delivered event -/

/-- The binding is of this entity and refers to these components of it. -/
structure Binding.Reaches (b : Binding) (s : Store) (e : Entity) (names : List String) : Prop where
  entity : b.entity = e
  names : b.refs.map ComponentRef.name = names
  refs : ∀ r ∈ b.refs, r.entity = e ∧ s.id? r.name = some r.component ∧ s.has e r.component = true

theorem Binding.refTo_has {s : Store} {e : Entity} {name : String} {r : ComponentRef}
    (h : Binding.refTo s e name = .ok r) : s.has e r.component = true := by
  obtain ⟨id, -, h⟩ := Result.bind_eq_ok.mp h
  obtain ⟨c, hc, h⟩ := Result.bind_eq_ok.mp h
  split at h
  · rename_i hhas
    cases h
    rwa [Store.has_eq (Store.get?_of_component hc)]
  · cases h

theorem Binding.of_reaches {s : Store} (hs : s.Linked) {e : Entity} {names : List String}
    {b : Binding} (h : Binding.of s e names = .ok b) : b.Reaches s e names := by
  obtain ⟨refs, hrefs, h⟩ := Result.bind_eq_ok.mp h
  cases h
  refine ⟨rfl, Result.map_of_mapM (fun _ _ h => refTo_name hs h) hrefs, fun r hr => ?_⟩
  obtain ⟨name, -, href⟩ := Result.mem_of_mapM hrefs hr
  obtain ⟨he, hid⟩ := refTo_ok href
  rw [refTo_name hs href]
  exact ⟨he, hid, refTo_has href⟩

theorem Matching.of_reaches {s : Store} {names : List String} {m : Matching}
    (h : Matching.of s names = .ok m) {e : Entity} (he : e ∈ m.entities) :
    (m.bind e).Reaches s e names := by
  obtain ⟨hcolumns, hentities⟩ := Matching.of_ok h
  refine ⟨rfl, ?_, fun r hr => ?_⟩
  · rw [← hcolumns.names, Matching.bind, Matching.names, List.map_map]
    rfl
  · obtain ⟨column, hm, rfl⟩ := List.mem_map.mp hr
    refine ⟨rfl, hcolumns.ids column hm, ?_⟩
    rw [hentities, common] at he
    split at he
    · have hall := (List.mem_filter.mp he).2
      rw [List.all_eq_true] at hall
      exact hall column.1 (List.mem_map_of_mem hm)
    · cases he

theorem mismatch?_eq_none {d : EventDescription} {event : Event} :
    d.mismatch? event = none ↔
      d.payloadType = event.payload.type ∧ event.entities.length = d.groups.length := by
  unfold EventDescription.mismatch?
  dsimp only
  split
  · simp_all
  · split <;> simp_all

/-- The groups of an event are bound in order, each to the entity of the same position. -/
theorem bindGroups_ok {d : EventDescription} {s : Store} (hs : s.Linked) {event : Event}
    {groups : List (String × Binding)} (hfits : d.mismatch? event = none)
    (h : d.bindGroups s event = .ok groups) :
    groups.map Prod.fst = d.groups.map EntityGroup.name ∧
      ∀ (i : Nat) (group : EntityGroup), d.groups[i]? = some group →
        ∃ (e : Entity) (b : Binding), event.entities[i]? = some e ∧
          groups[i]? = some (group.name, b) ∧ b.Reaches s e group.components := by
  have hlength := (mismatch?_eq_none.mp hfits).2
  unfold EventDescription.bindGroups at h
  generalize d.groups = declared at h hlength ⊢
  generalize event.entities = entities at h hlength ⊢
  induction declared generalizing entities groups with
  | nil =>
    cases h
    exact ⟨rfl, fun i group hi => by simp at hi⟩
  | cons first rest ih =>
    obtain _ | ⟨e, others⟩ := entities
    · cases hlength
    rw [List.zip_cons_cons, List.mapM_cons] at h
    obtain ⟨bound, hbound, h⟩ := Result.bind_eq_ok.mp h
    obtain ⟨more, hmore, h⟩ := Result.bind_eq_ok.mp h
    obtain ⟨b, hb, hpair⟩ := Result.bind_eq_ok.mp hbound
    cases h
    cases hpair
    obtain ⟨hnames, hall⟩ := ih others hmore (Nat.succ.inj hlength)
    refine ⟨by rw [List.map_cons, List.map_cons, hnames], fun i group hi => ?_⟩
    cases i with
    | zero =>
      cases hi
      exact ⟨e, b, rfl, rfl, Binding.of_reaches hs hb⟩
    | succ i => exact hall i group hi

namespace Script

/-- The variables that a body starts with, in the order in which they are put on the stack. -/
def initial (d : Declaration) (matched : Binding) (c : EventContext) : List (String × Variable) :=
  (d.entityName, .ofBinding c matched) ::
    ((d.event.payload.map fun payload => (payload.name, .value c.event.payload)).toList ++
      c.groups.map fun group => (group.1, .ofBinding c group.2))

theorem entry_eq (d : Declaration) (matched : Binding) (c : EventContext) :
    Stack.entry d matched c = Table.ofList (initial d matched c) := by
  unfold Stack.entry initial
  cases d.event.payload <;> simp [Table.ofList, Stack.bind, List.foldl_map]

section
variable {d : Declaration} {matched b : Binding} {c : EventContext} {payload : Payload}
  {name : String} {i : Nat}

theorem groupVariables_names :
    (c.groups.map fun group => (group.1, Variable.ofBinding c group.2)).map Prod.fst =
      c.groups.map Prod.fst := by
  rw [List.map_map]
  rfl

theorem find?_entity (hp : ∀ payload, d.event.payload = some payload → payload.name ≠ d.entityName)
    (hg : d.entityName ∉ c.groups.map Prod.fst) :
    Table.find? (Stack.entry d matched c) d.entityName = some (.ofBinding c matched) := by
  rw [entry_eq, initial]
  refine Table.find?_ofList_of_last [] ?_
  rw [List.map_append, groupVariables_names, List.mem_append, not_or]
  refine ⟨?_, hg⟩
  cases hpayload : d.event.payload with
  | none => simp
  | some payload => simpa using (hp payload hpayload).symm

theorem find?_payload (hp : d.event.payload = some payload)
    (hg : payload.name ∉ c.groups.map Prod.fst) :
    Table.find? (Stack.entry d matched c) payload.name = some (.value c.event.payload) := by
  rw [← groupVariables_names] at hg
  rw [entry_eq, initial, hp]
  exact Table.find?_ofList_of_last [(d.entityName, .ofBinding c matched)] hg

theorem find?_group (hb : c.groups[i]? = some (name, b))
    (hg : name ∉ (c.groups.map Prod.fst).drop (i + 1)) :
    Table.find? (Stack.entry d matched c) name = some (.ofBinding c b) := by
  rw [← groupVariables_names, ← List.map_drop, ← List.map_drop] at hg
  rw [entry_eq, initial, split_of_getElem? hb, List.map_append, List.map_cons, ← List.append_assoc,
    ← List.cons_append]
  exact Table.find?_ofList_of_last _ hg

/-- The context reports the first group of a name. -/
theorem group?_of_first (hb : c.groups[i]? = some (name, b))
    (hg : name ∉ (c.groups.map Prod.fst).take i) : c.group? name = some b := by
  have hnone : ((c.groups.take i).find? fun group => group.1 == name) = none := by
    refine List.find?_eq_none.mpr fun other hm heq => hg ?_
    rw [← List.map_take, ← beq_iff_eq.mp heq]
    exact List.mem_map_of_mem hm
  rw [EventContext.group?, split_of_getElem? hb, List.find?_append, hnone]
  simp

end

/-- Behind the name the components of an entity are read as they are at that time. Whatever scripts
have written since the entity was bound, there is a value, and what is read is found in it. -/
def Stack.Shows (stack : Stack) (name : String) (s : Store) (e : Entity)
    (components : List String) : Prop :=
  ∀ component ∈ components, ∃ id, s.id? component = some id ∧
    ∀ h now, s.Rewrites h now → ∃ v, now.at? e id = some v ∧
      ∀ path, stack.read now (name :: component :: path) = ofCore (v.memberPath path)

section
variable {s : Store} {e : Entity} {names : List String} {b : Binding} {c : EventContext}
  {stack : Stack} {name : String}

theorem componentOf_binding (hb : b.Reaches s e names) {r : ComponentRef} (hr : r ∈ b.refs) :
    componentOf (Table.ofList (b.refs.map fun r => (r.name, r))) r.name = .ok r := by
  have hkey : r.name ∈ (b.refs.map fun r => (r.name, r)).map Prod.fst := by
    rw [List.map_map]
    exact List.mem_map_of_mem hr
  obtain ⟨r', hfind⟩ := Option.isSome_iff_exists.mp (Table.find?_ofList_isSome.mpr hkey)
  obtain ⟨r'', hm, heq⟩ := List.mem_map.mp (Table.mem_of_find?_ofList hfind)
  obtain ⟨hname, rfl⟩ := Prod.mk.inj heq
  -- two references of one binding with one name are the same
  obtain ⟨he, hid, -⟩ := hb.refs r hr
  obtain ⟨he', hid', -⟩ := hb.refs r'' hm
  have hsame : r'' = r := by
    obtain ⟨e₁, id₁, name₁⟩ := r
    obtain ⟨e₂, id₂, name₂⟩ := r''
    cases hname
    cases he
    cases he'
    cases Option.some.inj (hid.symm.trans hid')
    rfl
  rw [componentOf, hfind, hsame]

theorem shows_of_find? (hb : b.Reaches s e names)
    (hf : Table.find? stack name = some (.ofBinding c b)) : stack.Shows name s e names := by
  intro component hc
  rw [← hb.names] at hc
  obtain ⟨r, hr, rfl⟩ := List.mem_map.mp hc
  obtain ⟨rfl, hid, hhas⟩ := hb.refs r hr
  refine ⟨r.component, hid, fun h now hnow => ?_⟩
  rw [← hnow.has_eq, ← Store.isSome_at?] at hhas
  obtain ⟨v, hv⟩ := Option.isSome_iff_exists.mp hhas
  refine ⟨v, hv, fun path => ?_⟩
  have hvalue : r.value now = .ok v := by
    have hget : r.get? now = some v := hv
    rw [ComponentRef.value, hget]
  simp only [Stack.read, hf, Variable.ofBinding, componentOf_binding hb hr, Result.ok_bind, hvalue]

end

/-! ### What is written in a declaration -/

/-- The declaration says what is written in its node. Without an event it waits for every frame. -/
structure Says (n : Node) (d : Declaration) : Prop where
  entity : ∃ p, n.child? .entityParameter = some p ∧ d.entityName = p.value ∧
    d.components = p.segments
  frame : n.child? .eventDeclaration = none → d.event = .tick
  event : ∀ event, n.child? .eventDeclaration = some event → d.event.name = event.value ∧
    d.event.groups = (event.childrenOf .entityParameter).map (fun p => ⟨p.value, p.segments⟩) ∧
      d.event.payload.map Payload.name = (event.childrenOf .payload).getLast?.map Node.value

theorem eventWith_ok {file : String} {known : Index} {d d' : EventDescription} {list : List Node}
    (h : Node.eventWith file known d list = .ok d') :
    d'.name = d.name ∧
      d'.groups = d.groups ++
        (list.filter fun c => c.kind == .entityParameter).map (fun p => ⟨p.value, p.segments⟩) ∧
      d'.payload.map Payload.name =
        ((list.filter fun c => c.kind == .payload).getLast?.map Node.value).or
          (d.payload.map Payload.name) := by
  induction list generalizing d with
  | nil =>
    cases h
    simp
  | cons p rest ih =>
    unfold Node.eventWith at h
    split at h
    · rename_i hk
      obtain ⟨type, -, h⟩ := Result.bind_eq_ok.mp h
      obtain ⟨basic, -, h⟩ := Result.bind_eq_ok.mp h
      obtain ⟨hname, hgroups, hpayload⟩ := ih h
      refine ⟨hname, ?_, ?_⟩
      · simpa [hk] using hgroups
      · rw [hpayload]
        simp [hk, List.getLast?_cons]
    · rename_i hk
      obtain ⟨_, -, h⟩ := Result.bind_eq_ok.mp h
      obtain ⟨hname, hgroups, hpayload⟩ := ih h
      refine ⟨hname, ?_, ?_⟩
      · simpa [hk] using hgroups
      · simpa [hk] using hpayload
    · cases h

theorem systemParts_says {n : Node} {file : String} {known : Index} {d : Declaration} {body : Node}
    (h : n.systemParts file known = .ok (d, body)) : Says n d := by
  obtain ⟨parameter, hp, h⟩ := Result.bind_eq_ok.mp h
  obtain ⟨_, _, h⟩ := Result.bind_eq_ok.mp h
  obtain ⟨event, hevent, h⟩ := Result.bind_eq_ok.mp h
  obtain ⟨block, hblock, h⟩ := Result.bind_eq_ok.mp h
  cases h
  refine ⟨⟨parameter, ?_, rfl, rfl⟩, fun hnone => ?_, fun declared hd => ?_⟩
  · unfold Node.child at hp
    split at hp
    · cases hp
      assumption
    · cases hp
  · rw [Node.systemEvent, hnone] at hevent
    cases hevent
    rfl
  · rw [Node.systemEvent, hd] at hevent
    obtain ⟨hname, hgroups, hpayload⟩ := eventWith_ok hevent
    exact ⟨hname, by simpa [Node.childrenOf] using hgroups,
      by simpa [Node.childrenOf] using hpayload⟩

/-- A loaded system has the names that are written in its declaration. When an event is delivered to
it, in any store whose names lead to its components, they stand for variables that a body finds as
soon as it starts. A name that is given to more than one thing stands for the last of them, where
the entity comes first, then the payload, then the groups. So behind the name of the entity the
components of the matched entity are read, unless the payload or a group has that name; the name of
the payload is read as the payload of the event, unless a group has it; and behind the name of a
group the components of the entity that the event carries in its place are read, unless a later
group has it. The context reports that entity for the name, unless an earlier group has it. -/
theorem declared_names {config : Config} {body : Node} {system : System}
    (hl : Loaded config body system) {store : Store} (hs : store.Linked) {event : Event}
    {groups : List (String × Binding)} {m : Matching}
    (hfits : system.declaration.event.mismatch? event = none)
    (hprepared : Progress.prepare store system event = .ok (groups, m)) {e : Entity}
    (he : e ∈ m.entities) (roster : Roster) :
    let d := system.declaration
    let c : EventContext := ⟨event, groups, roster⟩
    let stack := Stack.entry d (m.bind e) c
    let groupNames := d.event.groups.map EntityGroup.name
    (∃ file source tree, Node.ofSource file source = .ok tree ∧ ∃ n ∈ tree.children, Says n d) ∧
      (∀ name, Table.find? stack name =
        ((initial d (m.bind e) c).reverse.find? fun x => x.1 == name).map Prod.snd) ∧
      ((∀ payload, d.event.payload = some payload → payload.name ≠ d.entityName) →
        d.entityName ∉ groupNames → stack.Shows d.entityName store e d.components) ∧
      (∀ payload, d.event.payload = some payload → payload.name ∉ groupNames →
        event.payload.type = payload.type ∧ ∀ now path,
          stack.read now (payload.name :: path) = ofCore (event.payload.memberPath path)) ∧
      ∀ (i : Nat) (group : EntityGroup), d.event.groups[i]? = some group →
        ∃ e', event.entities[i]? = some e' ∧
          (group.name ∉ groupNames.drop (i + 1) →
            stack.Shows group.name store e' group.components) ∧
          (group.name ∉ groupNames.take i →
            (c.group? group.name).map Binding.entity = some e') := by
  intro d c stack groupNames
  obtain ⟨bound, hbound, hprepared⟩ := Result.bind_eq_ok.mp hprepared
  obtain ⟨matching, hmatching, hprepared⟩ := Result.bind_eq_ok.mp hprepared
  cases hprepared
  obtain ⟨hnames, hgroups⟩ : c.groups.map Prod.fst = groupNames ∧ _ := bindGroups_ok hs hfits hbound
  rw [← hnames]
  refine ⟨?_, fun name => ?_, fun hpayload hgroup => ?_, fun payload hp hgroup => ⟨?_, ?_⟩,
    fun i group hi => ?_⟩
  · obtain ⟨file, source, _, _, tree, n, hn, known, -, -, htree, hparts⟩ := hl.load
    exact ⟨file, source, tree, htree, n, hn, systemParts_says hparts⟩
  · rw [← Table.find?_ofList, ← entry_eq]
  · exact shows_of_find? (Matching.of_reaches hmatching he) (find?_entity hpayload hgroup)
  · rw [← (mismatch?_eq_none.mp hfits).1, EventDescription.payloadType, hp]
  · intro now path
    simp only [stack, Stack.read, find?_payload hp hgroup, c]
  · obtain ⟨e', b, he', hb, hreach⟩ := hgroups i group hi
    refine ⟨e', he', fun hlater => ?_, fun hearlier => ?_⟩
    · exact shows_of_find? hreach (find?_group hb hlater)
    · rw [group?_of_first hb hearlier, Option.map_some, hreach.entity]

/-- A load that answers some declarations has answered systems with them. -/
theorem loaded_of_declarations {config : Config} {file source : String} {index : Index}
    {ds : List Declaration}
    (h : (loadSource config file source index).result.toOption.map (List.map System.declaration) =
      some ds) : ∀ d ∈ ds, ∃ body system, Loaded config body system ∧ system.declaration = d := by
  cases hload : (loadSource config file source index).result with
  | error err =>
    rw [hload] at h
    cases h
  | ok systems =>
    rw [hload] at h
    cases h
    intro d hd
    obtain ⟨system, hs, rfl⟩ := List.mem_map.mp hd
    obtain ⟨tree, htree, hall⟩ := loadSource_ok hload
    obtain ⟨n, hn, known, d, body, hparts, rfl⟩ := hall system hs
    exact ⟨body, _, ⟨⟨file, source, index, systems, tree, n, hn, known, hload, hs, htree, hparts⟩,
      rfl⟩, rfl⟩

/-- Two entities with names. -/
def guests : Store :=
  ⟨[("Tag", ⟨0⟩)], [⟨.tag, ⟨.record [("name", .string)], .table [
    (⟨0⟩, .record [("name", .string "ann")]), (⟨1⟩, .record [("name", .string "bob")])]⟩⟩]⟩

theorem linked_guests : guests.Linked := (Store.linked_empty.register .tag).congr rfl

/-- A system that greets every named entity with the word and the name of another one. -/
def greets : String :=
  "system greets(e<Tag>) event Meet(String word, other<Tag>)\n print(word + other.Tag.name)\n"

def greetsDeclaration : Declaration :=
  ⟨"greets", "e", ["Tag"], ⟨"Meet", [⟨"other", ["Tag"]⟩], some ⟨"word", .string⟩⟩⟩

theorem greets_names : ∃ body system groups m, Loaded {} body system ∧
    Progress.prepare guests system ⟨"Meet", .string "hello ", [⟨1⟩]⟩ = .ok (groups, m) ∧
      ⟨0⟩ ∈ m.entities ∧
        let c : EventContext := ⟨⟨"Meet", .string "hello ", [⟨1⟩]⟩, groups, {}⟩
        let stack := Stack.entry system.declaration (m.bind ⟨0⟩) c
        stack.Shows "e" guests ⟨0⟩ ["Tag"] ∧ stack.read guests ["word"] = .ok (.string "hello ") ∧
          stack.Shows "other" guests ⟨1⟩ ["Tag"] ∧
            (c.group? "other").map Binding.entity = some ⟨1⟩ := by
  have hload : (loadSource {} "greets" greets .initial).result.toOption.map
      (List.map System.declaration) = some [greetsDeclaration] := by
    decide +kernel
  obtain ⟨body, system, hl, hd⟩ := loaded_of_declarations hload _ (List.mem_singleton_self _)
  have hfits : system.declaration.event.mismatch? ⟨"Meet", .string "hello ", [⟨1⟩]⟩ = none := by
    rw [hd]
    rfl
  obtain ⟨groups, m, hprepared, hm⟩ : ∃ groups m,
      Progress.prepare guests system ⟨"Meet", .string "hello ", [⟨1⟩]⟩ = .ok (groups, m) ∧
        ⟨0⟩ ∈ m.entities := by
    simp only [Progress.prepare, hd]
    exact ⟨_, _, rfl, by decide⟩
  obtain ⟨-, -, hentity, hpayload, hgroup⟩ := declared_names hl linked_guests hfits hprepared hm {}
  rw [hd] at hentity hpayload hgroup
  refine ⟨body, system, groups, m, hl, hprepared, hm, ?_⟩
  dsimp only
  rw [hd]
  obtain ⟨e', he', hshows, hreports⟩ := hgroup 0 ⟨"other", ["Tag"]⟩ rfl
  cases he'
  exact ⟨hentity (by decide) (by decide), (hpayload _ rfl (by decide)).2 guests [],
    hshows (by decide), hreports (by decide)⟩

/-- A system that gives its entity the name that the payload of every frame has. -/
def hides : String := "system hides(deltaTime<Tag>)\n print(deltaTime.Tag.name)\n"

/-- The name of the entity stands for the payload, so its component cannot be read. -/
theorem hides_entity : ∃ body system m, Loaded {} body system ∧
    system.declaration.event.mismatch? (.tick 0) = none ∧
      Progress.prepare guests system (.tick 0) = .ok ([], m) ∧ ⟨0⟩ ∈ m.entities ∧
        system.declaration.entityName = "deltaTime" ∧ "Tag" ∈ system.declaration.components ∧
          guests.at? ⟨0⟩ ⟨0⟩ = some (.record [("name", .string "ann")]) ∧
            (Stack.entry system.declaration (m.bind ⟨0⟩) ⟨.tick 0, [], {}⟩).read guests
              ["deltaTime", "Tag", "name"] = .error (.core (.unknownMember .number "Tag")) := by
  have hload : (loadSource {} "hides" hides .initial).result.toOption.map
      (List.map System.declaration) = some [⟨"hides", "deltaTime", ["Tag"], .tick⟩] := by
    decide +kernel
  obtain ⟨body, system, hl, hd⟩ := loaded_of_declarations hload _ (List.mem_singleton_self _)
  obtain ⟨m, hprepared, hm⟩ : ∃ m, Progress.prepare guests system (.tick 0) = .ok ([], m) ∧
      ⟨0⟩ ∈ m.entities := by
    simp only [Progress.prepare, hd]
    exact ⟨_, rfl, by decide⟩
  refine ⟨body, system, m, hl, ?_, hprepared, hm, ?_⟩
  · rw [hd]
    rfl
  · rw [hd]
    exact ⟨rfl, List.mem_singleton_self _, rfl, rfl⟩

end Script
end SceneScript
