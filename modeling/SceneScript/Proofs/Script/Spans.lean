import SceneScript.Proofs.Script.Layout

/-! # What tokens cover

Every token that is not there for the layout is a run of characters of its line. The runs follow
each other without overlap, and between them there is nothing but blanks, and a comment at the end.
-/
namespace SceneScript.Script

namespace Line

/-! ### The characters of one token -/

/-- What stands between the quotes of a string means some characters: a backslash makes one of the
character behind it, and every other character means itself. -/
inductive Unescapes : List Char → List Char → Prop
  | nil : Unescapes [] []
  | escaped {c : Char} {body text : List Char} :
    Unescapes body text → Unescapes ('\\' :: c :: body) (unescape c :: text)
  | plain {c : Char} {body text : List Char} :
    c ≠ '"' → c ≠ '\\' → Unescapes body text → Unescapes (c :: body) (c :: text)

/-- A run of characters is a token of this kind with this text. -/
inductive Spells : TokenKind → String → List Char → Prop
  | quoted {body text : List Char} :
    Unescapes body text → Spells .string (String.ofList text) ('"' :: body ++ ['"'])
  | exact {kind : TokenKind} {text : List Char} :
    kind ≠ .string → text ≠ [] → Spells kind (String.ofList text) text

theorem Spells.ne_nil {kind : TokenKind} {text : String} {chars : List Char}
    (h : Spells kind text chars) : chars ≠ [] := by
  cases h with
  | quoted _ => exact List.cons_ne_nil _ _
  | exact _ hne => exact hne

theorem readString?_eq_some {cs text tail : List Char} {width : Nat}
    (h : readString? cs = some (text, width, tail)) :
    ∃ body, cs = body ++ '"' :: tail ∧ width = body.length + 1 ∧ Unescapes body text := by
  fun_induction readString? cs generalizing text width tail with
  | case1 => cases h
  | case2 rest =>
    cases h
    exact ⟨[], rfl, rfl, .nil⟩
  | case3 c rest ih =>
    obtain ⟨⟨text', width', tail'⟩, hrest, heq⟩ := Option.map_eq_some_iff.mp h
    cases heq
    obtain ⟨body, rfl, rfl, hbody⟩ := ih hrest
    exact ⟨'\\' :: c :: body, rfl, rfl, hbody.escaped⟩
  | case4 => cases h
  | case5 c rest hquote hescape hend ih =>
    obtain ⟨⟨text', width', tail'⟩, hrest, heq⟩ := Option.map_eq_some_iff.mp h
    cases heq
    obtain ⟨body, rfl, rfl, hbody⟩ := ih hrest
    refine ⟨c :: body, rfl, rfl, hbody.plain hquote ?_⟩
    rintro rfl
    cases body with
    | nil => exact hescape '"' tail rfl rfl
    | cons d body => exact hescape d _ rfl rfl

/-- The digits of a number are the characters in front of what is left, with a point at most. -/
theorem readDigits_spec (text : List Char) :
    (readDigits text).1 ++ (readDigits text).2.2 = text ∧
      ∀ c ∈ (readDigits text).1, c.isDigit = true ∨ c = '.' := by
  have hwhole : ∀ c ∈ text.takeWhile Char.isDigit, c.isDigit = true :=
    List.all_eq_true.mp List.all_takeWhile
  have hsplit := List.takeWhile_append_dropWhile (p := Char.isDigit) (l := text)
  unfold readDigits
  dsimp only
  split
  · rename_i d rest hd
    rw [hd] at hsplit
    split
    · refine ⟨?_, ?_⟩
      · rw [List.append_assoc, List.cons_append, List.takeWhile_append_dropWhile, hsplit]
      · intro c hc
        rcases List.mem_append.mp hc with hc | hc
        · exact Or.inl (hwhole c hc)
        · rcases List.mem_cons.mp hc with rfl | hc
          · exact Or.inr rfl
          · exact Or.inl (List.all_eq_true.mp List.all_takeWhile c hc)
    · exact ⟨hsplit, fun c hc => Or.inl (hwhole c hc)⟩
  · exact ⟨hsplit, fun c hc => Or.inl (hwhole c hc)⟩

/-- A token takes characters from the front of the text, and these are the token. -/
def Takes (text : List Char) (found : Lexeme) : Prop :=
  ∃ chars, text = chars ++ found.rest ∧ found.width = chars.length ∧
    Spells found.kind found.text chars

theorem readDigits_ne_nil {text : List Char} (h : startsDigit text = true) :
    (readDigits text).1 ≠ [] := by
  obtain _ | ⟨d, rest⟩ := text
  · cases h
  have hd : d.isDigit = true := h
  have hwhole : (d :: rest).takeWhile Char.isDigit ≠ [] := by
    rw [List.takeWhile_cons_of_pos hd]
    exact List.cons_ne_nil _ _
  unfold readDigits
  dsimp only
  split
  · split
    · exact List.append_ne_nil_of_left_ne_nil hwhole _
    · exact hwhole
  · exact hwhole

theorem number_takes {sign text : List Char} {found : Lexeme} (hdigit : startsDigit text = true)
    (h : number sign text = .ok found) : Takes (sign ++ text) found := by
  have hne := readDigits_ne_nil hdigit
  have hsplit := (readDigits_spec text).1
  have hkind := (number_kind h).1
  rcases hd : readDigits text with ⟨digits, fraction, rest⟩
  rw [hd] at hne hsplit
  simp only [number, hd] at h
  generalize (if fraction then TokenKind.number else .integer) = kind at h
  split at h
  · cases h
    refine ⟨sign ++ digits, ?_, by simp, .exact ?_ (by simp [hne])⟩
    · rw [List.append_assoc, hsplit]
    · intro hs
      rcases hkind with hk | hk <;> cases hs.symm.trans hk
  · cases h

theorem word_takes {c : Char} (rest : List Char) (hc : Text.startsName c = true) :
    Takes (c :: rest) (word (c :: rest)) := by
  have hcontinues : Text.continuesName c = true := by
    simp only [Text.startsName, Text.continuesName, Bool.or_eq_true] at hc ⊢
    exact hc.imp_left Or.inl
  refine ⟨(c :: rest).takeWhile Text.continuesName, ?_, rfl, .exact ?_ ?_⟩
  · exact List.takeWhile_append_dropWhile.symm
  · rcases word_kind (c :: rest) with hk | ⟨k, hk⟩ <;> simp [hk]
  · rw [List.takeWhile_cons_of_pos hcontinues]
    exact List.cons_ne_nil _ _

theorem mark_plain {c : Char} {rest : List Char} {found : Lexeme} (h : mark c rest = .ok found) :
    found.kind ≠ .string ∧ found.kind ≠ .number ∧ found.kind ≠ .integer := by
  rcases mark_kind h with ⟨op, hk, -⟩ | hk
  · simp [hk]
  · generalize found.kind = kind at hk
    unfold TokenKind.ofPunctuation? at hk
    split at hk <;> cases hk <;> simp

theorem mark_takes {c : Char} {rest : List Char} {found : Lexeme} (h : mark c rest = .ok found) :
    Takes (c :: rest) found := by
  have hkind := (mark_plain h).1
  unfold mark at h
  split at h
  · rename_i lexeme hl
    cases h
    unfold longOperator? at hl
    split at hl
    · rename_i c' d rest' heq
      obtain ⟨op, -, rfl⟩ := Option.map_eq_some_iff.mp hl
      rw [heq]
      exact ⟨[c', d], rfl, rfl, .exact hkind (by simp)⟩
    · cases hl
  · split at h
    · cases h
      exact ⟨[c], rfl, rfl, .exact hkind (by simp)⟩
    · split at h
      · cases h
        exact ⟨[c], rfl, rfl, .exact hkind (by simp)⟩
      · cases h

theorem lexeme_takes {operand : Bool} {c : Char} {rest : List Char} {found : Lexeme}
    (h : lexeme operand c rest = .ok found) : Takes (c :: rest) found := by
  unfold lexeme at h
  split at h
  · rename_i hc
    subst hc
    split at h
    · rename_i text width tail hr
      cases h
      obtain ⟨body, rfl, rfl, hbody⟩ := readString?_eq_some hr
      exact ⟨'"' :: body ++ ['"'], by simp, by simp, .quoted hbody⟩
    · cases h
  · split at h
    · rename_i hc
      have hdigit : startsDigit (c :: rest) = true := hc
      exact number_takes hdigit h
    · split at h
      · rename_i hminus
        obtain ⟨rfl, hd, -⟩ := hminus
        exact number_takes hd h
      · split at h
        · rename_i hname
          cases h
          exact word_takes rest hname
        · exact mark_takes h

/-- A number or an integer with a minus. -/
def IsNegative (kind : TokenKind) (text : String) : Prop :=
  (kind = .number ∨ kind = .integer) ∧ '-' ∈ text.toList

theorem number_text {sign text : List Char} {found : Lexeme}
    (h : number sign text = .ok found) :
    found.text = String.ofList (sign ++ (readDigits text).1) := by
  rcases hd : readDigits text with ⟨digits, fraction, rest⟩
  simp only [number, hd] at h
  generalize (if fraction then TokenKind.number else .integer) = kind at h
  split at h <;> cases h
  rfl

/-- Only where an operand is expected a minus becomes part of a number. -/
theorem operand_of_isNegative {operand : Bool} {c : Char} {rest : List Char} {found : Lexeme}
    (h : lexeme operand c rest = .ok found) (hn : IsNegative found.kind found.text) :
    operand = true := by
  obtain ⟨hkind, hminus⟩ := hn
  unfold lexeme at h
  split at h
  · split at h
    · cases h
      simp at hkind
    · cases h
  · split at h
    · rw [number_text h, String.toList_ofList, List.nil_append] at hminus
      rcases (readDigits_spec (c :: rest)).2 '-' hminus with hd | hd <;> cases hd
    · split at h
      · rename_i hoperand
        exact hoperand.2.2
      · split at h
        · cases h
          rcases word_kind (c :: rest) with hk | ⟨k, hk⟩ <;> simp [hk] at hkind
        · obtain ⟨-, hnumber, hinteger⟩ := mark_plain h
          exact (hkind.elim hnumber hinteger).elim

/-! ### The characters of a line -/

/-- A token of a line and the characters that it takes. -/
structure Span where
  token : Token
  chars : List Char

/-- The column behind a token. -/
def Span.stop (x : Span) : Nat := x.token.column + x.chars.length

/-- The characters of a line from a column on are blanks, tokens, and a comment at the end. -/
inductive Covers (line : Nat) : (column : Nat) → List Char → List Span → Prop
  | done {column : Nat} : Covers line column [] []
  | blank {column : Nat} {c : Char} {rest : List Char} {spans : List Span} :
    isBlank c = true → Covers line (column + 1) rest spans → Covers line column (c :: rest) spans
  | comment {column : Nat} {rest : List Char} : Covers line column ('#' :: rest) []
  | token {column : Nat} {kind : TokenKind} {text : String} {chars rest : List Char}
      {spans : List Span} :
    Spells kind text chars → Covers line (column + chars.length) rest spans →
      Covers line column (chars ++ rest) (⟨⟨kind, text, line, column⟩, chars⟩ :: spans)

/-- A minus is part of a number only where no operand can have ended just before. -/
def Signed (operand : Bool) : List Token → Prop
  | [] => True
  | t :: rest => (IsNegative t.kind t.text → operand = true) ∧ Signed (!t.kind.endsOperand) rest

theorem tokensFrom_covers {line fuel column : Nat} {operand : Bool} {text : List Char}
    {ts : List Token} (h : tokensFrom line fuel column operand text = .ok ts)
    (hfuel : text.length ≤ fuel) :
    Signed operand ts ∧ ∃ spans, spans.map Span.token = ts ∧ Covers line column text spans := by
  induction fuel generalizing column operand text ts with
  | zero =>
    cases h
    obtain rfl := List.eq_nil_of_length_eq_zero (Nat.le_zero.mp hfuel)
    exact ⟨trivial, [], rfl, .done⟩
  | succ fuel ih =>
    obtain _ | ⟨c, rest⟩ := text
    · cases h
      exact ⟨trivial, [], rfl, .done⟩
    unfold tokensFrom at h
    split at h
    · rename_i hb
      obtain ⟨hsigned, spans, hspans, hcovers⟩ := ih h (Nat.le_of_succ_le_succ hfuel)
      exact ⟨hsigned, spans, hspans, .blank hb hcovers⟩
    · split at h
      · rename_i hc
        subst hc
        cases h
        exact ⟨trivial, [], rfl, .comment⟩
      · split at h
        · cases h
        · rename_i found hfound
          obtain ⟨more, hmore, h⟩ := Result.bind_eq_ok.mp h
          cases h
          obtain ⟨chars, htext, hwidth, hspells⟩ := lexeme_takes hfound
          have hpos := List.length_pos_iff.mpr hspells.ne_nil
          have hlength : chars.length + found.rest.length ≤ fuel + 1 := by
            rw [← List.length_append, ← htext]
            exact hfuel
          obtain ⟨hsigned, spans, hspans, hcovers⟩ := ih hmore (by omega)
          rw [hwidth] at hcovers
          rw [htext]
          exact ⟨⟨operand_of_isNegative hfound, hsigned⟩, _ :: spans,
            by rw [List.map_cons, hspans], .token hspells hcovers⟩

section
variable {line column : Nat} {text : List Char} {spans : List Span}

/-- Every token is the run of characters at its place. -/
theorem Covers.at (h : Covers line column text spans) : ∀ x ∈ spans, x.token.line = line ∧
    Spells x.token.kind x.token.text x.chars ∧
      ∃ front back, text = front ++ x.chars ++ back ∧ x.token.column = column + front.length := by
  induction h with
  | done | comment => simp
  | @blank column c rest spans _ _ ih =>
    intro x hx
    obtain ⟨hline, hspells, front, back, rfl, hcolumn⟩ := ih x hx
    refine ⟨hline, hspells, c :: front, back, rfl, ?_⟩
    rw [hcolumn, List.length_cons]
    omega
  | @token column kind text chars rest spans hspells _ ih =>
    intro x hx
    rcases List.mem_cons.mp hx with rfl | hx
    · exact ⟨rfl, hspells, [], rest, rfl, rfl⟩
    · obtain ⟨hline, hspells, front, back, rfl, hcolumn⟩ := ih x hx
      refine ⟨hline, hspells, chars ++ front, back, by simp, ?_⟩
      rw [hcolumn, List.length_append]
      omega

theorem Span.column_lt_stop {x : Span} (h : Spells x.token.kind x.token.text x.chars) :
    x.token.column < x.stop :=
  Nat.lt_add_of_pos_right (List.length_pos_iff.mpr h.ne_nil)

/-- Every token ends before the next one starts. -/
theorem Covers.apart (h : Covers line column text spans) :
    spans.Pairwise fun x y => x.stop ≤ y.token.column := by
  induction h with
  | done | comment => exact .nil
  | blank _ _ ih => exact ih
  | token _ hrest ih =>
    refine List.pairwise_cons.mpr ⟨fun y hy => ?_, ih⟩
    obtain ⟨-, -, front, back, -, hcolumn⟩ := hrest.at y hy
    rw [hcolumn]
    exact Nat.le_add_right _ _

/-- A character of the text is in a token, or a blank, or in a comment behind all tokens. -/
theorem Covers.outside (h : Covers line column text spans) {front back : List Char} {c : Char}
    (ht : text = front ++ c :: back) :
    (∃ x ∈ spans, x.token.column ≤ column + front.length ∧ column + front.length < x.stop) ∨
      isBlank c = true ∨
      ∃ before rest, text = before ++ '#' :: rest ∧ before.length ≤ front.length ∧
        ∀ x ∈ spans, x.stop ≤ column + before.length := by
  induction h generalizing front with
  | done => simp at ht
  | comment => exact Or.inr (Or.inr ⟨[], _, rfl, Nat.zero_le _, by simp⟩)
  | @blank column b rest spans hb _ ih =>
    obtain _ | ⟨d, front⟩ := front
    · cases ht
      exact Or.inr (Or.inl hb)
    · cases ht
      rcases ih rfl with ⟨x, hx, hle, hlt⟩ | hc | ⟨before, rest, heq, hle, hall⟩
      · refine Or.inl ⟨x, hx, ?_, ?_⟩ <;> rw [List.length_cons] <;> omega
      · exact Or.inr (Or.inl hc)
      · refine Or.inr (Or.inr ⟨b :: before, rest, by rw [heq, List.cons_append], ?_, ?_⟩)
        · exact Nat.succ_le_succ hle
        · intro x hx
          have := hall x hx
          rw [List.length_cons]
          omega
  | @token column kind text chars rest spans _ _ ih =>
    by_cases hin : front.length < chars.length
    · refine Or.inl ⟨_, List.mem_cons_self .., Nat.le_add_right _ _, ?_⟩
      exact Nat.add_lt_add_left hin column
    · obtain ⟨front, rfl, hrest⟩ : ∃ more, front = chars ++ more ∧ rest = more ++ c :: back := by
        rcases List.append_eq_append_iff.mp ht with ⟨more, hf, hr⟩ | ⟨more, hchars, hr⟩
        · exact ⟨more, hf, hr⟩
        · have hmore : more = [] := by
            refine List.eq_nil_of_length_eq_zero ?_
            rw [hchars, List.length_append] at hin
            omega
          subst hmore
          exact ⟨[], by simpa using hchars.symm, by simpa using hr.symm⟩
      rw [List.length_append, ← Nat.add_assoc]
      rcases ih hrest with ⟨x, hx, hplace⟩ | hc | ⟨before, behind, heq, hle, hall⟩
      · exact Or.inl ⟨x, List.mem_cons_of_mem _ hx, hplace⟩
      · exact Or.inr (Or.inl hc)
      · refine Or.inr (Or.inr ⟨chars ++ before, behind, by rw [heq, List.append_assoc], ?_, ?_⟩)
        · rw [List.length_append]
          omega
        · rw [List.length_append, ← Nat.add_assoc, List.forall_mem_cons]
          exact ⟨Nat.le_add_right _ _, hall⟩

end

theorem covers_blanks {line column : Nat} {blanks text : List Char} {spans : List Span}
    (hb : ∀ b ∈ blanks, isBlank b = true) (h : Covers line (column + blanks.length) text spans) :
    Covers line column (blanks ++ text) spans := by
  induction blanks generalizing column with
  | nil => exact h
  | cons b rest ih =>
    rw [List.forall_mem_cons] at hb
    refine .blank hb.1 (ih hb.2 ?_)
    rw [List.length_cons] at h
    rwa [Nat.add_assoc, Nat.add_comm 1]

/-! ### Signs across the layout -/

theorem signed_layout {marks more : List Token} (hm : ∀ t ∈ marks, t.kind.isContent = false)
    (h : Signed true more) : Signed true (marks ++ more) := by
  induction marks with
  | nil => exact h
  | cons t rest ih =>
    rw [List.forall_mem_cons] at hm
    have hends : t.kind.endsOperand = false := by
      have hlayout := hm.1
      generalize t.kind = kind at hlayout
      cases kind <;> first | rfl | cases hlayout
    refine ⟨fun _ => rfl, ?_⟩
    rw [hends]
    exact ih hm.2

theorem Signed.append {operand : Bool} {content more : List Token} (h : Signed operand content)
    (hm : ∀ operand, Signed operand more) : Signed operand (content ++ more) := by
  induction content generalizing operand with
  | nil => exact hm operand
  | cons t rest ih => exact ⟨h.1, ih h.2⟩

/-- In front of a negative number stands no token that ends an operand. -/
theorem Signed.before {operand : Bool} {front back : List Token} {t : Token}
    (h : Signed operand (front ++ t :: back)) (hn : IsNegative t.kind t.text) :
    ∀ prev, front.getLast? = some prev → prev.kind.endsOperand = false := by
  induction front generalizing operand with
  | nil => simp
  | cons u rest ih =>
    obtain _ | ⟨v, rest⟩ := rest
    · rintro prev hprev
      cases hprev
      simpa using h.2.1 hn
    · rintro prev hprev
      rw [List.getLast?_cons_cons] at hprev
      exact ih h.2 prev hprev

end Line

/-! ### The characters of a file -/

namespace Layout
open Line (Span Covers Signed)

theorem Row.covers {r : Row} {content : List Token} (h : r.tokens = .ok content) :
    Signed true content ∧ ∃ spans, spans.map Span.token = content ∧
      Covers r.number 1 r.text spans := by
  obtain ⟨hsigned, spans, hspans, hcovers⟩ := Line.tokensFrom_covers h (Nat.le_refl _)
  refine ⟨hsigned, spans, hspans, Line.covers_blanks r.isBlank_of_mem ?_⟩
  rwa [Nat.add_comm]

/-- A choice of the runs of characters for every row. -/
def Reads (f : Row → List Span) : Prop :=
  ∀ r content, r.tokens = .ok content →
    (f r).map Span.token = content ∧ Covers r.number 1 r.text (f r)

theorem exists_reads : ∃ f, Reads f := by
  have hrow : ∀ r : Row, ∃ spans : List Span, ∀ content, r.tokens = .ok content →
      spans.map Span.token = content ∧ Covers r.number 1 r.text spans := by
    intro r
    cases ht : r.tokens with
    | error e => exact ⟨[], fun content hc => by cases hc⟩
    | ok content =>
      obtain ⟨-, spans, hspans⟩ := Row.covers ht
      refine ⟨spans, fun content' hc => ?_⟩
      cases hc
      exact hspans
  exact Classical.skolem.mp hrow

theorem Row.marks_layout (above : List Row) (r : Row) :
    ∀ t ∈ r.marks above, t.kind.isContent = false := by
  intro t ht
  unfold marks at ht
  split at ht
  · rw [List.mem_singleton.mp ht]
    rfl
  · rw [List.eq_of_mem_replicate ht]
    rfl

theorem closing_layout (above : List Row) (last : Nat) :
    ∀ t ∈ closing above last, t.kind.isContent = false := by
  intro t ht
  rcases List.mem_append.mp ht with ht | ht
  · rw [List.eq_of_mem_replicate ht]
    rfl
  · rw [List.mem_singleton.mp ht]
    rfl

section
variable {last : Nat} {above below : List Row} {ts : List Token}

theorem Bracketed.signed (h : Bracketed last above below ts) : Signed true ts := by
  induction h with
  | @done above =>
    rw [← List.append_nil (closing above last)]
    exact Line.signed_layout (closing_layout above last) trivial
  | @row above below r content more ht _ _ _ ih =>
    rw [List.append_assoc, List.append_assoc]
    refine Line.signed_layout (r.marks_layout above) ((Row.covers ht).1.append fun _ => ?_)
    refine ⟨fun hn => ?_, ih⟩
    rcases hn.1 with hk | hk <;> cases hk

theorem Bracketed.tokens_ok (h : Bracketed last above below ts) :
    ∀ r ∈ below, ∃ content, r.tokens = .ok content := by
  induction h with
  | done => simp
  | row ht _ _ _ ih => exact List.forall_mem_cons.mpr ⟨⟨_, ht⟩, ih⟩

/-- The tokens that are not there for the layout are those of the rows. -/
theorem Bracketed.content (h : Bracketed last above below ts) {f : Row → List Span}
    (hf : Reads f) :
    (below.flatMap f).map Span.token = ts.filter fun t => t.kind.isContent := by
  induction h with
  | @done above =>
    exact (List.filter_eq_nil_iff.mpr fun t ht => by simp [closing_layout above last t ht]).symm
  | @row above below r content more ht _ hc _ ih =>
    have hmarks : (r.marks above).filter (fun t => t.kind.isContent) = [] :=
      List.filter_eq_nil_iff.mpr fun t ht => by simp [r.marks_layout above t ht]
    have hcontent : content.filter (fun t => t.kind.isContent) = content :=
      List.filter_eq_self.mpr hc
    have hfeed : [r.feed].filter (fun t => t.kind.isContent) = [] := rfl
    rw [List.filter_append, List.filter_append, List.filter_append, hmarks, hcontent, hfeed, ← ih,
      List.flatMap_cons, List.map_append, (hf r content ht).1, List.nil_append, List.append_nil]

end

/-- The rows of some lines have ascending numbers. -/
theorem rowsFrom_ascending (number : Nat) (lines : List (List Char)) :
    (rowsFrom number lines).Pairwise (fun r r' => r.number < r'.number) ∧
      ∀ r ∈ rowsFrom number lines, number ≤ r.number := by
  induction lines generalizing number with
  | nil => exact ⟨.nil, by simp [rowsFrom]⟩
  | cons text rest ih =>
    obtain ⟨hascending, hle⟩ := ih (number + 1)
    cases hr : Row.of? number text with
    | none =>
      rw [rowsFrom_skip hr]
      exact ⟨hascending, fun r hm => Nat.le_of_succ_le (hle r hm)⟩
    | some r =>
      obtain ⟨rfl, rfl⟩ := Row.of?_eq_some_iff.mp hr
      rw [rowsFrom_row]
      refine ⟨List.pairwise_cons.mpr ⟨hle, hascending⟩, ?_⟩
      exact List.forall_mem_cons.mpr ⟨Nat.le_refl _, fun x hx => Nat.le_of_succ_le (hle x hx)⟩

/-- The rows of some lines are those of them that count, at their place. -/
theorem mem_rowsFrom {number : Nat} {lines : List (List Char)} {r : Row} :
    r ∈ rowsFrom number lines ↔ number ≤ r.number ∧ lines[r.number - number]? = some r.text := by
  rw [rowsFrom, List.mem_filterMap]
  constructor
  · rintro ⟨⟨text, n⟩, hm, hr⟩
    obtain ⟨rfl, rfl⟩ := Row.of?_eq_some_iff.mp hr
    exact List.mem_zipIdx_iff_le_and_getElem?_sub.mp hm
  · rintro ⟨hle, ht⟩
    exact ⟨(r.text, r.number), List.mem_zipIdx_iff_le_and_getElem?_sub.mpr ⟨hle, ht⟩,
      Row.of?_eq_some_iff.mpr ⟨rfl, rfl⟩⟩

theorem row_eq_of_number {number : Nat} {lines : List (List Char)} {r r' : Row}
    (hr : r ∈ rowsFrom number lines) (hr' : r' ∈ rowsFrom number lines)
    (h : r.number = r'.number) : r = r' := by
  have ht := (mem_rowsFrom.mp hr).2
  rw [h, (mem_rowsFrom.mp hr').2] at ht
  have hsame : Row.of? r'.number r'.text = some r :=
    Row.of?_eq_some_iff.mpr ⟨h, (Option.some.inj ht).symm⟩
  rw [Row.of?_eq_some_iff.mpr ⟨rfl, rfl⟩] at hsame
  exact (Option.some.inj hsame).symm

section
variable {source : String} {f : Row → List Span}

/-- The runs of all rows come one behind the other. -/
theorem spans_apart (hc : ∀ r ∈ rows source, Covers r.number 1 r.text (f r)) :
    ((rows source).flatMap f).Pairwise fun x y => x.token.line < y.token.line ∨
      x.token.line = y.token.line ∧ x.token.column < x.stop ∧ x.stop ≤ y.token.column := by
  have hline : ∀ r ∈ rows source, ∀ x ∈ f r, x.token.line = r.number :=
    fun r hr x hx => ((hc r hr).at x hx).1
  rw [List.pairwise_flatMap]
  refine ⟨fun r hr => (hc r hr).apart.imp_of_mem fun hx hy hxy => Or.inr ⟨?_, ?_, hxy⟩,
    (rowsFrom_ascending 1 _).1.imp_of_mem fun hr hr' hlt x hx y hy => Or.inl ?_⟩
  · rw [hline r hr _ hx, hline r hr _ hy]
  · exact Line.Span.column_lt_stop ((hc r hr).at _ hx).2.1
  · rwa [hline _ hr x hx, hline _ hr' y hy]

/-- The runs on the line of a row are those of this row. -/
theorem mem_of_line (hc : ∀ r ∈ rows source, Covers r.number 1 r.text (f r)) {r : Row}
    (hr : r ∈ rows source) {x : Span} (hx : x ∈ (rows source).flatMap f)
    (hn : x.token.line = r.number) : x ∈ f r := by
  obtain ⟨r', hr', hx⟩ := List.mem_flatMap.mp hx
  rw [((hc r' hr').at x hx).1] at hn
  rwa [← row_eq_of_number hr' hr hn]

end

/-- The tokens of a text cover its rows. A token that is not there for the layout is a run of
characters of a row, at its line and column: a string from its opening to its closing quote, with
what stands between them unescaped as its text, and any other token with the run itself as its text.
The runs come in the order of the tokens and do not overlap. A character of a row that is in none of
them is a blank, or belongs to a comment, which starts behind all tokens of the row and goes on to
its end. A number can be read as a finite one and an integer as one of 64 bits, and a minus is part
of one only if the token before, if there is one, cannot end an operand. -/
theorem tokenize_spans {file source : String} {ts : List Token}
    (h : tokenize file source = .ok ts) :
    ∃ spans : List Span, spans.map Span.token = ts.filter (fun t => t.kind.isContent) ∧
      (spans.Pairwise fun x y => x.token.line < y.token.line ∨
        x.token.line = y.token.line ∧ x.token.column < x.stop ∧ x.stop ≤ y.token.column) ∧
      (∀ x ∈ spans, Line.Spells x.token.kind x.token.text x.chars ∧
        Fits x.token.kind x.token.text ∧ ∃ front back,
          (Text.lines source)[x.token.line - 1]? = some (front ++ x.chars ++ back) ∧
            x.token.column = front.length + 1) ∧
      (∀ r ∈ rows source, ∀ front c back, r.text = front ++ c :: back →
        (∃ x ∈ spans, x.token.line = r.number ∧ x.token.column ≤ front.length + 1 ∧
          front.length + 1 < x.stop) ∨
          (c = ' ' ∨ c = '\t') ∨
          ∃ before rest, r.text = before ++ '#' :: rest ∧ before.length ≤ front.length ∧
            ∀ x ∈ spans, x.token.line = r.number → x.stop ≤ before.length + 1) ∧
      ∀ front t back, ts = front ++ t :: back → Line.IsNegative t.kind t.text →
        ∀ prev, front.getLast? = some prev → prev.kind.endsOperand = false := by
  have hb := (tokenize_scans file source).bracketed h
  obtain ⟨f, hf⟩ := exists_reads
  have hcovers : ∀ r ∈ rows source, Covers r.number 1 r.text (f r) := by
    intro r hr
    obtain ⟨content, hc⟩ := hb.tokens_ok r hr
    exact (hf r content hc).2
  refine ⟨(rows source).flatMap f, hb.content hf, spans_apart hcovers, ?_, ?_, ?_⟩
  · intro x hx
    obtain ⟨r, hr, hx⟩ := List.mem_flatMap.mp hx
    obtain ⟨content, hc⟩ := hb.tokens_ok r hr
    have hm : x.token ∈ content := by
      rw [← (hf r content hc).1]
      exact List.mem_map_of_mem hx
    obtain ⟨hline, hspells, front, back, htext, hcolumn⟩ := (hcovers r hr).at x hx
    refine ⟨hspells, (Line.tokensFrom_fits hc x.token hm).1, front, back, ?_, ?_⟩
    · rw [hline, ← htext]
      exact (mem_rowsFrom.mp hr).2
    · rw [hcolumn, Nat.add_comm]
  · intro r hr front c back ht
    rcases (hcovers r hr).outside ht with
      ⟨x, hx, hle, hlt⟩ | hblank | ⟨before, rest, heq, hle, hall⟩
    · have hline := ((hcovers r hr).at x hx).1
      exact Or.inl ⟨x, List.mem_flatMap.mpr ⟨r, hr, hx⟩, hline, by omega, by omega⟩
    · exact Or.inr (Or.inl (by simpa [Line.isBlank] using hblank))
    · refine Or.inr (Or.inr ⟨before, rest, heq, hle, fun x hx hn => ?_⟩)
      rw [Nat.add_comm]
      exact hall x (mem_of_line hcovers hr hx hn)
  · rintro front t back rfl hn
    exact hb.signed.before hn

/-- A minus of a number, one that is an operator, and a line feed that is written with two
characters. -/
def signs : String := "v=-1.5-\"\\n\" # v\n"

def signsTokens : List Token :=
  [⟨.identifier, "v", 1, 1⟩, ⟨.assign, "=", 1, 2⟩, ⟨.number, "-1.5", 1, 3⟩,
    ⟨.operator .sub, "-", 1, 7⟩, ⟨.string, "\n", 1, 8⟩, ⟨.newline, "", 1, 16⟩, ⟨.eof, "", 2, 1⟩]

theorem signs_spans : tokenize "signs" signs = .ok signsTokens ∧
    ∃ spans : List Span, spans.map Span.token = signsTokens.take 5 ∧
      ∀ x ∈ spans, Line.Spells x.token.kind x.token.text x.chars ∧ ∃ front back,
        signs.toList.dropLast = front ++ x.chars ++ back ∧ x.token.column = front.length + 1 := by
  have htokens : (tokenize "signs" signs).toOption = some signsTokens := by decide +kernel
  have hok : tokenize "signs" signs = .ok signsTokens := by
    cases h : tokenize "signs" signs with
    | error e =>
      rw [h] at htokens
      cases htokens
    | ok ts =>
      rw [h] at htokens
      rw [Option.some.inj htokens]
  obtain ⟨spans, hspans, -, hall, -⟩ := tokenize_spans hok
  have hcontent : (signsTokens.filter fun t => t.kind.isContent) = signsTokens.take 5 := by decide
  rw [hcontent] at hspans
  refine ⟨hok, spans, hspans, fun x hx => ?_⟩
  obtain ⟨hspells, -, front, back, htext, hcolumn⟩ := hall x hx
  have hline : x.token.line = 1 := by
    have hm : x.token ∈ signsTokens.take 5 := hspans ▸ List.mem_map_of_mem hx
    have hfirst : ∀ t ∈ signsTokens.take 5, t.line = 1 := by decide
    exact hfirst _ hm
  rw [hline] at htext
  have hlines : (Text.lines signs)[1 - 1]? = some signs.toList.dropLast := by decide +kernel
  rw [hlines] at htext
  exact ⟨hspells, front, back, Option.some.inj htext, hcolumn⟩

end Layout
end SceneScript.Script
