import SceneScript.Proofs.Script.Splice

/-! # What can be put into a line

Blanks between two tokens of a line and at its end, and a comment behind its tokens, change none of
its words: neither their kinds and texts nor their order. A line without words stays one.
-/
namespace SceneScript.Script

/-- A token is in the front part of its line. -/
def Token.EndsIn (t : Token) (left : List Char) : Prop :=
  ∃ before chars gap, left = before ++ chars ++ gap ∧ t.column = before.length + 1 ∧
    Line.Spells t.kind t.text chars

/-- A token is a word on some line. -/
def Token.IsOn (t : Token) (number : Nat) : Prop := t.kind.isContent = true ∧ t.line = number

/-- What can be put between two parts of a line of a file with some tokens: blanks between two
tokens, blanks at the end of the line, and a comment behind all tokens. -/
inductive Insertion (ts : List Token) (number : Nat) (left right : List Char) : List Char → Prop
  | between {blanks : List Char} : (∀ b ∈ blanks, Line.isBlank b = true) →
    (∃ t ∈ ts, t.IsOn number ∧ t.EndsIn left) →
    (∃ t ∈ ts, t.IsOn number ∧ left.length < t.column) →
    (∀ t ∈ ts, t.IsOn number → t.EndsIn left ∨ left.length < t.column) →
    Insertion ts number left right blanks
  | trailing {blanks : List Char} : (∀ b ∈ blanks, Line.isBlank b = true) → right = [] →
    Insertion ts number left right blanks
  | comment {text : List Char} : '\n' ∉ text → (∀ t ∈ ts, t.IsOn number → t.EndsIn left) →
    Insertion ts number left right ('#' :: text)

/-- A line of blanks, or of a comment behind blanks. -/
def Hollow (line : List Char) : Prop :=
  ∃ blanks rest, line = blanks ++ rest ∧ (∀ b ∈ blanks, Line.isBlank b = true) ∧
    (rest = [] ∨ ∃ text, rest = '#' :: text)

namespace Line

theorem Spells.chars_eq {kind : TokenKind} {text : String} {chars : List Char}
    (h : Spells kind text chars) :
    (kind = .string ∧ ∃ body content, chars = '"' :: body ++ ['"'] ∧ Unescapes body content) ∨
      kind ≠ .string ∧ chars = text.toList := by
  cases h with
  | quoted hbody => exact Or.inl ⟨rfl, _, _, rfl, hbody⟩
  | exact hk _ => exact Or.inr ⟨hk, String.toList_ofList.symm⟩

/-- The characters of a token are known from its place. -/
theorem Spells.unique {kind : TokenKind} {text : String} {chars chars' rest rest' : List Char}
    (h : Spells kind text chars) (h' : Spells kind text chars')
    (heq : chars ++ rest = chars' ++ rest') : chars = chars' := by
  rcases h.chars_eq with ⟨hk, body, content, rfl, hbody⟩ | ⟨hk, rfl⟩
  · obtain ⟨-, body', content', rfl, hbody'⟩ := h'.chars_eq.resolve_right fun hne => hne.1 hk
    have htail : body ++ '"' :: rest = body' ++ '"' :: rest' := by simpa using heq
    have hread := readString?_of_unescapes hbody rest
    rw [htail, readString?_of_unescapes hbody' rest'] at hread
    have hlength : body'.length + 1 = body.length + 1 :=
      congrArg (fun x => x.2.1) (Option.some.inj hread)
    rw [(List.append_inj htail (Nat.succ.inj hlength).symm).1]
  · exact (h'.chars_eq.resolve_left fun hs => hk hs.1).2.symm

end Line

namespace Layout

theorem hollow_iff {number : Nat} {line : List Char} :
    Row.of? number line = none ↔ Hollow line := by
  rw [Row.of?_eq_none_iff]
  constructor
  · intro h
    refine ⟨_, _, List.takeWhile_append_dropWhile.symm, List.all_eq_true.mp List.all_takeWhile, ?_⟩
    cases hd : line.dropWhile Line.isBlank with
    | nil => exact Or.inl rfl
    | cons c rest =>
      rw [hd] at h
      have hc : c = '#' := by simpa [hasContent] using h
      exact Or.inr ⟨rest, by rw [hc]⟩
  · rintro ⟨blanks, rest, rfl, hb, hrest⟩
    rw [List.dropWhile_append_of_pos hb]
    rcases hrest with rfl | ⟨text, rfl⟩ <;> rfl

theorem hollow_left {left right : List Char} (h : Hollow (left ++ right)) : Hollow left := by
  obtain ⟨blanks, rest, heq, hb, hrest⟩ := h
  rcases List.append_eq_append_iff.mp heq with ⟨more, rfl, -⟩ | ⟨behind, rfl, hbehind⟩
  · exact ⟨left, [], (List.append_nil left).symm, fun b hm => hb b (List.mem_append_left _ hm),
      Or.inl rfl⟩
  · refine ⟨blanks, behind, rfl, hb, ?_⟩
    cases behind with
    | nil => exact Or.inl rfl
    | cons c behind =>
      rcases hrest with rfl | ⟨text, rfl⟩
      · cases hbehind
      · obtain ⟨rfl, -⟩ := List.cons.inj hbehind
        exact Or.inr ⟨behind, rfl⟩

theorem hollow_comment {left : List Char} (h : Hollow left) (text : List Char) :
    Hollow (left ++ '#' :: text) := by
  obtain ⟨blanks, rest, rfl, hb, rfl | ⟨old, rfl⟩⟩ := h
  · rw [List.append_nil]
    exact ⟨blanks, '#' :: text, rfl, hb, Or.inr ⟨text, rfl⟩⟩
  · exact ⟨blanks, '#' :: (old ++ '#' :: text), List.append_assoc .., hb, Or.inr ⟨_, rfl⟩⟩

theorem hollow_blanks {line blanks : List Char} (h : Hollow line)
    (hblanks : ∀ b ∈ blanks, Line.isBlank b = true) : Hollow (line ++ blanks) := by
  obtain ⟨front, rest, rfl, hb, rfl | ⟨text, rfl⟩⟩ := h
  · rw [List.append_nil]
    exact ⟨front ++ blanks, [], (List.append_nil _).symm, List.forall_mem_append.mpr ⟨hb, hblanks⟩,
      Or.inl rfl⟩
  · exact ⟨front, '#' :: (text ++ blanks), List.append_assoc .., hb, Or.inr ⟨_, rfl⟩⟩

/-- A line without words stays one. -/
theorem hollow_insert {ts : List Token} {number : Nat} {left right new : List Char}
    (hi : Insertion ts number left right new) (h : Hollow (left ++ right))
    (hnone : ∀ t ∈ ts, t.IsOn number → ¬t.EndsIn left) : Hollow (left ++ (new ++ right)) := by
  cases hi with
  | between _ hbefore _ _ =>
    obtain ⟨t, ht, hon, hends⟩ := hbefore
    exact absurd hends (hnone t ht hon)
  | trailing hb hnil =>
    subst hnil
    rw [List.append_nil] at h ⊢
    exact hollow_blanks h hb
  | @comment text _ _ => exact hollow_comment (hollow_left h) (text ++ right)

/-- Where the tokens of a row end or start, measured behind its indentation. -/
theorem Row.whole {r : Row} {content : List Token} {left right : List Char}
    (h : ∀ t ∈ content, t.EndsIn (r.blanks ++ left) ∨ (r.blanks ++ left).length < t.column) :
    Line.Whole (r.width + 1) left right content := by
  intro t ht front chars back hchars hcolumn hspells
  rcases h t ht with ⟨before, chars', gap, hleft, hcolumn', hspells'⟩ | hlt
  · have hsame : before ++ (chars' ++ (gap ++ right)) =
        (r.blanks ++ front) ++ (chars ++ back) := by
      calc
        before ++ (chars' ++ (gap ++ right)) = (before ++ chars' ++ gap) ++ right := by simp
        _ = r.blanks ++ (left ++ right) := by rw [← hleft, List.append_assoc]
        _ = (r.blanks ++ front) ++ (chars ++ back) := by rw [hchars]; simp
    have hlength : before.length = (r.blanks ++ front).length := by
      have hwidth : r.width = r.blanks.length := rfl
      rw [List.length_append]
      omega
    obtain ⟨rfl, hrest⟩ := List.append_inj hsame hlength
    obtain rfl := hspells'.unique hspells hrest
    have hlen := congrArg List.length hleft
    simp only [List.length_append] at hlen
    omega
  · have hwidth : r.width = r.blanks.length := rfl
    rw [List.length_append] at hlt
    omega

/-- In front of a cut behind a token stands the indentation and the first character of its row. -/
theorem Row.front_of_endsIn {r : Row} {content : List Token} (h : r.tokens = .ok content)
    {left right : List Char} (htext : r.text = left ++ right)
    (hends : ∃ t ∈ content, t.EndsIn left) :
    ∃ more, left = r.blanks ++ r.first :: more ∧ r.rest = more ++ right := by
  obtain ⟨t, ht, before, chars, gap, hleft, hcolumn, hspells⟩ := hends
  have hplace := (Line.tokensFrom_place h (Nat.le_refl _) t ht).2
  have hpos := List.length_pos_iff.mpr hspells.ne_nil
  have hle : (r.blanks ++ [r.first]).length ≤ left.length := by
    have hwidth : r.width = r.blanks.length := rfl
    simp only [hleft, List.length_append, List.length_singleton]
    omega
  have hcons : left ++ right = (r.blanks ++ [r.first]) ++ r.rest := by
    rw [← htext, List.append_assoc]
    rfl
  obtain ⟨more, rfl, hrest⟩ := Line.exists_append_of_length_le hcons hle
  exact ⟨more, by simp, hrest⟩

/-- What stands behind a token of a row can be replaced by something that begins with a gap. -/
theorem Row.replace {r : Row} {content : List Token} (h : r.tokens = .ok content)
    {left right right' : List Char} (htext : r.text = left ++ right)
    (hfirst : ∃ t ∈ content, t.EndsIn left)
    (hcut : ∀ t ∈ content, t.EndsIn left ∨ left.length < t.column)
    (hf : Line.Fades right right')
    (hright : ∀ ts between, (∀ t ∈ ts, t ∈ content) →
      Line.tokensFrom r.number right.length (left.length + 1) between right = .ok ts →
      ∃ ts', Line.tokensFrom r.number right'.length (left.length + 1) between right' = .ok ts' ∧
        List.Forall₂ Line.SameWord ts ts') :
    ∃ (r' : Row) (content' : List Token), r'.number = r.number ∧ r'.blanks = r.blanks ∧
      r'.text = left ++ right' ∧ r'.tokens = .ok content' ∧
      List.Forall₂ Line.SameWord content content' := by
  obtain ⟨more, rfl, hrest⟩ := Row.front_of_endsIn h htext hfirst
  have hcontent : r.content = (r.first :: more) ++ right := by
    rw [Row.content, hrest, List.cons_append]
  have hcolumn : (r.blanks ++ r.first :: more).length + 1 =
      r.width + 1 + (r.first :: more).length := by
    rw [List.length_append, Row.width]
    omega
  rw [hcolumn] at hright
  unfold Row.tokens Line.tokens at h
  rw [hcontent] at h
  obtain ⟨content', htokens, hsame⟩ := Line.tokensFrom_replace h (Row.whole hcut) hf
    fun ts₁ ts₂ between heq => hright ts₂ between fun t ht => heq ▸ List.mem_append_right _ ht
  refine ⟨{ r with rest := more ++ right' }, content', rfl, rfl, ?_, htokens, hsame⟩
  simp [Row.text, Row.content]

theorem Row.endsIn_text {r : Row} {content : List Token} (h : r.tokens = .ok content) :
    ∀ t ∈ content, t.EndsIn r.text := by
  intro t ht
  obtain ⟨-, spans, rfl, hcovers⟩ := Row.covers h
  obtain ⟨x, hx, rfl⟩ := List.mem_map.mp ht
  obtain ⟨-, hspells, front, back, htext, hcolumn⟩ := hcovers.at x hx
  exact ⟨front, x.chars, back, htext, by rw [hcolumn, Nat.add_comm], hspells⟩

/-- Something is put into a row. -/
theorem Row.insertion {ts content : List Token} {r : Row} {left right new : List Char}
    (hi : Insertion ts r.number left right new) (htext : r.text = left ++ right)
    (h : r.tokens = .ok content)
    (hall : ∀ t, t ∈ content ↔ t ∈ ts ∧ t.IsOn r.number) :
    ∃ (r' : Row) (content' : List Token), r'.number = r.number ∧ r'.blanks = r.blanks ∧
      r'.text = left ++ (new ++ right) ∧ r'.tokens = .ok content' ∧
      List.Forall₂ Line.SameWord content content' := by
  cases hi with
  | between hb hbefore _ hcut =>
    obtain ⟨t, ht, hon, hends⟩ := hbefore
    exact Row.replace h htext ⟨t, (hall t).mpr ⟨ht, hon⟩, hends⟩
      (fun t ht => hcut t ((hall t).mp ht).1 ((hall t).mp ht).2) (.indented hb right)
      fun _ _ _ htokens => Line.tokensFrom_indented hb htokens
  | trailing hb hnil =>
    subst hnil
    rw [List.append_nil] at htext
    have hends := Row.endsIn_text h
    rw [htext] at hends
    obtain ⟨t, content, rfl⟩ := List.exists_cons_of_ne_nil (Row.tokens_content h).1
    exact Row.replace h (htext.trans (List.append_nil left).symm)
      ⟨t, List.mem_cons_self .., hends t (List.mem_cons_self ..)⟩
      (fun t ht => Or.inl (hends t ht)) (.indented hb [])
      fun _ _ _ htokens => Line.tokensFrom_indented hb htokens
  | @comment text _ hends =>
    have hcontent : ∀ t ∈ content, t.EndsIn left :=
      fun t ht => hends t ((hall t).mp ht).1 ((hall t).mp ht).2
    obtain ⟨t, others, hcons⟩ := List.exists_cons_of_ne_nil (Row.tokens_content h).1
    have ht : t ∈ content := hcons ▸ List.mem_cons_self ..
    refine Row.replace h htext ⟨t, ht, hcontent t ht⟩ (fun t ht => Or.inl (hcontent t ht))
      (.gap (Or.inr (Or.inr rfl))) fun ts between hin htokens => ⟨[], rfl, ?_⟩
    have hnone : ts = [] := by
      refine List.eq_nil_iff_forall_not_mem.mpr fun t ht => ?_
      have hplace := (Line.tokensFrom_place htokens (Nat.le_refl _) t ht).2
      obtain ⟨before, chars, gap, rfl, hcolumn, hspells⟩ := hcontent t (hin t ht)
      have hpos := List.length_pos_iff.mpr hspells.ne_nil
      simp only [List.length_append] at hplace
      omega
    rw [hnone]
    exact .nil

section
variable {above : Nat → Nat} {touched : Nat → Prop} {s s' : State}

/-- A row that is read gives the marks of its indentation, its words and the end of its line. -/
theorem lineTokens_row_iff {r : Row} {found : List Token} :
    lineTokens s r.number r.text = .ok (found, s') ↔ ∃ marks content,
      indent s r.number r.blanks = .ok (marks, s') ∧ r.tokens = .ok content ∧
        found = marks ++ content ++ [r.feed] := by
  rw [lineTokens_row]
  constructor
  · intro h
    obtain ⟨⟨marks, next⟩, hmarks, h⟩ := Result.bind_eq_ok.mp h
    obtain ⟨content, hcontent, h⟩ := Result.bind_eq_ok.mp h
    cases h
    exact ⟨marks, content, hmarks, hcontent, rfl⟩
  · rintro ⟨marks, content, hmarks, hcontent, rfl⟩
    rw [hmarks, hcontent]
    rfl

/-- A row that keeps its indentation. -/
theorem lineTokens_kept {r r' : Row} {found content content' : List Token}
    (hnumber : r'.number = r.number) (hblanks : r'.blanks = r.blanks)
    (hcontent : r.tokens = .ok content) (hcontent' : r'.tokens = .ok content')
    (hkept : List.Forall₂ (Kept above touched) content content') (habove : above r.number = 0)
    (h : lineTokens s r.number r.text = .ok (found, s')) :
    ∃ found', lineTokens s r.number r'.text = .ok (found', s') ∧
      List.Forall₂ (Kept above touched) found found' := by
  obtain ⟨marks, words, hmarks, hwords, rfl⟩ := lineTokens_row_iff.mp h
  obtain rfl : content = words := Except.ok.inj (hcontent.symm.trans hwords)
  have hmarksKept : List.Forall₂ (Kept above touched) marks marks :=
    kept_self fun t ht _ => by rw [indent_line hmarks t ht, habove]
  have hfeed : Kept above touched r.feed r'.feed :=
    ⟨rfl, rfl, fun hc => (by cases hc), fun hc => (by cases hc)⟩
  refine ⟨marks ++ content' ++ [r'.feed], ?_,
    List.rel_append (List.rel_append hmarksKept hkept) (.cons hfeed .nil)⟩
  rw [← hnumber]
  exact lineTokens_row_iff.mpr ⟨marks, content', by rwa [hnumber, hblanks], hcontent', rfl⟩

/-- Something is put into a line. -/
theorem lineTokens_insert {ts found : List Token} {number : Nat} {left right new : List Char}
    (hi : Insertion ts number left right new)
    (h : lineTokens s number (left ++ right) = .ok (found, s'))
    (hin : ∀ t ∈ found, t ∈ ts) (hall : ∀ t ∈ ts, t.IsOn number → t ∈ found)
    (habove : above number = 0) (htouched : touched number) :
    ∃ found', lineTokens s number (left ++ (new ++ right)) = .ok (found', s') ∧
      List.Forall₂ (Kept above touched) found found' := by
  cases hr : Row.of? number (left ++ right) with
  | none =>
    rw [lineTokens_skip s hr] at h
    cases h
    have hhollow : Hollow (left ++ (new ++ right)) :=
      hollow_insert hi (hollow_iff.mp hr) fun t ht hon => absurd (hall t ht hon) (by simp)
    exact ⟨[], lineTokens_skip s (hollow_iff.mpr hhollow), .nil⟩
  | some r =>
    obtain ⟨rfl, htext⟩ := Row.of?_eq_some_iff.mp hr
    rw [← htext] at h
    obtain ⟨marks, content, hmarks, hcontent, rfl⟩ := lineTokens_row_iff.mp h
    have hmarksLayout : ∀ t ∈ marks, t.kind.isContent = false := by
      rcases indent_marks hmarks with rfl | hd
      · simp [mark, TokenKind.isContent]
      · intro t ht
        obtain ⟨line, rfl⟩ := hd t ht
        rfl
    have hwords : ∀ t, t ∈ content ↔ t ∈ ts ∧ t.IsOn r.number := by
      intro t
      constructor
      · intro ht
        exact ⟨hin t (by simp [ht]), (Row.tokens_content hcontent).2 t ht,
          (Line.tokensFrom_place hcontent (Nat.le_refl _) t ht).1⟩
      · rintro ⟨ht, hon⟩
        have hm := hall t ht hon
        simp only [List.mem_append, List.mem_singleton] at hm
        rcases hm with (hm | hm) | rfl
        · exact absurd (hmarksLayout t hm) (by simp [hon.1])
        · exact hm
        · cases hon.1
    obtain ⟨r', content', hnumber, hblanks, htext', hcontent', hsame⟩ :=
      Row.insertion hi htext hcontent hwords
    rw [← htext']
    refine lineTokens_kept hnumber hblanks hcontent hcontent' (kept_of_sameWord hsame ?_) habove h
    intro t ht
    rw [((hwords t).mp ht).2.2]
    exact ⟨habove, htouched⟩

/-- A carriage return at the end of a line counts for nothing. -/
theorem lineTokens_return {found : List Token} {number : Nat} {front : List Char}
    (h : lineTokens s number (front ++ ['\r']) = .ok (found, s')) (habove : above number = 0) :
    ∃ found', lineTokens s number front = .ok (found', s') ∧
      List.Forall₂ (Kept above touched) found found' := by
  cases hr : Row.of? number (front ++ ['\r']) with
  | none =>
    rw [lineTokens_skip s hr] at h
    cases h
    exact ⟨[], lineTokens_skip s (hollow_iff.mpr (hollow_left (hollow_iff.mp hr))), .nil⟩
  | some r =>
    obtain ⟨rfl, htext⟩ := Row.of?_eq_some_iff.mp hr
    rw [← htext] at h
    obtain ⟨marks, content, hmarks, hcontent, rfl⟩ := lineTokens_row_iff.mp h
    obtain ⟨init, hinit⟩ : ∃ init, r.content = init ++ ['\r'] := by
      obtain hnil | ⟨init, c, hconcat⟩ := List.eq_nil_or_concat r.content
      · cases hnil
      · rw [List.concat_eq_append] at hconcat
        rw [Row.text, hconcat, ← List.append_assoc] at htext
        obtain ⟨-, hc⟩ := List.append_inj' htext rfl
        exact ⟨init, hconcat.trans (by rw [hc])⟩
    have hfront : front = r.blanks ++ init := by
      rw [Row.text, hinit, ← List.append_assoc] at htext
      exact (List.append_inj' htext rfl).1.symm
    have htokens : Line.tokensFrom r.number init.length (r.width + 1) true init = .ok content := by
      unfold Row.tokens Line.tokens at hcontent
      rw [hinit] at hcontent
      exact Line.tokensFrom_return hcontent
    obtain _ | ⟨c, init⟩ := init
    · cases htokens
      exact absurd rfl (Row.tokens_content hcontent).1
    obtain ⟨rfl, hrest⟩ := List.cons.inj hinit
    have hplace := Line.tokensFrom_place htokens (Nat.le_refl _)
    rw [hfront]
    exact @lineTokens_kept above touched s _ r { r with rest := init } _ content content rfl rfl
      hcontent htokens (kept_self fun t ht _ => by rw [(hplace t ht).1, habove]) habove h

end

end Layout
end SceneScript.Script
