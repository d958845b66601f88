import Mathlib.Data.List.Forall2
import SceneScript.Proofs.Script.Gaps

/-! # Cutting a line

A line is read from left to right, and at each place between two tokens only the column and whether
an operand is expected are known. So a line can be cut between its tokens: what stands in front of
the cut has the same tokens with anything else behind it that begins with a gap.
-/
namespace SceneScript.Script.Line

/-! ### Reading up to a place -/

/-- Some tokens lead from one place of a line to a later one. At each place the column is known, and
whether an operand is expected there. -/
inductive Leads (line : Nat) : (column : Nat) → (operand : Bool) → List Char → List Token →
    (column : Nat) → (operand : Bool) → List Char → Prop
  | here {column : Nat} {operand : Bool} {text : List Char} :
    Leads line column operand text [] column operand text
  | blank {column column' : Nat} {operand operand' : Bool} {c : Char} {text rest : List Char}
      {ts : List Token} :
    isBlank c = true → Leads line (column + 1) operand text ts column' operand' rest →
    Leads line column operand (c :: text) ts column' operand' rest
  | token {column column' : Nat} {operand operand' : Bool} {c : Char} {text rest : List Char}
      {found : Lexeme} {ts : List Token} :
    isBlank c = false → c ≠ '#' → lexeme operand c text = .ok found →
    Leads line (column + found.width) (!found.kind.endsOperand) found.rest ts column' operand'
      rest →
    Leads line column operand (c :: text) (⟨found.kind, found.text, line, column⟩ :: ts)
      column' operand' rest

section
variable {line column column' : Nat} {operand operand' : Bool} {text rest : List Char}
  {ts : List Token}

theorem lexeme_rest_length {c : Char} {found : Lexeme} (h : lexeme operand c text = .ok found) :
    found.rest.length ≤ text.length := by
  obtain ⟨chars, htext, -, hspells⟩ := lexeme_takes h
  have hpos := List.length_pos_iff.mpr hspells.ne_nil
  have hlength := congrArg List.length htext
  rw [List.length_cons, List.length_append] at hlength
  omega

/-- Any fuel for every character is enough. -/
theorem tokensFrom_fuel {fuel fuel' : Nat} (h : text.length ≤ fuel) (h' : text.length ≤ fuel') :
    tokensFrom line fuel column operand text = tokensFrom line fuel' column operand text := by
  induction fuel generalizing fuel' column operand text with
  | zero =>
    obtain rfl := List.eq_nil_of_length_eq_zero (Nat.le_zero.mp h)
    cases fuel' <;> rfl
  | succ fuel ih =>
    obtain _ | ⟨c, rest⟩ := text
    · cases fuel' <;> rfl
    obtain _ | fuel' := fuel'
    · cases h'
    have hrest : rest.length ≤ fuel := Nat.le_of_succ_le_succ h
    have hrest' : rest.length ≤ fuel' := Nat.le_of_succ_le_succ h'
    rw [tokensFrom, tokensFrom, ih hrest hrest']
    split
    · rfl
    · split
      · rfl
      · split
        · rfl
        · rename_i found hfound
          have hle := lexeme_rest_length hfound
          rw [ih (Nat.le_trans hle hrest) (Nat.le_trans hle hrest')]

/-- The tokens of a text are those up to some place, and then those behind it. -/
theorem Leads.tokensFrom_eq (h : Leads line column operand text ts column' operand' rest) :
    tokensFrom line text.length column operand text =
      (tokensFrom line rest.length column' operand' rest).map (ts ++ ·) := by
  induction h with
  | @here column operand text => cases tokensFrom line text.length column operand text <;> rfl
  | blank hb _ ih => rw [List.length_cons, tokensFrom, if_pos hb, ih]
  | @token _ _ _ _ c text rest found ts hb hc hfound _ ih =>
    rw [List.length_cons, tokensFrom, if_neg (by simp [hb]), if_neg hc, hfound]
    dsimp only
    rw [tokensFrom_fuel (lexeme_rest_length hfound) (Nat.le_refl _), ih]
    cases tokensFrom line rest.length _ _ rest <;> rfl

/-- What leads to a place is some text in front of it, and it still is when what comes behind the
place fades. -/
theorem Leads.fades (h : Leads line column operand text ts column' operand' rest) :
    ∃ front, text = front ++ rest ∧ column' = column + front.length ∧ ∀ rest', Fades rest rest' →
      Leads line column operand (front ++ rest') ts column' operand' rest' := by
  induction h with
  | here => exact ⟨[], rfl, rfl, fun rest' _ => .here⟩
  | @blank column column' _ _ c _ _ _ hb _ ih =>
    obtain ⟨front, rfl, rfl, hfades⟩ := ih
    refine ⟨c :: front, rfl, ?_, fun rest' hf => .blank hb (hfades rest' hf)⟩
    rw [List.length_cons]
    omega
  | @token column column' operand _ c text rest found ts hb hc hfound _ ih =>
    obtain ⟨front, hrest, rfl, hfades⟩ := ih
    obtain ⟨chars, htext, hwidth, hspells⟩ := lexeme_takes hfound
    obtain ⟨d, chars, rfl⟩ := List.exists_cons_of_ne_nil hspells.ne_nil
    obtain ⟨rfl, rfl⟩ := List.cons.inj htext
    refine ⟨c :: chars ++ front, ?_, ?_, fun rest' hf => ?_⟩
    · rw [hrest]
      simp
    · rw [hwidth, List.length_append]
      omega
    · have hread : lexeme operand c (chars ++ (front ++ rest')) =
          .ok { found with rest := front ++ rest' } :=
        lexeme_fades hfound rfl (hrest ▸ hf.append front)
      rw [List.append_assoc]
      exact @Leads.token line _ _ operand _ c _ _ { found with rest := front ++ rest' } _ hb hc
        hread (hfades rest' hf)

end

/-! ### Cutting a line -/

/-- No token of a text has characters on both sides of a cut. -/
def Whole (column : Nat) (left right : List Char) (ts : List Token) : Prop :=
  ∀ t ∈ ts, ∀ front chars back, left ++ right = front ++ chars ++ back →
    t.column = column + front.length → Spells t.kind t.text chars →
    front.length + chars.length ≤ left.length ∨ left.length ≤ front.length

theorem Whole.behind {column : Nat} {before left right : List Char} {ts ts' : List Token}
    (h : Whole column (before ++ left) right ts) (hsub : ∀ t ∈ ts', t ∈ ts) :
    Whole (column + before.length) left right ts' := by
  intro t ht front chars back htext hcolumn hspells
  have hbefore : before ++ left ++ right = before ++ front ++ chars ++ back := by
    simpa using htext
  have hcolumn' : t.column = column + (before ++ front).length := by
    rw [hcolumn, List.length_append]
    omega
  have hcut := h t (hsub t ht) (before ++ front) chars back hbefore hcolumn' hspells
  simp only [List.length_append] at hcut
  omega

theorem exists_append_of_length_le {front back front' back' : List Char}
    (h : front ++ back = front' ++ back') (hle : front'.length ≤ front.length) :
    ∃ between, front = front' ++ between ∧ back' = between ++ back := by
  obtain ⟨between, rfl⟩ : front' <+: front :=
    List.prefix_of_prefix_length_le (h ▸ List.prefix_append front' back')
      (List.prefix_append front back) hle
  rw [List.append_assoc] at h
  exact ⟨between, rfl, (List.append_cancel_left h).symm⟩

/-- The tokens of a line lead to its end, or to the comment there. -/
theorem exists_leads {line fuel column : Nat} {operand : Bool} {text : List Char}
    {ts : List Token} (h : tokensFrom line fuel column operand text = .ok ts)
    (hfuel : text.length ≤ fuel) : ∃ column' operand' rest,
      Leads line column operand text ts column' operand' rest ∧
        (rest = [] ∨ ∃ comment, rest = '#' :: comment) := by
  induction fuel generalizing column operand text ts with
  | zero =>
    cases h
    obtain rfl := List.eq_nil_of_length_eq_zero (Nat.le_zero.mp hfuel)
    exact ⟨column, operand, [], .here, Or.inl rfl⟩
  | succ fuel ih =>
    obtain _ | ⟨c, text⟩ := text
    · cases h
      exact ⟨column, operand, [], .here, Or.inl rfl⟩
    have htext : text.length ≤ fuel := Nat.le_of_succ_le_succ hfuel
    unfold tokensFrom at h
    split at h
    · rename_i hb
      obtain ⟨column', operand', rest, hlead, hend⟩ := ih h htext
      exact ⟨column', operand', rest, .blank hb hlead, hend⟩
    · rename_i hb
      split at h
      · rename_i hc
        subst hc
        cases h
        exact ⟨column, operand, _, .here, Or.inr ⟨text, rfl⟩⟩
      · rename_i hc
        split at h
        · cases h
        · rename_i found hfound
          obtain ⟨more, hmore, h⟩ := Result.bind_eq_ok.mp h
          cases h
          obtain ⟨column', operand', rest, hlead, hend⟩ :=
            ih hmore (Nat.le_trans (lexeme_rest_length hfound) htext)
          exact ⟨column', operand', rest, .token (by simpa using hb) hc hfound hlead, hend⟩

/-- What leads from one place to another passes every cut between its tokens, up to that place. -/
theorem Leads.cut {line column column' : Nat} {operand operand' : Bool}
    {text rest left right : List Char} {ts : List Token}
    (h : Leads line column operand text ts column' operand' rest) (htext : text = left ++ right)
    (hw : Whole column left right ts) :
    (∃ ts₁ ts₂ between, ts = ts₁ ++ ts₂ ∧
      Leads line column operand text ts₁ (column + left.length) between right ∧
      Leads line (column + left.length) between right ts₂ column' operand' rest) ∨
    ∃ front behind, left = front ++ behind ∧ rest = behind ++ right ∧ behind ≠ [] := by
  induction h generalizing left with
  | @here column operand text =>
    subst htext
    cases left with
    | nil => exact Or.inl ⟨[], [], operand, rfl, .here, .here⟩
    | cons c left => exact Or.inr ⟨[], c :: left, rfl, rfl, List.cons_ne_nil _ _⟩
  | @blank column column' operand operand' c text rest ts hb hlead ih =>
    cases left with
    | nil =>
      subst htext
      exact Or.inl ⟨[], ts, operand, rfl, .here, .blank hb hlead⟩
    | cons d left =>
      obtain ⟨rfl, rfl⟩ := List.cons.inj htext
      have hwhole : Whole (column + 1) left right ts :=
        @Whole.behind column [c] left right ts ts hw fun _ => id
      have hcolumn : column + (c :: left).length = column + 1 + left.length := by
        rw [List.length_cons]
        omega
      rcases ih rfl hwhole with ⟨ts₁, ts₂, between, rfl, hfirst, hsecond⟩ |
        ⟨front, behind, rfl, hrest⟩
      · rw [hcolumn]
        exact Or.inl ⟨ts₁, ts₂, between, rfl, .blank hb hfirst, hsecond⟩
      · exact Or.inr ⟨c :: front, behind, rfl, hrest⟩
  | @token column column' operand operand' c text rest found ts hb hc hfound hlead ih =>
    cases hl : left with
    | nil =>
      subst hl
      subst htext
      exact Or.inl ⟨[], _, operand, rfl, .here, .token hb hc hfound hlead⟩
    | cons d left' =>
      obtain ⟨chars, hchars, hwidth, hspells⟩ := lexeme_takes hfound
      have hin : chars.length ≤ left.length := by
        have hcut := hw _ (List.mem_cons_self ..) [] chars found.rest (htext.symm.trans hchars) rfl
          hspells
        simpa [hl] using hcut
      obtain ⟨between, rfl, hrest⟩ := exists_append_of_length_le (htext.symm.trans hchars) hin
      have hcolumn : column + (chars ++ between).length =
          column + found.width + between.length := by
        rw [hwidth, List.length_append]
        omega
      have hwhole : Whole (column + found.width) between right ts := by
        rw [hwidth]
        exact hw.behind fun t ht => List.mem_cons_of_mem _ ht
      rw [← hl, hcolumn]
      rcases ih hrest hwhole with ⟨ts₁, ts₂, passed, rfl, hfirst, hsecond⟩ |
        ⟨front, behind, rfl, hmore⟩
      · exact Or.inl ⟨_ :: ts₁, ts₂, passed, rfl, .token hb hc hfound hfirst, hsecond⟩
      · exact Or.inr ⟨chars ++ front, behind, (List.append_assoc ..).symm, hmore⟩

/-- What leads to the end of a line, or to its comment, are its tokens. -/
theorem Leads.tokensFrom_end {line column column' : Nat} {operand operand' : Bool}
    {text rest : List Char} {ts : List Token}
    (h : Leads line column operand text ts column' operand' rest)
    (hend : rest = [] ∨ ∃ comment, rest = '#' :: comment) :
    tokensFrom line text.length column operand text = .ok ts := by
  have hnone : tokensFrom line rest.length column' operand' rest = .ok [] := by
    rcases hend with rfl | ⟨comment, rfl⟩ <;> rfl
  rw [h.tokensFrom_eq, hnone, Except.map, List.append_nil]

/-- A token some lines further down and some columns further to the right. -/
def moved (lines columns : Nat) (t : Token) : Token :=
  { t with line := t.line + lines, column := t.column + columns }

theorem Leads.moved {line column column' : Nat} {operand operand' : Bool} {text rest : List Char}
    {ts : List Token} (h : Leads line column operand text ts column' operand' rest)
    (lines columns : Nat) : Leads (line + lines) (column + columns) operand text
      (ts.map (Line.moved lines columns)) (column' + columns) operand' rest := by
  induction h with
  | here => exact .here
  | blank hb _ ih =>
    rw [Nat.add_right_comm] at ih
    exact .blank hb ih
  | token hb hc hfound _ ih =>
    rw [Nat.add_right_comm] at ih
    exact .token hb hc hfound ih

theorem tokensFrom_moved {line column : Nat} {operand : Bool} {text : List Char} {ts : List Token}
    (h : tokensFrom line text.length column operand text = .ok ts) (lines columns : Nat) :
    tokensFrom (line + lines) text.length (column + columns) operand text =
      .ok (ts.map (moved lines columns)) := by
  obtain ⟨column', operand', rest, hlead, hend⟩ := exists_leads h (Nat.le_refl _)
  exact (hlead.moved lines columns).tokensFrom_end hend

theorem tokensFrom_place {line fuel column : Nat} {operand : Bool} {text : List Char}
    {ts : List Token} (h : tokensFrom line fuel column operand text = .ok ts)
    (hfuel : text.length ≤ fuel) : ∀ t ∈ ts, t.line = line ∧ column ≤ t.column := by
  obtain ⟨-, spans, rfl, hcovers⟩ := tokensFrom_covers h hfuel
  intro t ht
  obtain ⟨x, hx, rfl⟩ := List.mem_map.mp ht
  obtain ⟨hline, -, front, back, -, hcolumn⟩ := hcovers.at x hx
  exact ⟨hline, hcolumn ▸ Nat.le_add_right _ _⟩

/-- Only in a comment a line can end with a carriage return. -/
theorem Leads.last {line column column' : Nat} {operand operand' : Bool} {text : List Char}
    {ts : List Token} (h : Leads line column operand text ts column' operand' []) :
    text.getLast? ≠ some '\r' := by
  generalize hnil : [] = rest at h
  induction h with
  | here =>
    subst hnil
    simp
  | @blank _ _ _ _ c text rest _ hb _ ih =>
    cases text with
    | nil =>
      rintro hc
      cases hc
      cases hb
    | cons d text =>
      rw [List.getLast?_cons_cons]
      exact ih hnil
  | @token _ _ _ _ c text rest found _ _ _ hfound _ ih =>
    cases hr : found.rest with
    | nil => exact lexeme_last hfound hr
    | cons d more =>
      obtain ⟨chars, htext, -, -⟩ := lexeme_takes hfound
      rw [htext, List.getLast?_append_of_ne_nil _ (by simp [hr])]
      exact ih hnil

/-- A carriage return at the end of a line counts for nothing. -/
theorem tokensFrom_return {line column : Nat} {operand : Bool} {front : List Char}
    {ts : List Token}
    (h : tokensFrom line (front ++ ['\r']).length column operand (front ++ ['\r']) = .ok ts) :
    tokensFrom line front.length column operand front = .ok ts := by
  obtain ⟨column', operand', rest, hlead, hend⟩ := exists_leads h (Nat.le_refl _)
  rcases hend with rfl | ⟨comment, rfl⟩
  · exact absurd (by simp) hlead.last
  · obtain ⟨before, htext, -, hfades⟩ := hlead.fades
    obtain ⟨comment, rfl⟩ : ∃ comment, front = before ++ '#' :: comment := by
      rcases List.eq_nil_or_concat comment with rfl | ⟨comment, c, rfl⟩
      · cases (List.append_inj' htext rfl).2
      · have hsplit : front ++ ['\r'] = (before ++ '#' :: comment) ++ [c] := by
          rw [htext, List.concat_eq_append]
          simp
        exact ⟨comment, (List.append_inj' hsplit rfl).1⟩
    exact (hfades _ (.gap (Or.inr (Or.inr rfl)))).tokensFrom_end (Or.inr ⟨comment, rfl⟩)

/-! ### What stands behind a cut -/

theorem Fades.refl (text : List Char) : Fades text text := by
  induction text with
  | nil => exact .ends
  | cons c text ih => exact .same ih

/-- A token with the same kind and text, on the same line. -/
def SameWord (t t' : Token) : Prop := t'.kind = t.kind ∧ t'.text = t.text ∧ t'.line = t.line

theorem sameWord_self (ts : List Token) : List.Forall₂ SameWord ts ts :=
  List.forall₂_same.mpr fun _ _ => ⟨rfl, rfl, rfl⟩

theorem sameWord_moved (columns : Nat) (ts : List Token) :
    List.Forall₂ SameWord ts (ts.map (moved 0 columns)) := by
  rw [List.forall₂_map_right_iff]
  exact List.forall₂_same.mpr fun t _ => ⟨rfl, rfl, rfl⟩

section
variable {line column : Nat} {operand : Bool} {left right right' : List Char} {ts : List Token}

theorem tokensFrom_blanks {blanks : List Char} (hb : ∀ b ∈ blanks, isBlank b = true)
    (text : List Char) : tokensFrom line (blanks ++ text).length column operand (blanks ++ text) =
      tokensFrom line text.length (column + blanks.length) operand text := by
  induction blanks generalizing column with
  | nil => rfl
  | cons b rest ih =>
    rw [List.forall_mem_cons] at hb
    rw [List.cons_append, List.length_cons, tokensFrom, if_pos hb.1, ih hb.2, List.length_cons]
    rw [Nat.add_assoc, Nat.add_comm 1]

theorem tokensFrom_indented {blanks : List Char} (hb : ∀ b ∈ blanks, isBlank b = true)
    (h : tokensFrom line right.length column operand right = .ok ts) :
    ∃ ts', tokensFrom line (blanks ++ right).length column operand (blanks ++ right) = .ok ts' ∧
      List.Forall₂ SameWord ts ts' := by
  rw [tokensFrom_blanks hb]
  exact ⟨_, tokensFrom_moved h 0 blanks.length, sameWord_moved blanks.length ts⟩

theorem Fades.indented {blanks : List Char} (hb : ∀ b ∈ blanks, isBlank b = true)
    (text : List Char) : Fades text (blanks ++ text) := by
  cases blanks with
  | nil => exact Fades.refl text
  | cons b rest => exact .gap (.of_isBlank (hb b (List.mem_cons_self ..)))

/-- What stands behind a cut can be replaced. -/
theorem tokensFrom_replace
    (h : tokensFrom line (left ++ right).length column operand (left ++ right) = .ok ts)
    (hw : Whole column left right ts) (hf : Fades right right')
    (hright : ∀ ts₁ ts₂ between, ts = ts₁ ++ ts₂ →
      tokensFrom line right.length (column + left.length) between right = .ok ts₂ →
      ∃ ts₂', tokensFrom line right'.length (column + left.length) between right' = .ok ts₂' ∧
        List.Forall₂ SameWord ts₂ ts₂') :
    ∃ ts', tokensFrom line (left ++ right').length column operand (left ++ right') = .ok ts' ∧
      List.Forall₂ SameWord ts ts' := by
  obtain ⟨column', operand', rest, hlead, hend⟩ := exists_leads h (Nat.le_refl _)
  rcases hlead.cut rfl hw with
    ⟨ts₁, ts₂, between, rfl, hfirst, hsecond⟩ | ⟨front, behind, hleft, hrest, hne⟩
  · obtain ⟨front, htext, -, hfades⟩ := hfirst.fades
    obtain rfl := List.append_cancel_right htext
    obtain ⟨ts₂', htokens, hsame⟩ := hright ts₁ ts₂ between rfl (hsecond.tokensFrom_end hend)
    refine ⟨ts₁ ++ ts₂', ?_, List.rel_append (sameWord_self ts₁) hsame⟩
    rw [(hfades right' hf).tokensFrom_eq, htokens]
    rfl
  · obtain ⟨c, behind, rfl⟩ := List.exists_cons_of_ne_nil hne
    have hc : c = '#' := by
      rcases hend with rfl | ⟨comment, rfl⟩
      · cases hrest
      · exact (List.cons.inj hrest).1.symm
    subst hc
    obtain ⟨front', htext, -, hfades⟩ := hlead.fades
    rw [hleft, List.append_assoc, hrest] at htext
    obtain rfl := List.append_cancel_right htext
    have hgap : Fades rest ('#' :: behind ++ right') := .gap (Or.inr (Or.inr rfl))
    rw [hleft, List.append_assoc]
    exact ⟨ts, (hfades _ hgap).tokensFrom_end (Or.inr ⟨_, rfl⟩), sameWord_self ts⟩

end

end SceneScript.Script.Line
