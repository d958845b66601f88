import SceneScript.Proofs.Script.Spans

/-! # What stands behind a token

A token is read from its own characters. Of those behind it at most two are looked at, and a blank
or the start of a comment is as good there as the end of the line. So a token stays the same token
when what stands behind it is changed from some place on, if the change begins with a gap.
-/
namespace SceneScript.Script.Line

/-- A character that goes on with no token, as long as it is not between quotes. -/
def IsGap (c : Char) : Prop := c = ' ' ∨ c = '\t' ∨ c = '#'

theorem IsGap.of_isBlank {c : Char} (h : isBlank c = true) : IsGap c := by
  simp only [isBlank, Bool.or_eq_true, beq_iff_eq] at h
  exact h.imp_right Or.inl

/-- The second text is the first one up to some place, and there it ends or a gap begins. -/
inductive Fades : List Char → List Char → Prop
  | ends {text : List Char} : Fades text []
  | gap {text rest : List Char} {c : Char} : IsGap c → Fades text (c :: rest)
  | same {text rest : List Char} {c : Char} : Fades text rest → Fades (c :: text) (c :: rest)

section
variable {tail tail' : List Char}

theorem Fades.append (front : List Char) (h : Fades tail tail') :
    Fades (front ++ tail) (front ++ tail') := by
  induction front with
  | nil => exact h
  | cons c front ih => exact .same ih

/-- What does not start the first text does not start the second one, if no gap starts it. -/
theorem Fades.head {p : Char → Bool} (h : Fades tail tail') (hp : ∀ c, IsGap c → p c = false)
    (ht : ∀ c ∈ tail.head?, p c = false) : ∀ c ∈ tail'.head?, p c = false := by
  cases h with
  | ends => simp
  | gap hc => simpa using hp _ hc
  | same _ => simpa using ht

end

/-! ### The characters of one token -/

theorem dropWhile_append_eq_iff {p : Char → Bool} {front tail : List Char} :
    (front ++ tail).dropWhile p = tail ↔
      (∀ c ∈ front, p c = true) ∧ ∀ c ∈ tail.head?, p c = false := by
  constructor
  · intro h
    have hsplit := List.takeWhile_append_dropWhile (p := p) (l := front ++ tail)
    rw [h] at hsplit
    refine ⟨fun c hc => ?_, fun c hc => ?_⟩
    · rw [← List.append_cancel_right hsplit] at hc
      exact List.all_eq_true.mp List.all_takeWhile c hc
    · have hhead := List.head?_dropWhile_not p (front ++ tail)
      rw [h, Option.mem_def.mp hc] at hhead
      exact hhead
  · rintro ⟨hfront, htail⟩
    rw [List.dropWhile_append_of_pos hfront]
    cases tail with
    | nil => rfl
    | cons c rest => exact List.dropWhile_cons_of_neg (by simp [htail c rfl])

theorem takeWhile_append_eq {p : Char → Bool} {front tail : List Char}
    (h : (front ++ tail).dropWhile p = tail) : (front ++ tail).takeWhile p = front := by
  have hsplit := List.takeWhile_append_dropWhile (p := p) (l := front ++ tail)
  rw [h] at hsplit
  exact List.append_cancel_right hsplit

/-- Characters up to where they stop are taken whatever stands behind them, if it fades. -/
theorem span_fades {p : Char → Bool} (hp : ∀ c, IsGap c → p c = false)
    {front tail tail' : List Char} (h : (front ++ tail).dropWhile p = tail)
    (hf : Fades tail tail') :
    (front ++ tail').takeWhile p = front ∧ (front ++ tail').dropWhile p = tail' := by
  obtain ⟨hfront, htail⟩ := dropWhile_append_eq_iff.mp h
  have hdrop := dropWhile_append_eq_iff.mpr ⟨hfront, hf.head hp htail⟩
  exact ⟨takeWhile_append_eq hdrop, hdrop⟩

theorem readString?_of_unescapes {body text : List Char} (h : Unescapes body text)
    (tail : List Char) :
    readString? (body ++ '"' :: tail) = some (text, body.length + 1, tail) := by
  induction h with
  | nil => rfl
  | escaped _ ih => simp [readString?, ih]
  | @plain c body text hquote hescape _ ih =>
    rw [List.cons_append, readString?.eq_5 _ _ hquote, ih]
    · rfl
    · rintro d rest rfl
      exact absurd rfl hescape
    · rintro rfl
      exact absurd rfl hescape

theorem isGap_not_digit {c : Char} (h : IsGap c) : c.isDigit = false := by
  rcases h with rfl | rfl | rfl <;> rfl

theorem isGap_not_continuesName {c : Char} (h : IsGap c) : Text.continuesName c = false := by
  rcases h with rfl | rfl | rfl <;> decide +kernel

/-- The digits of a number, and those behind its point if it has a fraction. -/
theorem readDigits_cases (text : List Char) :
    (∃ whole tail, text = whole ++ tail ∧ text.dropWhile Char.isDigit = tail ∧
      (∀ d rest, tail = '.' :: d :: rest → d.isDigit = false) ∧
      readDigits text = (whole, false, tail)) ∨
    ∃ whole d frac tail, text = whole ++ '.' :: (d :: frac ++ tail) ∧
      text.dropWhile Char.isDigit = '.' :: (d :: frac ++ tail) ∧ d.isDigit = true ∧
      (d :: frac ++ tail).dropWhile Char.isDigit = tail ∧
      readDigits text = (whole ++ '.' :: d :: frac, true, tail) := by
  have hsplit := List.takeWhile_append_dropWhile (p := Char.isDigit) (l := text)
  unfold readDigits
  dsimp only
  split
  · rename_i d rest hdrop
    rw [hdrop] at hsplit
    split
    · rename_i hd
      have hfrac := List.takeWhile_append_dropWhile (p := Char.isDigit) (l := d :: rest)
      rw [List.takeWhile_cons_of_pos hd] at hfrac ⊢
      refine Or.inr ⟨_, d, _, _, ?_, ?_, hd, ?_, rfl⟩
      · rw [hfrac, hsplit]
      · rw [hfrac, hdrop]
      · rw [hfrac]
    · rename_i hd
      refine Or.inl ⟨_, _, hsplit.symm, hdrop, fun d' rest' heq => ?_, rfl⟩
      cases heq
      simpa using hd
  · rename_i hpoint
    refine Or.inl ⟨_, _, hsplit.symm, rfl, fun d rest heq => ?_, rfl⟩
    exact absurd heq (hpoint d rest)

theorem readDigits_whole {whole tail : List Char}
    (h : (whole ++ tail).dropWhile Char.isDigit = tail)
    (hpoint : ∀ d rest, tail = '.' :: d :: rest → d.isDigit = false) :
    readDigits (whole ++ tail) = (whole, false, tail) := by
  unfold readDigits
  rw [h, takeWhile_append_eq h]
  dsimp only
  split
  · rename_i d rest
    rw [if_neg (by simp [hpoint d rest rfl])]
  · rfl

theorem readDigits_fraction {whole frac tail : List Char} {d : Char} (hd : d.isDigit = true)
    (h : (whole ++ '.' :: (d :: frac ++ tail)).dropWhile Char.isDigit = '.' :: (d :: frac ++ tail))
    (hfrac : (d :: frac ++ tail).dropWhile Char.isDigit = tail) :
    readDigits (whole ++ '.' :: (d :: frac ++ tail)) = (whole ++ '.' :: d :: frac, true, tail) := by
  unfold readDigits
  rw [h, takeWhile_append_eq h]
  change (if d.isDigit then (whole ++ '.' :: (d :: frac ++ tail).takeWhile Char.isDigit, true,
    (d :: frac ++ tail).dropWhile Char.isDigit) else _) = _
  rw [if_pos hd, hfrac, takeWhile_append_eq hfrac]

section
variable {chars tail tail' : List Char}

/-- Digits that end in front of some text end there too if the text fades. -/
theorem readDigits_fades (h : (readDigits (chars ++ tail)).2.2 = tail) (hf : Fades tail tail') :
    readDigits (chars ++ tail') =
      ((readDigits (chars ++ tail)).1, (readDigits (chars ++ tail)).2.1, tail') := by
  rcases readDigits_cases (chars ++ tail) with
    ⟨whole, rest, hsplit, hdrop, hpoint, heq⟩ |
    ⟨whole, d, frac, rest, hsplit, hdrop, hd, hfrac, heq⟩
  · rw [heq] at h ⊢
    obtain rfl : rest = tail := h
    obtain rfl := List.append_cancel_right hsplit
    refine readDigits_whole (span_fades (fun c => isGap_not_digit) hdrop hf).2 ?_
    rintro d more rfl
    cases hf with
    | gap hc => simp [IsGap] at hc
    | same hf =>
      cases hf with
      | gap hc => exact isGap_not_digit hc
      | same hf => exact hpoint d _ rfl
  · rw [heq] at h ⊢
    obtain rfl : rest = tail := h
    have hchars : chars ++ rest = (whole ++ '.' :: d :: frac) ++ rest := by
      rw [hsplit]
      simp
    obtain rfl := List.append_cancel_right hchars
    have hfades : Fades ('.' :: (d :: frac ++ rest)) ('.' :: (d :: frac ++ tail')) :=
      hf.append ('.' :: d :: frac)
    have htext : whole ++ '.' :: d :: frac ++ tail' = whole ++ '.' :: (d :: frac ++ tail') := by
      simp
    rw [hsplit] at hdrop
    rw [htext]
    exact readDigits_fraction hd (span_fades (fun c => isGap_not_digit) hdrop hfades).2
      (span_fades (fun c => isGap_not_digit) hfrac hf).2

theorem number_rest {sign text : List Char} {found : Lexeme} (h : number sign text = .ok found) :
    (readDigits text).2.2 = found.rest := by
  rcases hd : readDigits text with ⟨digits, fraction, rest⟩
  simp only [number, hd] at h
  generalize (if fraction then TokenKind.number else .integer) = kind at h
  split at h <;> cases h
  rfl

theorem number_fades {sign : List Char} {found : Lexeme}
    (h : number sign (chars ++ tail) = .ok found) (hr : found.rest = tail) (hf : Fades tail tail') :
    number sign (chars ++ tail') = .ok { found with rest := tail' } := by
  have hrest : (readDigits (chars ++ tail)).2.2 = tail := (number_rest h).trans hr
  simp only [number, readDigits_fades hrest hf] at h ⊢
  generalize (if (readDigits (chars ++ tail)).2.1 then TokenKind.number else .integer) = kind at h ⊢
  split at h
  · rename_i hrange
    cases h
    rw [if_pos hrange]
  · cases h

theorem word_fades (h : (word (chars ++ tail)).rest = tail) (hf : Fades tail tail') :
    word (chars ++ tail') = { word (chars ++ tail) with rest := tail' } := by
  have hdrop : (chars ++ tail).dropWhile Text.continuesName = tail := h
  obtain ⟨htake', hdrop'⟩ := span_fades (fun c => isGap_not_continuesName) hdrop hf
  simp only [word, htake', hdrop', takeWhile_append_eq hdrop]

theorem ofSymbol?_gap {c g : Char} (h : IsGap g) :
    Operator.ofSymbol? (String.ofList [c, g]) = none := by
  cases ho : Operator.ofSymbol? (String.ofList [c, g]) with
  | none => rfl
  | some op =>
    unfold Operator.ofSymbol? at ho
    have hs := List.find?_some ho
    have hchars : op.symbol.toList = [c, g] := by rw [eq_of_beq hs, String.toList_ofList]
    rcases h with rfl | rfl | rfl <;> cases op <;> simp [Operator.symbol] at hchars

theorem longOperator?_fades {c : Char} (h : longOperator? (c :: tail) = none)
    (hf : Fades tail tail') : longOperator? (c :: tail') = none := by
  cases hf with
  | ends => rfl
  | gap hc => rw [longOperator?, ofSymbol?_gap hc, Option.map_none]
  | same hf =>
    simp only [longOperator?, Option.map_eq_none_iff] at h ⊢
    exact h

theorem mark_fades {c : Char} {found : Lexeme} (h : mark c (chars ++ tail) = .ok found)
    (hr : found.rest = tail) (hf : Fades tail tail') :
    mark c (chars ++ tail') = .ok { found with rest := tail' } := by
  unfold mark at h
  split at h
  · rename_i lexeme hlong
    cases h
    cases htext : chars ++ tail with
    | nil =>
      rw [htext] at hlong
      cases hlong
    | cons d rest =>
      rw [htext, longOperator?] at hlong
      obtain ⟨op, hop, rfl⟩ := Option.map_eq_some_iff.mp hlong
      obtain rfl : rest = tail := hr
      obtain rfl : chars = [d] := List.append_cancel_right (htext.trans List.singleton_append.symm)
      rw [mark, List.singleton_append, longOperator?, hop]
      rfl
  · rename_i hlong
    have hchars : found.rest = chars ++ tail → chars = [] := by
      intro hsame
      rw [hr] at hsame
      exact List.self_eq_append_left.mp hsame
    split at h
    · rename_i kind hkind
      cases h
      obtain rfl := hchars rfl
      simp [mark, longOperator?_fades hlong hf, hkind]
    · rename_i hkind
      split at h
      · rename_i op hop
        cases h
        obtain rfl := hchars rfl
        simp [mark, longOperator?_fades hlong hf, hkind, hop]
      · cases h

theorem startsDigit_eq_false_iff {text : List Char} :
    startsDigit text = false ↔ ∀ c ∈ text.head?, c.isDigit = false := by
  cases text <;> simp [startsDigit]

/-- A token is read in the same way with anything behind it that fades from what stood there. -/
theorem lexeme_fades {operand : Bool} {c : Char} {found : Lexeme}
    (h : lexeme operand c (chars ++ tail) = .ok found) (hr : found.rest = tail)
    (hf : Fades tail tail') :
    lexeme operand c (chars ++ tail') = .ok { found with rest := tail' } := by
  have hdigit : startsDigit (chars ++ tail) = false → startsDigit (chars ++ tail') = false := by
    simp only [startsDigit_eq_false_iff]
    exact (hf.append chars).head fun c => isGap_not_digit
  unfold lexeme at h ⊢
  by_cases hquote : c = '"'
  · rw [if_pos hquote] at h ⊢
    cases hs : readString? (chars ++ tail) with
    | none => simp [hs] at h
    | some read =>
      obtain ⟨text, width, rest⟩ := read
      simp only [hs] at h
      cases h
      obtain rfl : rest = tail := hr
      obtain ⟨body, hbody, rfl, hmeans⟩ := readString?_eq_some hs
      have hchars : chars ++ rest = (body ++ ['"']) ++ rest := by
        rw [hbody]
        simp
      obtain rfl := List.append_cancel_right hchars
      rw [List.append_assoc, List.singleton_append, readString?_of_unescapes hmeans]
  rw [if_neg hquote] at h ⊢
  by_cases hc : c.isDigit = true
  · rw [if_pos hc] at h ⊢
    rw [← List.cons_append] at h ⊢
    exact number_fades h hr hf
  rw [if_neg hc] at h ⊢
  by_cases hminus : c = '-' ∧ startsDigit (chars ++ tail) = true ∧ operand = true
  · rw [if_pos hminus] at h
    obtain ⟨hc, hd, hoperand⟩ := hminus
    have hd' : startsDigit (chars ++ tail') = true := by
      cases chars with
      | nil =>
        have hne := readDigits_ne_nil hd
        have hsplit := (readDigits_spec ([] ++ tail)).1
        rw [number_rest h, hr] at hsplit
        exact absurd (List.append_left_eq_self.mp hsplit) hne
      | cons d chars => exact hd
    rw [if_pos ⟨hc, hd', hoperand⟩]
    exact number_fades h hr hf
  rw [if_neg hminus] at h
  have hminus' : ¬(c = '-' ∧ startsDigit (chars ++ tail') = true ∧ operand = true) := by
    rintro ⟨hc, hd, hoperand⟩
    cases hd' : startsDigit (chars ++ tail) with
    | true => exact hminus ⟨hc, hd', hoperand⟩
    | false => simp [hdigit hd'] at hd
  rw [if_neg hminus']
  by_cases hname : Text.startsName c = true
  · rw [if_pos hname] at h ⊢
    rw [← List.cons_append] at h ⊢
    have hword := Except.ok.inj h
    subst hword
    rw [word_fades hr hf]
  · rw [if_neg hname] at h ⊢
    exact mark_fades h hr hf

end

/-! ### Carriage returns -/

theorem ofSymbol?_no_return {chars : List Char} {op : Operator}
    (h : Operator.ofSymbol? (String.ofList chars) = some op) : '\r' ∉ chars := by
  unfold Operator.ofSymbol? at h
  have hs := List.find?_some h
  have hchars : op.symbol.toList = chars := by rw [eq_of_beq hs, String.toList_ofList]
  rw [← hchars]
  cases op <;> simp [Operator.symbol]

theorem mark_no_return {c : Char} {text : List Char} {found : Lexeme}
    (h : mark c text = .ok found) (hr : found.rest = []) : '\r' ∉ c :: text := by
  unfold mark at h
  split at h
  · rename_i lexeme hlong
    cases h
    obtain _ | ⟨d, rest⟩ := text
    · cases hlong
    rw [longOperator?] at hlong
    obtain ⟨op, hop, rfl⟩ := Option.map_eq_some_iff.mp hlong
    obtain rfl : rest = [] := hr
    exact ofSymbol?_no_return hop
  · split at h
    · rename_i kind hkind
      cases h
      obtain rfl : text = [] := hr
      intro hc
      rw [← List.mem_singleton.mp hc] at hkind
      cases hkind
    · split at h
      · rename_i op hop
        cases h
        obtain rfl : text = [] := hr
        exact ofSymbol?_no_return hop
      · cases h

theorem readDigits_no_return {text : List Char} (hr : (readDigits text).2.2 = []) :
    '\r' ∉ text := by
  obtain ⟨hsplit, hall⟩ := readDigits_spec text
  rw [hr, List.append_nil] at hsplit
  rw [hsplit] at hall
  intro hc
  rcases hall '\r' hc with hd | hd <;> cases hd

/-- No token ends with a carriage return. -/
theorem lexeme_last {operand : Bool} {c : Char} {text : List Char} {found : Lexeme}
    (h : lexeme operand c text = .ok found) (hr : found.rest = []) :
    (c :: text).getLast? ≠ some '\r' := by
  unfold lexeme at h
  split at h
  · split at h
    · rename_i content width tail hs
      cases h
      obtain rfl : tail = [] := hr
      obtain ⟨body, rfl, -, -⟩ := readString?_eq_some hs
      rw [← List.cons_append, List.getLast?_append, List.getLast?_singleton, Option.some_or]
      simp
    · cases h
  · refine fun hlast => absurd (List.mem_of_getLast? hlast) ?_
    split at h
    · exact readDigits_no_return ((number_rest h).trans hr)
    · split at h
      · rename_i hminus
        obtain ⟨rfl, -, -⟩ := hminus
        have hno := readDigits_no_return ((number_rest h).trans hr)
        simpa using hno
      · split at h
        · cases h
          have hdrop : ((c :: text) ++ []).dropWhile Text.continuesName = [] := by
            rwa [List.append_nil]
          intro hc
          exact absurd ((dropWhile_append_eq_iff.mp hdrop).1 _ hc) (by decide +kernel)
        · exact mark_no_return h hr

end SceneScript.Script.Line
