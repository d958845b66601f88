import SceneScript.Proofs.Result
import SceneScript.Script.Token.Layout

/-! # What the lexer promises

The tokens of a source text say what their kinds need: the text of a number or an integer can be
read back, and the text of an operator is its symbol. A block that is opened holds something before
it is closed.
-/
namespace SceneScript.Script

/-- The text of a token fits its kind. -/
def Fits (kind : TokenKind) (text : String) : Prop :=
  match kind with
  | .number => ∃ x, Number.readFloat? text = some x ∧ x.isFinite = true
  | .integer => ∃ n, Number.readInteger? text = some n
  | .operator op => text = op.symbol
  | _ => True

/-- The texts of the tokens fit, and no block is closed right where it is opened. -/
def Lexed : List Token → Prop
  | [] => True
  | t :: rest =>
    Fits t.kind t.text ∧
      (t.kind = .indent → ∀ u, rest.head? = some u → u.kind ≠ .dedent) ∧ Lexed rest

theorem Lexed.cons {t : Token} {rest : List Token} (hf : Fits t.kind t.text)
    (hk : t.kind ≠ .indent) (h : Lexed rest) : Lexed (t :: rest) :=
  ⟨hf, fun hi => (hk hi).elim, h⟩

theorem Lexed.left {ts others : List Token} (h : Lexed (ts ++ others)) : Lexed ts := by
  induction ts with
  | nil => trivial
  | cons t ts ih =>
    obtain ⟨hf, hi, hl⟩ := h
    refine ⟨hf, ?_, ih hl⟩
    intro hk u hu
    cases ts with
    | nil => cases hu
    | cons v ts => exact hi hk u hu

theorem Lexed.right {ts others : List Token} (h : Lexed (ts ++ others)) : Lexed others := by
  induction ts with
  | nil => exact h
  | cons t ts ih => exact ih h.2.2

theorem Lexed.of_mem {α : Type} {spell : α → List Token} {list : List α}
    (h : Lexed (list.flatMap spell)) {x : α} (hx : x ∈ list) : Lexed (spell x) := by
  obtain ⟨front, back, rfl⟩ := List.append_of_mem hx
  rw [List.flatMap_append, List.flatMap_cons] at h
  exact h.right.left

/-- Whether tokens of a kind have characters of their line. -/
def TokenKind.isContent : TokenKind → Bool
  | indent | dedent | newline | eof => false
  | _ => true

theorem TokenKind.ne_of_isContent {kind other : TokenKind} (h : kind.isContent = true)
    (ho : other.isContent = false) : kind ≠ other := by
  rintro rfl
  rw [h] at ho
  cases ho

namespace Line

/-- The token in a line: its text fits, and it neither opens nor closes a block. -/
def Plain (kind : TokenKind) (text : String) : Prop :=
  Fits kind text ∧ kind ≠ .indent ∧ kind ≠ .dedent

theorem fits_of_inRange {kind : TokenKind} {text : String} (hk : kind = .number ∨ kind = .integer)
    (h : inRange kind text = true) : Fits kind text := by
  rcases hk with rfl | rfl
  · cases hx : Number.readFloat? text with
    | none => simp [inRange, hx] at h
    | some x => exact ⟨x, hx, by simpa [inRange, hx] using h⟩
  · exact Option.isSome_iff_exists.mp h

/-- The kind of a number, whose text fits. -/
theorem number_kind {sign text : List Char} {found : Lexeme} (h : number sign text = .ok found) :
    (found.kind = .number ∨ found.kind = .integer) ∧ Fits found.kind found.text := by
  rcases hd : readDigits text with ⟨digits, hasFraction, rest⟩
  have hk : (if hasFraction then TokenKind.number else .integer) = .number ∨
      (if hasFraction then TokenKind.number else .integer) = .integer := by
    cases hasFraction <;> simp
  simp only [number, hd] at h
  generalize (if hasFraction then TokenKind.number else .integer) = kind at hk h
  split at h
  · rename_i hr
    cases h
    exact ⟨hk, fits_of_inRange hk hr⟩
  · cases h

theorem word_kind (text : List Char) :
    (word text).kind = .identifier ∨ ∃ k, (word text).kind = .keyword k := by
  simp only [word]
  split
  · rename_i k _
    exact Or.inr ⟨k, rfl⟩
  · exact Or.inl rfl

/-- An operator, whose text is its symbol, or a punctuation mark. -/
theorem mark_kind {c : Char} {rest : List Char} {found : Lexeme} (h : mark c rest = .ok found) :
    (∃ op, found.kind = .operator op ∧ found.text = op.symbol) ∨
      TokenKind.ofPunctuation? c = some found.kind := by
  have hsymbol : ∀ {text op}, Operator.ofSymbol? text = some op → text = op.symbol := by
    intro text op ho
    unfold Operator.ofSymbol? at ho
    have hs := List.find?_some ho
    exact (eq_of_beq hs).symm
  unfold mark at h
  split at h
  · rename_i lexeme hl
    cases h
    unfold longOperator? at hl
    split at hl
    · obtain ⟨op, ho, rfl⟩ := Option.map_eq_some_iff.mp hl
      exact Or.inl ⟨op, rfl, hsymbol ho⟩
    · cases hl
  · split at h
    · rename_i kind hk
      cases h
      exact Or.inr hk
    · split at h
      · rename_i op ho
        cases h
        exact Or.inl ⟨op, rfl, hsymbol ho⟩
      · cases h

/-- What the token in a line is, by its first character. -/
theorem lexeme_kind {operand : Bool} {c : Char} {rest : List Char} {found : Lexeme}
    (h : lexeme operand c rest = .ok found) :
    found.kind = .string ∨
      ((found.kind = .number ∨ found.kind = .integer) ∧ Fits found.kind found.text) ∨
      (found.kind = .identifier ∨ ∃ k, found.kind = .keyword k) ∨
      (∃ op, found.kind = .operator op ∧ found.text = op.symbol) ∨
      TokenKind.ofPunctuation? c = some found.kind := by
  unfold lexeme at h
  split at h
  · split at h
    · cases h
      exact Or.inl rfl
    · cases h
  · split at h
    · exact Or.inr (Or.inl (number_kind h))
    · split at h
      · exact Or.inr (Or.inl (number_kind h))
      · split at h
        · cases h
          exact Or.inr (Or.inr (Or.inl (word_kind _)))
        · exact Or.inr (Or.inr (Or.inr (mark_kind h)))

theorem fits_of_ofPunctuation? {c : Char} {kind : TokenKind} (text : String)
    (h : TokenKind.ofPunctuation? c = some kind) : Fits kind text ∧ kind.isContent = true := by
  unfold TokenKind.ofPunctuation? at h
  split at h <;> cases h <;> exact ⟨trivial, rfl⟩

theorem lexeme_fits {operand : Bool} {c : Char} {rest : List Char} {found : Lexeme}
    (h : lexeme operand c rest = .ok found) :
    Fits found.kind found.text ∧ found.kind.isContent = true := by
  rcases lexeme_kind h with hk | ⟨hk | hk, hf⟩ | (hk | ⟨k, hk⟩) | ⟨op, hk, ht⟩ | hk
  · rw [hk]
    exact ⟨trivial, rfl⟩
  · exact ⟨hf, by rw [hk]; rfl⟩
  · exact ⟨hf, by rw [hk]; rfl⟩
  · rw [hk]
    exact ⟨trivial, rfl⟩
  · rw [hk]
    exact ⟨trivial, rfl⟩
  · rw [hk]
    exact ⟨ht, rfl⟩
  · exact fits_of_ofPunctuation? _ hk

theorem tokensFrom_fits {line fuel column : Nat} {operand : Bool} {text : List Char}
    {ts : List Token} (h : tokensFrom line fuel column operand text = .ok ts) :
    ∀ t ∈ ts, Fits t.kind t.text ∧ t.kind.isContent = true := by
  induction fuel generalizing column operand text ts with
  | zero =>
    cases h
    simp
  | succ fuel ih =>
    cases text with
    | nil =>
      cases h
      simp
    | cons c rest =>
      unfold tokensFrom at h
      split at h
      · exact ih h
      · split at h
        · cases h
          simp
        · split at h
          · cases h
          · rename_i found hf
            obtain ⟨more, hm, hr⟩ := Result.bind_eq_ok.mp h
            cases hr
            intro t ht
            rcases List.mem_cons.mp ht with rfl | ht
            · exact lexeme_fits hf
            · exact ih hm t ht

theorem number_fault {sign text : List Char} {fault : LoadFault}
    (h : number sign text = .error fault) : ∃ word, fault = .literalOutOfRange word := by
  simp only [number] at h
  generalize (if (readDigits text).2.1 then TokenKind.number else .integer) = kind at h
  split at h
  · cases h
  · cases h
    exact ⟨_, rfl⟩

theorem mark_fault {c : Char} {rest : List Char} {fault : LoadFault}
    (h : mark c rest = .error fault) : fault = .unexpectedCharacter c := by
  unfold mark at h
  split at h
  · cases h
  · split at h
    · cases h
    · split at h
      · cases h
      · cases h
        rfl

theorem lexeme_fault {operand : Bool} {c : Char} {rest : List Char} {fault : LoadFault}
    (h : lexeme operand c rest = .error fault) :
    fault = .unterminatedString ∨ (∃ word, fault = .literalOutOfRange word) ∨
      ∃ c, fault = .unexpectedCharacter c := by
  unfold lexeme at h
  split at h
  · split at h
    · cases h
    · cases h
      exact Or.inl rfl
  · split at h
    · exact Or.inr (Or.inl (number_fault h))
    · split at h
      · exact Or.inr (Or.inl (number_fault h))
      · split at h
        · cases h
        · exact Or.inr (Or.inr ⟨c, mark_fault h⟩)

/-- Why a line has no tokens. -/
theorem tokensFrom_fault {line fuel column : Nat} {operand : Bool} {text : List Char} {place : Nat}
    {fault : LoadFault} (h : tokensFrom line fuel column operand text = .error (place, fault)) :
    fault = .unterminatedString ∨ (∃ word, fault = .literalOutOfRange word) ∨
      ∃ c, fault = .unexpectedCharacter c := by
  induction fuel generalizing column operand text with
  | zero => cases h
  | succ fuel ih =>
    cases text with
    | nil => cases h
    | cons c rest =>
      unfold tokensFrom at h
      split at h
      · exact ih h
      · split at h
        · cases h
        · split at h
          · rename_i found hf
            cases h
            exact lexeme_fault hf
          · rename_i found _
            cases hm : tokensFrom line fuel (column + found.width) (!found.kind.endsOperand)
                found.rest with
            | ok more =>
              rw [hm] at h
              cases h
            | error e =>
              rw [hm] at h
              cases h
              exact ih hm

theorem tokensFrom_plain {line fuel column : Nat} {operand : Bool} {text : List Char}
    {ts : List Token} (h : tokensFrom line fuel column operand text = .ok ts) :
    ∀ t ∈ ts, Plain t.kind t.text := by
  intro t ht
  obtain ⟨hf, hc⟩ := tokensFrom_fits h t ht
  exact ⟨hf, TokenKind.ne_of_isContent hc rfl, TokenKind.ne_of_isContent hc rfl⟩

end Line

namespace Layout

theorem lexed_marks {marks more : List Token} (hm : ∀ t ∈ marks, ∃ line, t = mark .dedent line)
    (h : Lexed more) : Lexed (marks ++ more) := by
  induction marks with
  | nil => exact h
  | cons t rest ih =>
    obtain ⟨line, rfl⟩ := hm t (List.mem_cons_self ..)
    exact (ih fun u hu => hm u (List.mem_cons_of_mem _ hu)).cons trivial (by simp [mark])

theorem close_marks (width line : Nat) (blocks : List Nat) :
    ∀ t ∈ (close width line blocks).1, ∃ line, t = mark .dedent line := by
  induction blocks with
  | nil => simp [close]
  | cons w outer ih =>
    unfold close
    split
    · intro t ht
      rcases List.mem_cons.mp ht with rfl | ht
      · exact ⟨line, rfl⟩
      · exact ih t ht
    · simp

/-- In front of a line stands one opening mark, or closing ones. -/
theorem indent_marks {s s' : State} {line : Nat} {blanks : List Char} {marks : List Token}
    (h : indent s line blanks = .ok (marks, s')) :
    marks = [mark .indent line] ∨ ∀ t ∈ marks, ∃ line, t = mark .dedent line := by
  simp only [indent] at h
  split at h
  · cases h
  · split at h
    · cases h
      exact Or.inl rfl
    · split at h
      · cases h
        exact Or.inr (close_marks _ _ _)
      · cases h

theorem lexed_plain {ts more : List Token} (ht : ∀ t ∈ ts, Line.Plain t.kind t.text)
    (h : Lexed more) : Lexed (ts ++ more) := by
  induction ts with
  | nil => exact h
  | cons t rest ih =>
    obtain ⟨hf, hi, -⟩ := ht t (List.mem_cons_self ..)
    exact (ih fun u hu => ht u (List.mem_cons_of_mem _ hu)).cons hf hi

theorem lineTokens_lexed {s s' : State} {line : Nat} {text : List Char} {ts more : List Token}
    (h : lineTokens s line text = .ok (ts, s')) (hm : Lexed more) : Lexed (ts ++ more) := by
  simp only [lineTokens] at h
  split at h
  · obtain ⟨⟨marks, left⟩, hmarks, h⟩ := Result.bind_eq_ok.mp h
    obtain ⟨content, hcontent, h⟩ := Result.bind_eq_ok.mp h
    cases h
    have hline := Line.tokensFrom_plain hcontent
    have hrest : Lexed (content ++ ⟨.newline, "", line, text.length + 1⟩ :: more) :=
      lexed_plain hline (hm.cons trivial (by simp))
    rw [List.append_assoc, List.append_assoc]
    rcases indent_marks hmarks with rfl | hd
    · refine ⟨trivial, fun _ u hu => ?_, hrest⟩
      cases content with
      | nil =>
        cases hu
        simp
      | cons t rest =>
        cases hu
        exact (hline _ (List.mem_cons_self ..)).2.2
    · exact lexed_marks hd hrest
  · cases h
    exact hm

theorem endTokens_lexed (s : State) (line : Nat) : Lexed (endTokens s line) := by
  refine lexed_marks ?_ ⟨trivial, by simp [mark], trivial⟩
  intro t ht
  obtain ⟨_, _, rfl⟩ := List.mem_map.mp ht
  exact ⟨line, rfl⟩

theorem fileTokens_lexed {file : String} {s : State} {line : Nat} {lines : List (List Char)}
    {ts : List Token} (h : fileTokens file s line lines = .ok ts) : Lexed ts := by
  induction lines generalizing s line ts with
  | nil =>
    cases h
    exact endTokens_lexed s line
  | cons text rest ih =>
    unfold fileTokens at h
    split at h
    · cases h
    · rename_i found s' hl
      obtain ⟨more, hm, h⟩ := Result.bind_eq_ok.mp h
      cases h
      exact lineTokens_lexed hl (ih hm)

end Layout

theorem tokenize_lexed {file source : String} {ts : List Token}
    (h : tokenize file source = .ok ts) : Lexed ts :=
  Layout.fileTokens_lexed h

end SceneScript.Script
