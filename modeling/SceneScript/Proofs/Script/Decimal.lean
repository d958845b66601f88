import SceneScript.Script.Token.Line

/-! # Integers in a script

An integer that is written in decimal into a line is one token there, with its sign where an operand
is expected, and the token is read back as the integer.
-/
namespace SceneScript.Number

/-- The digits of a number. -/
def digits (n : Nat) : List Char := Nat.toDigits 10 n

theorem isDigit_of_mem_digits {n : Nat} {c : Char} (h : c ∈ digits n) : c.isDigit = true :=
  Nat.isDigit_of_mem_toDigits (by decide) (by decide) h

theorem ofDigits_digits (n : Nat) : ofDigits (digits n) = n :=
  Nat.ofDigitChars_ten_toDigits

theorem exists_digits (n : Nat) : ∃ c rest, digits n = c :: rest ∧ c.isDigit = true := by
  cases h : digits n with
  | nil => exact absurd h Nat.toDigits_ne_nil
  | cons c rest => exact ⟨c, rest, rfl, isDigit_of_mem_digits (h ▸ List.mem_cons_self ..)⟩

theorem ne_of_isDigit {c d : Char} (hc : c.isDigit = true) (hd : d.isDigit = false) : c ≠ d := by
  rintro rfl
  rw [hc] at hd
  cases hd

/-- The decimal of an integer is its digits, behind a minus if it is negative. -/
theorem toList_toString (n : Int) : (toString n).toList =
    (if n < 0 then ['-'] else []) ++ digits n.natAbs := by
  rw [Int.toString_eq_repr, Int.repr_eq_if]
  by_cases h : n < 0
  · have hnat : (-n).toNat = n.natAbs := by omega
    rw [if_neg (by omega), if_pos h, hnat, String.toList_append, Nat.toList_repr]
    rfl
  · have hnat : n.toNat = n.natAbs := by omega
    rw [if_pos (by omega), if_neg h, hnat, Nat.toList_repr]
    rfl

theorem splitSign_digits (n : Nat) : splitSign (digits n) = (false, digits n) := by
  obtain ⟨c, rest, h, hc⟩ := exists_digits n
  have hminus : c ≠ '-' := ne_of_isDigit hc (by decide)
  have hplus : c ≠ '+' := ne_of_isDigit hc (by decide)
  rw [h]
  unfold splitSign
  split
  · rename_i heq
    exact absurd (List.cons.inj heq).1 hminus
  · rename_i heq
    exact absurd (List.cons.inj heq).1 hplus
  · rfl

/-- The decimal of every integer of 64 bits is read back, that of the least one included. -/
theorem readInteger?_toString (n : Int64) : readInteger? (toString n.toInt) = some n := by
  have hsplit : splitSign (toString n.toInt).toList =
      (decide (n.toInt < 0), digits n.toInt.natAbs) := by
    rw [toList_toString]
    by_cases h : n.toInt < 0
    · rw [if_pos h, decide_eq_true h]
      rfl
    · rw [if_neg h, decide_eq_false h, List.nil_append, splitSign_digits]
  have hdigits : ((digits n.toInt.natAbs).isEmpty ||
      !(digits n.toInt.natAbs).all Char.isDigit) = false := by
    obtain ⟨c, rest, h, -⟩ := exists_digits n.toInt.natAbs
    have hall : (digits n.toInt.natAbs).all Char.isDigit = true :=
      List.all_eq_true.mpr fun c hc => isDigit_of_mem_digits hc
    rw [hall, h]
    rfl
  have hvalue : (if decide (n.toInt < 0) = true then -(n.toInt.natAbs : Int)
      else n.toInt.natAbs) = n.toInt := by
    split
    · rename_i h
      have := of_decide_eq_true h
      omega
    · rename_i h
      have := of_decide_eq_false (Bool.eq_false_iff.mpr h)
      omega
  simp only [readInteger?, hsplit, hdigits, ofDigits_digits, hvalue]
  rw [if_neg (by decide), if_pos ⟨n.minValue_le_toInt, n.toInt_le⟩, Int64.ofInt_toInt]

end SceneScript.Number

namespace SceneScript.Script.Line
open Number (digits)

section
variable {line fuel column : Nat} {operand : Bool} {c : Char} {rest : List Char} {more : List Token}

theorem tokensFrom_blank (hb : isBlank c = true)
    (hmore : tokensFrom line fuel (column + 1) operand rest = .ok more) :
    tokensFrom line (fuel + 1) column operand (c :: rest) = .ok more := by
  rw [tokensFrom, if_pos hb, hmore]

theorem tokensFrom_lexeme {found : Lexeme} (hb : isBlank c = false) (hc : c ≠ '#')
    (hfound : lexeme operand c rest = .ok found)
    (hmore : tokensFrom line fuel (column + found.width) (!found.kind.endsOperand) found.rest =
      .ok more) :
    tokensFrom line (fuel + 1) column operand (c :: rest) =
      .ok (⟨found.kind, found.text, line, column⟩ :: more) := by
  rw [tokensFrom, if_neg (by simp [hb]), if_neg hc, hfound]
  simp only [hmore]
  rfl

end

theorem readDigits_digits (n : Nat) {c : Char} {rest : List Char} (hd : c.isDigit = false)
    (hp : c ≠ '.') : readDigits (digits n ++ c :: rest) = (digits n, false, c :: rest) := by
  have hall : ∀ d ∈ digits n, d.isDigit = true := fun d h => Number.isDigit_of_mem_digits h
  have htake : (digits n ++ c :: rest).takeWhile Char.isDigit = digits n := by
    rw [List.takeWhile_append_of_pos hall, List.takeWhile_cons_of_neg (by simp [hd]),
      List.append_nil]
  have hdrop : (digits n ++ c :: rest).dropWhile Char.isDigit = c :: rest := by
    rw [List.dropWhile_append_of_pos hall, List.dropWhile_cons_of_neg (by simp [hd])]
  unfold readDigits
  simp only [htake, hdrop]
  split
  · rename_i heq
    exact absurd (List.cons.inj heq).1 hp
  · rfl

section
variable (n : Int64) {c : Char} {rest : List Char}

theorem number_integer (rest : List Char) (hd : c.isDigit = false) (hp : c ≠ '.') :
    number (if n.toInt < 0 then ['-'] else []) (digits n.toInt.natAbs ++ c :: rest) =
      .ok ⟨.integer, toString n.toInt, (toString n.toInt).length, c :: rest⟩ := by
  have htext := Number.toList_toString n.toInt
  have hword : String.ofList ((if n.toInt < 0 then ['-'] else []) ++ digits n.toInt.natAbs) =
      toString n.toInt := by
    rw [← htext, String.ofList_toList]
  have hwidth : (if n.toInt < 0 then ['-'] else []).length + (digits n.toInt.natAbs).length =
      (toString n.toInt).length := by
    rw [← List.length_append, ← htext, String.length_toList]
  have hrange : inRange .integer (toString n.toInt) = true := by
    simp only [inRange, Number.readInteger?_toString, Option.isSome_some]
  simp only [number, readDigits_digits _ hd hp, Bool.false_eq_true, if_false, hword, hrange,
    if_true, hwidth]

/-- Where an operand is expected, the decimal of an integer is the next token. -/
theorem lexeme_integer (hd : c.isDigit = false) (hp : c ≠ '.') :
    ∃ first text, (toString n.toInt).toList = first :: text ∧ isBlank first = false ∧
      first ≠ '#' ∧ lexeme true first (text ++ c :: rest) =
        .ok ⟨.integer, toString n.toInt, (toString n.toInt).length, c :: rest⟩ := by
  have hnumber := number_integer n rest hd hp
  obtain ⟨first, others, hdigits, hfirst⟩ := Number.exists_digits n.toInt.natAbs
  rw [Number.toList_toString]
  by_cases h : n.toInt < 0
  · rw [if_pos h] at hnumber ⊢
    refine ⟨'-', digits n.toInt.natAbs, rfl, by decide, by decide, ?_⟩
    have hstarts : startsDigit (digits n.toInt.natAbs ++ c :: rest) = true := by
      rw [hdigits]
      exact hfirst
    rw [← hnumber, lexeme, if_neg (by decide), if_neg (by decide),
      if_pos ⟨rfl, hstarts, rfl⟩]
  · rw [if_neg h] at hnumber ⊢
    rw [hdigits, List.cons_append] at hnumber
    have hblank : isBlank first = false := by
      have hspace : first ≠ ' ' := Number.ne_of_isDigit hfirst (by decide)
      have htab : first ≠ '\t' := Number.ne_of_isDigit hfirst (by decide)
      simp [isBlank, hspace, htab]
    have hquote : first ≠ '"' := Number.ne_of_isDigit hfirst (by decide)
    refine ⟨first, others, hdigits, hblank, Number.ne_of_isDigit hfirst (by decide), ?_⟩
    rw [← hnumber, lexeme, if_neg hquote, if_pos hfirst]

theorem tokensFrom_integer {line fuel column : Nat} {more : List Token}
    (hd : c.isDigit = false) (hp : c ≠ '.')
    (hmore : tokensFrom line fuel (column + (toString n.toInt).length) false (c :: rest) =
      .ok more) :
    tokensFrom line (fuel + 1) column true ((toString n.toInt).toList ++ c :: rest) =
      .ok (⟨.integer, toString n.toInt, line, column⟩ :: more) := by
  obtain ⟨first, text, htext, hblank, hcomment, hlexeme⟩ := lexeme_integer n hd hp
  rw [htext]
  exact tokensFrom_lexeme hblank hcomment hlexeme hmore

end

end SceneScript.Script.Line
