import SceneScript.Number.Shortest

/-! # Numbers written as text

Readers for the numeric texts of a syntax tree. A float may be written with a sign, without digits
on one side of the point, with an exponent, or as a name; an integer has a sign and digits.
-/
namespace SceneScript.Number

def ofDigits (digits : List Char) : Nat :=
  digits.foldl (fun n c => 10 * n + (c.toNat - '0'.toNat)) 0

/-- Split off a leading sign; the flag tells whether it was a minus. -/
def splitSign : List Char → Bool × List Char
  | '-' :: rest => (true, rest)
  | '+' :: rest => (false, rest)
  | rest => (false, rest)

/-- An exponent after its letter: a sign and at least one digit, up to the end of the text. -/
def readExponent? (text : List Char) : Option Int :=
  let (negative, digits) := splitSign text
  if digits.isEmpty || !digits.all Char.isDigit then none
  else some (if negative then -(ofDigits digits : Int) else ofDigits digits)

/-- A decimal without sign: its digits as an integer and the power of ten to multiply with. -/
def readDecimal? (text : List Char) : Option (Nat × Int) :=
  let whole := text.takeWhile Char.isDigit
  let rest := text.dropWhile Char.isDigit
  let (fraction, rest) := match rest with
    | '.' :: tail => (tail.takeWhile Char.isDigit, tail.dropWhile Char.isDigit)
    | _ => ([], rest)
  if whole.isEmpty && fraction.isEmpty then none
  else
    let digits := ofDigits (whole ++ fraction)
    match rest with
    | [] => some (digits, -(fraction.length : Int))
    | 'e' :: tail | 'E' :: tail =>
      (readExponent? tail).map fun e => (digits, e - fraction.length)
    | _ => none

/-- All floats between zero and infinity lie between the negative of this power of ten and the
power itself. -/
def powerBound : Int := 400

/-- The float nearest to `digits * 10 ^ exponent`, ties to even. What lies far beyond the range of
floats is settled without its power of ten, which can be too large to compute. -/
def nearest (digits : Nat) (exponent : Int) : Float :=
  let magnitude := Decimal.magnitude ⟨digits, exponent⟩
  if digits = 0 ∨ magnitude < -powerBound then 0
  else if powerBound < magnitude then 1 / 0
  else Float.ofScientific digits (exponent < 0) exponent.natAbs

/-- Names of the values without digits, in any case. -/
def readName? (text : List Char) : Option Float :=
  match String.ofList (text.map Char.toLower) with
  | "inf" | "infinity" => some (1.0 / 0.0)
  | "nan" => some (0.0 / 0.0)
  | _ => none

/-- The float that a text denotes, correctly rounded. -/
def readFloat? (text : String) : Option Float :=
  let (negative, body) := splitSign text.toList
  let magnitude :=
    match readName? body with
    | some x => some x
    | none => (readDecimal? body).map fun (digits, exponent) => nearest digits exponent
  magnitude.map fun x => if negative then -x else x

/-- The 64-bit integer that a text denotes, if it is in range. -/
def readInteger? (text : String) : Option Int64 :=
  let (negative, digits) := splitSign text.toList
  if digits.isEmpty || !digits.all Char.isDigit then none
  else
    let n : Int := if negative then -(ofDigits digits : Int) else ofDigits digits
    if Int64.minValue.toInt ≤ n ∧ n ≤ Int64.maxValue.toInt then some (Int64.ofInt n) else none

end SceneScript.Number
