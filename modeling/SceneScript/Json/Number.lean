import SceneScript.Json.Basic
import SceneScript.Number.Literal

/-! # Numbers in JSON text

A literal without fraction and exponent that fits 64 bits is an integer. Every other literal is a
float: its leading digits, as many as fit 64 bits, scaled once by a power of ten. A literal beyond
the largest float is refused.
-/
namespace SceneScript.Json

/-- The parts of a number literal. -/
structure NumberParts where
  negative : Bool
  whole : List Char
  fraction : List Char
  exponent : Option (Bool × List Char)
  deriving Repr

namespace NumberParts

/-- At least one digit, and nothing else. -/
def isDigits (text : List Char) : Bool := !text.isEmpty && text.all Char.isDigit

/-- Digits without a leading zero, unless zero is all there is. -/
def isWhole : List Char → Bool
  | ['0'] => true
  | '0' :: _ => false
  | text => isDigits text

def exponent? : List Char → Option (Option (Bool × List Char))
  | [] => some none
  | 'e' :: rest | 'E' :: rest =>
    let (negative, digits) := Number.splitSign rest
    if isDigits digits then some (some (negative, digits)) else none
  | _ => none

/-- Cut a literal into its parts, if it is one. -/
def ofText? (text : List Char) : Option NumberParts :=
  let (negative, body) := match text with
    | '-' :: rest => (true, rest)
    | _ => (false, text)
  let whole := body.takeWhile Char.isDigit
  let rest := body.dropWhile Char.isDigit
  if !isWhole whole then none
  else
    match rest with
    | '.' :: tail =>
      let fraction := tail.takeWhile Char.isDigit
      if fraction.isEmpty then none
      else (exponent? (tail.dropWhile Char.isDigit)).map fun e => ⟨negative, whole, fraction, e⟩
    | _ => (exponent? rest).map fun e => ⟨negative, whole, [], e⟩

end NumberParts

/-- The digits read so far, as an integer below `2 ^ 64`, and the power of ten that is missing. -/
structure Significand where
  digits : Nat
  exponent : Int
  deriving Repr

namespace Significand

/-- The integer with one more digit, if it still fits. -/
def push? (n : Nat) (c : Char) : Option Nat :=
  let m := 10 * n + (c.toNat - '0'.toNat)
  if m < UInt64.size then some m else none

/-- Read the digits in front of the point. From the first one that does not fit on, each digit only
raises the power of ten. -/
def whole (n : Nat) : List Char → Significand
  | [] => ⟨n, 0⟩
  | c :: rest =>
    match push? n c with
    | some m => whole m rest
    | none => ⟨n, (c :: rest).length⟩

/-- Read the digits behind the point, up to the first one that does not fit. -/
def fraction (s : Significand) : List Char → Significand
  | [] => s
  | c :: rest =>
    match push? s.digits c with
    | some m => fraction ⟨m, s.exponent - 1⟩ rest
    | none => s

end Significand

/-- The largest power of ten that is a float. -/
def maxPower : Nat := 308

/-- Multiply with a power of ten, or divide by it, in steps that are floats themselves. -/
def scaleByTen? (x : Float) (e : Int) : Option Float :=
  if e.natAbs ≤ maxPower then
    let power := Number.nearest 1 e.natAbs
    if 0 ≤ e then
      let y := x * power
      if y.isInf then none else some y
    else some (x / power)
  else if x == 0 then some x
  else if 0 ≤ e then none
  else scaleByTen? (x / Number.nearest 1 maxPower) (e + maxPower)
termination_by e.natAbs
decreasing_by simp only [maxPower] at *; omega

/-- The float of a literal. An exponent of more than 31 bits is settled without scaling. -/
def NumberParts.toFloat? (p : NumberParts) : Option Float :=
  let s := (Significand.whole 0 p.whole).fraction p.fraction
  let magnitude :=
    match p.exponent with
    | none => scaleByTen? (Number.ofInt s.digits) s.exponent
    | some (negative, digits) =>
      let e := Number.ofDigits digits
      if Nat.pow 2 31 ≤ e then
        if s.digits ≠ 0 ∧ !negative then none else some 0
      else scaleByTen? (Number.ofInt s.digits) (s.exponent + if negative then -(e : Int) else e)
  magnitude.map fun x => if p.negative then -x else x

/-- The value of a literal. Minus zero is a float, as is an integer that does not fit. -/
def NumberParts.value? (p : NumberParts) : Option JsonNumber :=
  let n := Number.ofDigits p.whole
  if p.fraction.isEmpty && p.exponent.isNone then
    if !p.negative && n < UInt64.size then some (.integer n)
    else if p.negative && 0 < n && n ≤ Nat.pow 2 63 then some (.integer (-(n : Int)))
    else p.toFloat?.map .real
  else p.toFloat?.map .real

end SceneScript.Json
