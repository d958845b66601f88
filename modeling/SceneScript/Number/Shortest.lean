import SceneScript.Number.Binary

/-! # Shortest decimal digits

Every finite float is a decimal integer times a power of ten. Among the decimals that read back to
the same float, the shortest one is chosen, and of those the nearest; only an exact tie is left to
the caller's rule.
-/
namespace SceneScript.Number
open Float.Model (UnpackedFloat)

/-- What to do when two candidates are equally near. -/
inductive Tie where
  | away
  | toEven
  deriving DecidableEq, Repr

/-- The number `digits * 10 ^ exponent`. -/
structure Decimal where
  digits : Nat
  exponent : Int
  deriving DecidableEq, Repr

namespace Decimal

def trim (d : Decimal) : Decimal :=
  if h : d.digits ≠ 0 ∧ d.digits % 10 = 0 then
    trim ⟨d.digits / 10, d.exponent + 1⟩
  else d
termination_by d.digits
decreasing_by omega

def width (n : Nat) : Nat := (Nat.toDigits 10 n).length

/-- The exponent of the leading digit in scientific form. -/
def magnitude (d : Decimal) : Int := d.exponent + width d.digits - 1

end Decimal

/-- The set of decimals that read back to one float: `value` is the float itself, `below` and
`above` bound the distance to its ends in quarters of `unit`, all over one power of ten. -/
structure Rounding where
  value : Nat
  unit : Nat
  below : Nat
  above : Nat
  exponent : Int
  closed : Bool
  deriving Repr

namespace Rounding

/-- The interval of `m * 2 ^ e`. Below a power of two the floats are twice as dense, and the ends
belong to the interval when the significand is even. -/
def ofBinary (m : Nat) (e : Int) : Rounding :=
  let unit := if e < 0 then Nat.pow 5 (-e).toNat else Nat.pow 2 e.toNat
  { value := m * unit
    unit := unit
    below := if m = Nat.pow 2 52 ∧ -1074 < e then 1 else 2
    above := 2
    exponent := min e 0
    closed := m % 2 = 0 }

/-- Whether a distance, in quarters, stays inside the interval. -/
def within (i : Rounding) (distance bound : Nat) : Bool :=
  if i.closed then distance ≤ bound * i.unit else distance < bound * i.unit

/-- The decimal with the last `drop` digits of the value cut off that reads back, if there is one.
Only the two neighbours of the value on that grid can be nearest. -/
def candidate? (i : Rounding) (tie : Tie) (drop : Nat) : Option Decimal :=
  let step := Nat.pow 10 drop
  let low := i.value / step
  let rest := i.value % step
  let lowFits := rest = 0 || i.within (4 * rest) i.below
  let highFits := i.within (4 * (step - rest)) i.above
  let takeHigh :=
    match compare (2 * rest) step with
    | .lt => false
    | .gt => true
    | .eq => match tie with
      | .away => true
      | .toEven => low % 2 = 1
  let exponent := i.exponent + drop
  match lowFits, highFits with
  | true, true => some ⟨if takeHigh then low + 1 else low, exponent⟩
  | true, false => some ⟨low, exponent⟩
  | false, true => some ⟨low + 1, exponent⟩
  | false, false => none

/-- Try the grids from the coarsest to the finest; the finest one always holds the value. -/
def search (i : Rounding) (tie : Tie) : Nat → Decimal
  | 0 => ⟨i.value, i.exponent⟩
  | drop + 1 =>
    match i.candidate? tie (drop + 1) with
    | some d => d
    | none => i.search tie drop

/-- The shortest decimal of the interval. -/
def shortest (i : Rounding) (tie : Tie) : Decimal :=
  (i.search tie (Decimal.width i.value - 1)).trim

end Rounding

/-- The shortest decimal that reads back to `m * 2 ^ e`. -/
def shortest (tie : Tie) (m : Nat) (e : Int) : Decimal := (Rounding.ofBinary m e).shortest tie

end SceneScript.Number
