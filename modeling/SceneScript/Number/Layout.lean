import SceneScript.Number.Shortest

/-! # Written numbers

Two layouts of a float. `plain` never uses an exponent and drops an empty fraction; `scientific`
keeps a fraction and switches to an exponent outside of a fixed range of magnitudes.
-/
namespace SceneScript.Number
open Float.Model (UnpackedFloat)

def digitText (n : Nat) : String := String.ofList (Nat.toDigits 10 n)

def zeros (n : Nat) : String := String.ofList (List.replicate n '0')

/-- Positional notation. With `keepFraction` an integer is followed by `.0`. -/
def positional (d : Decimal) (keepFraction : Bool) : String :=
  let digits := Nat.toDigits 10 d.digits
  if 0 ≤ d.exponent then
    String.ofList digits ++ zeros d.exponent.toNat ++ (if keepFraction then ".0" else "")
  else
    let places := (-d.exponent).toNat
    if places < digits.length then
      let whole := digits.length - places
      String.ofList (digits.take whole) ++ "." ++ String.ofList (digits.drop whole)
    else "0." ++ zeros (places - digits.length) ++ String.ofList digits

def exponentText (e : Int) : String :=
  if e < 0 then "e-" ++ digitText (-e).toNat else "e+" ++ digitText e.toNat

/-- One digit before the point, the others behind it, and the exponent. -/
def exponential (d : Decimal) : String :=
  match Nat.toDigits 10 d.digits with
  | [] => "0"
  | [lead] => String.ofList [lead] ++ exponentText d.magnitude
  | lead :: rest => String.ofList [lead] ++ "." ++ String.ofList rest ++ exponentText d.magnitude

def signText : UnpackedFloat.Sign → String
  | .positive => ""
  | .negative => "-"

/-- The text of a float that scripts see: shortest digits in positional notation, an exact tie
going away from zero. -/
def plain (x : Float) : String :=
  match unpack x with
  | .notANumber => "NaN"
  | .infinity sign => signText sign ++ "inf"
  | .zero sign => signText sign ++ "0"
  | .finite sign m e _ => signText sign ++ positional (shortest .away m e) false

/-- The text of a finite float in a document: shortest digits, an exact tie going to the even
digit, positional from `1e-5` up to below `1e16` and exponential elsewhere. -/
def scientific (x : Float) : String :=
  match unpack x with
  | .notANumber | .infinity _ => "null"
  | .zero sign => signText sign ++ "0.0"
  | .finite sign m e _ =>
    let d := shortest .toEven m e
    signText sign ++
      if -5 ≤ d.magnitude ∧ d.magnitude ≤ 15 then positional d true else exponential d

end SceneScript.Number
