/-! # Binary floating point beside decimal text

Operations on 64-bit floats that the language needs and that are exact on the decoded form: the
remainder of a division, truncation to a 64-bit integer, and conversion of an integer.
-/
namespace SceneScript.Number
open Float.Model (UnpackedFloat)

/-- The float that a decoded form denotes. -/
def pack (x : UnpackedFloat) : Float := .ofModel (.pack x)

/-- The decoded form of a float: sign, integer significand and power of two. -/
def unpack (x : Float) : UnpackedFloat := x.toModel.unpack

/-- The remainder of the division that truncates toward zero. It has the sign of the dividend and
is exact, because both operands are integers over the smaller of the two powers of two. -/
def remainder (x y : Float) : Float :=
  match unpack x, unpack y with
  | .notANumber, _ | _, .notANumber | .infinity _, _ | _, .zero _ => pack .notANumber
  | .zero _, _ | .finite .., .infinity _ => x
  | .finite sign m e _, .finite _ n f _ =>
    let low := min e f
    let rest := (m <<< (e - low).toNat) % (n <<< (f - low).toNat)
    if rest = 0 then pack (.zero sign) else pack (.round .binary64 sign rest low)

/-- Truncation toward zero; values out of range give the nearest end, and NaN gives zero. -/
def truncate (x : Float) : Int64 := (unpack x).toInt64

/-- The float nearest to an integer, ties to even. -/
def ofInt (n : Int) : Float := pack (.ofInt .binary64 n)

end SceneScript.Number
