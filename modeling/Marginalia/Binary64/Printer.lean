import Marginalia.Binary64.Digits
import Marginalia.Text.Digits

/-!
# Writing binary numbers

The forms in which the size of a number is written: with a fixed number of decimals, with an
exponent, and the shorter of the two, and the plain text of a number, from which it can be read
back. The sign of a number is written by whoever places it.
-/

namespace Marginalia.Binary64

/-! ## Parts of a text -/

/-- An exponent with its sign and at least two digits. -/
def exponentText (exponent : Int) : String :=
  (if exponent < 0 then "e-" else "e+") ++ Text.padded 2 exponent.natAbs

/-- What follows the first digits: a point and the decimals. Without decimals there is a point only
where it is kept. -/
def fractionText (keepPoint : Bool) (decimals : List Char) : String :=
  if decimals.isEmpty && !keepPoint then "" else "." ++ String.ofList decimals

namespace Digits

/-- The digits with an exponent. -/
def withExponent (keepPoint : Bool) (d : Digits) : String :=
  String.ofList (d.digits.take 1) ++ fractionText keepPoint (d.digits.drop 1)
    ++ exponentText d.exponent

/-- The digits with a point at its place; zeros fill the places between point and digits. -/
def withoutExponent (keepPoint : Bool) (d : Digits) : String :=
  if d.exponent < 0 then
    "0." ++ String.ofList (List.replicate ((-d.exponent).toNat - 1) '0' ++ d.digits)
  else
    let before := d.exponent.toNat + 1
    let filled := d.digits ++ List.replicate (before - d.digits.length) '0'
    String.ofList (filled.take before) ++ fractionText keepPoint (filled.drop before)

end Digits

/-! ## Forms -/

/-- A quotient with so many decimals. -/
def fixedText (keepPoint : Bool) (places n d : Nat) : String :=
  let unit := powerOfTen places
  let rounded := atPlaces places n d
  let decimals := if places = 0 then [] else (Text.padded places (rounded % unit)).toList
  toString (rounded / unit) ++ fractionText keepPoint decimals

/-- A quotient with an exponent and so many decimals. -/
def exponentialText (keepPoint : Bool) (places n d : Nat) : String :=
  (significant (places + 1) n d).withExponent keepPoint

/-- A quotient with so many significant digits, with an exponent when it is less than a
ten-thousandth or has more digits before the point than that. Zeros at the end are left out unless
`full` is set. -/
def generalText (full : Bool) (count n d : Nat) : String :=
  let count := max count 1
  let digits := significant count n d
  let shown := if full then digits else digits.trimmed
  if -4 ≤ digits.exponent && digits.exponent < count then shown.withoutExponent full
  else shown.withExponent full

/-- Makes sure that a text of digits shows a fraction. -/
def withFraction (s : String) : String :=
  if s.toList.contains '.' then s else s ++ ".0"

/-- The text of a number, with the fewest digits from which it can be read back. An exponent is
written from the seventeenth digit before the point on, and below a ten-thousandth. -/
def shown : Binary64 → String
  | .finite negative mantissa exponent =>
    let digits := shortest mantissa exponent
    let size :=
      if -4 ≤ digits.exponent && digits.exponent < 16 then
        withFraction (digits.withoutExponent false)
      else digits.withExponent false
    if negative then "-" ++ size else size
  | .infinite negative => if negative then "-inf" else "inf"
  | .notANumber => "nan"

end Marginalia.Binary64
