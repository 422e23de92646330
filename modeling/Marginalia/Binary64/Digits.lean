import Marginalia.Binary64.Basic

/-!
# Decimal digits of a binary number

Which digits stand for a number: so many of them, so many after the point, or the fewest from which
the number can be read back. How they are laid out is said elsewhere. The size of the number is
given as a quotient or by mantissa and exponent; it is worked with exactly.
-/

namespace Marginalia.Binary64

/-- Significant digits, where a point behind the first is moved by the exponent. -/
structure Digits where
  digits : List Char
  exponent : Int
  deriving DecidableEq, Repr

namespace Digits

/-- The digit of zero. -/
def ofZero : Digits :=
  ⟨['0'], 0⟩

/-- The digits of a whole number, of which so many lie after the point. -/
def ofScaled (n : Nat) (places : Int) : Digits :=
  let ds := Nat.toDigits 10 n
  ⟨ds, (ds.length : Int) - 1 - places⟩

/-- The digits without zeros at the end. -/
def trimmed (d : Digits) : Digits :=
  let rest := (d.digits.tail.reverse.dropWhile (· == '0')).reverse
  { d with digits := d.digits.take 1 ++ rest }

end Digits

/-- The quotient is at least this power of ten. -/
def reaches (n d : Nat) (power : Int) : Bool :=
  if 0 ≤ power then d * powerOfTen power.toNat ≤ n else d ≤ n * powerOfTen (-power).toNat

/-- The exponent of the first digit of a quotient other than zero. The lengths of its parts leave a
choice between three exponents. -/
def leadingPower (n d : Nat) : Int :=
  let guess := ((n.log2 : Int) - d.log2) * 30103 / 100000
  if reaches n d (guess + 1) then guess + 1
  else if reaches n d guess then guess
  else guess - 1

/-- A quotient times a power of ten, as a quotient. -/
def shift (n d : Nat) (places : Int) : Nat × Nat :=
  if 0 ≤ places then (n * powerOfTen places.toNat, d) else (n, d * powerOfTen (-places).toNat)

/-- So many significant digits of a quotient, rounded to the nearest. -/
def significant (count n d : Nat) : Digits :=
  if n = 0 then ⟨List.replicate count '0', 0⟩
  else
    let places := (count : Int) - 1 - leadingPower n d
    let (m, unit) := shift n d places
    let rounded := Digits.ofScaled (nearest m unit) places
    { rounded with digits := rounded.digits.take count }

/-- A quotient without the decimals behind so many places, counted in units of the last place. -/
def atPlaces (places n d : Nat) : Nat :=
  nearest (n * powerOfTen places) d

/-- The two neighbours of a quotient among the whole numbers, the nearer one first. -/
def neighbours (n d : Nat) : List Nat :=
  let low := n / d
  if nearest n d = low then [low, low + 1] else [low + 1, low]

/-- The decimal with so many digits that is read back as the number, and of two the nearer one. -/
def readable? (mantissa : Nat) (exponent : Int) (count : Nat) : Option Digits :=
  let (n, d) := ratio mantissa exponent
  let places := (count : Int) - 1 - leadingPower n d
  let (m, unit) := shift n d places
  let readBack (c : Nat) : Bool :=
    ofDecimal false c (-places) == .finite false mantissa exponent
  ((neighbours m unit).find? readBack).map fun c => (Digits.ofScaled c places).trimmed

/-- The fewest digits that are read back as the number; seventeen are always enough. -/
def shortest (mantissa : Nat) (exponent : Int) : Digits :=
  if mantissa = 0 then .ofZero
  else
    let (n, d) := ratio mantissa exponent
    ((List.range' 1 16).findSome? (readable? mantissa exponent)).getD (significant 17 n d).trimmed

end Marginalia.Binary64
