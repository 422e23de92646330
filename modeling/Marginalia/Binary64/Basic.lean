/-!
# Binary numbers of 64 bits

The numbers that a word of 64 bits holds: a whole number below `2 ^ 53` times a power of two that is
neither too small nor too large, with a sign that zero has as well, and besides them the two
infinities and one number that is none. `Binary64.ofRatio` rounds a quotient to the nearest of them,
and to the even one of two that are equally near. All of it is exact arithmetic on whole numbers.
-/

namespace Marginalia

/-- A binary number of 64 bits. -/
inductive Binary64
  /-- The mantissa times two to the power of the exponent, below zero when it is negative. -/
  | finite (negative : Bool) (mantissa : Nat) (exponent : Int)
  | infinite (negative : Bool)
  | notANumber
  deriving DecidableEq, Repr

namespace Binary64

/-! ## Rounding -/

/-- The whole number nearest to a quotient, and the even one of two that are equally near. -/
def nearest (n d : Nat) : Nat :=
  let q := n / d
  let r := n % d
  if 2 * r < d || (2 * r == d && q % 2 == 0) then q else q + 1

/-- A quotient divided by a power of two, as a quotient. -/
def unscale (n d : Nat) (exponent : Int) : Nat × Nat :=
  if 0 ≤ exponent then (n, d <<< exponent.toNat) else (n <<< (-exponent).toNat, d)

/-- No mantissa reaches this bound, which is `2 ^ 53`. -/
def mantissaBound : Nat := 0x20000000000000

/-- The least exponent. -/
def leastExponent : Int := -1074

/-- The greatest exponent. -/
def greatestExponent : Int := 971

/-- Zero. -/
def zero (negative : Bool) : Binary64 :=
  .finite negative 0 leastExponent

/-- The exponent of a quotient other than zero: the least one at which the mantissa stays below its
bound. The lengths of the two parts leave a choice between two exponents. -/
def exponentFor (n d : Nat) : Int :=
  let low : Int := (n.log2 : Int) - d.log2 - 53
  let (m, unit) := unscale n d low
  max leastExponent (if m / unit < mantissaBound then low else low + 1)

/-- The number nearest to a quotient. -/
def ofRatio (negative : Bool) (n d : Nat) : Binary64 :=
  if n = 0 then zero negative
  else
    let exponent := exponentFor n d
    let (m, unit) := unscale n d exponent
    let rounded := nearest m unit
    let (mantissa, exponent) :=
      if rounded < mantissaBound then (rounded, exponent) else (rounded / 2, exponent + 1)
    if exponent ≤ greatestExponent then .finite negative mantissa exponent else .infinite negative

/-- The number nearest to a whole number. -/
def ofInt (n : Int) : Binary64 :=
  ofRatio (n < 0) n.natAbs 1

/-- A power of ten. -/
def powerOfTen (n : Nat) : Nat :=
  Nat.pow 10 n

/-- The number nearest to some digits times a power of ten. A power far beyond those of the finite
numbers is not worked out. -/
def ofDecimal (negative : Bool) (digits : Nat) (exponent : Int) : Binary64 :=
  if digits = 0 then zero negative
  else if 0 ≤ exponent then
    if exponent ≤ 400 then ofRatio negative (digits * powerOfTen exponent.toNat) 1
    else .infinite negative
  else if (digits.log2 : Int) + 3 * exponent < -1200 then zero negative
  else ofRatio negative digits (powerOfTen (-exponent).toNat)

/-! ## Values -/

/-- The number is finite. -/
def isFinite : Binary64 → Bool
  | .finite .. => true
  | _ => false

/-- The size of a finite number as a quotient. -/
def ratio (mantissa : Nat) (exponent : Int) : Nat × Nat :=
  if 0 ≤ exponent then (mantissa <<< exponent.toNat, 1) else (mantissa, 1 <<< (-exponent).toNat)

/-- A whole number with a sign. -/
def signed (negative : Bool) (n : Nat) : Int :=
  if negative then -n else n

/-- The number without its fraction. -/
def truncated? : Binary64 → Option Int
  | .finite negative mantissa exponent =>
    let (n, d) := ratio mantissa exponent
    some (signed negative (n / d))
  | _ => none

/-- The whole number that the number is, if it is one. -/
def whole? : Binary64 → Option Int
  | .finite negative mantissa exponent =>
    let (n, d) := ratio mantissa exponent
    if n % d = 0 then some (signed negative (n / d)) else none
  | _ => none

/-- The greatest whole number that is not above the number. -/
def floor? : Binary64 → Option Int
  | .finite negative mantissa exponent =>
    let (n, d) := ratio mantissa exponent
    some (signed negative n / d)
  | _ => none

/-- The whole number nearest to a multiple of the number. -/
def nearestMultiple? (factor : Nat) : Binary64 → Option Int
  | .finite negative mantissa exponent =>
    let (n, d) := ratio mantissa exponent
    some (signed negative (nearest (n * factor) d))
  | _ => none

end Binary64

end Marginalia
