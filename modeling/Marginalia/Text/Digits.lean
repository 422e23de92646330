/-!
# Decimal digits

Whole numbers from their digits and back.
-/

namespace Marginalia.Text

/-- The number that some decimal digits say. -/
def ofDigits (ds : List Char) : Nat :=
  ds.foldl (fun n c => n * 10 + (c.toNat - '0'.toNat)) 0

/-- A number with more digits than this is not read. -/
def mostDigits : Nat := 4300

/-- A number with zeros in front, so that it has at least so many digits. -/
def padded (width : Nat) (n : Nat) : String :=
  let digits := toString n
  String.ofList (List.replicate (width - digits.length) '0') ++ digits

end Marginalia.Text
