import Marginalia.Binary64.Basic

/-!
# JSON values

The values of JSON. A number keeps whether it was written as a whole number; the others are binary
numbers, among them the three that have names instead of digits.
-/

namespace Marginalia

/-- A JSON value. -/
inductive Json
  | null
  | bool (b : Bool)
  | whole (n : Int)
  | real (r : Binary64)
  | text (s : String)
  | list (items : List Json)
  | object (fields : List (String × Json))
  deriving Repr, Inhabited

end Marginalia
