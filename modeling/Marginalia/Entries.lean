/-!
# Lists of entries

Keys with their values, in the order in which the keys were entered. A key that is there keeps its
place when it gets another value, and has to be entered anew once it has been taken out.
-/

namespace Marginalia.Entries

variable {α β : Type} [DecidableEq α]

/-- Gives a key a value, in the place of the key or at the end. -/
def put (key : α) (value : β) : List (α × β) → List (α × β)
  | [] => [(key, value)]
  | e :: rest => if e.1 = key then (key, value) :: rest else e :: put key value rest

/-- Takes out a key. -/
def remove (key : α) (entries : List (α × β)) : List (α × β) :=
  entries.filter (·.1 ≠ key)

end Marginalia.Entries
