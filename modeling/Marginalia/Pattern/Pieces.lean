import Marginalia.Pattern.Basic

/-!
# Sequences and alternatives

What the parts of a source come to when they stand one after the other or side by side. What all
alternatives begin with is taken out in front of them, and alternatives that are each a character or
a set make one set. Where case is folded this decides what is found: a letter beyond the basic plane
that is one of several members of a set stands for less than it does alone.
-/

namespace Marginalia.Pattern

/-! ## Sets -/

/-- The item as one among several. -/
def Item.amongOthers : Item → Item
  | .one c => if c.toNat < 0x10000 then .one c else .small c
  | item => item

/-- The items of a set; a single one may be written several times. -/
def setOf (items : List Item) : List Item :=
  if items.eraseDups.length ≤ 1 then items.eraseDups else items.map Item.amongOthers

/-! ## Pieces -/

/-- A piece of a sequence. -/
inductive Piece
  /-- A character, a set or a condition on the place. -/
  | simple (e : Expr)
  /-- A repetition, or a group that is more than what it holds. -/
  | compound (e : Expr)
  deriving DecidableEq, Repr

namespace Piece

/-- The expression of a piece. -/
def expr : Piece → Expr
  | .simple e | .compound e => e

/-- The piece can be told to be the same as another. -/
def isSimple : Piece → Bool
  | .simple _ => true
  | .compound _ => false

/-- The members of the set that the piece is, if it is one that names its members. -/
def members? : Piece → Option (List Item)
  | .simple (.oneOf false items) => some items
  | _ => none

/-- The expression of some pieces one after the other. -/
def sequence : List Piece → Expr
  | [] => .empty
  | [p] => p.expr
  | p :: rest => .seq p.expr (sequence rest)

end Piece

/-! ## Alternatives -/

/-- What all of some sequences begin with, and what is left of each. The first argument is one of
them, and the second the others. -/
def sharedStart : List Piece → List (List Piece) → List Piece × List (List Piece)
  | [], others => ([], [] :: others)
  | p :: first, others =>
    if p.isSimple && others.all (·.head? = some p) then
      let (start, left) := sharedStart first (others.map List.tail)
      (p :: start, left)
    else ([], (p :: first) :: others)

/-- The members of the set that some sequences make together, if each is a set. -/
def sharedSet? (sequences : List (List Piece)) : Option (List Item) :=
  (sequences.mapM members).map List.flatten
where
  /-- The members of a sequence that is a set. -/
  members : List Piece → Option (List Item)
    | [p] => p.members?
    | _ => none

/-- The pieces of some alternatives, the first of which is set apart. -/
def alternatives (first : List Piece) : List (List Piece) → List Piece
  | [] => first
  | others =>
    let (start, left) := sharedStart first others
    start ++ [match sharedSet? left, left.map Piece.sequence with
      | some items, _ => .simple (.oneOf false (setOf items))
      | none, e :: es => .compound (es.foldl .either e)
      | none, [] => .compound .empty]

end Marginalia.Pattern
