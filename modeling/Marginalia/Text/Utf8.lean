/-!
# UTF-8

Strict UTF-8, as octets. `encode` writes a text; `decode` reads one back, or names the first octets
that belong to no character: where they begin, how many there are, and what is wrong with them. The
faulty octets are the longest beginning of a character that the octets there could still be, or the
first of them alone.
-/

namespace Marginalia.Utf8

/-- What is wrong with octets that encode no character. -/
inductive Fault
  /-- No character begins with this octet. -/
  | start
  /-- The next octet does not continue the character. -/
  | continuation
  /-- The octets end within a character. -/
  | ending
  deriving DecidableEq, Repr

/-- The first octets of a text that encode no character. -/
structure Malformed where
  fault : Fault
  /-- How many octets precede them. -/
  position : Nat
  /-- How many they are. -/
  length : Nat
  /-- The first of them. -/
  octet : UInt8
  deriving DecidableEq, Repr

/-! ## Writing -/

/-- The octets of one character. -/
def encodeChar (c : Char) : List UInt8 :=
  let n := c.toNat
  if n < 0x80 then [n.toUInt8]
  else if n < 0x800 then [(0xc0 + n / 0x40).toUInt8, (0x80 + n % 0x40).toUInt8]
  else if n < 0x10000 then
    [(0xe0 + n / 0x1000).toUInt8, (0x80 + n / 0x40 % 0x40).toUInt8, (0x80 + n % 0x40).toUInt8]
  else
    [(0xf0 + n / 0x40000).toUInt8, (0x80 + n / 0x1000 % 0x40).toUInt8,
      (0x80 + n / 0x40 % 0x40).toUInt8, (0x80 + n % 0x40).toUInt8]

/-- The octets of a text. -/
def encode (cs : List Char) : List UInt8 :=
  cs.flatMap encodeChar

/-! ## Reading -/

/-- The reading of the octets at one place: a character and its length, or a fault and the number of
faulty octets. -/
inductive Step
  | char (c : Char) (length : Nat)
  | faulty (fault : Fault) (length : Nat)

/-- An octet that continues a character. -/
def isTail (b : UInt8) : Bool :=
  0x80 ≤ b && b ≤ 0xbf

/-- The range that the second octet of a character lies in, given the first: the bounds shut out
overlong forms, surrogates and code points that are too large. -/
def secondRange (b : UInt8) : UInt8 × UInt8 :=
  if b = 0xe0 then (0xa0, 0xbf)
  else if b = 0xed then (0x80, 0x9f)
  else if b = 0xf0 then (0x90, 0xbf)
  else if b = 0xf4 then (0x80, 0x8f)
  else (0x80, 0xbf)

/-- How many octets a character has that begins with this one, and the bits the first one adds. -/
def leadOf (b : UInt8) : Option (Nat × Nat) :=
  if b < 0x80 then some (1, b.toNat)
  else if 0xc2 ≤ b && b ≤ 0xdf then some (2, b.toNat - 0xc0)
  else if 0xe0 ≤ b && b ≤ 0xef then some (3, b.toNat - 0xe0)
  else if 0xf0 ≤ b && b ≤ 0xf4 then some (4, b.toNat - 0xf0)
  else none

/-- Reads the octets of a character after the first two: `left` are missing, `taken` have been read,
`bits` is their value. -/
def readTail : Nat → Nat → Nat → List UInt8 → Step
  | 0, taken, bits, _ => .char (Char.ofNat bits) taken
  | _ + 1, taken, _, [] => .faulty .ending taken
  | left + 1, taken, bits, b :: rest =>
    if isTail b then readTail left (taken + 1) (bits * 0x40 + (b.toNat - 0x80)) rest
    else .faulty .continuation taken

/-- Reads one character; the octets are the first one and those after it. -/
def readChar (b : UInt8) (rest : List UInt8) : Step :=
  match leadOf b with
  | none => .faulty .start 1
  | some (1, bits) => .char (Char.ofNat bits) 1
  | some (size, bits) =>
    match rest with
    | [] => .faulty .ending 1
    | second :: rest =>
      if (secondRange b).1 ≤ second && second ≤ (secondRange b).2 then
        readTail (size - 2) 2 (bits * 0x40 + (second.toNat - 0x80)) rest
      else .faulty .continuation 1

/-- Reads a text that begins at `position`. The first argument bounds the number of characters. -/
def decodeFrom : Nat → Nat → List UInt8 → Except Malformed (List Char)
  | 0, _, _ => .ok []
  | _ + 1, _, [] => .ok []
  | fuel + 1, position, b :: rest =>
    match readChar b rest with
    | .faulty fault length => .error ⟨fault, position, length, b⟩
    | .char c length => do
      let cs ← decodeFrom fuel (position + length) (rest.drop (length - 1))
      return c :: cs

/-- Reads a whole text. -/
def decode (octets : List UInt8) : Except Malformed (List Char) :=
  decodeFrom octets.length 0 octets

end Marginalia.Utf8
