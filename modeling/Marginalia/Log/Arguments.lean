import Marginalia.Json.Basic
import Marginalia.Template

/-!
# Texts with arguments

JSON values as the arguments of a text that has places for them.
-/

namespace Marginalia.Log

mutual

/-- A value as an argument. -/
def argument : Json → Template.Value
  | .null => .named "None" none
  | .bool true => .named "True" (some 1)
  | .bool false => .named "False" (some 0)
  | .whole n => .whole n
  | .real r => .real r
  | .text s => .text s
  | .list items => .named ("[" ++ ", ".intercalate (argumentTexts items) ++ "]") none
  | .object fields => .named ("\x7b" ++ ", ".intercalate (fieldTexts fields) ++ "\x7d") none

/-- Some values as they are shown within others. -/
def argumentTexts : List Json → List String
  | [] => []
  | v :: rest => (argument v).literal :: argumentTexts rest

/-- Some named values as they are shown within others. -/
def fieldTexts : List (String × Json) → List String
  | [] => []
  | (name, v) :: rest => (Text.quoted name ++ ": " ++ (argument v).literal) :: fieldTexts rest

end

/-- Some arguments between parentheses; a single one is followed by a comma. -/
def tupleText : List Template.Value → String
  | [v] => "(" ++ v.literal ++ ",)"
  | values => "(" ++ ", ".intercalate (values.map (·.literal)) ++ ")"

/-- A text with its arguments filled in; without arguments it stays as it is, and when the arguments
do not fit it there is none. -/
def textWith (template : String) (arguments : List Template.Value) : Option String :=
  if arguments.isEmpty then some template else Template.apply template arguments

end Marginalia.Log
