import Marginalia.Pattern.Reader
import Marginalia.Template
import Marginalia.Text.Utf8

/-!
# Failures

What can go wrong in a file system, an observer or a callback of the host, with the text of each and
the name of its kind. A failure of the system is one that reading, listing or observing files is
expected to meet; the reader of files and the notifier take care of those and of no others.

Whoever takes care of a failure reports it, and a report needs words. A failure that cannot be put
into words brings forth another, which nobody takes care of; and a request to stop is taken care of
by nobody.
-/

namespace Marginalia

/-- The kind of a failure that comes from outside with a text of its own. -/
inductive Failure.Kind
  /-- Any failure of the operating system. -/
  | system
  | notFound
  | permission
  | isDirectory
  | timeout
  | runtime
  | value
  /-- A key that is not there; its text is the key. -/
  | key
  | memory
  | type
  deriving DecidableEq, Repr

/-- Something that went wrong. -/
inductive Failure
  /-- A failure of a kind, with its text. -/
  | plain (kind : Failure.Kind) (text : String)
  /-- A failure with a number, and the path that it is about. -/
  | numbered (kind : Failure.Kind) (number : Nat) (words path : String)
  /-- The octets of a file are no text. -/
  | malformed (m : Utf8.Malformed) (octets : List UInt8)
  /-- A pattern cannot be read. -/
  | pattern (e : Pattern.Error)
  /-- A failure, not one of the system, that cannot be put into words; what the attempt meets. -/
  | wordless (name : String) (why : Failure)
  /-- A request to stop, with its text. -/
  | interrupt (name text : String)
  deriving DecidableEq, Repr

namespace Failure

/-- The kinds of failure that the operating system has. -/
def Kind.isSystem : Kind → Bool
  | .system | .notFound | .permission | .isDirectory | .timeout => true
  | _ => false

/-- The name of a kind. -/
def Kind.name : Kind → String
  | .system => "OSError"
  | .notFound => "FileNotFoundError"
  | .permission => "PermissionError"
  | .isDirectory => "IsADirectoryError"
  | .timeout => "TimeoutError"
  | .runtime => "RuntimeError"
  | .value => "ValueError"
  | .key => "KeyError"
  | .memory => "MemoryError"
  | .type => "TypeError"

/-- The kind of a name. -/
def Kind.ofName? (name : String) : Option Kind :=
  [Kind.system, .notFound, .permission, .isDirectory, .timeout, .runtime, .value, .key, .memory,
    .type].find? (·.name = name)

/-- The failure is one of the operating system. -/
def isSystem : Failure → Bool
  | .plain kind _ | .numbered kind .. => kind.isSystem
  | _ => false

/-- The reader of files expects the failure: one of the system, or octets that are no text. -/
def isReadFailure : Failure → Bool
  | .malformed .. => true
  | f => f.isSystem

/-- Why octets are no text. -/
def reasonOf : Utf8.Fault → String
  | .start => "invalid start byte"
  | .continuation => "invalid continuation byte"
  | .ending => "unexpected end of data"

/-- What is wrong with malformed octets, in words. -/
def malformedText (m : Utf8.Malformed) : String :=
  let place :=
    if m.length = 1 then
      "byte 0x" ++ String.ofList (Text.hexDigits 2 m.octet.toNat) ++ " in position "
        ++ toString m.position
    else
      "bytes in position " ++ toString m.position ++ "-" ++ toString (m.position + m.length - 1)
  "'utf-8' codec can't decode " ++ place ++ ": " ++ reasonOf m.fault

/-- The failure in words, or what the attempt to put it into words meets. -/
def words : Failure → Except Failure String
  | .plain .key text => .ok (Text.quoted text)
  | .plain _ text | .interrupt _ text => .ok text
  | .numbered _ number words path =>
    .ok ("[Errno " ++ toString number ++ "] " ++ words ++ ": " ++ Text.quoted path)
  | .malformed m _ => .ok (malformedText m)
  | .pattern e => .ok e.message
  | .wordless _ why => .error why

/-- The words by which one who takes care of a failure reports it, or the failure that goes on in
its stead. A request to stop goes on itself. -/
def report : Failure → Except Failure String
  | .interrupt name text => .error (.interrupt name text)
  | f => f.words

/-- The failure as it is shown whatever happens. -/
def message (f : Failure) : String :=
  match f.words with
  | .ok text => text
  | .error _ => "<exception str() failed>"

/-- The name of the failure's kind. -/
def name : Failure → String
  | .plain kind _ | .numbered kind .. => kind.name
  | .malformed .. => "UnicodeDecodeError"
  | .pattern _ => "error"
  | .wordless name _ | .interrupt name _ => name

/-- What tells the failure from others: its name, and between parentheses what it is made of. -/
def literal (f : Failure) : String :=
  f.name ++ "(" ++ (match f with
    | .plain _ text | .interrupt _ text => Text.quoted text
    | .numbered _ number words _ => toString number ++ ", " ++ Text.quoted words
    | .malformed m octets =>
      ", ".intercalate ["'utf-8'", Text.quotedOctets octets, toString m.position,
        toString (m.position + m.length), Text.quoted (reasonOf m.fault)]
    | .pattern e => Text.quoted e.message
    | .wordless .. => "") ++ ")"

/-- The failure as a value in a text; nothing is known of the text of one without words. -/
def value : Failure → Template.Value
  | .wordless .. => .partly ""
  | f => .described f.message f.literal

/-! ## Failures of the file system -/

/-- There is nothing at the path. -/
def noSuchFile (path : String) : Failure :=
  numbered .notFound 2 "No such file or directory" path

/-- There is a directory at the path. -/
def isADirectory (path : String) : Failure :=
  numbered .isDirectory 21 "Is a directory" path

/-- The path may not be looked into. -/
def permissionDenied (path : String) : Failure :=
  numbered .permission 13 "Permission denied" path

end Failure

end Marginalia
