import Marginalia.Text.Alphanumeric
import Marginalia.Text.Quoted

/-!
# The command line

The arguments of the program: the directory to watch, which may be missing, and the request for
help. An argument that begins with a hyphen is an option unless it is a lone hyphen, a negative
number or holds a space; two hyphens end the options. `parse` reads the arguments from left to
right, and a request for help ends the reading.
-/

namespace Marginalia.CommandLine

/-- What the arguments ask for. -/
inductive Request
  /-- Watch a directory. -/
  | watch (path : String)
  /-- Show the help. -/
  | help
  /-- Refuse the arguments. -/
  | refuse (reason : String)
  deriving DecidableEq, Repr

/-- How the program is called. -/
def usage : String :=
  "usage: aiwatch [-h] [path]\n"

/-- The help. -/
def helpText : String :=
  usage ++ "\nWatch a directory for AI comments and print collected instructions on AI!\n" ++
  "\npositional arguments:\n  path        directory to watch\n" ++
  "\noptions:\n  -h, --help  show this help message and exit\n"

/-- What is said when the arguments are refused. -/
def refusalText (reason : String) : String :=
  usage ++ "aiwatch: error: " ++ reason ++ "\n"

/-! ## Single arguments -/

/-- What one argument is, before the two hyphens. -/
inductive Argument
  | positional
  /-- The request for help, with a value that nobody asked for. -/
  | help (value : Option String)
  | unknown
  deriving DecidableEq, Repr

/-- The text without the line feed that ends it. -/
def withoutLineEnd (cs : List Char) : List Char :=
  if cs.getLast? = some '\n' then cs.dropLast else cs

/-- Digits, or digits around a point that some digits follow, after a hyphen. A line may end
there. -/
def isNegativeNumber (cs : List Char) : Bool :=
  match withoutLineEnd cs with
  | '-' :: rest =>
    match rest.dropWhile Text.isDecimal with
    | [] => !rest.isEmpty
    | '.' :: more => !more.isEmpty && more.all Text.isDecimal
    | _ => false
  | _ => false

/-- The parts of an option around the first equals sign. -/
def splitValue (cs : List Char) : List Char × Option String :=
  match cs.dropWhile (· != '=') with
  | [] => (cs, none)
  | _ :: value => (cs.takeWhile (· != '='), some (String.ofList value))

/-- The request for help within a short option: `-h` itself, or with something behind it that is
not another request. -/
def shortHelp (behind : List Char) : Argument :=
  match behind.dropWhile (· == 'h') with
  | [] => .help none
  | rest => .help (some (String.ofList rest))

/-- What an argument is. -/
def classify (arg : String) : Argument :=
  let (name, value) := splitValue arg.toList
  match arg.toList with
  | '-' :: second :: _ =>
    if arg = "-h" || arg = "--help" then .help none
    else if name = "-h".toList then
      match value with
      | some v => if v = "" then .help (some "") else shortHelp v.toList
      | none => .help none
    else if second == '-' && name.isPrefixOf "--help".toList then .help value
    else if second == 'h' then shortHelp (arg.toList.drop 2)
    else if isNegativeNumber arg.toList || arg.toList.contains ' ' then .positional
    else .unknown
  | _ => .positional

/-! ## All arguments -/

/-- The arguments read so far: the path once one is given, whether it may still be given, and those
that nobody asked for. -/
structure Progress where
  path : Option String := none
  extras : List String := []

/-- Takes a positional argument: the first is the path. -/
def Progress.take (p : Progress) (arg : String) : Progress :=
  match p.path with
  | none => { p with path := some arg }
  | some _ => { p with extras := p.extras ++ [arg] }

/-- The request after all arguments. -/
def Progress.finish (p : Progress) (default : String) : Request :=
  if p.extras.isEmpty then .watch (p.path.getD default)
  else .refuse ("unrecognized arguments: " ++ " ".intercalate p.extras)

/-- Reads the arguments behind those that have been read. The two hyphens go with the path if it has
not been followed by an option, else they are as unwelcome as any other argument. -/
def parseFrom (default : String) (adjacent : Bool) (p : Progress) : List String → Request
  | [] => p.finish default
  | arg :: rest =>
    if arg = "--" then
      let p := if adjacent || p.path.isNone then p else { p with extras := p.extras ++ ["--"] }
      (rest.foldl Progress.take p).finish default
    else
      match classify arg with
      | .positional => parseFrom default p.path.isNone (p.take arg) rest
      | .unknown => parseFrom default false { p with extras := p.extras ++ [arg] } rest
      | .help none => .help
      | .help (some value) =>
        .refuse ("argument -h/--help: ignored explicit argument " ++ Text.quoted value)

/-- Reads the arguments; without a path the default is watched. -/
def parse (default : String) (args : List String) : Request :=
  parseFrom default true {} args

end Marginalia.CommandLine
