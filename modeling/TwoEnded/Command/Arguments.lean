/-
TwoEnded.Command.Arguments — what the command line asks for.

    deque [--trace] [--help] [--version] [PATH]

Arguments are read from left to right, and the first one that is wrong, or that
asks for help or for the version, decides. An argument that starts with a hyphen is an
option, except the single hyphen, which is a path. After a double hyphen every
argument is a path.

Tracing can also be switched on by a setting of the environment, which
`isSwitchedOn` reads.
-/

namespace TwoEnded.Command

/-- What the command line asks for. -/
inductive Request where
  /-- To tell how the command is used. -/
  | help
  /-- To tell the version. -/
  | version
  /-- To run the program at a path, if one is given. -/
  | run (path : Option String) (trace : Bool)
  deriving DecidableEq, Repr

namespace Request

/-- Reads arguments that are all paths; `none` if one is empty or there are too many. -/
def readPaths (path : Option String) (trace : Bool) : List String → Option Request
  | [] => some (.run path trace)
  | argument :: rest =>
    if argument = "" || path.isSome then none else readPaths (some argument) trace rest

/-- Reads arguments, given the path and the tracing option found so far; `none` if they are
wrong. -/
def readFrom (path : Option String) (trace : Bool) : List String → Option Request
  | [] => some (.run path trace)
  | argument :: rest =>
    if argument = "--" then readPaths path trace rest
    else if argument = "--trace" then
      if trace then none else readFrom path true rest
    else if argument = "--help" then some .help
    else if argument = "--version" then some .version
    else
      match argument.toList with
      | '-' :: 'h' :: _ => some .help
      | '-' :: 'V' :: _ => some .version
      | '-' :: _ :: _ => none
      | _ => if argument = "" || path.isSome then none else readFrom (some argument) trace rest

/-- Reads the arguments of a command line; `none` if they are wrong. -/
def read (arguments : List String) : Option Request :=
  readFrom none false arguments

end Request

/-- The settings that mean no. -/
def offSettings : List String := ["", "n", "no", "f", "false", "off", "0"]

/-- Whether a setting of the environment means yes: it is there, and it is none of
the words for no in any mixture of cases. -/
def isSwitchedOn : Option String → Bool
  | none => false
  | some setting => !offSettings.contains (String.ofList (setting.toList.map Char.toLower))

end TwoEnded.Command
