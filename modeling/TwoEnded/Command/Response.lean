/-
TwoEnded.Command.Response — the command line from end to end.

## §1 Surroundings

A `Response` is what a call of the command leaves behind: an exit code and two
texts. A call does not stand alone. `Surroundings` are the parts of it that are
not the command's own: the parser that makes an `Invocation` of the arguments and
the setting for tracing, the files, interruptions, the terminal and the log.

## §2 A call

`prepare` settles everything that needs no machine, and otherwise makes the
machine to be run; `conclude` answers when the run has ended. `Surroundings.respond`
does both and runs the machine in between. The exit code is 0 after a run that did
not fail, 130 after an interruption and 1 after any other fault; the parser answers
itself if there is nothing to run.

## §3 The command

`respond` is the call with the parser of `TwoEnded.Command.Arguments`, no
terminal, no interruptions and no log.
-/
import TwoEnded.Command.Arguments
import TwoEnded.Command.Folder
import TwoEnded.Run

namespace TwoEnded.Command

/-! ## §1 Surroundings -/

/-- What a call of the command leaves behind. -/
structure Response where
  code : Nat
  stdout : String
  stderr : String
  deriving DecidableEq, Repr

/-- What the command is called for: the path of a program, if one is given, and whether
to trace it. -/
structure Invocation where
  path : Option String
  trace : Bool
  deriving DecidableEq, Repr

/-- What the log is told. -/
inductive Record where
  /-- Interruptions will not be noticed, for this reason. -/
  | noHandler (reason : String)
  /-- The file at a path has been read. -/
  | sourceRead (path : String) (bytes : Nat)
  /-- A program of so many tokens and labels has been loaded. -/
  | loaded (tokens labels : Nat)
  /-- All that is told while the machine runs. -/
  | run (machine : Machine)
  | finished (outcome : Outcome)
  | failed (kind : FaultKind) (address : Option Nat)

/-- Whether the record is a warning. All others are for those who look for faults in the
command itself. -/
def Record.isWarning : Record → Bool
  | .noHandler _ => true
  | _ => false

/-- The parts of a call that are not the command's own. -/
structure Surroundings where
  /-- Makes an invocation of the arguments and the setting for tracing, or answers itself. -/
  parse : List String → Option String → Except Response Invocation
  /-- The text of the file at a path. -/
  read : String → Except ReadFault String
  /-- Why interruptions will not be noticed, if that is so. -/
  handlerFault : Option String
  /-- Whether there has been an interruption when the run asks for the `i`-th time. -/
  interrupted : Nat → Bool
  /-- Whether standard error is a terminal. -/
  terminal : Bool
  /-- The text in bold letters. -/
  bold : String → String
  /-- What the log writes on standard error. -/
  log : Record → String

/-! ## §2 A call -/

/-- The exit code of a fault. -/
def faultCode (f : Fault) : Nat :=
  match f.kind with
  | .interrupted => 130
  | _ => 1

namespace Surroundings

variable (around : Surroundings)

/-- What is logged before a program is looked for. -/
def opening : String :=
  match around.handlerFault with
  | some reason => around.log (.noHandler reason)
  | none => ""

/-- The program at a path, and what is logged about it. -/
def load (path : String) : String × Except Fault Program :=
  match around.read path with
  | .error f => ("", .error (f.fault path))
  | .ok source =>
    let logged := around.log (.sourceRead path source.utf8ByteSize)
    match Program.ofSource source with
    | .ok program => (logged ++ around.log (.loaded program.size program.labels.size), .ok program)
    | .error fault => (logged, .error fault)

/-- What a failure writes on standard error. On a terminal it is in bold letters. -/
def report (fault : Fault) : String :=
  let text := "ERROR: " ++ fault.message
  around.log (.failed fault.kind fault.address) ++
    (if around.terminal then around.bold text else text) ++ "\n"

/-- The answer after a result, with what has been printed and logged before. -/
def conclude (stdout logged : String) : Except Fault Outcome → Response
  | .ok outcome => ⟨0, stdout, logged ++ around.log (.finished outcome)⟩
  | .error fault => ⟨faultCode fault, stdout, logged ++ around.report fault⟩

/-- The machine to be run and what has been logged before, or the answer if there is none to
run. `setting` is the environment's setting for tracing. -/
def prepare (arguments : List String) (setting : Option String) :
    Except Response (String × Machine) :=
  match around.parse arguments setting with
  | .error response => .error response
  | .ok ⟨none, _⟩ => .error ⟨1, "", "ERROR: no file path is provided\n"⟩
  | .ok ⟨some path, trace⟩ =>
    match around.load path with
    | (logged, .ok program) => .ok (around.opening ++ logged, Machine.start program trace)
    | (logged, .error fault) =>
      .error (around.conclude "" (around.opening ++ logged) (.error fault))

/-- The answer to a call of the command, if the run ends within so many slices. -/
def respond (slices : Nat) (arguments : List String) (setting : Option String) : Option Response :=
  match around.prepare arguments setting with
  | .error response => some response
  | .ok (logged, machine) =>
    match machine.run slices around.interrupted Writer.text "" with
    | none => none
    | some run =>
      some (around.conclude run.output (logged ++ around.log (.run machine)) run.result)

end Surroundings

/-! ## §3 The command -/

/-- The line that tells the version. -/
def versionLine : String := "deque 0.1.0\n"

/-- The line that tells how the command is used. -/
def usageLine : String := "Usage: deque [--trace] [PATH]\n"

/-- Reads the arguments and the setting for tracing, or answers if there is nothing to run. The
exit code of arguments that are wrong is 2. -/
def parse (arguments : List String) (setting : Option String) : Except Response Invocation :=
  match Request.read arguments with
  | none => .error ⟨2, "", usageLine⟩
  | some .help => .error ⟨0, usageLine, ""⟩
  | some .version => .error ⟨0, versionLine, ""⟩
  | some (.run path trace) => .ok ⟨path, trace || isSwitchedOn setting⟩

/-- The text between the signs by which a terminal begins and ends bold letters. -/
def bold (text : String) : String := "\x1b[1m" ++ text ++ "\x1b[0m"

/-- A call with these files and nothing else around it. -/
def Surroundings.plain (read : String → Except ReadFault String) : Surroundings where
  parse := Command.parse
  read := read
  handlerFault := none
  interrupted _ := false
  terminal := false
  bold := Command.bold
  log _ := ""

/-- The answer to a call of the command with these files and nothing else around it. -/
def respond (slices : Nat) (arguments : List String) (setting : Option String)
    (read : String → Except ReadFault String) : Option Response :=
  (Surroundings.plain read).respond slices arguments setting

end TwoEnded.Command
