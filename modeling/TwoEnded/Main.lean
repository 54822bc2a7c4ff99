/-
TwoEnded.Main — the command.

Reads the environment and the source file and asks whether there is a terminal,
prints the lines of the run as they come and leaves with the exit code of the
response. What is printed and which code it is are settled in
`TwoEnded.Command.Response`.
-/
import TwoEnded.Command.Response

namespace TwoEnded.Command

/-- The operating system's number for an error, which some calls give negated. -/
def errorNumber (code : UInt32) : UInt32 := min code (0 - code)

/-- The bytes of the file at a path, as text. -/
def readFile (path : String) : IO (Except ReadFault String) := do
  try
    return decode (← IO.FS.readBinFile path)
  catch
    | .noFileOrDirectory .. => return .error .notFound
    | .inappropriateType _ code _ =>
      return .error (if errorNumber code = 21 then .isADirectory else .notADirectory)
    | error => return .error (.other (toString error))

/-- Prints the lines of a run as they come. -/
partial def drive (out : IO.FS.Stream) (machine : Machine) : IO (Except Fault Outcome) := do
  match machine.slice false with
  | (.running, machine) => drive out machine
  | (.line text, machine) =>
    try
      out.putStr (text ++ "\n")
      out.flush
    catch error => return .error (machine.outputFault (toString error))
    drive out machine
  | (.exit, _) => return .ok .exit
  | (.stopped, _) => return .ok .ended
  | (.failed fault, _) => return .error fault

/-- Prints a response and gives its exit code. -/
def leave (response : Response) : IO UInt32 := do
  (← IO.getStdout).putStr response.stdout
  (← IO.getStderr).putStr response.stderr
  return response.code.toUInt32

/-- The source file that an invocation names. -/
def readNamed : Except Response Invocation → IO (Except ReadFault String)
  | .ok ⟨some path, _⟩ => readFile path
  | _ => return .error .notFound

end TwoEnded.Command

open TwoEnded TwoEnded.Command in
/-- The command `deque`. -/
def main (arguments : List String) : IO UInt32 := do
  let setting ← IO.getEnv "DEQUE_TRACE"
  let source ← readNamed (parse arguments setting)
  let terminal ← (← IO.getStderr).isTty
  let around := { Surroundings.plain (fun _ => source) with terminal := terminal }
  match around.prepare arguments setting with
  | .error response => leave response
  | .ok (logged, machine) =>
    let result ← drive (← IO.getStdout) machine
    leave (around.conclude "" (logged ++ around.log (.run machine)) result)
