import TwoEnded.Side
import TwoEnded.Fault
import TwoEnded.Deque
import TwoEnded.Numeral
import TwoEnded.Value
import TwoEnded.Opcode
import TwoEnded.Text.Range
import TwoEnded.Text.Blank
import TwoEnded.Text.Unprintable
import TwoEnded.Text.Extending
import TwoEnded.Text.Split
import TwoEnded.Text.Quoted
import TwoEnded.Token
import TwoEnded.Source
import TwoEnded.Instruction
import TwoEnded.Program
import TwoEnded.Machine
import TwoEnded.Run
import TwoEnded.Command.Arguments
import TwoEnded.Command.Folder
import TwoEnded.Command.Response
import TwoEnded.Main
import TwoEnded.Proofs.Cycle
import TwoEnded.Proofs.Course
import TwoEnded.Proofs.Tracing
import TwoEnded.Proofs.Session
import TwoEnded.Proofs.Likeness
import TwoEnded.Proofs.Marks
import TwoEnded.Proofs.Mirror
import TwoEnded.Proofs.IntegerView
import TwoEnded.Proofs.Arithmetic
import TwoEnded.Proofs.Effects
import TwoEnded.Proofs.Reach
import TwoEnded.Proofs.Bounds
import TwoEnded.Proofs.Finality
import TwoEnded.Proofs.Slices
import TwoEnded.Proofs.Interruption
import TwoEnded.Proofs.NormalForm
import TwoEnded.Proofs.Sink
import TwoEnded.Proofs.Refusal
import TwoEnded.Proofs.Renaming
import TwoEnded.Proofs.Frame
import TwoEnded.Proofs.CappedList
import TwoEnded.Proofs.Decimal
import TwoEnded.Proofs.Ends
import TwoEnded.Proofs.Summation
import TwoEnded.Proofs.TraceText
import TwoEnded.Proofs.CommandLine
import TwoEnded.Proofs.Shifts
import TwoEnded.Proofs.LabelTable
import TwoEnded.Proofs.Operands
import TwoEnded.Proofs.Failures
import TwoEnded.Proofs.LineByLine
import TwoEnded.Proofs.Literals
import TwoEnded.Proofs.LabelJumps
import TwoEnded.Proofs.Independence
import TwoEnded.Proofs.RightShifts
import TwoEnded.Proofs.Countdown
import TwoEnded.Proofs.ForwardJumps
import TwoEnded.Proofs.Shuffling
