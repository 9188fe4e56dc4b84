import StackVerdict.CommandLine.Run

/-!
# The program

Explains a failed check of the operand stack that is given on the command line.
-/

namespace StackVerdict

namespace CommandLine

/-- How the program is called, in words of this library. -/
def usage : String :=
  Text.unlines
    ["Usage: explain [--trace] [--dump] [--diagnostic] [--color] SUBCOMMAND",
      "",
      "  underflow LABEL --expected N [--stack T,..]",
      "  type-mismatch LABEL --expected T --index I --stack T,..",
      "  stack-mismatch LABEL [--stack T,..] [--destination T,..]",
      "  stack-size LABEL --expected N [--stack T,..]",
      "",
      "Stacks are listed top first as comma-separated type names."]

/-- An event on a line of the error stream.  The format is this library's own and has no time stamp;
what an event consists of is `Event`. -/
def eventLine (e : Event) : String :=
  Event.level ++ " " ++ Event.target ++ ":" ++
    String.join (e.fields.map fun f => " " ++ f.1 ++ "=" ++ f.2)

/-- What was recorded while an invocation was carried out, if that is to be told.  No theorem is
about these lines, and the outcome does not depend on them. -/
def Invocation.traceLines (i : Invocation) : List String :=
  match i.command.record with
  | .ok (_, events) => if .trace ∈ i.flags then events.map eventLine else []
  | .error _ => []

/-- Carries out an invocation on the streams of the process. -/
def Invocation.perform (i : Invocation) : IO UInt32 := do
  IO.eprint (Text.unlines i.traceLines)
  match i.run with
  | .error misuse =>
      IO.eprintln misuse.message
      return 101
  | .ok outcome =>
      IO.print outcome.stdout
      IO.eprint outcome.stderr
      return outcome.exitCode.toUInt32

/-- Tells why a command line is refused. -/
def Refusal.perform (why : Refusal) : IO UInt32 := do
  if why = .help then IO.print usage
  else
    IO.eprintln s!"error: {why.message}\n"
    IO.eprint usage
  return why.exitCode.toUInt32

end CommandLine

end StackVerdict

def main (args : List String) : IO UInt32 :=
  match StackVerdict.CommandLine.Invocation.read args with
  | .error why => why.perform
  | .ok i => i.perform
