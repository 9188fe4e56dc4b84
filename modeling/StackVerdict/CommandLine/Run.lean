import StackVerdict.CommandLine.Reader
import StackVerdict.Emission
import StackVerdict.Finding.Dump
import StackVerdict.Finding.Event

/-!
# Running a command line

A command line that can be read is carried out: its failed check becomes a finding, which is shown
as its message, its dump or its diagnostic.  A name or slot that makes no sense is reported instead.
-/

namespace StackVerdict

/-- The report of a rejected input, with its cause where there is a deeper one. -/
def InputError.report (e : InputError) : String :=
  match e with
  | emptyTypeName => "Error: invalid type name\n\nCaused by:\n    " ++ e.message ++ "\n"
  | slotOutOfBounds _ _ => "Error: " ++ e.message ++ "\n"

namespace CommandLine

/-- How a run ends.  What was recorded on the way is no part of it: telling that is left to
`Invocation.perform`, which writes it in front of the report. -/
structure Outcome where
  exitCode : Nat
  stdout : String
  /-- The report of a failing run.  A run that succeeds has none. -/
  stderr : String
  deriving DecidableEq

/-- What comes of a command line. -/
inductive Answer where
  /-- The words could not be read, or ask for help. -/
  | refused (why : Refusal)
  | ran (outcome : Outcome)
  deriving DecidableEq

/-- A finding as the flags ask for it. -/
def present (flags : List Flag) (f : Finding) : Except Misuse String :=
  if .diagnostic ∈ flags then f.emit { color := .color ∈ flags }
  else if .dump ∈ flags then f.dump
  else .ok (f.brief ++ "\n")

/-- The finding that a command explains, with what was recorded on the way. -/
def Command.record (c : Command) : Except InputError (Except Misuse Finding × List Event) := do
  return Finding.record (.check c.label (← c.draft.read))

/-- How an invocation ends, whether or not it is asked to tell what was recorded. -/
def Invocation.run (i : Invocation) : Except Misuse Outcome :=
  match i.command.record with
  | .error e => .ok { exitCode := 1, stdout := "", stderr := e.report }
  | .ok (finding, _) => do
      let text ← present i.flags (← finding)
      return { exitCode := 0, stdout := text, stderr := "" }

def execute (words : List String) : Except Misuse Answer :=
  match Invocation.read words with
  | .error why => .ok (.refused why)
  | .ok i => return .ran (← i.run)

end CommandLine

end StackVerdict
