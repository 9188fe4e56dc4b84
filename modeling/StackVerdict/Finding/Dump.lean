import StackVerdict.Finding.Exhibit

/-!
# The dump of a finding

Everything a finding holds, for the eyes of a developer: the message, a block for each stack, and a
numbered listing of the instructions.  A finding with no stacks has nothing to dump.
-/

namespace StackVerdict

namespace Finding

def instructionLine (i : Nat) (text : String) : String :=
  Text.column 5 i ++ ": " ++ text

/-- The listing of the instructions, if there are any. -/
def listing (f : Finding) : List String :=
  if f.instructions.isEmpty then []
  else "" :: "instructions:" :: f.instructions.mapIdx instructionLine

/-- The message, the stacks and the instructions, line by line. -/
def dumpLines (f : Finding) : List String :=
  f.message :: (f.exhibits.flatMap fun x => "" :: x.lines) ++ f.listing

/-- The dump of a finding that has a stack to show. -/
def dump (f : Finding) : Except Misuse String :=
  if f.hasSnapshots then .ok (Text.unlines f.dumpLines) else .error (.nothingToDump f.message)

/-- The finding in short: its message. -/
def brief (f : Finding) : String := f.message

/-- The finding at length: its dump where there is one, and its message otherwise. -/
def full (f : Finding) : String :=
  if f.hasSnapshots then Text.unlines f.dumpLines else f.brief

end Finding

end StackVerdict
