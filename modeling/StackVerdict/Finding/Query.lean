import StackVerdict.Emission
import StackVerdict.Finding.Dump

/-!
# Questions about findings

Everything that can be asked about a finding, and the answers.
-/

namespace StackVerdict

namespace Finding

/-- What can be asked about a finding. -/
inductive Query where
  | message
  | verdict
  | snapshots
  | instructions
  | hasSnapshots
  | brief
  | full
  | dump
  | dumpTail (count : Nat)
  | notes
  | diagnostic
  | emission (appearance : Appearance)
  | plainEmission
  deriving DecidableEq

inductive Answer where
  | text (s : String)
  | texts (l : List String)
  | verdict (v : Option Verdict)
  | snapshots (l : List Snapshot)
  | truth (b : Bool)
  | diagnostic (d : Diagnostic)
  deriving DecidableEq

/-- The last pieces of the dump cut at its line feeds, or all if there are fewer. -/
def dumpTail (f : Finding) (count : Nat) : Except Misuse (List String) := do
  let pieces := Text.cut '\n' (← f.dump)
  return pieces.drop (pieces.length - count)

def answer (f : Finding) : Query → Except Misuse Answer
  | .message => .ok (.text f.message)
  | .verdict => .ok (.verdict f.verdict)
  | .snapshots => .ok (.snapshots f.snapshots)
  | .instructions => .ok (.texts f.instructions)
  | .hasSnapshots => .ok (.truth f.hasSnapshots)
  | .brief => .ok (.text f.brief)
  | .full => .ok (.text f.full)
  | .dump => f.dump.map .text
  | .dumpTail count => (f.dumpTail count).map .texts
  | .notes => f.notes.map .texts
  | .diagnostic => f.diagnostic.map .diagnostic
  | .emission a => (f.emit a).map .text
  | .plainEmission => f.emitPlain.map .text

end Finding

end StackVerdict
