import StackVerdict.Finding.Exhibit
import StackVerdict.Verdict.Remark

/-!
# The diagnostic of a finding

A diagnostic is a message with notes: the remarks on the failed check, then one note for each stack.
It is not tied to a place in a source text.
-/

namespace StackVerdict

@[ext] structure Diagnostic where
  message : String
  notes : List String
  deriving DecidableEq

namespace Finding

/-- The remarks on the failed check; there are none about a message of the caller's own. -/
def remarks (f : Finding) : Except Misuse (List Remark) :=
  match f.verdict with
  | none => .ok []
  | some v => v.remarks

/-- The remarks and the stacks of a finding as notes. -/
def notes (f : Finding) : Except Misuse (List String) := do
  let remarks ← f.remarks
  return remarks.map Remark.text ++ f.exhibits.map Exhibit.note

def diagnostic (f : Finding) : Except Misuse Diagnostic := do
  return { message := f.message, notes := ← f.notes }

end Finding

end StackVerdict
