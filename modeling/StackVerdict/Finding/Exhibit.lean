import StackVerdict.Finding
import StackVerdict.Snapshot.Layout
import StackVerdict.Text.Blank

/-!
# Exhibits

The stacks of a finding under their headings.  The two stacks of a branch and its destination are
headed as such; a stack that stands alone needs no number; all others are numbered by their place.
-/

namespace StackVerdict

/-- What a stack is shown under. -/
inductive Heading where
  | branch
  | destination
  | sole
  /-- The stack at place `index` of several. -/
  | numbered (index : Nat)
  deriving DecidableEq

def Heading.text : Heading → String
  | branch => "stack at branch"
  | destination => "stack at destination"
  | sole => "stack"
  | numbered index => s!"stack #{index}"

/-- A stack under its heading. -/
structure Exhibit where
  heading : Heading
  stack : Snapshot
  deriving DecidableEq

namespace Exhibit

/-- The heading and the block of the stack, line by line. -/
def lines (x : Exhibit) : List String :=
  (x.heading.text ++ ":") :: x.stack.blockLines

/-- The heading and the block of the stack as a note, with no blanks at its end. -/
def note (x : Exhibit) : String :=
  x.heading.text ++ ":\n" ++ Text.trimEnd x.stack.block

end Exhibit

namespace Finding

/-- Whether the finding stems from two stacks that do not fit. -/
def isMismatch (f : Finding) : Bool :=
  f.verdict.map Verdict.kind == some .stackMismatch

def heading (f : Finding) (i : Nat) : Heading :=
  if f.isMismatch && i == 0 then .branch
  else if f.isMismatch && i == 1 then .destination
  else if f.snapshots.length == 1 then .sole
  else .numbered i

/-- The stacks of a finding under their headings. -/
def exhibits (f : Finding) : List Exhibit :=
  f.snapshots.mapIdx fun i s => { heading := f.heading i, stack := s }

theorem length_exhibits (f : Finding) : f.exhibits.length = f.snapshots.length := by
  simp [exhibits]

theorem map_stack_exhibits (f : Finding) : f.exhibits.map Exhibit.stack = f.snapshots := by
  apply List.ext_getElem <;> simp [exhibits]

end Finding

end StackVerdict
