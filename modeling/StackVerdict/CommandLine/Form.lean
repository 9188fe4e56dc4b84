import StackVerdict.CommandLine.Refusal
import StackVerdict.CommandLine.Vocabulary
import StackVerdict.Text.Cut
import StackVerdict.Text.Numeral
import StackVerdict.Verdict.Draft

/-!
# Forms

The words after a subcommand fill in a form: a label and the values of the options.  The options
that list stacks may be given again and go on where they stopped; all others are filled in once.  A
form with everything that its subcommand needs is a command.
-/

namespace StackVerdict.CommandLine

/-- The label and the values of the options given so far. -/
structure Form where
  label : Option String := none
  /-- How many values the instruction needs. -/
  needed : Option Nat := none
  /-- The type that the instruction needs. -/
  expected : Option String := none
  /-- The slot with a wrong type. -/
  index : Option Nat := none
  /-- The names of the slots of the stack. -/
  stack : List String := []
  /-- The names of the slots of the stack at a destination. -/
  destination : List String := []
  deriving DecidableEq

/-- What a command line asks to explain. -/
structure Command where
  label : String
  draft : Draft
  deriving DecidableEq

namespace Form

/-- Fills in a place that may be filled in once. -/
def fill {α : Type} (place : Option α) (value : Except Refusal α) : Except Refusal (Option α) :=
  match place with
  | some _ => .error .conflict
  | none => value.map some

/-- The number that a value writes. -/
def readCount (value : String) : Except Refusal Nat :=
  match Text.readCount? value with
  | some n => .ok n
  | none => .error .invalidCount

/-- The form with the value of an option of subcommand `c` filled in. -/
def set (c : Subcommand) (f : Form) (o : Opt) (value : String) : Except Refusal Form :=
  match o with
  | .expected =>
      match c with
      | .typeMismatch => (fill f.expected (.ok value)).map fun v => { f with expected := v }
      | _ => (fill f.needed (readCount value)).map fun v => { f with needed := v }
  | .index => (fill f.index (readCount value)).map fun v => { f with index := v }
  | .stack => .ok { f with stack := f.stack ++ Text.cut ',' value }
  | .destination => .ok { f with destination := f.destination ++ Text.cut ',' value }

/-- The failed check that a form describes, if nothing is missing. -/
def draft? (c : Subcommand) (f : Form) : Option Draft :=
  match c with
  | .underflow => f.needed.map fun n => .underflow n (.ofNames f.stack)
  | .typeMismatch =>
      match f.expected, f.index, f.stack with
      | some expected, some index, name :: names =>
          some (.checkedMismatch expected (.ofNames (name :: names)) index)
      | _, _, _ => none
  | .stackMismatch => some (.stackMismatch (.ofNames f.stack) (.ofNames f.destination))
  | .stackSize => f.needed.map fun n => .sizeFailure n (.ofNames f.stack)

/-- The command that a form describes, if nothing is missing. -/
def command (c : Subcommand) (f : Form) : Except Refusal Command :=
  match f.label, f.draft? c with
  | some label, some draft => .ok { label, draft }
  | _, _ => .error .missingArgument

end Form

end StackVerdict.CommandLine
