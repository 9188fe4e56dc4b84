/-!
# What can go wrong

An input can be invalid, and a caller can ask for something that makes no sense.  Each cause is a
constructor with the data it needs, and its wording is in one place.
-/

namespace StackVerdict

/-- Why an input is rejected. -/
inductive InputError where
  /-- A type has the empty text for its name. -/
  | emptyTypeName
  /-- A type mismatch points at a slot that its stack does not have. -/
  | slotOutOfBounds (index height : Nat)
  deriving DecidableEq

namespace InputError

def message : InputError → String
  | emptyTypeName => "type descriptor must have a non-empty display name"
  | slotOutOfBounds index height =>
    s!"slot {index} is out of bounds for stack of {height} value(s)"

end InputError

/-- Which contract a caller broke. -/
inductive Misuse where
  /-- A constant is to name a type and is empty. -/
  | emptyConstant
  /-- A slot is read that the stack does not have. -/
  | slotOutside (index height : Nat)
  /-- A success is to be explained as if it were a failure. -/
  | explainedSuccess (label : String)
  /-- A type mismatch at a slot that its stack does not have is to be explained. -/
  | explainedOutside (label : String) (index height : Nat)
  /-- A sentence about a success is asked for where successes have been turned away. -/
  | phrasedSuccess
  /-- Remarks are asked for about a success. -/
  | remarkedSuccess
  /-- A finding without stacks is to be dumped. -/
  | nothingToDump (message : String)
  deriving DecidableEq

namespace Misuse

def message : Misuse → String
  | emptyConstant => "type descriptor must have a non-empty display name"
  | slotOutside index height =>
    s!"index out of bounds: the len is {height} but the index is {index}"
  | explainedSuccess label =>
    s!"attempted to explain successful verification of `{label}`"
  | explainedOutside label index height =>
    s!"type mismatch for `{label}` refers to slot {index}, but captured stack holds only " ++
      s!"{height} value(s)"
  | phrasedSuccess =>
    "internal error: entered unreachable code: successful results are rejected on construction"
  | remarkedSuccess =>
    "internal error: entered unreachable code: successful results never produce verification errors"
  | nothingToDump text =>
    s!"verification error `{text}` has no captured stacks to dump"

end Misuse

/-- Why a request is not carried out. -/
inductive Fault where
  | input (cause : InputError)
  | misuse (cause : Misuse)
  | unbound (name : String)
  deriving DecidableEq

namespace Fault

def message : Fault → String
  | input cause => cause.message
  | misuse cause => cause.message
  | unbound name => s!"nothing is bound to `{name}`"

end Fault

/-- A result that may fail on an invalid input is one that may fail. -/
def liftInput {α : Type} (r : Except InputError α) : Except Fault α :=
  r.mapError .input

/-- A result that may fail on a broken contract is one that may fail. -/
def liftMisuse {α : Type} (r : Except Misuse α) : Except Fault α :=
  r.mapError .misuse

end StackVerdict
