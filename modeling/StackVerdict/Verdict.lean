import StackVerdict.Snapshot

/-!
# Verdicts

The outcome of one check of the operand stack at one instruction.  A failed check keeps the stacks
it looked at and what the instruction asked of them.
-/

namespace StackVerdict

/-- The outcome of one check. -/
inductive Verdict where
  /-- The stack is as the instruction needs it. -/
  | success
  /-- The instruction takes more values than the stack holds. -/
  | underflow (needed : Nat) (stack : Snapshot)
  /-- Slot `index` of the stack does not hold a value of the type that the instruction needs. -/
  | typeMismatch (expected : TypeName) (stack : Snapshot) (index : Nat)
  /-- The stack at a branch does not fit the one recorded at its destination. -/
  | stackMismatch (branch destination : Snapshot)
  /-- The instruction needs a stack of another height. -/
  | sizeFailure (needed : Nat) (stack : Snapshot)
  deriving DecidableEq

namespace Verdict

inductive Kind where
  | success
  | underflow
  | typeMismatch
  | stackMismatch
  | sizeFailure
  deriving DecidableEq

def Kind.text : Kind → String
  | success => "success"
  | underflow => "stack underflow"
  | typeMismatch => "type mismatch"
  | stackMismatch => "stack mismatch"
  | sizeFailure => "stack size failure"

def kind : Verdict → Kind
  | success => .success
  | underflow .. => .underflow
  | typeMismatch .. => .typeMismatch
  | stackMismatch .. => .stackMismatch
  | sizeFailure .. => .sizeFailure

/-- The stacks that the check looked at; the one at a branch comes before the one at its
destination. -/
def snapshots : Verdict → List Snapshot
  | success => []
  | underflow _ stack => [stack]
  | typeMismatch _ stack _ => [stack]
  | stackMismatch branch destination => [branch, destination]
  | sizeFailure _ stack => [stack]

def isSuccess (v : Verdict) : Bool := v.kind == .success

/-- A failure as an error, with the failed check as its cause. -/
def toExcept : Verdict → Except Verdict Unit
  | success => .ok ()
  | v => .error v

/-- The type mismatch at slot `index`, which the stack must have. -/
def ofMismatch (expected : TypeName) (stack : Snapshot) (index : Nat) :
    Except InputError Verdict :=
  if index < stack.height then .ok (.typeMismatch expected stack index)
  else .error (.slotOutOfBounds index stack.height)

end Verdict

end StackVerdict
