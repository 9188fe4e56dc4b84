import StackVerdict.Verdict

/-!
# Drafts of verdicts

A verdict as it comes in: the names of types are plain text, the slots of a stack stand in one of
several orders, and nothing has been checked.  Reading a draft checks the expected type first, then
the stacks in turn, then the slot, and stops at the first mistake.
-/

namespace StackVerdict

/-- How the slots of a stack were put down. -/
inductive Listing.Order where
  | topDown
  | bottomUp
  /-- As the values of a working stack. -/
  | captured
  /-- Gathered one after the other, the top first. -/
  | collected
  deriving DecidableEq

/-- A stack as it comes in. -/
structure Listing where
  order : Listing.Order
  /-- The names of the slots in that order. -/
  names : List String
  deriving DecidableEq

/-- The names as names of types; the first empty one is a mistake. -/
def readNames : List String → Except InputError (List TypeName) :=
  List.mapM TypeName.ofString

namespace Listing

/-- The stack with the given names, the top first. -/
def ofNames (names : List String) : Listing := ⟨.topDown, names⟩

def read (l : Listing) : Except InputError Snapshot := do
  let slots ← readNames l.names
  return match l.order with
    | .topDown => .ofTopDown slots
    | .bottomUp => .ofBottomUp slots
    | .captured => .capture ⟨slots.toArray⟩
    | .collected => .collect slots

end Listing

/-- A verdict as it comes in. -/
inductive Draft where
  | success
  | underflow (needed : Nat) (stack : Listing)
  /-- A type mismatch at a slot that may be outside the stack. -/
  | typeMismatch (expected : String) (stack : Listing) (index : Nat)
  /-- A type mismatch at a slot that must be inside the stack. -/
  | checkedMismatch (expected : String) (stack : Listing) (index : Nat)
  | stackMismatch (branch destination : Listing)
  | sizeFailure (needed : Nat) (stack : Listing)
  deriving DecidableEq

namespace Draft

def read : Draft → Except InputError Verdict
  | success => return .success
  | underflow needed stack => return .underflow needed (← stack.read)
  | typeMismatch expected stack index => do
      let expected ← TypeName.ofString expected
      return .typeMismatch expected (← stack.read) index
  | checkedMismatch expected stack index => do
      let expected ← TypeName.ofString expected
      Verdict.ofMismatch expected (← stack.read) index
  | stackMismatch branch destination => do
      let branch ← branch.read
      return .stackMismatch branch (← destination.read)
  | sizeFailure needed stack => return .sizeFailure needed (← stack.read)

end Draft

end StackVerdict
