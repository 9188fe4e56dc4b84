import StackVerdict.Snapshot

/-!
# Where two stacks part

Looking from the top, the first difference between two stacks: a slot that both have with different
types, or, when there is none, a difference of height.
-/

namespace StackVerdict

/-- The first difference between two stacks. -/
inductive Divergence where
  /-- The stacks are the same. -/
  | none
  /-- One stack goes on below the bottom of the other. -/
  | height
  /-- Both stacks have slot `index` and hold different types in it. -/
  | slot (index : Nat) (left right : TypeName)
  deriving DecidableEq

namespace Divergence

/-- The first difference between two lists of slots of which the first has number `index`. -/
def ofSlots (index : Nat) : List TypeName → List TypeName → Divergence
  | [], [] => none
  | a :: as, b :: bs => if a = b then ofSlots (index + 1) as bs else slot index a b
  | _, _ => height

def find (left right : Snapshot) : Divergence :=
  ofSlots 0 left.slots right.slots

end Divergence

end StackVerdict
